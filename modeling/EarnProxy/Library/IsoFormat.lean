import Mathlib.Algebra.Group.Nat.Defs
import Mathlib.Data.List.Lex
import Mathlib.Order.Lattice

/-!
# `datetime.isoformat` in UTC

The text of an instant has its fields in fixed widths, and six more digits when the microseconds are
not zero. Such texts sort the way their instants do.
-/

namespace IsoFormat

/-! ## The calendar -/

def isLeap (year : Nat) : Prop := year % 4 = 0 ∧ (year % 100 ≠ 0 ∨ year % 400 = 0)

instance (year : Nat) : Decidable (isLeap year) := inferInstanceAs (Decidable (_ ∧ _))

def daysInMonth (year month : Nat) : Nat :=
  if month = 2 then if isLeap year then 29 else 28
  else if month = 4 ∨ month = 6 ∨ month = 9 ∨ month = 11 then 30
  else 31

theorem daysInMonth_pos (year month : Nat) : 0 < daysInMonth year month := by
  unfold daysInMonth
  split_ifs <;> omega

theorem daysInMonth_le (year month : Nat) : daysInMonth year month ≤ 31 := by
  unfold daysInMonth
  split_ifs <;> omega

structure Date where
  year : Nat
  month : Nat
  day : Nat
  month_le : month ≤ 12
  day_le : day ≤ daysInMonth year month

namespace Date

def next (d : Date) : Date :=
  if h : d.day < daysInMonth d.year d.month then ⟨d.year, d.month, d.day + 1, d.month_le, h⟩
  else if h : d.month < 12 then ⟨d.year, d.month + 1, 1, h, daysInMonth_pos _ _⟩
  else ⟨d.year + 1, 1, 1, by omega, daysInMonth_pos _ _⟩

/-- The date that many days after `date.min`. -/
def ofDays : Nat → Date
  | 0 => ⟨1, 1, 1, by omega, daysInMonth_pos _ _⟩
  | days + 1 => (ofDays days).next

/-- The dates compare by year, month and day. -/
def Lt (d d' : Date) : Prop :=
  d.year < d'.year ∨ d.year = d'.year ∧
    (d.month < d'.month ∨ d.month = d'.month ∧ d.day < d'.day)

theorem lt_next (d : Date) : d.Lt d.next := by
  unfold next Lt
  split_ifs <;> simp

theorem Lt.trans {d d' d'' : Date} (h : d.Lt d') (h' : d'.Lt d'') : d.Lt d'' := by
  unfold Lt at *
  omega

theorem ofDays_lt {days days' : Nat} (h : days < days') : (ofDays days).Lt (ofDays days') := by
  induction h with
  | refl => exact (ofDays days).lt_next
  | @step n h ih => exact ih.trans (ofDays n).lt_next

theorem ofDays_year_le {days days' : Nat} (h : days ≤ days') :
    (ofDays days).year ≤ (ofDays days').year := by
  rcases Nat.lt_or_eq_of_le h with h | rfl
  · have hlt := ofDays_lt h
    unfold Lt at hlt
    omega
  · exact Nat.le_refl _

end Date

/-! ## Digits -/

/-- The last `width` decimal digits of a number. -/
def padded : Nat → Nat → List Char
  | 0, _ => []
  | width + 1, n => padded width (n / 10) ++ [Nat.digitChar (n % 10)]

@[simp] theorem length_padded (width n : Nat) : (padded width n).length = width := by
  induction width generalizing n with
  | zero => rfl
  | succ width ih => simp [padded, ih]

theorem append_lt_append {xs ys : List Char} (hlength : xs.length = ys.length) (h : xs < ys)
    (us vs : List Char) : xs ++ us < ys ++ vs := by
  induction xs generalizing ys with
  | nil =>
    have hnil : ys = [] := List.length_eq_zero_iff.mp hlength.symm
    subst hnil
    exact absurd h (List.lt_irrefl [])
  | cons x xs ih =>
    cases ys with
    | nil => cases hlength
    | cons y ys =>
      rw [List.cons_append, List.cons_append, List.cons_lt_cons_iff]
      rcases List.cons_lt_cons_iff.mp h with hlt | ⟨heq, hlt⟩
      · exact .inl hlt
      · exact .inr ⟨heq, ih (Nat.succ.inj hlength) hlt⟩

theorem append_lt_append_same (xs : List Char) {us vs : List Char} (h : us < vs) :
    xs ++ us < xs ++ vs := by
  induction xs with
  | nil => exact h
  | cons x xs ih => exact List.cons_lt_cons_iff.mpr (.inr ⟨rfl, ih⟩)

theorem digitChar_lt {m n : Nat} (h : m < n) (hn : n < 10) : Nat.digitChar m < Nat.digitChar n := by
  have hall : ∀ n : Fin 10, ∀ m : Fin 10, m < n → Nat.digitChar m < Nat.digitChar n := by decide
  exact hall ⟨n, hn⟩ ⟨m, by omega⟩ h

theorem padded_lt {width m n : Nat} (h : m < n) (hn : n < 10 ^ width) :
    padded width m < padded width n := by
  induction width generalizing m n with
  | zero =>
    simp at hn
    omega
  | succ width ih =>
    have hhigh : n / 10 < 10 ^ width := by
      apply Nat.div_lt_of_lt_mul
      rwa [← Nat.pow_succ']
    rcases Nat.lt_or_eq_of_le (Nat.div_le_div_right (c := 10) (Nat.le_of_lt h)) with hlt | heq
    · exact append_lt_append (by simp) (ih hlt hhigh) _ _
    · have hlast := digitChar_lt (m := m % 10) (n := n % 10) (by omega) (by omega)
      rw [padded, padded, heq]
      exact append_lt_append_same _ (List.cons_lt_cons_iff.mpr (.inl hlast))

/-! ## The text -/

def dateText (d : Date) : List Char :=
  padded 4 d.year ++ '-' :: (padded 2 d.month ++ '-' :: padded 2 d.day)

/-- The time of day, in seconds. -/
def timeText (second : Nat) : List Char :=
  padded 2 (second / 3600) ++ ':' :: (padded 2 (second / 60 % 60) ++ ':' :: padded 2 (second % 60))

/-- The microseconds, which are left out when they are zero, and the offset of UTC. -/
def endText (micros : Nat) : List Char :=
  if micros = 0 then "+00:00".toList else '.' :: (padded 6 micros ++ "+00:00".toList)

theorem dateText_lt {d d' : Date} (h : d.Lt d') (hyear : d'.year ≤ 9999) :
    dateText d < dateText d' := by
  have hday := (d'.day_le.trans (daysInMonth_le _ _))
  have hmonth := d'.month_le
  rcases h with hlt | ⟨heq, hlt | ⟨heq', hlt⟩⟩
  · exact append_lt_append (by simp) (padded_lt hlt (by omega)) _ _
  · rw [dateText, dateText, heq]
    apply append_lt_append_same
    apply List.cons_lt_cons_iff.mpr
    exact .inr ⟨rfl, append_lt_append (by simp) (padded_lt hlt (by omega)) _ _⟩
  · rw [dateText, dateText, heq, heq']
    apply append_lt_append_same
    apply List.cons_lt_cons_iff.mpr
    refine .inr ⟨rfl, append_lt_append_same _ ?_⟩
    exact List.cons_lt_cons_iff.mpr (.inr ⟨rfl, padded_lt hlt (by omega)⟩)

theorem timeText_lt {second second' : Nat} (h : second < second') (hday : second' < 86400) :
    timeText second < timeText second' := by
  rcases Nat.lt_or_eq_of_le (Nat.div_le_div_right (c := 3600) (Nat.le_of_lt h)) with hlt | heq
  · exact append_lt_append (by simp) (padded_lt hlt (by omega)) _ _
  rw [timeText, timeText, heq]
  apply append_lt_append_same
  apply List.cons_lt_cons_iff.mpr
  refine .inr ⟨rfl, ?_⟩
  rcases Nat.lt_or_eq_of_le (show second / 60 % 60 ≤ second' / 60 % 60 by omega) with hlt | heq'
  · exact append_lt_append (by simp) (padded_lt hlt (by omega)) _ _
  rw [heq']
  apply append_lt_append_same
  exact List.cons_lt_cons_iff.mpr (.inr ⟨rfl, padded_lt (by omega) (by omega)⟩)

/-- A text without microseconds comes first, since a plus sign comes before a point. -/
theorem endText_lt {micros micros' : Nat} (h : micros < micros') (hsecond : micros' < 1000000) :
    endText micros < endText micros' := by
  unfold endText
  rw [if_neg (show micros' ≠ 0 by omega)]
  split
  · exact List.cons_lt_cons_iff.mpr (.inl (by decide))
  · apply List.cons_lt_cons_iff.mpr
    exact .inr ⟨rfl, append_lt_append (by simp) (padded_lt h (by omega)) _ _⟩

/-- A `datetime` in UTC, in microseconds since `datetime.min`. -/
structure DateTime where
  micros : Nat
  year_le : (Date.ofDays (micros / 86400000000)).year ≤ 9999

namespace DateTime

theorem micros_injective : Function.Injective micros := by
  rintro ⟨m, hm⟩ ⟨n, hn⟩ (rfl : m = n)
  rfl

/-- Instants compare in time. -/
instance : LinearOrder DateTime := LinearOrder.lift' micros micros_injective

theorem lt_iff {t t' : DateTime} : t < t' ↔ t.micros < t'.micros := Iff.rfl

theorem le_iff {t t' : DateTime} : t ≤ t' ↔ t.micros ≤ t'.micros := Iff.rfl

def date (t : DateTime) : Date := Date.ofDays (t.micros / 86400000000)

/-- An earlier instant has a date as well. -/
def earlier (t : DateTime) (micros : Nat) (h : micros ≤ t.micros) : DateTime :=
  ⟨micros, (Date.ofDays_year_le (Nat.div_le_div_right h)).trans t.year_le⟩

/-- `t - timedelta(microseconds=delta)`, with `none` for an `OverflowError`. -/
def sub (t : DateTime) (delta : Nat) : Option DateTime :=
  if delta ≤ t.micros then some (t.earlier (t.micros - delta) (Nat.sub_le _ _)) else none

def chars (t : DateTime) : List Char :=
  dateText t.date ++ 'T' ::
    (timeText (t.micros / 1000000 % 86400) ++ endText (t.micros % 1000000))

def isoformat (t : DateTime) : String := String.ofList t.chars

theorem chars_lt {t t' : DateTime} (h : t.micros < t'.micros) : t.chars < t'.chars := by
  have hdays : t.micros / 86400000000 ≤ t'.micros / 86400000000 :=
    Nat.div_le_div_right (Nat.le_of_lt h)
  rcases Nat.lt_or_eq_of_le hdays with hlt | heq
  · exact append_lt_append (by simp [dateText]) (dateText_lt (Date.ofDays_lt hlt) t'.year_le) _ _
  have hdate : t.date = t'.date := by
    unfold date
    rw [heq]
  rw [chars, chars, hdate]
  apply append_lt_append_same
  apply List.cons_lt_cons_iff.mpr
  refine .inr ⟨rfl, ?_⟩
  have hseconds : t.micros / 1000000 % 86400 ≤ t'.micros / 1000000 % 86400 := by omega
  rcases Nat.lt_or_eq_of_le hseconds with hlt | heq'
  · exact append_lt_append (by simp [timeText]) (timeText_lt hlt (Nat.mod_lt _ (by omega))) _ _
  rw [heq']
  exact append_lt_append_same _ (endText_lt (by omega) (Nat.mod_lt _ (by omega)))

end DateTime

/-- `a <= b` for two texts. -/
def TextLe (a b : String) : Prop := ¬ b.toList < a.toList

instance (a b : String) : Decidable (TextLe a b) := inferInstanceAs (Decidable (¬ _))

/-- Stored timestamps compare as their instants. -/
theorem isoformat_le_iff (t t' : DateTime) :
    TextLe t.isoformat t'.isoformat ↔ t.micros ≤ t'.micros := by
  unfold TextLe DateTime.isoformat
  rw [String.toList_ofList, String.toList_ofList]
  constructor
  · intro hle
    by_contra hlt
    exact hle (DateTime.chars_lt (by omega))
  · intro hle hlt
    rcases Nat.lt_or_eq_of_le hle with hlt' | heq
    · exact List.lt_asymm hlt (DateTime.chars_lt hlt')
    · have hsame : t.chars = t'.chars := by
        unfold DateTime.chars DateTime.date
        rw [heq]
      rw [hsame] at hlt
      exact List.lt_irrefl _ hlt

end IsoFormat

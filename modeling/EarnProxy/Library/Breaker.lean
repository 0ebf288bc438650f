import Mathlib.Order.Lattice

/-!
# Circuit breakers

A breaker counts the failures of each key. The key is shut out from its `threshold`-th failure on,
until `cooldown` after the last one; a success clears the key, and so does the first look at the
breaker after that time. The events come in the order in which the breaker takes them, newest first,
and their times need not.
-/

namespace Breaker

inductive Event (κ T : Type*) where
  | fail (key : κ) (now : T)
  | succeed (key : κ)
  | look (now : T)
  deriving DecidableEq, Repr

/-- The failures that are counted for a key, and until when it is shut out. -/
structure Entry (T : Type*) where
  failures : Nat
  openUntil : Option T
  deriving DecidableEq, Repr

variable {κ T : Type*} [DecidableEq κ] [LinearOrder T] [Add T]

section State

variable (threshold : Nat) (cooldown : T)

def Entry.expired (now : T) (entry : Entry T) : Bool :=
  entry.openUntil.any fun deadline => deadline ≤ now

def Entry.fail (now : T) (entry : Entry T) : Entry T where
  failures := entry.failures + 1
  openUntil := if threshold ≤ entry.failures + 1 then some (now + cooldown) else none

/-- The entry of one key after the events. -/
def entry (key : κ) : List (Event κ T) → Option (Entry T)
  | [] => none
  | .fail k now :: h =>
    if k = key then some (((entry key h).getD ⟨0, none⟩).fail threshold cooldown now)
    else entry key h
  | .succeed k :: h => if k = key then none else entry key h
  | .look now :: h => (entry key h).filter fun e => !e.expired now

/-- The key is shut out at `now`. -/
def IsOpen (h : List (Event κ T)) (key : κ) (now : T) : Prop :=
  ∃ e ∈ entry threshold cooldown key h, ∃ deadline ∈ e.openUntil, now < deadline

instance (h : List (Event κ T)) (key : κ) (now : T) :
    Decidable (IsOpen threshold cooldown h key now) :=
  inferInstanceAs (Decidable (∃ e ∈ entry threshold cooldown key h, _))

end State

/-- The failures of a key since its last success, newest first. -/
def failures (key : κ) : List (Event κ T) → List T
  | [] => []
  | .fail k now :: h => if k = key then now :: failures key h else failures key h
  | .succeed k :: h => if k = key then [] else failures key h
  | .look _ :: h => failures key h

/-- Every look at the breaker came less than `cooldown` after each of the times. -/
def Watched (cooldown : T) (times : List T) (h : List (Event κ T)) : Prop :=
  ∀ now, Event.look now ∈ h → ∀ t ∈ times, now < t + cooldown

variable {threshold : Nat} {cooldown : T} {key : κ}

/-- What the entry counts: a first part of the failures since the last success, and it shuts the key
out from the last of them on when there are enough. -/
theorem entry_counts (threshold : Nat) (cooldown : T) (key : κ) (h : List (Event κ T)) :
    ∃ counted, counted <+: failures key h ∧
      ((entry threshold cooldown key h = none ∧ counted = []) ∨
        ∃ last earlier, counted = last :: earlier ∧
          entry threshold cooldown key h = some
            { failures := counted.length
              openUntil := if threshold ≤ counted.length then some (last + cooldown)
                else none }) := by
  induction h with
  | nil => exact ⟨[], List.nil_prefix, .inl ⟨rfl, rfl⟩⟩
  | cons event h ih =>
    obtain ⟨counted, hprefix, hentry⟩ := ih
    cases event with
    | fail k now =>
      by_cases hk : k = key
      · refine ⟨now :: counted, by simpa [failures, hk] using hprefix, .inr ⟨now, counted, rfl, ?_⟩⟩
        rcases hentry with ⟨hnone, rfl⟩ | ⟨last, earlier, rfl, hsome⟩
        · simp [entry, hk, hnone, Entry.fail]
        · simp [entry, hk, hsome, Entry.fail]
      · exact ⟨counted, by simpa [failures, hk] using hprefix, by simpa [entry, hk] using hentry⟩
    | succeed k =>
      by_cases hk : k = key
      · exact ⟨[], List.nil_prefix, .inl ⟨by simp [entry, hk], rfl⟩⟩
      · exact ⟨counted, by simpa [failures, hk] using hprefix, by simpa [entry, hk] using hentry⟩
    | look now =>
      rcases hentry with ⟨hnone, rfl⟩ | ⟨last, earlier, rfl, hsome⟩
      · exact ⟨[], List.nil_prefix, .inl ⟨by simp [entry, hnone], rfl⟩⟩
      · by_cases hexpired : threshold ≤ (last :: earlier).length ∧ last + cooldown ≤ now
        · refine ⟨[], List.nil_prefix, .inl ⟨?_, rfl⟩⟩
          simp only [entry, hsome, if_pos hexpired.1, Option.filter_some, Entry.expired]
          simp [hexpired.2]
        · refine ⟨last :: earlier, hprefix, .inr ⟨last, earlier, rfl, ?_⟩⟩
          grind [entry, Entry.expired]

/-- A key is shut out only by `threshold` failures since its last success, and until `cooldown`
after the last failure. -/
theorem IsOpen.failures {h : List (Event κ T)} {now : T}
    (hopen : IsOpen threshold cooldown h key now) :
    threshold ≤ (failures key h).length ∧
      ∃ last ∈ (failures key h).head?, now < last + cooldown := by
  obtain ⟨e, he, deadline, hdeadline, hnow⟩ := hopen
  obtain ⟨counted, hprefix, hnone | ⟨last, earlier, rfl, hsome⟩⟩ :=
    entry_counts threshold cooldown key h
  · grind
  obtain rfl : e = _ := Option.some.inj (he.symm.trans hsome)
  obtain ⟨hlength, rfl⟩ : threshold ≤ earlier.length + 1 ∧ last + cooldown = deadline := by
    simpa using hdeadline
  obtain ⟨rest, hfailures⟩ := hprefix
  rw [← hfailures]
  exact ⟨by grind, last, rfl, hnow⟩

/-- Failures without a success, none of which any look has seen `cooldown` later, are all counted.
-/
theorem counted_of_burst (threshold : Nat) {burst : List (Event κ T)} (h : List (Event κ T))
    (hquiet : Event.succeed key ∉ burst)
    (hwatched : Watched cooldown (failures key burst) burst) :
    ∀ last ∈ (failures key burst).head?, ∃ n, (failures key burst).length ≤ n ∧
      entry threshold cooldown key (burst ++ h) = some
        { failures := n, openUntil := if threshold ≤ n then some (last + cooldown) else none } := by
  induction burst with
  | nil => simp [failures]
  | cons event burst ih =>
    have hquiet' : Event.succeed key ∉ burst := fun hmem => hquiet (List.mem_cons_of_mem _ hmem)
    cases event with
    | fail k now =>
      by_cases hk : k = key
      · subst hk
        have hwatched' : Watched cooldown (failures k burst) burst := fun now' hlook t ht =>
          hwatched now' (List.mem_cons_of_mem _ hlook) t (by simp [failures, ht])
        intro last hlast
        obtain rfl : now = last := by simpa [failures] using hlast
        cases hfailures : failures k burst with
        | nil =>
          exact ⟨((entry threshold cooldown k (burst ++ h)).getD ⟨0, none⟩).failures + 1,
            by simp [failures, hfailures], by simp [entry, Entry.fail]⟩
        | cons last' earlier =>
          obtain ⟨n, hn, hentry⟩ := ih hquiet' hwatched' last' (by simp [hfailures])
          refine ⟨n + 1, by simpa [failures] using hn, ?_⟩
          simp [entry, Entry.fail, hentry]
      · simp only [failures, if_neg hk, List.cons_append, entry] at hwatched ⊢
        exact ih hquiet' fun now' hlook => hwatched now' (List.mem_cons_of_mem _ hlook)
    | succeed k =>
      have hk : k ≠ key := by
        rintro rfl
        exact hquiet List.mem_cons_self
      simp only [failures, if_neg hk, List.cons_append, entry] at hwatched ⊢
      exact ih hquiet' fun now' hlook => hwatched now' (List.mem_cons_of_mem _ hlook)
    | look now =>
      simp only [failures, List.cons_append, entry] at hwatched ⊢
      intro last hlast
      obtain ⟨n, hn, hentry⟩ :=
        ih hquiet' (fun now' hlook => hwatched now' (List.mem_cons_of_mem _ hlook)) last hlast
      have hfresh : now < last + cooldown :=
        hwatched now List.mem_cons_self last (List.mem_of_mem_head? hlast)
      refine ⟨n, hn, ?_⟩
      rw [hentry]
      by_cases hmany : threshold ≤ n <;> simp [Option.filter_some, Entry.expired, hmany, hfresh]

/-- `threshold` failures without a success, none of which any look has seen `cooldown` later, shut
the key out until `cooldown` after the last. -/
theorem isOpen_of_burst {burst h : List (Event κ T)} {now : T} (hthreshold : 0 < threshold)
    (hquiet : Event.succeed key ∉ burst)
    (hwatched : Watched cooldown (failures key burst) (.look now :: burst))
    (hmany : threshold ≤ (failures key burst).length) :
    IsOpen threshold cooldown (burst ++ h) key now := by
  cases hfailures : failures key burst with
  | nil => simp [hfailures] at hmany; omega
  | cons last earlier =>
    have hnow : now < last + cooldown := hwatched now List.mem_cons_self last (by simp [hfailures])
    obtain ⟨n, hn, hentry⟩ := counted_of_burst threshold h hquiet
      (fun now' hlook => hwatched now' (List.mem_cons_of_mem _ hlook)) last (by simp [hfailures])
    exact ⟨_, hentry, last + cooldown, by simp [Nat.le_trans hmany hn], hnow⟩

end Breaker

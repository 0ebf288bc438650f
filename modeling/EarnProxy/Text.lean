import Mathlib.Data.List.Basic
import Mathlib.Data.List.DropRight
import EarnProxy.Library.Unicode

/-!
# Text operations of the standard library

`str.strip`, `str.upper`, `str.lower` and `str.isalpha` on the character lists of strings.
`str.lower` is exact on every character whose image contains an ASCII character; any other character
beyond ASCII stays beyond ASCII, so comparing the result with an ASCII text gives the same answer.
-/

namespace EarnProxy.Text

/-- `str.isspace` of one character, the characters `str.strip` removes. -/
def isSpace (c : Char) : Bool :=
  let n := c.toNat
  (9 ≤ n && n ≤ 13) || (28 ≤ n && n ≤ 32) || n == 0x85 || n == 0xA0 || n == 0x1680 ||
    (0x2000 ≤ n && n ≤ 0x200A) || n == 0x2028 || n == 0x2029 || n == 0x202F || n == 0x205F ||
    n == 0x3000

def stripChars (cs : List Char) : List Char :=
  ((cs.dropWhile isSpace).reverse.dropWhile isSpace).reverse

def strip (s : String) : String := String.ofList (stripChars s.toList)

/-- `str.upper`. -/
def upper (s : String) : String := String.ofList (s.toList.flatMap Unicode.capital)

/-- `str.isalpha`. -/
def isAlpha (s : String) : Bool := s.toList.all Unicode.isLetter && s ≠ ""

/-- `str.lower` of one character. -/
def lowerChar (c : Char) : List Char :=
  match c.toNat with
  | 0x130 => ['i', Char.ofNat 0x307]
  | 0x212A => ['k']
  | _ => [c.toLower]

def lower (s : String) : String := String.ofList (s.toList.flatMap lowerChar)

/-- SQLite's `lower`, which maps ASCII letters only. -/
def asciiLower (s : String) : String := String.ofList (s.toList.map Char.toLower)

/-- SQLite's `trim`, which removes blanks only. -/
def trimBlanks (s : String) : String :=
  String.ofList ((s.toList.dropWhile (· = ' ')).reverse.dropWhile (· = ' ')).reverse

theorem isUpper_iff {c : Char} : c.isUpper ↔ 65 ≤ c.toNat ∧ c.toNat ≤ 90 := decide_eq_true_iff

theorem isLower_iff {c : Char} : c.isLower ↔ 97 ≤ c.toNat ∧ c.toNat ≤ 122 := by
  change (decide (97 ≤ c.toNat) && decide (c.toNat ≤ 122)) = true ↔ _
  simp

theorem isAlpha_iff {c : Char} : c.isAlpha ↔ c.isUpper ∨ c.isLower := Bool.or_eq_true_iff

theorem isDigit_iff {c : Char} : c.isDigit ↔ 48 ≤ c.toNat ∧ c.toNat ≤ 57 := Char.isDigit_iff_toNat

theorem toLower_toLower (c : Char) : c.toLower.toLower = c.toLower := by
  by_cases h : c.val ≥ 'A'.val ∧ c.val ≤ 'Z'.val
  · have hval : c.toLower.val = c.val + ('a'.val - 'A'.val) := by
      unfold Char.toLower
      rw [dif_pos h]
    -- a lowered letter lies behind the capitals
    have hnot : ¬ (c.toLower.val ≥ 'A'.val ∧ c.toLower.val ≤ 'Z'.val) := by
      rw [hval]
      simp only [ge_iff_le, UInt32.le_iff_toNat_le, UInt32.toNat_add] at h ⊢
      have hA : 'A'.val.toNat = 65 := rfl
      have hZ : 'Z'.val.toNat = 90 := rfl
      have hd : ('a'.val - 'A'.val).toNat = 32 := rfl
      omega
    rw [Char.toLower.eq_def c.toLower, dif_neg hnot]
  · have hsame : c.toLower = c := by
      unfold Char.toLower
      rw [dif_neg h]
    rw [hsame, hsame]

theorem toLower_lowerChar {c d : Char} (h : d ∈ lowerChar c) : d.toLower = d := by
  unfold lowerChar at h
  split at h
  · simp only [List.mem_cons, List.not_mem_nil, or_false] at h
    rcases h with rfl | rfl <;> decide
  · rw [List.mem_singleton.mp h]
    decide
  · rw [List.mem_singleton.mp h]
    exact toLower_toLower c

/-- SQLite's `lower` has nothing left to do after `str.lower`. -/
theorem asciiLower_lower (s : String) : asciiLower (lower s) = lower s := by
  unfold asciiLower lower
  rw [String.toList_ofList]
  congr 1
  refine (List.map_congr_left fun d hd => ?_).trans (List.map_id _)
  obtain ⟨c, _, hc⟩ := List.mem_flatMap.mp hd
  exact toLower_lowerChar hc

/-- No blanks at the ends. -/
structure Trimmed (cs : List Char) : Prop where
  head : ∀ c ∈ cs.head?, isSpace c = false
  getLast : ∀ c ∈ cs.getLast?, isSpace c = false

theorem trimmed_stripChars (cs : List Char) : Trimmed (stripChars cs) where
  head := by
    intro c hc
    have hprefix : stripChars cs <+: cs.dropWhile isSpace := List.rdropWhile_prefix isSpace _
    have hhead := List.head?_dropWhile_not isSpace cs
    obtain ⟨rest, hrest⟩ := hprefix
    rw [← hrest, List.head?_append, Option.mem_def.mp hc] at hhead
    exact hhead
  getLast := by
    intro c hc
    have hne : stripChars cs ≠ [] := by
      rintro hnil
      simp [hnil] at hc
    have hlast : ¬ isSpace ((stripChars cs).getLast hne) :=
      List.rdropWhile_last_not isSpace (cs.dropWhile isSpace) hne
    rw [List.getLast?_eq_some_getLast hne, Option.mem_some] at hc
    simpa [hc] using hlast

theorem Trimmed.stripChars_eq {cs : List Char} (h : Trimmed cs) : stripChars cs = cs := by
  have hfront : cs.dropWhile isSpace = cs := by
    cases cs with
    | nil => rfl
    | cons c cs => rw [List.dropWhile_cons, h.head c rfl]; rfl
  unfold stripChars
  rw [hfront]
  refine List.rdropWhile_eq_self_iff.mpr fun hne => ?_
  simpa using h.getLast _ (List.getLast?_eq_some_getLast hne)

theorem strip_strip (s : String) : strip (strip s) = strip s := by
  unfold strip
  rw [String.toList_ofList, (trimmed_stripChars _).stripChars_eq]

end EarnProxy.Text

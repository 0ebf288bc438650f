import Mathlib.Algebra.Group.Nat.Defs
import Mathlib.Data.Char
import Mathlib.Data.List.Lex
import Mathlib.Order.Lattice
import Mathlib.Order.Monotone.Defs

/-!
# UTF-8

Characters as bytes, and bytes as characters. Where the bytes are no characters, the longest part
that could have begun one is replaced, as `bytes.decode` does with `errors='replace'`.
-/

namespace Utf8

def encodeChar (c : Char) : List Nat :=
  let n := c.toNat
  if n < 0x80 then [n]
  else if n < 0x800 then [0xC0 + n / 64, 0x80 + n % 64]
  else if n < 0x10000 then [0xE0 + n / 4096, 0x80 + n / 64 % 64, 0x80 + n % 64]
  else [0xF0 + n / 262144, 0x80 + n / 4096 % 64, 0x80 + n / 64 % 64, 0x80 + n % 64]

def encode (cs : List Char) : List Nat := cs.flatMap encodeChar

def replacement : Char := Char.ofNat 0xFFFD

/-- A character that has begun: how many bytes it needs, its bits so far, and the range of the next
byte. -/
structure Pending where
  need : Nat
  bits : Nat
  low : Nat := 0x80
  high : Nat := 0xBF
  deriving DecidableEq, Repr

/-- The first byte of a character. -/
def start (b : Nat) : List Char × Option Pending :=
  if b < 0x80 then ([Char.ofNat b], none)
  else if b < 0xC2 then ([replacement], none)
  else if b < 0xE0 then ([], some { need := 1, bits := b - 0xC0 })
  else if b < 0xF0 then
    ([], some { need := 2, bits := b - 0xE0, low := if b = 0xE0 then 0xA0 else 0x80
                high := if b = 0xED then 0x9F else 0xBF })
  else if b < 0xF5 then
    ([], some { need := 3, bits := b - 0xF0, low := if b = 0xF0 then 0x90 else 0x80
                high := if b = 0xF4 then 0x8F else 0xBF })
  else ([replacement], none)

/-- The next byte: the characters that are complete, and the one that has begun. -/
def step : Option Pending → Nat → List Char × Option Pending
  | none, b => start b
  | some p, b =>
    if p.low ≤ b ∧ b ≤ p.high then
      let bits := 64 * p.bits + (b - 0x80)
      if p.need ≤ 1 then ([Char.ofNat bits], none)
      else ([], some { need := p.need - 1, bits := bits })
    else (replacement :: (start b).1, (start b).2)

def decodeFrom : Option Pending → List Nat → List Char
  | none, [] => []
  | some _, [] => [replacement]
  | pending, b :: bs => (step pending b).1 ++ decodeFrom (step pending b).2 bs

/-- `bytes.decode("utf-8", errors="replace")`. -/
def decode (bs : List Nat) : List Char := decodeFrom none bs

example : decode [0xF0, 0x9F, 0x98, 0x80, 0xE2, 0x82, 0x41] =
    [Char.ofNat 0x1F600, replacement, 'A'] := by decide

variable {c : Char} {b : Nat} {bs : List Nat}

theorem toNat_lt (c : Char) : c.toNat < 0x110000 := by
  rcases c.valid with h | h <;> simp only [Char.toNat] <;> omega

theorem encodeChar_lt (hb : b ∈ encodeChar c) : b < 256 := by
  have hmax := toNat_lt c
  unfold encodeChar at hb
  dsimp only at hb
  split_ifs at hb <;> simp only [List.mem_cons, List.not_mem_nil, or_false] at hb <;> omega

theorem encode_lt {cs : List Char} (hb : b ∈ encode cs) : b < 256 := by
  obtain ⟨c, -, hc⟩ := List.mem_flatMap.mp hb
  exact encodeChar_lt hc

theorem decodeFrom_cons (pending : Option Pending) :
    decodeFrom pending (b :: bs) = (step pending b).1 ++ decodeFrom (step pending b).2 bs := by
  cases pending <;> rfl

section Range

variable {need bits low high : Nat} (hlow : low ≤ b) (hhigh : b ≤ high)
include hlow hhigh

/-- A byte in the middle of a character. -/
theorem decodeFrom_middle : decodeFrom (some ⟨need + 2, bits, low, high⟩) (b :: bs) =
    decodeFrom (some { need := need + 1, bits := 64 * bits + (b - 0x80) }) bs := by
  rw [decodeFrom_cons, step, if_pos ⟨hlow, hhigh⟩]
  dsimp only
  rw [if_neg (by omega)]
  rfl

/-- The last byte of a character. -/
theorem decodeFrom_last : decodeFrom (some ⟨1, bits, low, high⟩) (b :: bs) =
    Char.ofNat (64 * bits + (b - 0x80)) :: decodeFrom none bs := by
  rw [decodeFrom_cons, step, if_pos ⟨hlow, hhigh⟩]
  rfl

end Range

theorem decodeFrom_start_two (hlow : 0xC2 ≤ b) (hhigh : b < 0xE0) :
    decodeFrom none (b :: bs) = decodeFrom (some { need := 1, bits := b - 0xC0 }) bs := by
  rw [decodeFrom_cons, step, start, if_neg (by omega), if_neg (by omega), if_pos hhigh]
  rfl

theorem decodeFrom_start_three (hlow : 0xE0 ≤ b) (hhigh : b < 0xF0) :
    decodeFrom none (b :: bs) = decodeFrom (some {
      need := 2, bits := b - 0xE0, low := if b = 0xE0 then 0xA0 else 0x80
      high := if b = 0xED then 0x9F else 0xBF }) bs := by
  rw [decodeFrom_cons, step, start, if_neg (by omega), if_neg (by omega), if_neg (by omega),
    if_pos hhigh]
  rfl

theorem decodeFrom_start_four (hlow : 0xF0 ≤ b) (hhigh : b < 0xF5) :
    decodeFrom none (b :: bs) = decodeFrom (some {
      need := 3, bits := b - 0xF0, low := if b = 0xF0 then 0x90 else 0x80
      high := if b = 0xF4 then 0x8F else 0xBF }) bs := by
  rw [decodeFrom_cons, step, start, if_neg (by omega), if_neg (by omega), if_neg (by omega),
    if_neg (by omega), if_pos hhigh]
  rfl

theorem decodeFrom_encodeChar (c : Char) (bs : List Nat) :
    decodeFrom none (encodeChar c ++ bs) = c :: decodeFrom none bs := by
  have hvalid : c.toNat < 0xD800 ∨ 0xDFFF < c.toNat ∧ c.toNat < 0x110000 := c.valid
  have hchar : ∀ n, n = c.toNat → Char.ofNat n = c := fun n h => h ▸ Char.ofNat_toNat c
  unfold encodeChar
  dsimp only
  generalize c.toNat = n at hvalid hchar
  split_ifs with h1 h2 h3
  · rw [List.singleton_append, decodeFrom_cons]
    simp only [step, start, if_pos h1, hchar n rfl, List.singleton_append]
  · rw [List.cons_append, decodeFrom_start_two (by omega) (by omega), List.singleton_append,
      decodeFrom_last (by omega) (by omega), hchar _ (by omega)]
  · rw [List.cons_append, decodeFrom_start_three (by omega) (by omega), List.cons_append,
      decodeFrom_middle (by split_ifs <;> omega) (by split_ifs <;> omega), List.singleton_append,
      decodeFrom_last (by omega) (by omega), hchar _ (by omega)]
  · rw [List.cons_append, decodeFrom_start_four (by omega) (by omega), List.cons_append,
      decodeFrom_middle (by split_ifs <;> omega) (by split_ifs <;> omega), List.cons_append,
      decodeFrom_middle (by omega) (by omega), List.singleton_append,
      decodeFrom_last (by omega) (by omega), hchar _ (by omega)]

/-- What was encoded is read back. -/
theorem decode_encode (cs : List Char) : decode (encode cs) = cs := by
  unfold decode encode
  induction cs with
  | nil => rfl
  | cons c cs ih => rw [List.flatMap_cons, decodeFrom_encodeChar, ih]

/-! ## The order of the bytes -/

/-- The bytes of two characters decide the order, whatever follows them. -/
theorem encodeChar_append_lt {d : Char} (h : c < d) (us vs : List Nat) :
    encodeChar c ++ us < encodeChar d ++ vs := by
  have hlt : c.toNat < d.toNat := h
  have hc := toNat_lt c
  have hd := toNat_lt d
  unfold encodeChar
  dsimp only
  generalize c.toNat = m at hlt hc
  generalize d.toNat = n at hlt hd
  split_ifs <;> simp only [List.cons_append, List.nil_append, List.cons_lt_cons_iff] <;> omega

theorem encodeChar_ne_nil (c : Char) : encodeChar c ≠ [] := by
  unfold encodeChar
  dsimp only
  split_ifs <;> simp

/-- Texts compare byte-wise as they do by their characters. -/
theorem encode_strictMono : StrictMono encode := by
  intro cs ds h
  induction cs generalizing ds with
  | nil =>
    cases ds with
    | nil => exact absurd h (List.lt_irrefl [])
    | cons d ds =>
      rw [encode, encode, List.flatMap_cons, List.flatMap_nil]
      cases hbytes : encodeChar d with
      | nil => exact absurd hbytes (encodeChar_ne_nil d)
      | cons b bs => exact List.nil_lt_cons b _
  | cons c cs ih =>
    cases ds with
    | nil => exact absurd h (List.not_lt_nil _)
    | cons d ds =>
      rw [encode, encode, List.flatMap_cons, List.flatMap_cons]
      rcases List.cons_lt_cons_iff.mp h with hlt | ⟨rfl, hlt⟩
      · exact encodeChar_append_lt hlt _ _
      · exact List.append_left_lt (ih hlt)

end Utf8

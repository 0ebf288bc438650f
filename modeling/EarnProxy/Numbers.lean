import EarnProxy.Text

/-!
# Numbers in texts

`str.isdigit` and `int` of a text, with the digits of every script. A digit that is no decimal digit
(a superscript, a digit in a circle) is a digit for `str.isdigit` and none for `int`.
-/

namespace EarnProxy.Text

/-- The zero of each script with decimal digits; its nine other digits follow it. -/
def decimalZeros : List Nat :=
  [0x30, 0x660, 0x6F0, 0x7C0, 0x966, 0x9E6, 0xA66, 0xAE6, 0xB66, 0xBE6, 0xC66, 0xCE6, 0xD66, 0xDE6,
    0xE50, 0xED0, 0xF20, 0x1040, 0x1090, 0x17E0, 0x1810, 0x1946, 0x19D0, 0x1A80, 0x1A90, 0x1B50,
    0x1BB0, 0x1C40, 0x1C50, 0xA620, 0xA8D0, 0xA900, 0xA9D0, 0xA9F0, 0xAA50, 0xABF0, 0xFF10, 0x104A0,
    0x10D30, 0x11066, 0x110F0, 0x11136, 0x111D0, 0x112F0, 0x11450, 0x114D0, 0x11650, 0x116C0,
    0x11730, 0x118E0, 0x11950, 0x11C50, 0x11D50, 0x11DA0, 0x16A60, 0x16AC0, 0x16B50, 0x1D7CE,
    0x1D7D8, 0x1D7E2, 0x1D7EC, 0x1D7F6, 0x1E140, 0x1E2F0, 0x1E950, 0x1FBF0]

/-- The value of a decimal digit. -/
def decimal? (c : Char) : Option Nat :=
  (decimalZeros.find? fun first => first ≤ c.toNat && c.toNat < first + 10).map fun first =>
    c.toNat - first

/-- The other digits of `str.isdigit`, as first and last code points. -/
def digitRanges : List (Nat × Nat) :=
  [(0xB2, 0xB3), (0xB9, 0xB9), (0x1369, 0x1371), (0x19DA, 0x19DA), (0x2070, 0x2070),
   (0x2074, 0x2079),
    (0x2080, 0x2089), (0x2460, 0x2468), (0x2474, 0x247C), (0x2488, 0x2490), (0x24EA, 0x24EA),
    (0x24F5, 0x24FD), (0x24FF, 0x24FF), (0x2776, 0x277E), (0x2780, 0x2788), (0x278A, 0x2792),
    (0x10A40, 0x10A43), (0x10E60, 0x10E68), (0x11052, 0x1105A), (0x1F100, 0x1F10A)]

/-- `str.isdigit`. -/
def isDigit (s : String) : Bool :=
  s.toList ≠ [] && s.toList.all fun c =>
    (decimal? c).isSome || digitRanges.any fun r => r.1 ≤ c.toNat && c.toNat ≤ r.2

/-- The blanks that `int` removes: those of C, and those beyond ASCII. -/
def isNumberSpace (c : Char) : Bool :=
  let n := c.toNat
  (9 ≤ n && n ≤ 13) || n == 32 || (128 ≤ n && isSpace c)

/-- The value of a digit in base 16. -/
def hexDigit? (c : Char) : Option Nat :=
  (decimal? c).or <|
    if 'a' ≤ c && c ≤ 'f' then some (c.toNat - 'a'.toNat + 10)
    else if 'A' ≤ c && c ≤ 'F' then some (c.toNat - 'A'.toNat + 10)
    else none

/-- Digits in groups that single underscores separate. -/
def groupedValue? (base : Nat) (digit? : Char → Option Nat) (cs : List Char) : Option Nat := do
  let groups := cs.splitOn '_'
  if groups.any (· = []) then none
  else (groups.flatten.mapM digit?).map fun digits => digits.foldl (fun n d => base * n + d) 0

/-- `int(text, 16)` of a text that starts with `0x`. -/
def hexInt? (s : String) : Option Nat :=
  match s.toList.rdropWhile isNumberSpace with
  | '0' :: 'x' :: '_' :: cs => groupedValue? 16 hexDigit? cs
  | '0' :: 'x' :: cs => groupedValue? 16 hexDigit? cs
  | _ => none

example : hexInt? "0x_1f\n" = some 31 := by decide +kernel

example : hexInt? "0x1__2" = none := by decide +kernel

/-- `int(text)` of a text for which `isdigit` holds. -/
def digitsInt? (s : String) : Option Nat :=
  (s.toList.mapM decimal?).map fun digits => digits.foldl (fun n d => 10 * n + d) 0

end EarnProxy.Text

import EarnProxy.Text

/-!
# `ipaddress.ip_address`

Literal addresses as values. The services store `str(address)`, which `ip_address` reads back as
the same address, so columns hold the address itself and equality of columns is equality of texts.
-/

namespace EarnProxy

/-- What `ipaddress.ip_address` returns: an IPv4 address, or an IPv6 address with its scope. -/
inductive IpAddress where
  | v4 (value : BitVec 32)
  | v6 (value : BitVec 128) (scope : Option String)
  deriving DecidableEq, Repr

namespace IpAddress

def isDecimal (c : Char) : Bool := '0' ≤ c && c ≤ '9'

def hexDigit? (c : Char) : Option Nat :=
  if isDecimal c then some (c.toNat - '0'.toNat)
  else if 'a' ≤ c && c ≤ 'f' then some (c.toNat - 'a'.toNat + 10)
  else if 'A' ≤ c && c ≤ 'F' then some (c.toNat - 'A'.toNat + 10)
  else none

/-- `IPv4Address._parse_octet`. -/
def parseOctet (cs : List Char) : Option Nat :=
  if cs = [] ∨ ¬ cs.all isDecimal ∨ 3 < cs.length then none
  else if cs ≠ ['0'] ∧ cs.head? = some '0' then none
  else
    let value := cs.foldl (fun n c => 10 * n + (c.toNat - '0'.toNat)) 0
    if 255 < value then none else some value

/-- `IPv4Address._ip_int_from_string`. -/
def parseV4 (cs : List Char) : Option Nat :=
  match (cs.splitOn '.').mapM parseOctet with
  | some [a, b, c, d] => some (((a * 256 + b) * 256 + c) * 256 + d)
  | _ => none

/-- `IPv6Address._parse_hextet`. -/
def parseHextet (cs : List Char) : Option Nat :=
  if cs = [] ∨ 4 < cs.length then none
  else (cs.mapM hexDigit?).map (List.foldl (fun n d => 16 * n + d) 0)

/-- The parts of an IPv6 text with an IPv4 suffix rewritten as two hextets. -/
def v6Parts (cs : List Char) : Option (List (Option Nat)) :=
  let parts := cs.splitOn ':'
  let hextet (part : List Char) : Option (Option Nat) :=
    if part = [] then some none else (parseHextet part).map some
  match parts.getLast? with
  | none => none
  | some last =>
    if parts.length < 3 then none
    else if '.' ∈ last then do
      let v4 ← parseV4 last
      let front ← parts.dropLast.mapM hextet
      pure (front ++ [some (v4 / 65536), some (v4 % 65536)])
    else parts.mapM hextet

def joinHextets (hextets : List Nat) : Nat := hextets.foldl (fun n h => 65536 * n + h) 0

/-- `IPv6Address._ip_int_from_string`: an inner empty part is the `::` abbreviation. -/
def parseV6 (cs : List Char) : Option Nat := do
  let parts ← v6Parts cs
  if 9 < parts.length then none
  else
    let inner := (List.range parts.length).filter fun i =>
      1 ≤ i ∧ i + 1 < parts.length ∧ parts[i]? = some none
    match inner with
    | [] =>
      if parts.length ≠ 8 then none
      else (parts.mapM id).map joinHextets
    | [skip] =>
      let leading := if parts.head? = some none then [] else parts.take skip
      let trailing := if parts.getLast? = some none then [] else parts.drop (skip + 1)
      if parts.head? = some none ∧ skip ≠ 1 then none
      else if parts.getLast? = some none ∧ skip + 2 ≠ parts.length then none
      else if 8 ≤ leading.length + trailing.length then none
      else do
        let high ← leading.mapM id
        let low ← trailing.mapM id
        pure (joinHextets (high ++ List.replicate (8 - (high.length + low.length)) 0 ++ low))
    | _ => none

/-- `IPv6Address._split_scope_id`. -/
def splitScope (cs : List Char) : Option (List Char × Option String) :=
  let address := cs.takeWhile (· ≠ '%')
  match cs.dropWhile (· ≠ '%') with
  | [] => some (address, none)
  | _ :: scope =>
    if scope = [] ∨ '%' ∈ scope then none else some (address, some (String.ofList scope))

end IpAddress

/-- `ipaddress.ip_address(text)`; `none` is its `ValueError`. -/
def ipAddress (text : String) : Option IpAddress :=
  let cs := text.toList
  match IpAddress.parseV4 cs with
  | some value => some (.v4 (BitVec.ofNat 32 value))
  | none =>
    if '/' ∈ cs then none
    else do
      let (address, scope) ← IpAddress.splitScope cs
      let value ← IpAddress.parseV6 address
      pure (.v6 (BitVec.ofNat 128 value) scope)

/-- `_normalized_exit_ip`: literal evidence only. -/
def normalizedExitIp (text : String) : Option IpAddress := ipAddress (Text.strip text)

example : normalizedExitIp " 198.51.100.7 " = some (.v4 0xC6336407#32) := by decide

example : ipAddress "2001:db8::1" =
    some (.v6 0x20010DB8000000000000000000000001#128 none) := by decide

example : ipAddress "198.51.100.07" = none := by decide

end EarnProxy

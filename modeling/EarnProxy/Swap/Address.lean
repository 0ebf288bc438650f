import EarnProxy.Numbers
import EarnProxy.Swap.Schema

/-!
# Addresses of `app/services/proxiware_dashboard.py`

A dashboard address names a host and, unless it leaves it out, a port. The digits of a port may be
those of any script.
-/

namespace EarnProxy

namespace IpAddress

/-- `IPv4Address.__str__`. -/
def textV4 (n : Nat) : List Char :=
  ['.'].intercalate ([n / 16777216, n / 65536, n / 256, n].map fun m => Nat.toDigits 10 (m % 256))

/-- The eight hextets of an IPv6 address. -/
def hextets (n : Nat) : List Nat := (List.range 8).map fun i => n / 65536 ^ (7 - i) % 65536

/-- The runs of zeros, each with its start, and the longest of them so far. -/
structure ZeroRun where
  start : Nat := 0
  length : Nat := 0
  bestStart : Nat := 0
  bestLength : Nat := 0

/-- One round of the loop in `IPv6Address._compress_hextets`. -/
def ZeroRun.visit (run : ZeroRun) (index hextet : Nat) : ZeroRun :=
  if hextet = 0 then
    let start := if run.length = 0 then index else run.start
    let length := run.length + 1
    if run.bestLength < length then ⟨start, length, start, length⟩
    else { run with start := start, length := length }
  else { run with length := 0 }

/-- `IPv6Address._compress_hextets`, joined by colons. -/
def textV6 (n : Nat) : List Char :=
  let parts := hextets n
  let run : ZeroRun := parts.zipIdx.foldl (fun run part => run.visit part.2 part.1) {}
  let texts := parts.map (Nat.toDigits 16)
  if 1 < run.bestLength then
    [':'].intercalate (texts.take run.bestStart) ++ [':', ':'] ++
      [':'].intercalate (texts.drop (run.bestStart + run.bestLength))
  else [':'].intercalate texts

/-- `IPv4Address.compressed` and `IPv6Address.compressed`. -/
def compressed : IpAddress → String
  | .v4 value => String.ofList (textV4 value.toNat)
  | .v6 value none => String.ofList (textV6 value.toNat)
  | .v6 value (some scope) => String.ofList (textV6 value.toNat ++ '%' :: scope.toList)

end IpAddress

namespace Swap

/-- `_required_text`. -/
def requiredText (value : String) (limit : Nat) : Option String :=
  let text := Text.strip value
  if text = "" ∨ limit < text.length ∨ text.toList.any (fun c => c.toNat < 32) then none
  else some text

def decimalValue (digits : List Char) : Nat :=
  digits.foldl (fun n c => 10 * n + (c.toNat - '0'.toNat)) 0

/-- A nonempty text of ASCII digits. -/
def isDigits (cs : List Char) : Bool := cs ≠ [] && cs.all IpAddress.isDecimal

/-- A port in range. -/
def portValue (digits : List Char) : Option Nat :=
  if Text.isDigit (String.ofList digits) then
    (Text.digitsInt? (String.ofList digits)).filter fun port => 1 ≤ port ∧ port ≤ 65535
  else none

/-- The host and the port of an address, before the host is checked. -/
def splitAddress (value : List Char) : Option (List Char × Option Nat) :=
  if value.head? = some '[' then
    let host := value.tail.takeWhile (· ≠ ']')
    match value.tail.dropWhile (· ≠ ']') with
    | [] => none
    | _ :: suffix =>
      if host = [] then none
      else match suffix with
        | [] => some (host, none)
        | ':' :: digits => (portValue digits).map fun port => (host, some port)
        | _ => none
  else if value.count ':' = 1 then
    let host := value.takeWhile (· ≠ ':')
    let candidate := (value.dropWhile (· ≠ ':')).tail
    if Text.isDigit (String.ofList candidate) then
      if host = [] then none else (portValue candidate).map fun port => (host, some port)
    else some (value, none)
  else some (value, none)

/-- `[a-z0-9]` under `re.IGNORECASE`, which also lets two letters beyond ASCII pass. -/
def isLabelChar (c : Char) : Bool :=
  c.isAlpha || c.isDigit || c.toNat == 0x131 || c.toNat == 0x17F

/-- `_HOST_LABEL.fullmatch`. -/
def isHostLabel (label : List Char) : Bool :=
  label.head?.any isLabelChar && label.getLast?.any isLabelChar && label.length ≤ 63 &&
    label.all fun c => isLabelChar c || c == '-'

/-- The canonical spelling of a host in lower case. -/
def checkedHost (host : String) : Option String :=
  match ipAddress host with
  | some ip => some ip.compressed
  | none =>
    let cs := host.toList
    if 253 < cs.length ∨ cs.getLast? = some '.' ∨ ¬ (cs.splitOn '.').all isHostLabel then none
    else some host

def canonicalHost (host : List Char) : Option String :=
  checkedHost (Text.lower (Text.strip (String.ofList host)))

/-- `dashboard_address_endpoint`; `none` is its error. -/
def dashboardAddressEndpoint (address : String) : Option Endpoint := do
  let value ← requiredText address 512
  let (host, port) ← splitAddress value.toList
  let host ← canonicalHost host
  pure { host, port }

example : dashboardAddressEndpoint " Proxy-1.Example:8080 " =
    some { host := "proxy-1.example", port := some 8080 } := by decide +kernel

example : dashboardAddressEndpoint "[2001:0DB8:0:0::1]:9" =
    some { host := "2001:db8::1", port := some 9 } := by decide +kernel

example : dashboardAddressEndpoint "proxy.example:٨٠" =
    some { host := "proxy.example", port := some 80 } := by decide +kernel

/-- An IPv6 host and its port without brackets read as one host. -/
example : dashboardAddressEndpoint "2001:db8::1:8080" =
    some { host := "2001:db8::1:8080", port := none } := by decide +kernel

/-- `_validated_address`. -/
def validatedAddress (value : String) : Tx Endpoint :=
  match dashboardAddressEndpoint value with
  | some endpoint => .ok endpoint
  | none => .error (.valueError "Swap replacement address is invalid")

end Swap

end EarnProxy

import EarnProxy.IpAddress

/-!
# `urllib.parse.urlsplit`

The scheme of a URL and its network location, with the parts of the location. Where a character
beyond ASCII decomposes into one of the delimiters of a network location, the location is refused.
-/

namespace EarnProxy.Url

/-- What follows the last `c`, or everything. -/
def afterLast (c : Char) (cs : List Char) : List Char := (cs.reverse.takeWhile (· ≠ c)).reverse

/-- What `partition` returns: the text before `c`, and the text behind it if there is a `c`. -/
def partition (c : Char) (cs : List Char) : List Char × Option (List Char) :=
  (cs.takeWhile (· ≠ c), match cs.dropWhile (· ≠ c) with
    | [] => none
    | _ :: rest => some rest)

/-- `scheme_chars`. -/
def isSchemeChar (c : Char) : Bool := c.isAlphanum || c == '+' || c == '-' || c == '.'

/-- The URL without its scheme. -/
def dropScheme (cs : List Char) : List Char :=
  match partition ':' cs with
  | (c :: scheme, some rest) => if c.isAlpha && scheme.all isSchemeChar then rest else cs
  | _ => cs

/-- The characters beyond ASCII whose compatibility decomposition has one of `/?#@:` in it. -/
def delimiterLookalikes : List Nat :=
  [0x2047, 0x2048, 0x2049, 0x2100, 0x2101, 0x2105, 0x2106, 0x2A74, 0xFE13, 0xFE16, 0xFE55, 0xFE56,
    0xFE5F, 0xFE6B, 0xFF03, 0xFF0F, 0xFF1A, 0xFF1F, 0xFF20]

/-- `_check_bracketed_host`. -/
def isBracketedHost (host : List Char) : Bool :=
  match host with
  | 'v' :: rest =>
    match partition '.' rest with
    | (version, some tail) =>
      version ≠ [] && version.all (IpAddress.hexDigit? · |>.isSome) && tail ≠ []
    | _ => false
  | _ =>
    match ipAddress (String.ofList host) with
    | some (.v6 _ _) => true
    | _ => false

/-- The host and what follows it, as `_hostinfo` separates them. -/
def hostInfo (netloc : List Char) : List Char × Option (List Char) :=
  let hostInfo := afterLast '@' netloc
  match partition '[' hostInfo with
  | (_, some bracketed) => partition ']' bracketed
  | (_, none) => partition ':' hostInfo

/-- The checks of `urlsplit` that raise a `ValueError`. -/
def isNetloc (netloc : List Char) : Bool :=
  ('[' ∈ netloc) == (']' ∈ netloc) &&
    (!('[' ∈ netloc) || brackets) && netloc.all (fun c => c.toNat ∉ delimiterLookalikes)
where
  /-- `_check_bracketed_netloc`. -/
  brackets : Bool :=
    let bracketed := partition '[' (afterLast '@' netloc)
    (bracketed.2 = none || bracketed.1 = [] &&
      ((hostInfo netloc).2.getD []).head?.all (· = ':')) && isBracketedHost (hostInfo netloc).1

/-- `url.lstrip(_WHATWG_C0_CONTROL_OR_SPACE)` without tabs and line ends. -/
def cleaned (cs : List Char) : List Char :=
  (cs.dropWhile fun c => c.toNat ≤ 32).filter fun c => c ≠ '\t' ∧ c ≠ '\r' ∧ c ≠ '\n'

/-- `urlsplit(url).hostname or ""`; `none` is the `ValueError`. -/
def hostname (url : String) : Option String :=
  match dropScheme (cleaned url.toList) with
  | '/' :: '/' :: rest =>
    let netloc := rest.takeWhile fun c => c ≠ '/' ∧ c ≠ '?' ∧ c ≠ '#'
    if ¬ isNetloc netloc then none
    else
      let host := partition '%' (hostInfo netloc).1
      some (Text.lower (String.ofList host.1) ++
        String.ofList (match host.2 with | none => [] | some zone => '%' :: zone))
  | _ => some ""

/-- The text before the last `c`, if there is one. -/
def beforeLast? (c : Char) (cs : List Char) : Option (List Char) :=
  match cs.reverse.dropWhile (· ≠ c) with
  | [] => none
  | _ :: rest => some rest.reverse

/-- What `urlsplit` returns, without path, query and fragment. -/
structure SplitResult where
  scheme : List Char
  netloc : List Char
  deriving DecidableEq, Repr

/-- The scheme of a URL in lower case, and the rest. -/
def splitScheme (cs : List Char) : List Char × List Char :=
  match partition ':' cs with
  | (c :: scheme, some rest) =>
    if c.isAlpha && scheme.all isSchemeChar then ((c :: scheme).map Char.toLower, rest)
    else ([], cs)
  | _ => ([], cs)

/-- `urlsplit`; `none` is its `ValueError`. -/
def urlsplit (url : List Char) : Option SplitResult :=
  match splitScheme (cleaned url) with
  | (scheme, '/' :: '/' :: rest) =>
    let netloc := rest.takeWhile fun c => c ≠ '/' ∧ c ≠ '?' ∧ c ≠ '#'
    if isNetloc netloc then some { scheme, netloc } else none
  | (scheme, _) => some { scheme, netloc := [] }

namespace SplitResult

variable (r : SplitResult)

/-- `hostname or ""`. -/
def hostname : List Char :=
  let host := partition '%' (hostInfo r.netloc).1
  host.1.flatMap Text.lowerChar ++ (match host.2 with | none => [] | some zone => '%' :: zone)

/-- The port as `_hostinfo` finds it. -/
def portText : List Char :=
  match partition '[' (afterLast '@' r.netloc), (hostInfo r.netloc).2 with
  | (_, some _), some rest => (partition ':' rest).2.getD []
  | (_, none), some port => port
  | _, none => []

/-- `port or 0`; `none` is its `ValueError`. -/
def port : Option Nat :=
  if ¬ r.portText.all IpAddress.isDecimal then none
  else
    let port := r.portText.foldl (fun n c => 10 * n + (c.toNat - '0'.toNat)) 0
    if port ≤ 65535 then some port else none

/-- `username or ""` and `password or ""`. -/
def userinfo : List Char × List Char :=
  match beforeLast? '@' r.netloc with
  | none => ([], [])
  | some userinfo => ((partition ':' userinfo).1, (partition ':' userinfo).2.getD [])

end SplitResult

example : hostname "https://User@IfConfig.me:443/ip?x" = some "ifconfig.me" := by decide +kernel

example : hostname "http://[2001:DB8::7%Eth0]/" = some "2001:db8::7%Eth0" := by decide +kernel

example : hostname "http://[198.51.100.7]/" = none := by decide +kernel

end EarnProxy.Url

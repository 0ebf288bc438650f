import EarnProxy.Json
import EarnProxy.Library.Majority
import EarnProxy.Numbers
import EarnProxy.Swap.Address
import EarnProxy.Url

/-!
# `app/checker.py`

The strong check of a proxy. The environment answers every request, and says at every look at the
clock whether the time is up; `latency_ms` is not here.
-/

namespace EarnProxy

/-! ## Probes -/

def httpProbeUrls : List String := ["http://ifconfig.me/ip", "http://icanhazip.com"]

/-- `PROXIO_WHOAMI_URL`. -/
def proxioWhoamiUrl : String := "https://api.prox.io.vn/v1/check/whoami"

def probeUrls : List String :=
  ["https://ifconfig.me/ip", "https://icanhazip.com", "https://checkip.amazonaws.com",
    proxioWhoamiUrl]

def probeAttempts : Nat := 2

/-- `CAPTIVE_HOSTS`. -/
def captiveHosts : List String := ["giahan.vnpt.com.vn"]

def captiveMarkers : List String := ["giahan.vnpt.com.vn", "/internet/logo.svg", "provider_blocked"]

/-- The three groups of requests of an attempt. -/
inductive ProbeGroup where
  | verified | insecure | plain
  deriving DecidableEq, Repr

/-- A request of the check. No request is made twice. -/
structure Site where
  protocol : String
  attempt : Nat
  group : ProbeGroup
  probe : String
  deriving DecidableEq, Repr

/-- The response of `curl`; `writeOut` is the line that its `--write-out` has printed. -/
structure Response where
  returncode : Int
  body : String
  writeOut : String
  stderr : String := ""
  deriving DecidableEq, Repr

/-- What `_probe_once` returns. -/
inductive ProbeOutcome where
  | failed (error : String)
  | answered (response : Response)
  deriving DecidableEq, Repr

/-- What `json.loads` does; the first case is one of the errors that are caught. -/
inductive Loaded where
  | invalid
  | value (value : Json)
  | raises

/-- What is not the checker's: the interpreter, the network, and the clock. -/
structure CheckEnv where
  loads : String → Loaded
  /-- The characters beyond ASCII that are word characters of `re`. -/
  isWord : Char → Bool
  outcome : Site → ProbeOutcome
  /-- The time is up before a protocol, before an attempt, before a request. -/
  protocolLate : String → Bool := fun _ => false
  attemptLate : String → Nat → Bool := fun _ _ => false
  late : Site → Bool := fun _ => false

/-! ## Responses -/

/-- `parse_exit_ip`; the empty text is no address. -/
def parseExitIp (value : String) : String :=
  match ipAddress (Text.strip value) with
  | some ip => ip.compressed
  | none => ""

/-- `parse_probe_exit_ip`. Here and below `none` is an exception that leaves the check. -/
def parseProbeExitIp (env : CheckEnv) (probe value : String) : Option String :=
  if Text.strip probe ≠ proxioWhoamiUrl then some (parseExitIp value)
  else match env.loads value with
    | .raises => none
    | .invalid => some ""
    | .value (.dict fields _) => some (parseExitIp (Json.get fields "ip").strOrEmpty)
    | .value _ => some ""

/-- `str(meta or "").strip().split("|")`. -/
def metaFields (writeOut : String) : List String :=
  ((Text.strip writeOut).toList.splitOn '|').map String.ofList

def metaCode (writeOut : String) : String := ((metaFields writeOut)[0]?).getD ""

def metaUrl (writeOut : String) : String := ((metaFields writeOut)[1]?).getD ""

def metaSslResult (writeOut : String) : String := ((metaFields writeOut)[2]?).getD "0"

/-- `int(code)` of digits; the interpreter refuses more than 4300 of them. -/
def codeValue (code : String) : Option Nat :=
  if 4300 < code.length then none else Text.digitsInt? code

/-- The pattern occurs in the text. -/
def contains (text pattern : List Char) : Bool := text.tails.any pattern.isPrefixOf

/-- `re.search(r"<(?:!doctype|html|head|body)\b", text)`. -/
def hasTag (env : CheckEnv) (text : List Char) : Bool :=
  text.tails.any fun cs => ["<!doctype", "<html", "<head", "<body"].any fun tag =>
    tag.toList.isPrefixOf cs && (cs[tag.length]?).all fun c =>
      !(c.isAlphanum || c == '_' || 128 ≤ c.toNat && env.isWord c)

/-- `_captive_error`. -/
def captiveError (env : CheckEnv) (body writeOut : String) : Option String := do
  let text := (Text.lower body).toList
  let host ← Url.hostname (metaUrl writeOut)
  let host := Text.lower host
  if host ∈ captiveHosts ∨ captiveMarkers.any (fun marker => contains text marker.toList) then
    some ("provider_blocked: captive portal redirected to " ++
      if host = "" then "provider portal" else host)
  else if metaSslResult writeOut ∉ ["", "0"] ∧ hasTag env text then
    some "provider_blocked: intercepted HTTPS response with an untrusted certificate"
  else some ""

/-- `_meta_valid`. -/
def metaValid (writeOut probe : String) (requireTls : Bool) : Option Bool :=
  if Text.isDigit (metaCode writeOut) = false then some false
  else do
    let code ← codeValue (metaCode writeOut)
    if ¬ (200 ≤ code ∧ code < 300) then some false
    else do
      let effective ← Url.hostname (metaUrl writeOut)
      let own ← Url.hostname probe
      if Text.lower effective ≠ Text.lower own then some false
      else some (!requireTls || metaSslResult writeOut == "0")

/-- `_meta_http_code`. -/
def metaHttpCode (writeOut : String) : Option Nat :=
  if Text.isDigit (metaCode writeOut) then codeValue (metaCode writeOut) else some 0

/-- What `_quorum` counts of a response; the empty text is skipped. -/
def quorumValue (env : CheckEnv) (requireTls : Bool) (probe : String) (response : Response) :
    Option String :=
  if response.returncode ≠ 0 then some ""
  else do
    if ← metaValid response.writeOut probe requireTls then parseProbeExitIp env probe response.body
    else some ""

/-- `_quorum`. -/
def quorum (env : CheckEnv) (results : List (String × Response)) (requireTls : Bool) :
    Option String := do
  let values ← results.mapM fun result => quorumValue env requireTls result.1 result.2
  let values := values.filter (· ≠ "")
  match mostCommon values with
  | none => some ""
  | some value =>
    let count := values.count value
    some (if 2 ≤ count ∧ values.length < 2 * count then value else "")

inductive CurlFailure where
  | proxyDns | proxy | probeEndpoint | transient | tls
  deriving DecidableEq, Repr

def proxyFailureCodes : List Int := [7, 67, 97]
def proxyDnsCodes : List Int := [5]
def probeEndpointCodes : List Int := [6]
def transientCodes : List Int := [5, 28, 52, 55, 56]
def tlsCodes : List Int := [35, 51, 60]

/-- `_classify_curl_failure`. -/
def classifyCurlFailure (returncode : Int) : CurlFailure :=
  if returncode ∈ proxyDnsCodes then .proxyDns
  else if returncode ∈ proxyFailureCodes then .proxy
  else if returncode ∈ probeEndpointCodes then .probeEndpoint
  else if returncode ∈ transientCodes then .transient
  else if returncode ∈ tlsCodes then .tls
  else .transient

/-- `evidence`. -/
structure Evidence where
  proxy : Bool := false
  probeEndpoint : Bool := false
  transient : Bool := false
  uncertain : Bool := false
  deriving DecidableEq, Repr

/-- `_record_response_failure` for fresh evidence. -/
def recordResponseFailure (response : Response) (probe : String) (requireTls : Bool) :
    Option Evidence :=
  if response.returncode ≠ 0 then
    some (match classifyCurlFailure response.returncode with
      | .proxy => { proxy := true }
      | .probeEndpoint => { probeEndpoint := true }
      | .tls => { uncertain := true }
      | .proxyDns | .transient => { transient := true })
  else do
    if (← metaHttpCode response.writeOut) = 407 then some { proxy := true }
    else if ← metaValid response.writeOut probe requireTls then some {}
    else some { probeEndpoint := true }

/-! ## The check -/

/-- The protocols of `_proxy_urls`; the URLs themselves are not used. -/
def proxyProtocols (setting : String) : List String :=
  let protocol := Text.lower (if setting = "" then "auto" else setting)
  (if protocol = "auto" ∨ protocol = "socks5" then ["socks5"] else []) ++
    (if protocol = "auto" ∨ protocol = "http" ∨ protocol = "https" then ["http"] else [])

/-- `_probe_candidates`. -/
def probeCandidates (probeIndex : Int) (unavailable : List String) : List (Nat × String) :=
  let start := (max 0 probeIndex).toNat % probeUrls.length
  (List.range probeUrls.length).filterMap fun offset =>
    let index := (start + offset) % probeUrls.length
    (probeUrls[index]?).bind fun probe =>
      if probe ∈ unavailable.map Text.strip then none else some (index, probe)

inductive CheckStatus where
  | live | liveUnverified | blocked | dead | inconclusive
  deriving DecidableEq, Repr

/-- `_probe_result`. -/
structure StrongResult where
  status : CheckStatus
  protocol : String
  exitIp : String := ""
  error : String := ""
  failureKind : String := ""
  probeEndpoint : String := ""
  nextProbeIndex : Nat := 0
  failedProbeEndpoint : String := ""
  egressTrusted : Bool := false
  deriving DecidableEq, Repr

/-- The result of a quorum of the verified probes. -/
def verifiedResult (protocol exitIp : String) : StrongResult where
  status := .live
  protocol := protocol
  exitIp := exitIp
  probeEndpoint := ",".intercalate probeUrls
  egressTrusted := true

/-- The result of a quorum of the probes with `--insecure`. -/
def insecureResult (protocol exitIp : String) : StrongResult where
  status := .liveUnverified
  protocol := protocol
  exitIp := exitIp
  error := "TLS certificate verification failed; exit IP confirmed by independent probes"
  probeEndpoint := ",".intercalate probeUrls

/-- The result of a quorum of the probes without TLS. -/
def plainResult (protocol exitIp : String) : StrongResult where
  status := .liveUnverified
  protocol := protocol
  exitIp := exitIp
  error := "TLS probes unavailable; exit IP confirmed by independent plain HTTP probes"
  probeEndpoint := ",".intercalate httpProbeUrls

/-- What the check has found so far. It does not keep `asked`, the requests that it has made. -/
structure Findings where
  errors : List String := []
  blockedResults : List (String × String) := []
  sawTransient : Bool := false
  sawUncertain : Bool := false
  sawProxyFailure : Bool := false
  sawProbeEndpointFailure : Bool := false
  asked : List Site := []
  deriving DecidableEq, Repr

def Findings.merge (findings : Findings) (evidence : Evidence) : Findings :=
  { findings with
    sawProxyFailure := findings.sawProxyFailure || evidence.proxy
    sawProbeEndpointFailure := findings.sawProbeEndpointFailure || evidence.probeEndpoint
    sawTransient := findings.sawTransient || evidence.transient
    sawUncertain := findings.sawUncertain || evidence.uncertain }

/-- The variables of a loop over the probes of a group. -/
structure GroupRun where
  findings : Findings
  protocolBlocked : List String := []
  results : List (String × Response) := []

section Check

variable (env : CheckEnv)

/-- A round of such a loop; an error without a text leaves no response to look at. -/
def GroupRun.visit (run : GroupRun) (site : Site) : Option GroupRun :=
  let findings := { run.findings with asked := run.findings.asked ++ [site] }
  match env.outcome site with
  | .failed error =>
    if error = "" then none
    else some { run with
      findings := { findings with errors := findings.errors ++ [error], sawTransient := true } }
  | .answered response => do
    let blocked ← captiveError env response.body response.writeOut
    if blocked ≠ "" then
      some { run with findings := findings, protocolBlocked := run.protocolBlocked ++ [blocked] }
    else
      let evidence ← recordResponseFailure response site.probe false
      some { run with
        findings := findings.merge evidence
        results := run.results ++ [(site.probe, response)] }

/-- The loop over the requests of a group, which ends when the time is up. -/
def GroupRun.visitAll (run : GroupRun) : List Site → Option GroupRun
  | [] => some run
  | site :: rest =>
    if env.late site then some run
    else match run.visit env site with
      | none => none
      | some run => run.visitAll rest

/-- The requests of a group. -/
def groupSites (unavailable : List String) (protocol : String) (attempt : Nat)
    (group : ProbeGroup) : List Site :=
  let probes := match group with
    | .verified | .insecure => (probeCandidates 0 unavailable).map Prod.snd
    | .plain => httpProbeUrls
  probes.map fun probe => { protocol, attempt, group, probe }

/-- How an attempt ends. -/
inductive AttemptEnd where
  | settled (result : StrongResult) (findings : Findings)
  | blocked (findings : Findings)
  | undecided (findings : Findings)
  deriving DecidableEq, Repr

/-- The attempt is given up, with what a group has seen of a captive portal. -/
def GroupRun.giveUp (run : GroupRun) (protocol : String) : AttemptEnd :=
  .blocked { run.findings with
    blockedResults := run.findings.blockedResults ++ run.protocolBlocked.map (protocol, ·) }

/-- `any(response["returncode"] in TLS_CODES ...)`. -/
def GroupRun.tlsFailed (run : GroupRun) : Bool :=
  run.results.any fun result => decide (result.2.returncode ∈ tlsCodes)

/-- The group with `--insecure`, which only a TLS failure starts. -/
def insecureRun (unavailable : List String) (protocol : String) (n : Nat) (verified : GroupRun) :
    Option GroupRun :=
  if verified.tlsFailed then
    GroupRun.visitAll env { findings := { verified.findings with sawUncertain := true } }
      (groupSites unavailable protocol n .insecure)
  else some { findings := verified.findings }

/-- The body of the loop over the attempts. -/
def attempt (unavailable : List String) (protocol : String) (n : Nat) (findings : Findings) :
    Option AttemptEnd := do
  let sites := groupSites unavailable protocol n
  let verified ← GroupRun.visitAll env { findings } (sites .verified)
  if verified.protocolBlocked ≠ [] then return verified.giveUp protocol
  let verifiedIp ← quorum env verified.results true
  let insecure ← insecureRun env unavailable protocol n verified
  if insecure.protocolBlocked ≠ [] then return insecure.giveUp protocol
  let insecureIp ← quorum env insecure.results false
  if verifiedIp ≠ "" then
    return .settled (verifiedResult protocol verifiedIp) insecure.findings
  let plain ← GroupRun.visitAll env { findings := insecure.findings } (sites .plain)
  if plain.protocolBlocked ≠ [] then return plain.giveUp protocol
  let plainIp ← quorum env plain.results false
  if insecureIp ≠ "" then
    return .settled (insecureResult protocol insecureIp) plain.findings
  if plainIp ≠ "" then
    return .settled (plainResult protocol plainIp) plain.findings
  return .undecided plain.findings

/-- What a loop leaves behind: a result to return, or findings. -/
abbrev LoopEnd := (StrongResult × Findings) ⊕ Findings

/-- The loop over the attempts. -/
def attempts (unavailable : List String) (protocol : String) (findings : Findings) :
    List Nat → Option LoopEnd
  | [] => some (.inr findings)
  | n :: rest =>
    if env.attemptLate protocol n then some (.inr findings)
    else match attempt env unavailable protocol n findings with
      | none => none
      | some (.settled result findings) => some (.inl (result, findings))
      | some (.blocked findings) => some (.inr findings)
      | some (.undecided findings) => attempts unavailable protocol findings rest

/-- The loop over the protocols. -/
def protocols (unavailable : List String) (findings : Findings) : List String → Option LoopEnd
  | [] => some (.inr findings)
  | protocol :: rest =>
    if env.protocolLate protocol then some (.inr findings)
    else match attempts env unavailable protocol findings (List.range probeAttempts) with
      | none => none
      | some (.inl settled) => some (.inl settled)
      | some (.inr findings) => protocols unavailable findings rest

/-- `text[-500:]`. -/
def last500 (text : String) : String := String.ofList (text.toList.rtake 500)

/-- The verdict without a quorum. -/
def Findings.conclude (findings : Findings) : StrongResult :=
  match findings.blockedResults with
  | (protocol, error) :: _ =>
    { status := .blocked, protocol, error, failureKind := "provider_blocked",
      probeEndpoint := ",".intercalate probeUrls }
  | [] =>
    let dead := findings.sawProxyFailure && !(findings.sawTransient || findings.sawUncertain ||
      findings.sawProbeEndpointFailure || findings.errors ≠ [])
    let error := last500 ("; ".intercalate findings.errors)
    { status := if dead then .dead else .inconclusive
      protocol := "unknown"
      error := if error = "" then "insufficient independent probe evidence" else error
      failureKind := if dead then "proxy"
        else if findings.sawProbeEndpointFailure then "probe_endpoint" else "transient"
      probeEndpoint := ",".intercalate probeUrls }

/-- `check_proxy_strong`, with what it has found. -/
def checkProxyStrong (setting : String) (unavailable : List String) :
    Option (StrongResult × Findings) :=
  (protocols env unavailable {} (proxyProtocols setting)).map fun
    | .inl settled => settled
    | .inr findings => (findings.conclude, findings)

end Check

end EarnProxy

import EarnProxy.AddressRoundTrip
import EarnProxy.Checks
import EarnProxy.NetworkSafety
import EarnProxy.StrongCheck

/-!
# The fast check and the health worker

`check_proxy_fast` of `app/checker.py` asks one probe, and `_check_one` of `app/check_service.py`
takes its word for a proxy that still answers from its address, for a captive portal, and for a
probe that is itself at fault. Everything else it hands to the strong check.
-/

namespace EarnProxy

/-! ## The fast check -/

inductive FastStatus where
  | live | blocked | needsConfirmation | inconclusive
  deriving DecidableEq, Repr

/-- `_probe_result`. -/
structure FastResult where
  status : FastStatus
  protocol : String
  exitIp : String := ""
  error : String := ""
  failureKind : String := ""
  probeEndpoint : String := ""
  nextProbeIndex : Nat := 0
  failedProbeEndpoint : String := ""
  egressTrusted : Bool := false
  deriving DecidableEq, Repr

/-- The texts of `_classify_curl_failure`. -/
def CurlFailure.text : CurlFailure → String
  | .proxyDns => "proxy_dns"
  | .proxy => "proxy"
  | .probeEndpoint => "probe_endpoint"
  | .transient => "transient"
  | .tls => "tls"

section Fast

variable (env : CheckEnv)

/-- What the check makes of a 2xx response from the probe's own host. -/
def fastAddress (expectedExitIp probe body : String) (asked : FastResult) : Option FastResult :=
  (parseProbeExitIp env probe body).map fun exitIp =>
    if exitIp = "" then
      { asked with
        status := .inconclusive
        error := "probe endpoint did not return an IP address"
        failureKind := "probe_endpoint"
        failedProbeEndpoint := probe }
    else if expectedExitIp ≠ "" ∧ exitIp ≠ expectedExitIp then
      { asked with
        status := .needsConfirmation
        exitIp := exitIp
        error := "exit IP changed and requires independent confirmation"
        failureKind := "egress_changed" }
    else { asked with status := .live, exitIp := exitIp }

/-- What the check makes of a response that `curl` has got. -/
def fastResponse (expectedExitIp probe : String) (asked : FastResult) (response : Response) :
    Option FastResult := do
  if (← metaHttpCode response.writeOut) = 407 then
    some { asked with
      status := .needsConfirmation
      error := "proxy authentication rejected (HTTP 407)"
      failureKind := "proxy" }
  else if ← metaValid response.writeOut probe true then
    fastAddress env expectedExitIp probe response.body asked
  else
    some { asked with
      status := .inconclusive
      error := "probe endpoint returned an invalid HTTP response"
      failureKind := "probe_endpoint"
      failedProbeEndpoint := probe }

/-- What the check makes of an error of `curl`. -/
def fastFailure (probe : String) (asked : FastResult) (response : Response) : FastResult :=
  if response.returncode ∈ tlsCodes then
    { asked with
      status := .needsConfirmation
      error := if response.stderr = "" then "TLS verification failed" else response.stderr
      failureKind := "tls"
      failedProbeEndpoint := probe }
  else
    let kind := classifyCurlFailure response.returncode
    { asked with
      status := if kind = .probeEndpoint ∨ kind = .proxyDns then .inconclusive
        else .needsConfirmation
      error := if response.stderr = "" then "curl exited with " ++ toString response.returncode
        else response.stderr
      failureKind := kind.text
      failedProbeEndpoint := if kind = .probeEndpoint then probe else "" }

/-- The check after its request. -/
def fastVerdict (expectedExitIp probe : String) (asked : FastResult) :
    ProbeOutcome → Option FastResult
  | .failed error =>
    some { asked with
      status := .needsConfirmation
      error := if error = "" then "probe worker did not return a response" else error
      failureKind :=
        if "unsafe_target:".toList <+: error.toList then "unsafe_target" else "transient"
      failedProbeEndpoint := probe }
  | .answered response => do
    let blocked ← captiveError env response.body response.writeOut
    if blocked ≠ "" then
      some { asked with status := .blocked, error := blocked, failureKind := "provider_blocked" }
    else if response.returncode ≠ 0 then some (fastFailure probe asked response)
    else fastResponse env expectedExitIp probe asked response

/-- `check_proxy_fast`. The network answers the one request; `none` is an exception. -/
def checkProxyFast (fetch : String → String → ProbeOutcome) (setting : String) (probeIndex : Int)
    (expectedExitIp : String) (unavailable : List String) : Option FastResult :=
  match proxyProtocols setting with
  | [] =>
    some { status := .needsConfirmation, protocol := "unknown",
           error := "proxy protocol is not supported", failureKind := "protocol" }
  | protocol :: _ =>
    match probeCandidates probeIndex unavailable with
    | [] =>
      some { status := .inconclusive, protocol
             error := "all probe endpoints are temporarily unavailable"
             failureKind := "probe_endpoint"
             nextProbeIndex := ((max 0 probeIndex).toNat + 1) % probeUrls.length }
    | (index, probe) :: _ =>
      fastVerdict env expectedExitIp probe
        { status := .inconclusive, protocol, probeEndpoint := probe
          nextProbeIndex := (index + 1) % probeUrls.length }
        (fetch protocol probe)

end Fast

/-- `_check_one` asks the strong check to confirm the result. -/
def FastResult.Unsettled (result : FastResult) : Prop :=
  (result.status = .needsConfirmation ∨ result.status = .inconclusive) ∧
    result.failureKind ∉ ["probe_endpoint", "provider_blocked"]

instance FastResult.decidableUnsettled (result : FastResult) : Decidable result.Unsettled :=
  inferInstanceAs (Decidable (_ ∧ _))

/-! ## The worker -/

/-- The result of `_check_one`. -/
inductive Checked where
  | fast (result : FastResult)
  | strong (result : StrongResult)
  deriving DecidableEq, Repr

def detectable : List String := ["http", "socks5"]

/-- The row is checked fast. -/
def Proxy.FastMode (row : Proxy) : Prop :=
  row.healthMode = .fast ∧ row.detectedProtocol ∈ detectable

instance (row : Proxy) : Decidable row.FastMode := inferInstanceAs (Decidable (_ ∧ _))

/-- The protocol of the check; `hint` is the one that `reveal_proxy` returns. -/
def Proxy.checkedProtocol (row : Proxy) (hint : String) : String :=
  if row.detectedProtocol ∈ detectable then row.detectedProtocol else hint

/-- The fast check as `_check_one` makes it. -/
def Proxy.fastCheck (row : Proxy) (env : CheckEnv) (fetch : String → String → ProbeOutcome)
    (unavailable : List String) : Option FastResult :=
  checkProxyFast env fetch row.detectedProtocol row.nextProbeIndex
    ((row.exitIp.map IpAddress.compressed).getD "") unavailable

/-- `_check_one`. There is no `hint` when `reveal_proxy` raises; `unavailable` and `unavailable'`
are what the breaker answers before the fast and before the strong check. -/
def checkOne (env : CheckEnv) (fetch : String → String → ProbeOutcome) (row : Proxy)
    (hint : Option String) (unavailable unavailable' : List String) : Option Checked := do
  let hint ← hint
  let strong := (checkProxyStrong env (row.checkedProtocol hint) unavailable').map fun settled =>
    Checked.strong settled.1
  if row.FastMode then
    let result ← row.fastCheck env fetch unavailable
    if result.Unsettled then strong else some (.fast result)
  else strong

def FastStatus.text : FastStatus → String
  | .live => "live"
  | .blocked => "blocked"
  | .needsConfirmation => "needs_confirmation"
  | .inconclusive => "inconclusive"

def CheckStatus.text : CheckStatus → String
  | .live => "live"
  | .liveUnverified => "live_unverified"
  | .blocked => "blocked"
  | .dead => "dead"
  | .inconclusive => "inconclusive"

/-- The result that `run_batch` applies to the row, with the claim that the check was made under;
an exception of the worker is a result too. -/
def Proxy.workerResult (row : Proxy) : Option Checked → HealthResult
  | none =>
    { status := "inconclusive", failureKind := "worker"
      credentialGeneration := some row.credentialGeneration
      checkClaimToken := some (row.checkClaimToken.getD "") }
  | some (.fast result) =>
    { status := result.status.text, failureKind := result.failureKind
      nextProbeIndex := some result.nextProbeIndex, protocol := result.protocol
      egressTrusted := some result.egressTrusted, exitIp := result.exitIp
      credentialGeneration := some row.credentialGeneration
      checkClaimToken := some (row.checkClaimToken.getD "") }
  | some (.strong result) =>
    { status := result.status.text, failureKind := result.failureKind
      nextProbeIndex := some result.nextProbeIndex, protocol := result.protocol
      egressTrusted := some result.egressTrusted, exitIp := result.exitIp
      credentialGeneration := some row.credentialGeneration
      checkClaimToken := some (row.checkClaimToken.getD "") }

/-! ## The fast check and the strong check read a response alike -/

section Agreement

variable (env : CheckEnv) (expectedExitIp probe : String)

/-- The strong check would count the response as an observation of the address. -/
def CheckEnv.Votes (outcome : ProbeOutcome) (ip : String) : Prop :=
  ∃ response, outcome = .answered response ∧
    captiveError env response.body response.writeOut = some "" ∧
    quorumValue env true probe response = some ip ∧ ip ≠ ""

/-- The strong check would hold the response against the proxy, or against its network. -/
def CheckEnv.Accuses (outcome : ProbeOutcome) : Prop :=
  (∃ error, outcome = .failed error) ∨ ∃ response evidence, outcome = .answered response ∧
    captiveError env response.body response.writeOut = some "" ∧
    recordResponseFailure response probe true = some evidence ∧
    (evidence.proxy ∨ evidence.transient ∨ evidence.uncertain)

/-- The response is that of a captive portal. -/
def CheckEnv.Portal (outcome : ProbeOutcome) : Prop :=
  ∃ response blocked, outcome = .answered response ∧
    captiveError env response.body response.writeOut = some blocked ∧ blocked ≠ ""

/-- The fast check reads the response as the strong check does: it is live at the address that the
response votes for, unless the row has another one; it asks for confirmation when the response is
held against the proxy or votes for another address; it is blocked by a captive portal. -/
structure FastReads (outcome : ProbeOutcome) (r : FastResult) : Prop where
  live : ∀ ip, r.status = .live ∧ r.exitIp = ip ↔
    env.Votes probe outcome ip ∧ (expectedExitIp = "" ∨ ip = expectedExitIp)
  unsettled : r.Unsettled ↔ env.Accuses probe outcome ∨
    ∃ ip, env.Votes probe outcome ip ∧ expectedExitIp ≠ "" ∧ ip ≠ expectedExitIp
  blocked : r.status = .blocked ↔ env.Portal outcome

variable {env expectedExitIp probe} {asked r : FastResult} {response : Response}

theorem votes_answered (hcaptive : captiveError env response.body response.writeOut = some "")
    (ip : String) :
    env.Votes probe (.answered response) ip ↔
      quorumValue env true probe response = some ip ∧ ip ≠ "" := by
  simp [CheckEnv.Votes, hcaptive]

theorem accuses_answered (hcaptive : captiveError env response.body response.writeOut = some "") :
    env.Accuses probe (.answered response) ↔ ∃ evidence,
      recordResponseFailure response probe true = some evidence ∧
        (evidence.proxy ∨ evidence.transient ∨ evidence.uncertain) := by
  simp [CheckEnv.Accuses, hcaptive]

theorem portal_answered {blocked : String}
    (hcaptive : captiveError env response.body response.writeOut = some blocked) :
    env.Portal (.answered response) ↔ blocked ≠ "" := by
  simp [CheckEnv.Portal, hcaptive]

/-- A code that is valid is no 407. -/
theorem metaHttpCode_of_valid {writeOut : String} (h : metaValid writeOut probe true = some true) :
    ∃ code, metaHttpCode writeOut = some code ∧ code ≠ 407 := by
  obtain ⟨⟨code, hcode, _, hlt⟩, -⟩ := metaValid_true h
  have hdigits : Text.isDigit (metaCode writeOut) = true := by
    by_contra hnot
    rw [metaValid, if_pos (by simpa using hnot)] at h
    cases h
  exact ⟨code, by rw [metaHttpCode, if_pos hdigits, hcode], by omega⟩

theorem classify_of_tls {returncode : Int} (h : returncode ∈ tlsCodes) :
    classifyCurlFailure returncode = .tls := by
  simp only [tlsCodes, List.mem_cons, List.not_mem_nil, or_false] at h
  rcases h with rfl | rfl | rfl <;> decide

theorem fastFailure_reads (hcaptive : captiveError env response.body response.writeOut = some "")
    (hcode : response.returncode ≠ 0) :
    FastReads env expectedExitIp probe (.answered response) (fastFailure probe asked response) := by
  have hvote : quorumValue env true probe response = some "" := by simp [quorumValue, hcode]
  have hnone (ip : String) : ¬ env.Votes probe (.answered response) ip := by
    rw [votes_answered hcaptive, hvote]
    grind
  refine ⟨fun ip => ?_, ?_, ?_⟩
  · grind [fastFailure]
  · have hspeaks : (fastFailure probe asked response).Unsettled ↔
        classifyCurlFailure response.returncode ≠ .probeEndpoint := by
      by_cases htls : response.returncode ∈ tlsCodes
      · simp [fastFailure, htls, FastResult.Unsettled, classify_of_tls htls]
      · cases hkind : classifyCurlFailure response.returncode <;>
          simp [fastFailure, htls, hkind, FastResult.Unsettled, CurlFailure.text]
    rw [hspeaks, accuses_answered hcaptive]
    simp only [hnone, false_and, exists_false, or_false, recordResponseFailure, if_pos hcode]
    cases classifyCurlFailure response.returncode <;> simp
  · rw [portal_answered hcaptive]
    grind [fastFailure]

theorem fastAddress_reads (hcaptive : captiveError env response.body response.writeOut = some "")
    (hcode : response.returncode = 0) (hvalid : metaValid response.writeOut probe true = some true)
    (h : fastAddress env expectedExitIp probe response.body asked = some r) :
    FastReads env expectedExitIp probe (.answered response) r := by
  obtain ⟨exitIp, haddress, hr⟩ := Option.map_eq_some_iff.mp h
  have hvote : quorumValue env true probe response = some exitIp := by
    simp [quorumValue, hcode, hvalid, haddress]
  have hclear : ¬ env.Accuses probe (.answered response) := by
    obtain ⟨code, hmeta, hne⟩ := metaHttpCode_of_valid hvalid
    rw [accuses_answered hcaptive]
    simp [recordResponseFailure, hcode, hmeta, hne, hvalid]
  refine ⟨fun ip => ?_, ?_, ?_⟩
  · rw [votes_answered hcaptive, hvote]
    grind
  · simp only [hclear, false_or, votes_answered hcaptive, hvote]
    grind [FastResult.Unsettled]
  · rw [portal_answered hcaptive]
    grind

theorem fastResponse_reads (hcaptive : captiveError env response.body response.writeOut = some "")
    (hcode : response.returncode = 0)
    (h : fastResponse env expectedExitIp probe asked response = some r) :
    FastReads env expectedExitIp probe (.answered response) r := by
  unfold fastResponse at h
  obtain ⟨code, hmeta, h⟩ := Option.bind_eq_some_iff.mp h
  by_cases h407 : code = 407
  · rw [if_pos h407] at h
    obtain rfl := Option.some.inj h
    have hnone (ip : String) : ¬ env.Votes probe (.answered response) ip := by
      rw [votes_answered hcaptive]
      rintro ⟨hvote, hne⟩
      simp only [quorumValue, hcode, ne_eq, not_true_eq_false, if_false] at hvote
      obtain ⟨valid, hvalid, hvote⟩ := Option.bind_eq_some_iff.mp hvote
      cases valid with
      | true => grind [metaHttpCode_of_valid hvalid]
      | false => grind
    have haccuses : env.Accuses probe (.answered response) := by
      rw [accuses_answered hcaptive]
      exact ⟨{ proxy := true }, by simp [recordResponseFailure, hcode, hmeta, h407], .inl rfl⟩
    exact ⟨fun ip => by simp [hnone], by simp [FastResult.Unsettled, haccuses],
      by simp [portal_answered hcaptive]⟩
  · rw [if_neg h407] at h
    obtain ⟨valid, hvalid, h⟩ := Option.bind_eq_some_iff.mp h
    cases valid with
    | true => exact fastAddress_reads hcaptive hcode hvalid (by simpa using h)
    | false =>
      obtain rfl := Option.some.inj (by simpa using h)
      have hvote : quorumValue env true probe response = some "" := by
        simp [quorumValue, hcode, hvalid]
      have hnone (ip : String) : ¬ env.Votes probe (.answered response) ip := by
        rw [votes_answered hcaptive, hvote]
        grind
      have hclear : ¬ env.Accuses probe (.answered response) := by
        rw [accuses_answered hcaptive]
        simp [recordResponseFailure, hcode, hmeta, h407, hvalid]
      exact ⟨fun ip => by simp [hnone], by simp [FastResult.Unsettled, hclear, hnone],
        by simp [portal_answered hcaptive]⟩

theorem fastVerdict_reads {outcome : ProbeOutcome}
    (h : fastVerdict env expectedExitIp probe asked outcome = some r) :
    FastReads env expectedExitIp probe outcome r := by
  cases outcome with
  | failed error =>
    obtain rfl := Option.some.inj h
    refine ⟨fun ip => by simp [CheckEnv.Votes], ?_, by simp [CheckEnv.Portal]⟩
    by_cases hunsafe : "unsafe_target:".toList <+: error.toList
    · simp only [FastResult.Unsettled, CheckEnv.Accuses, if_pos hunsafe]
      simp
    · simp only [FastResult.Unsettled, CheckEnv.Accuses, if_neg hunsafe]
      simp
  | answered response =>
    unfold fastVerdict at h
    obtain ⟨blocked, hcaptive, h⟩ := Option.bind_eq_some_iff.mp h
    by_cases hblocked : blocked = ""
    · subst hblocked
      rw [if_neg (by simp)] at h
      by_cases hcode : response.returncode = 0
      · rw [if_neg (by simpa using hcode)] at h
        exact fastResponse_reads hcaptive hcode h
      · rw [if_pos hcode] at h
        obtain rfl := Option.some.inj h
        exact fastFailure_reads hcaptive hcode
    · rw [if_pos hblocked] at h
      obtain rfl := Option.some.inj h
      have hopen : captiveError env response.body response.writeOut ≠ some "" := by
        simp [hcaptive, hblocked]
      refine ⟨fun ip => ?_, ?_, ?_⟩
      · simp [CheckEnv.Votes, hopen]
      · simp [FastResult.Unsettled, CheckEnv.Votes, CheckEnv.Accuses, hopen]
      · simp [portal_answered hcaptive, hblocked]

end Agreement

/-! ## Addresses as texts -/

/-- The text of an address that has been read has no blank at its ends. -/
theorem trimmed_compressed {text : String} {address : IpAddress}
    (h : ipAddress (Text.strip text) = some address) :
    Text.Trimmed address.compressed.toList := by
  cases address with
  | v4 value =>
    have hplain : ∀ c ∈ (IpAddress.v4 value).compressed.toList, Text.isSpace c = false := by
      intro c hc
      rw [IpAddress.compressed, String.toList_ofList] at hc
      exact (plain_textV4 hc).facts.1
    exact ⟨fun c hc => hplain c (List.mem_of_mem_head? hc),
      fun c hc => hplain c (List.mem_of_mem_getLast? hc)⟩
  | v6 value scope =>
    have hchar : ∀ c ∈ IpAddress.textV6 value.toNat, Text.isSpace c = false := by
      intro c hc
      rcases IpAddress.textV6_digits hc with rfl | hdigit
      · decide
      · exact IsInetChar.not_space (.inr (.inr (.inr hdigit)))
    have hne : IpAddress.textV6 value.toNat ≠ [] :=
      List.ne_nil_of_mem (IpAddress.textV6_chars value.toNat).1
    rw [IpAddress.compressed_v6]
    refine ⟨fun c hc => ?_, fun c hc => ?_⟩
    · rw [List.head?_append_of_ne_nil _ hne] at hc
      exact hchar c (List.mem_of_mem_head? hc)
    · cases scope with
      | none => exact hchar c (by simpa [IpAddress.scopeText] using List.mem_of_mem_getLast? hc)
      | some zone =>
        -- the zone is the end of a text without blanks at its ends
        unfold ipAddress at h
        dsimp only at h
        split at h
        · cases h
        split_ifs at h
        obtain ⟨⟨front, scope'⟩, hscope, h⟩ := Option.bind_eq_some_iff.mp h
        obtain ⟨n, -, h⟩ := Option.bind_eq_some_iff.mp h
        obtain ⟨-, rfl⟩ := IpAddress.v6.inj (Option.some.inj h)
        have hcs := IpAddress.splitScope_eq hscope
        refine (Text.trimmed_stripChars text.toList).getLast c ?_
        rw [Text.strip, String.toList_ofList] at hcs
        rw [hcs]
        simpa [IpAddress.scopeText, List.getLast?_append] using hc

theorem compressed_ne_empty (address : IpAddress) : address.compressed ≠ "" := by
  intro hempty
  have hchars : address.compressed.toList = [] := by rw [hempty]; rfl
  cases address with
  | v4 value =>
    obtain ⟨front, last, htext, -⟩ := textV4_eq value.toNat
    simp [IpAddress.compressed, htext] at hchars
  | v6 value scope =>
    rw [IpAddress.compressed_v6] at hchars
    exact List.ne_nil_of_mem (IpAddress.textV6_chars value.toNat).1
      (List.append_eq_nil_iff.mp hchars).1

/-- An address that a probe has returned is stored as it is. -/
theorem normalizedExitIp_parsed {value text : String} (h : parseExitIp value = text)
    (hne : text ≠ "") :
    ∃ address : IpAddress, text = address.compressed ∧ normalizedExitIp text = some address := by
  unfold parseExitIp at h
  cases haddress : ipAddress (Text.strip value) with
  | none => exact absurd (by simpa [haddress] using h.symm) hne
  | some address =>
    obtain rfl : address.compressed = text := by simpa [haddress] using h
    refine ⟨address, rfl, ?_⟩
    rw [normalizedExitIp, Text.strip, (trimmed_compressed haddress).stripChars_eq,
      String.ofList_toList, ipAddress_compressed haddress]

/-! ## What the worker applies -/

section Worker

variable {env : CheckEnv} {expectedExitIp probe : String} {asked r : FastResult}

/-- What the result of the fast check says besides its reading of the response. -/
structure FastSpec (asked r : FastResult) : Prop where
  trusted : r.egressTrusted = asked.egressTrusted
  probe : r.probeEndpoint = asked.probeEndpoint
  next : r.nextProbeIndex = asked.nextProbeIndex
  unsettled : r.status = .needsConfirmation → r.Unsettled

theorem fastFailure_spec (response : Response) :
    FastSpec asked (fastFailure probe asked response) := by
  have hkind (kind : CurlFailure) : kind.text ≠ "provider_blocked" := by cases kind <;> decide
  have hprobe (kind : CurlFailure) (h : kind.text = "probe_endpoint") : kind = .probeEndpoint := by
    cases kind <;> first | rfl | exact absurd h (by decide)
  constructor <;> grind [fastFailure, FastResult.Unsettled]

theorem fastResponse_spec {response : Response}
    (h : fastResponse env expectedExitIp probe asked response = some r) : FastSpec asked r := by
  unfold fastResponse at h
  obtain ⟨code, -, h⟩ := Option.bind_eq_some_iff.mp h
  split_ifs at h
  · obtain rfl := Option.some.inj h
    exact ⟨rfl, rfl, rfl, fun _ => ⟨.inl rfl, by simp⟩⟩
  · obtain ⟨valid, -, h⟩ := Option.bind_eq_some_iff.mp h
    split_ifs at h
    · obtain ⟨exitIp, -, rfl⟩ := Option.map_eq_some_iff.mp h
      constructor <;> grind [FastResult.Unsettled]
    · obtain rfl := Option.some.inj h
      exact ⟨rfl, rfl, rfl, nofun⟩

theorem fastVerdict_spec {outcome : ProbeOutcome}
    (h : fastVerdict env expectedExitIp probe asked outcome = some r) : FastSpec asked r := by
  cases outcome with
  | failed error =>
    obtain rfl := Option.some.inj h
    refine ⟨rfl, rfl, rfl, fun _ => ⟨.inl rfl, ?_⟩⟩
    dsimp only
    split <;> simp
  | answered response =>
    unfold fastVerdict at h
    obtain ⟨blocked, -, h⟩ := Option.bind_eq_some_iff.mp h
    split_ifs at h
    · obtain rfl := Option.some.inj h
      exact ⟨rfl, rfl, rfl, nofun⟩
    · obtain rfl := Option.some.inj h
      exact fastFailure_spec response
    · exact fastResponse_spec h

/-- How the fast check ends: without a request, or with a verdict on the response of the first probe
that the breaker leaves. -/
theorem checkProxyFast_cases {fetch : String → String → ProbeOutcome} {setting : String}
    {probeIndex : Int} {unavailable : List String}
    (h : checkProxyFast env fetch setting probeIndex expectedExitIp unavailable = some r) :
    ((proxyProtocols setting).head? = none ∧ r.status = .needsConfirmation ∧ r.Unsettled ∧
        r.egressTrusted = false ∧ r.probeEndpoint = "") ∨
      ((probeCandidates probeIndex unavailable).head? = none ∧ r.status = .inconclusive ∧
        ¬ r.Unsettled ∧ r.egressTrusted = false ∧ r.probeEndpoint = "") ∨
      ∃ protocol ∈ (proxyProtocols setting).head?,
        ∃ candidate ∈ (probeCandidates probeIndex unavailable).head?,
          FastReads env expectedExitIp candidate.2 (fetch protocol candidate.2) r ∧
            FastSpec
              { status := .inconclusive, protocol, probeEndpoint := candidate.2
                nextProbeIndex := (candidate.1 + 1) % probeUrls.length } r := by
  unfold checkProxyFast at h
  cases hprotocols : proxyProtocols setting with
  | nil =>
    simp only [hprotocols] at h
    obtain rfl := Option.some.inj h
    exact .inl ⟨rfl, rfl, by decide, rfl, rfl⟩
  | cons protocol rest =>
    cases hcandidates : probeCandidates probeIndex unavailable with
    | nil =>
      simp only [hprotocols, hcandidates] at h
      obtain rfl := Option.some.inj h
      exact .inr (.inl ⟨rfl, rfl, by simp [FastResult.Unsettled], rfl, rfl⟩)
    | cons candidate rest' =>
      simp only [hprotocols, hcandidates] at h
      exact .inr (.inr ⟨protocol, rfl, candidate, rfl, fastVerdict_reads h, fastVerdict_spec h⟩)

/-- The fast check is the strong check on one response. Whenever it makes a request, it reads the
response as the strong check does. -/
theorem fast_check_agrees {fetch : String → String → ProbeOutcome} {setting : String}
    {probeIndex : Int} {unavailable : List String}
    (h : checkProxyFast env fetch setting probeIndex expectedExitIp unavailable = some r) :
    ∀ protocol ∈ (proxyProtocols setting).head?,
      ∀ candidate ∈ (probeCandidates probeIndex unavailable).head?,
        FastReads env expectedExitIp candidate.2 (fetch protocol candidate.2) r := by
  intro protocol hprotocol candidate hcandidate
  obtain ⟨hnone, -⟩ | ⟨hnone, -⟩ | ⟨_, hprotocol', _, hcandidate', hreads, -⟩ :=
    checkProxyFast_cases h
  · simp [hnone] at hprotocol
  · simp [hnone] at hcandidate
  · obtain rfl := Option.some.inj (hprotocol.symm.trans hprotocol')
    obtain rfl := Option.some.inj (hcandidate.symm.trans hcandidate')
    exact hreads

namespace Scenario

def answerOfProbe (_protocol probe : String) : ProbeOutcome :=
  .answered (answerOf probe (splitBody probe))

end Scenario

/-- A proxy that still answers from its address. -/
theorem fast_check_agrees_sameAddress :
    FastReads Scenario.splitExit "198.51.100.7" "https://ifconfig.me/ip"
      (Scenario.answerOfProbe "http" "https://ifconfig.me/ip")
      { status := .live, protocol := "http", exitIp := "198.51.100.7"
        probeEndpoint := "https://ifconfig.me/ip", nextProbeIndex := 1 } := by
  have hcheck : checkProxyFast Scenario.splitExit Scenario.answerOfProbe "http" 0
      "198.51.100.7" [] = some
        { status := .live, protocol := "http", exitIp := "198.51.100.7"
          probeEndpoint := "https://ifconfig.me/ip", nextProbeIndex := 1 } := by
    decide +kernel
  exact fast_check_agrees hcheck "http" rfl (0, "https://ifconfig.me/ip") rfl

/-- An observation is an address that has been read. -/
theorem CheckEnv.Votes.address {outcome : ProbeOutcome} {ip : String}
    (h : env.Votes probe outcome ip) :
    ∃ address : IpAddress, ip = address.compressed ∧ normalizedExitIp ip = some address := by
  obtain ⟨response, -, -, hvote, hne⟩ := h
  have hparsed : ∃ value, parseExitIp value = ip := by
    unfold quorumValue at hvote
    split_ifs at hvote
    · exact absurd (Option.some.inj hvote).symm hne
    obtain ⟨valid, -, hvote⟩ := Option.bind_eq_some_iff.mp hvote
    split_ifs at hvote
    · unfold parseProbeExitIp at hvote
      grind
    · exact absurd (Option.some.inj hvote).symm hne
  obtain ⟨value, hvalue⟩ := hparsed
  exact normalizedExitIp_parsed hvalue hne

theorem branch_strong (env : CheckEnv) (row : Proxy) (setting : String)
    (unavailable : List String) :
    let result := row.workerResult
      ((checkProxyStrong env setting unavailable).map fun settled => .strong settled.1)
    (result.branch = .failure ↔ env.Condemns unavailable setting) ∧
      result.branch ≠ .egressUnconfirmed := by
  cases hcheck : checkProxyStrong env setting unavailable with
  | none =>
    have hnot : ¬ env.Condemns unavailable setting := fun hcondemns => by
      simp [hcondemns.run.1] at hcheck
    simp [Proxy.workerResult, HealthResult.branch, hnot]
  | some settled =>
    obtain ⟨result, findings⟩ := settled
    have hdead : result.status = .dead ↔ env.Condemns unavailable setting := by
      refine ⟨fun hdead => (CheckEnv.condemns_of_dead hcheck hdead).1, fun hcondemns => ?_⟩
      obtain ⟨hrun, hdead⟩ := hcondemns.run
      obtain ⟨rfl, -⟩ := Prod.mk.inj (Option.some.inj (hcheck.symm.trans hrun))
      exact hdead
    rw [← hdead]
    cases hstatus : result.status <;>
      simp [Proxy.workerResult, HealthResult.branch, CheckStatus.text, hstatus]

/-- A result of the fast check that is not handed on is no failure. -/
theorem branch_fast (row : Proxy) (hsettled : ¬ r.Unsettled)
    (hunsettled : r.status = .needsConfirmation → r.Unsettled) :
    (row.workerResult (some (.fast r))).branch ≠ .failure ∧
      (row.workerResult (some (.fast r))).branch ≠ .egressUnconfirmed := by
  cases hstatus : r.status with
  | needsConfirmation => exact absurd (hunsettled hstatus) hsettled
  | _ => simp [Proxy.workerResult, HealthResult.branch, FastStatus.text, hstatus]

theorem fastCheck_unsettled {fetch : String → String → ProbeOutcome} {row : Proxy}
    {unavailable : List String} (h : row.fastCheck env fetch unavailable = some r) :
    r.status = .needsConfirmation → r.Unsettled := by
  obtain ⟨-, -, hunsettled, -⟩ | ⟨-, hstatus, -⟩ | ⟨_, -, _, -, -, hspec⟩ := checkProxyFast_cases h
  · exact fun _ => hunsettled
  · simp [hstatus]
  · exact hspec.unsettled

/-- A live result of the fast check is about the address that the row has, and attests none. -/
theorem fastCheck_live {fetch : String → String → ProbeOutcome} {row row' : Proxy}
    {unavailable : List String} (h : row.fastCheck env fetch unavailable = some r)
    (hlive : r.status = .live) (hsame : row'.exitIp = row.exitIp) (staleMinutes : Int)
    (current : Timestamp) :
    let o := observeLive row' (row.workerResult (some (.fast r))) staleMinutes current
    o.trustedExitIp = none ∧ o.egressChanged = false ∧ o.untrustedEgressMismatch = false := by
  obtain ⟨-, hstatus, -⟩ | ⟨-, hstatus, -⟩ | ⟨protocol, -, candidate, -, hreads, hspec⟩ :=
    checkProxyFast_cases h
  · simp [hlive] at hstatus
  · simp [hlive] at hstatus
  obtain ⟨hvotes, hexpected⟩ := (hreads.live r.exitIp).mp ⟨hlive, rfl⟩
  obtain ⟨address, htext, hnormal⟩ := hvotes.address
  have hrow : ∀ known ∈ row'.exitIp, known = address := by
    intro known hknown
    have hcolumn : (row.exitIp.map IpAddress.compressed).getD "" = known.compressed := by
      rw [← hsame, Option.mem_def.mp hknown]
      rfl
    rw [hcolumn] at hexpected
    have hcompressed := hexpected.resolve_left (compressed_ne_empty known)
    exact IpAddress.compressed_injective (hcompressed.symm.trans htext)
  have htrusted : r.egressTrusted = false := hspec.trusted
  refine ⟨?_, ?_, ?_⟩
  · simp [observeLive, Proxy.workerResult, htrusted]
  · simp [observeLive, Proxy.workerResult, htrusted, EarnProxy.egressChanged]
  · cases hknown : row'.exitIp with
    | none => simp [observeLive, EarnProxy.egressChanged, hknown]
    | some known =>
      obtain rfl := hrow known hknown
      simp [observeLive, Proxy.workerResult, EarnProxy.egressChanged, hknown, hnormal]

/-- The worker makes the strong check: the row is not checked fast, or the fast check does not
settle it. -/
def Proxy.Escalates (row : Proxy) (env : CheckEnv) (fetch : String → String → ProbeOutcome)
    (unavailable : List String) : Prop :=
  row.FastMode → ∃ r, row.fastCheck env fetch unavailable = some r ∧ r.Unsettled

/-- The ways for a check to end: an exception before the strong check, the strong check, or a fast
check that settles it. -/
theorem checkOne_cases (env : CheckEnv) (fetch : String → String → ProbeOutcome) (row : Proxy)
    (hint : Option String) (unavailable unavailable' : List String) :
    (checkOne env fetch row hint unavailable unavailable' = none ∧
        (hint = none ∨ ¬ row.Escalates env fetch unavailable)) ∨
      (∃ setting, hint = some setting ∧ row.Escalates env fetch unavailable ∧
        checkOne env fetch row hint unavailable unavailable' =
          (checkProxyStrong env (row.checkedProtocol setting) unavailable').map
            fun settled => .strong settled.1) ∨
      ∃ r, checkOne env fetch row hint unavailable unavailable' = some (.fast r) ∧
        row.fastCheck env fetch unavailable = some r ∧ ¬ r.Unsettled ∧
        ¬ row.Escalates env fetch unavailable := by
  cases hint with
  | none => exact .inl ⟨rfl, .inl rfl⟩
  | some setting =>
    by_cases hfast : row.FastMode
    · cases hcheck : row.fastCheck env fetch unavailable with
      | none =>
        refine .inl ⟨by simp [checkOne, hfast, hcheck], .inr fun hescalates => ?_⟩
        obtain ⟨r, hr, -⟩ := hescalates hfast
        simp [hcheck] at hr
      | some r =>
        by_cases hunsettled : r.Unsettled
        · exact .inr (.inl ⟨setting, rfl, fun _ => ⟨r, hcheck, hunsettled⟩,
            by simp [checkOne, hfast, hcheck, hunsettled]⟩)
        · refine .inr (.inr ⟨r, by simp [checkOne, hfast, hcheck, hunsettled], rfl, hunsettled, ?_⟩)
          intro hescalates
          obtain ⟨r', hr', hunsettled'⟩ := hescalates hfast
          obtain rfl := Option.some.inj (hcheck.symm.trans hr')
          exact hunsettled hunsettled'
    · exact .inr (.inl ⟨setting, rfl, fun h => absurd h hfast, by simp [checkOne, hfast]⟩)

/-- What a check of the worker can do to a row, whatever the network answers and whatever raises.
The result counts as a failure exactly when the strong check is made and condemns the proxy, so
neither a broken probe nor an exception is ever held against it. No result asks for a confirmation
of its address. And where the row still has the address that was probed, a live result of the fast
check leaves it, and the eligibility that goes with it, alone; it ends the cycle of the row only
where that has gone stale. -/
theorem health_check_verdict (env : CheckEnv) (fetch : String → String → ProbeOutcome) (row : Proxy)
    (hint : Option String) (unavailable unavailable' : List String) :
    let checked := checkOne env fetch row hint unavailable unavailable'
    let result := row.workerResult checked
    (result.branch = .failure ↔ row.Escalates env fetch unavailable ∧
      ∃ setting ∈ hint, env.Condemns unavailable' (row.checkedProtocol setting)) ∧
    result.branch ≠ .egressUnconfirmed ∧
    ∀ r, checked = some (.fast r) → result.branch = .live →
      ∀ row', row'.exitIp = row.exitIp → ∀ staleMinutes current,
        let o := observeLive row' result staleMinutes current
        o.trustedExitIp = none ∧ o.breaksCycle = o.staleRecovery ∧
          (row'.exitIp.isSome → o.losesEligibility = false) := by
  intro checked result
  rcases checkOne_cases env fetch row hint unavailable unavailable' with
    ⟨hnone, hearly⟩ | ⟨setting, rfl, hescalates, hstrong⟩ | ⟨r, hr, hcheck, hsettled, hescalates⟩
  · have hresult : result = row.workerResult none := congrArg row.workerResult hnone
    refine ⟨?_, ?_, fun r hr => ?_⟩
    · rw [hresult]
      refine iff_of_false (by simp [Proxy.workerResult, HealthResult.branch]) ?_
      rintro ⟨hescalates, setting, hsetting, -⟩
      exact hearly.elim (fun h => by simp [h] at hsetting) fun h => h hescalates
    · rw [hresult]
      simp [Proxy.workerResult, HealthResult.branch]
    · cases hnone.symm.trans hr
  · obtain ⟨hfailure, hconfirmed⟩ :=
      branch_strong env row (row.checkedProtocol setting) unavailable'
    rw [← hstrong] at hfailure hconfirmed
    refine ⟨hfailure.trans ⟨fun h => ⟨hescalates, setting, rfl, h⟩, ?_⟩, hconfirmed, fun r hr => ?_⟩
    · rintro ⟨-, setting', hsetting, h⟩
      obtain rfl := Option.some.inj hsetting
      exact h
    · obtain ⟨_, -, hfast⟩ := Option.map_eq_some_iff.mp (hstrong.symm.trans hr)
      cases hfast
  · have hresult : result = row.workerResult (some (.fast r)) := congrArg row.workerResult hr
    obtain ⟨hfailure, hconfirmed⟩ := branch_fast row hsettled (fastCheck_unsettled hcheck)
    refine ⟨?_, hresult ▸ hconfirmed, fun r' hr' hlive row' hsame staleMinutes current => ?_⟩
    · rw [hresult]
      exact iff_of_false hfailure fun h => hescalates h.1
    · obtain rfl : r = r' := by
        have hfast := Option.some.inj (hr.symm.trans hr')
        exact Checked.fast.inj hfast
      have hstatus : r.status = .live := by
        rw [hresult] at hlive
        cases hstatus : r.status with
        | live => rfl
        | needsConfirmation => exact absurd (fastCheck_unsettled hcheck hstatus) hsettled
        | blocked | inconclusive =>
          simp [Proxy.workerResult, HealthResult.branch, FastStatus.text, hstatus] at hlive
      obtain ⟨htrusted, hchanged, hmismatch⟩ :=
        fastCheck_live hcheck hstatus hsame staleMinutes current
      rw [hresult]
      have hcycle : (observeLive row' (row.workerResult (some (.fast r))) staleMinutes
          current).breaksCycle = (observeLive row' (row.workerResult (some (.fast r)))
            staleMinutes current).staleRecovery := by
        simp [LiveObservation.breaksCycle, hchanged, hmismatch]
      refine ⟨htrusted, hcycle, fun hknown => ?_⟩
      simp only [LiveObservation.losesEligibility, hchanged, hmismatch, Bool.false_or]
      simp [observeLive, Option.isNone_eq_false_iff.mpr hknown]

end Worker

end EarnProxy

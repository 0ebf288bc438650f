import Mathlib.Algebra.Order.Ring.Nat
import Mathlib.Logic.Function.Basic
import EarnProxy.FastCheck
import EarnProxy.Library.Breaker

/-!
# The breaker of the probes

`unavailable_probe_endpoints` and `record_fast_probe_result` of `app/check_service.py`. Each of them
takes the lock after it has looked at the clock, so the times of the calls need not come in order.
The clock is monotonic and counts microseconds from its own start.
-/

namespace EarnProxy

/-- An entry of `_probe_endpoint_state`. -/
structure EndpointState where
  failures : Nat
  openUntil : Nat
  deriving DecidableEq, Repr

abbrev ProbeEndpointState := String → Option EndpointState

def probeCircuitFailureThreshold : Nat := 3

/-- `PROBE_CIRCUIT_COOLDOWN_SECONDS`. -/
def probeCircuitCooldown : Nat := 300 * 1000000

/-- The entries that `unavailable_probe_endpoints` keeps. -/
def ProbeEndpointState.dropExpired (state : ProbeEndpointState) (now : Nat) :
    ProbeEndpointState := fun endpoint =>
  (state endpoint).filter fun s => !(decide (s.openUntil ≠ 0) && decide (s.openUntil ≤ now))

/-- What `unavailable_probe_endpoints` returns, as far as the checks ask for it. -/
def ProbeEndpointState.unavailable (state : ProbeEndpointState) (now : Nat) : List String :=
  probeUrls.filter fun endpoint =>
    (state.dropExpired now endpoint).any fun s => now < s.openUntil

/-- `record_fast_probe_result`. -/
def ProbeEndpointState.record (state : ProbeEndpointState) (result : FastResult) (now : Nat) :
    ProbeEndpointState :=
  let failed := Text.strip result.failedProbeEndpoint
  let successful := Text.strip result.probeEndpoint
  if result.failureKind = "probe_endpoint" ∧ failed ≠ "" then
    let failures := ((state failed).map EndpointState.failures).getD 0 + 1
    Function.update state failed (some
      { failures
        openUntil := if probeCircuitFailureThreshold ≤ failures then now + probeCircuitCooldown
          else 0 })
  else if result.status = .live ∧ successful ≠ "" then Function.update state successful none
  else state

/-- A call of one of the two. -/
inductive ProbeCall where
  | unavailable (now : Nat)
  | record (result : FastResult) (now : Nat)
  deriving DecidableEq, Repr

/-- The state after the calls, newest first. -/
def ProbeEndpointState.after : List ProbeCall → ProbeEndpointState
  | [] => fun _ => none
  | .unavailable now :: calls => (ProbeEndpointState.after calls).dropExpired now
  | .record result now :: calls => (ProbeEndpointState.after calls).record result now

/-! ## The breaker behind it -/

/-- What a call says to the breaker. -/
def ProbeCall.event? : ProbeCall → Option (Breaker.Event String Nat)
  | .unavailable now => some (.look now)
  | .record result now =>
    let failed := Text.strip result.failedProbeEndpoint
    let successful := Text.strip result.probeEndpoint
    if result.failureKind = "probe_endpoint" ∧ failed ≠ "" then some (.fail failed now)
    else if result.status = .live ∧ successful ≠ "" then some (.succeed successful)
    else none

/-- The entry of the breaker as it is stored: a closed one has the time zero. -/
def stored (entry : Breaker.Entry Nat) : EndpointState where
  failures := entry.failures
  openUntil := entry.openUntil.getD 0

abbrev probeEntry (endpoint : String) (calls : List ProbeCall) : Option (Breaker.Entry Nat) :=
  Breaker.entry probeCircuitFailureThreshold probeCircuitCooldown endpoint
    (calls.filterMap ProbeCall.event?)

/-- No deadline is the time zero. -/
theorem probeEntry_deadline {endpoint : String} {calls : List ProbeCall}
    {entry : Breaker.Entry Nat} (h : probeEntry endpoint calls = some entry) :
    ∀ deadline ∈ entry.openUntil, deadline ≠ 0 := by
  obtain ⟨counted, -, ⟨hnone, -⟩ | ⟨last, earlier, rfl, hsome⟩⟩ :=
    Breaker.entry_counts probeCircuitFailureThreshold probeCircuitCooldown endpoint
      (calls.filterMap ProbeCall.event?)
  · cases hnone.symm.trans h
  · obtain rfl := Option.some.inj (hsome.symm.trans h)
    intro deadline hdeadline
    have hpos : 0 < probeCircuitCooldown := by decide
    grind

theorem expired_stored {entry : Breaker.Entry Nat}
    (hpos : ∀ deadline ∈ entry.openUntil, deadline ≠ 0) (now : Nat) :
    (decide ((stored entry).openUntil ≠ 0) && decide ((stored entry).openUntil ≤ now)) =
      entry.expired now := by
  obtain ⟨failures, deadline⟩ := entry
  cases deadline with
  | none => simp [stored, Breaker.Entry.expired]
  | some deadline =>
    simp only [stored, Breaker.Entry.expired, Option.getD_some, Option.any_some, ne_eq,
      hpos deadline rfl, not_false_eq_true, decide_true, Bool.true_and]
    exact decide_eq_decide.mpr Iff.rfl

/-- Counting one more failure commutes with storing. -/
theorem stored_fail (entry : Option (Breaker.Entry Nat)) (now : Nat) :
    stored ((entry.getD ⟨0, none⟩).fail probeCircuitFailureThreshold probeCircuitCooldown now) =
      { failures := ((entry.map stored).map EndpointState.failures).getD 0 + 1
        openUntil := if probeCircuitFailureThreshold ≤
            ((entry.map stored).map EndpointState.failures).getD 0 + 1 then
          now + probeCircuitCooldown else 0 } := by
  cases entry with
  | none => rfl
  | some entry =>
    by_cases hmany : probeCircuitFailureThreshold ≤ entry.failures + 1 <;>
      simp [stored, Breaker.Entry.fail, hmany]

/-- The dictionary is the breaker's. -/
theorem after_eq (calls : List ProbeCall) (endpoint : String) :
    ProbeEndpointState.after calls endpoint = (probeEntry endpoint calls).map stored := by
  induction calls with
  | nil => rfl
  | cons call calls ih =>
    cases call with
    | unavailable now =>
      have hentry : probeEntry endpoint (.unavailable now :: calls) =
          (probeEntry endpoint calls).filter fun entry => !entry.expired now := rfl
      rw [ProbeEndpointState.after, ProbeEndpointState.dropExpired, ih, hentry]
      cases hstored : probeEntry endpoint calls with
      | none => rfl
      | some entry =>
        simp only [Option.map_some, Option.filter_some,
          expired_stored (probeEntry_deadline hstored) now]
        split <;> rfl
    | record result now =>
      by_cases hfail : result.failureKind = "probe_endpoint" ∧
          Text.strip result.failedProbeEndpoint ≠ ""
      · have hevent : (ProbeCall.record result now).event? =
            some (.fail (Text.strip result.failedProbeEndpoint) now) := if_pos hfail
        simp only [ProbeEndpointState.after, ProbeEndpointState.record, if_pos hfail, probeEntry,
          List.filterMap_cons, hevent, Breaker.entry]
        by_cases hkey : Text.strip result.failedProbeEndpoint = endpoint
        · subst hkey
          rw [Function.update_self, if_pos rfl, ih, Option.map_some, stored_fail]
        · rw [Function.update_of_ne (Ne.symm hkey), if_neg hkey, ih]
      · by_cases hlive : result.status = .live ∧ Text.strip result.probeEndpoint ≠ ""
        · have hevent : (ProbeCall.record result now).event? =
              some (.succeed (Text.strip result.probeEndpoint)) :=
            (if_neg hfail).trans (if_pos hlive)
          simp only [ProbeEndpointState.after, ProbeEndpointState.record, if_neg hfail,
            if_pos hlive, probeEntry, List.filterMap_cons, hevent, Breaker.entry]
          by_cases hkey : Text.strip result.probeEndpoint = endpoint
          · subst hkey
            rw [Function.update_self, if_pos rfl, Option.map_none]
          · rw [Function.update_of_ne (Ne.symm hkey), if_neg hkey, ih]
        · have hevent : (ProbeCall.record result now).event? = none :=
            (if_neg hfail).trans (if_neg hlive)
          simp only [ProbeEndpointState.after, ProbeEndpointState.record, if_neg hfail,
            if_neg hlive, probeEntry, List.filterMap_cons, hevent]
          exact ih

/-- An endpoint is unavailable exactly when the breaker shuts it out. -/
theorem mem_unavailable {calls : List ProbeCall} {endpoint : String} {now : Nat} :
    endpoint ∈ (ProbeEndpointState.after calls).unavailable now ↔ endpoint ∈ probeUrls ∧
      Breaker.IsOpen probeCircuitFailureThreshold probeCircuitCooldown
        (calls.filterMap ProbeCall.event?) endpoint now := by
  rw [ProbeEndpointState.unavailable, List.mem_filter, ProbeEndpointState.dropExpired, after_eq]
  refine and_congr_right fun _ => ?_
  cases hentry : probeEntry endpoint calls with
  | none => simp [Breaker.IsOpen, hentry]
  | some entry =>
    obtain ⟨failures, deadline⟩ := entry
    have hopen : Breaker.IsOpen probeCircuitFailureThreshold probeCircuitCooldown
        (calls.filterMap ProbeCall.event?) endpoint now ↔ ∃ d ∈ deadline, now < d := by
      simp [Breaker.IsOpen, hentry]
    rw [hopen]
    cases deadline with
    | none => simp [stored, Option.filter_some]
    | some deadline =>
      by_cases hnow : now < deadline
      · simp [stored, Option.filter_some, hnow, Nat.not_le.mpr hnow]
      · simp [stored, Option.filter_some, hnow]
        grind

/-! ## The law -/

/-- The failures of an endpoint that the calls have recorded since its last success, newest first.
-/
def probeFailures (endpoint : String) (calls : List ProbeCall) : List Nat :=
  Breaker.failures endpoint (calls.filterMap ProbeCall.event?)

/-- The calls record three failures of the endpoint and no success, and none of them, nor one at
`now`, comes 300 seconds or more after one of these failures. -/
structure Burst (endpoint : String) (calls : List ProbeCall) (now : Nat) : Prop where
  many : 3 ≤ (probeFailures endpoint calls).length
  quiet : Breaker.Event.succeed endpoint ∉ calls.filterMap ProbeCall.event?
  recent : ∀ failure ∈ probeFailures endpoint calls, now < failure + probeCircuitCooldown
  watched : ∀ now', ProbeCall.unavailable now' ∈ calls →
    ∀ failure ∈ probeFailures endpoint calls, now' < failure + probeCircuitCooldown

/-- The probes are texts without blanks around them. -/
theorem strip_probe {endpoint : String} (h : endpoint ∈ probeUrls) :
    Text.strip endpoint = endpoint := by
  have hall : ∀ endpoint ∈ probeUrls, Text.strip endpoint = endpoint := by decide +kernel
  exact hall endpoint h

theorem probeCandidates_available {probeIndex : Int} {unavailable : List String}
    {candidate : Nat × String} (h : candidate ∈ probeCandidates probeIndex unavailable) :
    candidate.2 ∈ probeUrls ∧ candidate.2 ∉ unavailable := by
  obtain ⟨offset, -, hurl⟩ := List.mem_filterMap.mp h
  obtain ⟨url, hget, hurl⟩ := Option.bind_eq_some_iff.mp hurl
  split at hurl
  · cases hurl
  rename_i hstripped
  obtain rfl := Option.some.inj hurl
  have hmem : url ∈ probeUrls := List.mem_of_getElem? hget
  exact ⟨hmem, fun hunavailable =>
    hstripped (List.mem_map.mpr ⟨url, hunavailable, strip_probe hmem⟩)⟩

/-- The breaker after any calls of any workers, in whatever order their clocks put them. An endpoint
is unavailable only after three failures since its last success, and less than 300 seconds after the
last of them. It is unavailable after a burst. While it is, neither check asks it over TLS. -/
theorem probe_breaker (calls : List ProbeCall) (endpoint : String) (now : Nat) :
    let unavailable := (ProbeEndpointState.after calls).unavailable now
    (endpoint ∈ unavailable → 3 ≤ (probeFailures endpoint calls).length ∧
      ∃ last ∈ (probeFailures endpoint calls).head?, now < last + probeCircuitCooldown) ∧
    (∀ burst older, calls = burst ++ older → endpoint ∈ probeUrls → Burst endpoint burst now →
      endpoint ∈ unavailable) ∧
    (endpoint ∈ unavailable →
      (∀ env fetch setting probeIndex expectedExitIp r,
        checkProxyFast env fetch setting probeIndex expectedExitIp unavailable = some r →
          r.probeEndpoint ≠ endpoint) ∧
      ∀ protocol n, ∀ group ∈ [ProbeGroup.verified, ProbeGroup.insecure],
        ∀ site ∈ groupSites unavailable protocol n group, site.probe ≠ endpoint) := by
  intro unavailable
  refine ⟨fun hmem => ?_, ?_, fun hmem => ⟨?_, ?_⟩⟩
  · exact (mem_unavailable.mp hmem).2.failures
  · rintro burst older rfl hprobe hburst
    refine mem_unavailable.mpr ⟨hprobe, ?_⟩
    rw [List.filterMap_append]
    refine Breaker.isOpen_of_burst (by decide) hburst.quiet ?_ hburst.many
    intro now' hlook failure hfailure
    rcases List.mem_cons.mp hlook with hlook | hlook
    · obtain rfl := Breaker.Event.look.inj hlook
      exact hburst.recent failure hfailure
    · obtain ⟨call, hcall, hevent⟩ := List.mem_filterMap.mp hlook
      cases call with
      | unavailable now =>
        obtain rfl := Breaker.Event.look.inj (Option.some.inj hevent)
        exact hburst.watched _ hcall failure hfailure
      | record result now =>
        simp only [ProbeCall.event?] at hevent
        split_ifs at hevent <;> cases hevent
  · rintro env fetch setting probeIndex expectedExitIp r hcheck rfl
    obtain ⟨-, -, -, -, hprobe⟩ | ⟨-, -, -, -, hprobe⟩ | ⟨_, -, candidate, hcandidate, -, hspec⟩ :=
      checkProxyFast_cases hcheck
    · exact absurd (mem_unavailable.mp hmem).1 (by rw [hprobe]; decide)
    · exact absurd (mem_unavailable.mp hmem).1 (by rw [hprobe]; decide)
    · have hasked : r.probeEndpoint = candidate.2 := hspec.probe
      exact (probeCandidates_available (List.mem_of_mem_head? hcandidate)).2 (hasked ▸ hmem)
  · rintro protocol n group hgroup site hsite rfl
    have hsites : groupSites unavailable protocol n group =
        ((probeCandidates 0 unavailable).map Prod.snd).map
          fun probe => { protocol, attempt := n, group, probe } := by
      rcases List.mem_pair.mp hgroup with rfl | rfl <;> rfl
    rw [hsites] at hsite
    obtain ⟨probe, hprobe, rfl⟩ := List.mem_map.mp hsite
    obtain ⟨candidate, hcandidate, rfl⟩ := List.mem_map.mp hprobe
    exact (probeCandidates_available hcandidate).2 hmem

/-- Three failures within a minute, and the endpoint that they leave out. -/
example :
    let failed (now : Nat) : ProbeCall := .record
      { status := .inconclusive, protocol := "http", failureKind := "probe_endpoint"
        failedProbeEndpoint := proxioWhoamiUrl } now
    let calls := [failed 60000000, .unavailable 50000000, failed 30000000, failed 0]
    (ProbeEndpointState.after calls).unavailable 359999999 = [proxioWhoamiUrl] ∧
      (ProbeEndpointState.after calls).unavailable 360000000 = [] := by
  decide +kernel

end EarnProxy

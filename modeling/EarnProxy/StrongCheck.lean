import EarnProxy.Checker

/-!
# What the strong check concludes

A trusted egress needs a quorum of the verified probes of one attempt. A proxy is found dead in the
case that `CheckEnv.Condemns` describes, whether or not it answers.
-/

namespace EarnProxy

section Observations

variable (env : CheckEnv)

/-- The response to a request, under its probe. -/
def CheckEnv.answer? (site : Site) : Option (String × Response) :=
  match env.outcome site with
  | .answered response => some (site.probe, response)
  | .failed _ => none

/-- The requests of a group that the clock leaves time for. -/
def CheckEnv.requests (unavailable : List String) (protocol : String) (n : Nat)
    (group : ProbeGroup) : List Site :=
  (groupSites unavailable protocol n group).takeWhile fun site => !env.late site

/-- The address that a request observes. -/
def CheckEnv.observed (requireTls : Bool) (site : Site) : Option String :=
  match env.outcome site with
  | .answered response => (quorumValue env requireTls site.probe response).filter (· ≠ "")
  | .failed _ => none

end Observations

section Quorum

variable {env : CheckEnv} {requireTls : Bool}

/-- The values that `_quorum` counts are those that the requests observe. -/
theorem values_eq_observed (sites : List Site) :
    ∀ values, (sites.filterMap env.answer?).mapM
        (fun result => quorumValue env requireTls result.1 result.2) = some values →
      values.filter (· ≠ "") = sites.filterMap (env.observed requireTls) := by
  induction sites with
  | nil =>
    intro values hvalues
    simp only [List.filterMap_nil, List.mapM_nil] at hvalues
    obtain rfl := Option.some.inj hvalues
    rfl
  | cons site sites ih =>
    intro values hvalues
    cases houtcome : env.outcome site with
    | failed error =>
      have hanswer : env.answer? site = none := by simp [CheckEnv.answer?, houtcome]
      have hobserved : env.observed requireTls site = none := by simp [CheckEnv.observed, houtcome]
      rw [List.filterMap_cons_none hanswer] at hvalues
      rw [List.filterMap_cons_none hobserved]
      exact ih values hvalues
    | answered response =>
      have hanswer : env.answer? site = some (site.probe, response) := by
        simp [CheckEnv.answer?, houtcome]
      rw [List.filterMap_cons_some hanswer, List.mapM_cons] at hvalues
      obtain ⟨value, hvalue, hvalues⟩ := Option.bind_eq_some_iff.mp hvalues
      obtain ⟨rest, hrest, hvalues⟩ := Option.bind_eq_some_iff.mp hvalues
      obtain rfl := Option.some.inj hvalues
      have hih := ih rest hrest
      by_cases hempty : value = ""
      · have hobserved : env.observed requireTls site = none := by
          simp [CheckEnv.observed, houtcome, hvalue, hempty]
        rw [List.filterMap_cons_none hobserved, ← hih]
        simp [hempty]
      · have hobserved : env.observed requireTls site = some value := by
          simp [CheckEnv.observed, houtcome, hvalue, hempty]
        rw [List.filterMap_cons_some hobserved, ← hih]
        simp [hempty]

/-- The value that a quorum of the observations agrees on. -/
def agreed (values : List String) : String :=
  ((majority values).filter fun value => 2 ≤ values.count value).getD ""

theorem quorum_eq (results : List (String × Response)) :
    quorum env results requireTls =
      (results.mapM fun result => quorumValue env requireTls result.1 result.2).map fun values =>
        agreed (values.filter (· ≠ "")) := by
  unfold quorum
  cases results.mapM fun result => quorumValue env requireTls result.1 result.2 with
  | none => rfl
  | some values =>
    rw [Option.map_some, Option.bind_eq_bind, Option.bind_some]
    dsimp only
    generalize values.filter (· ≠ "") = kept
    unfold agreed majority
    cases mostCommon kept with
    | none => rfl
    | some value =>
      by_cases hmore : kept.length < 2 * kept.count value <;>
        by_cases hcount : 2 ≤ kept.count value <;> simp [Option.filter_some, hcount, hmore]

theorem agreed_spec {values : List String} {value : String} (h : agreed values = value)
    (hvalue : value ≠ "") : 2 ≤ values.count value ∧ values.length < 2 * values.count value := by
  unfold agreed at h
  cases hmajority : (majority values).filter fun value => 2 ≤ values.count value with
  | none =>
    rw [hmajority] at h
    exact absurd h.symm hvalue
  | some other =>
    rw [hmajority, Option.getD_some] at h
    obtain rfl := h
    obtain ⟨hmost, hcount⟩ := Option.filter_eq_some_iff.mp hmajority
    exact ⟨of_decide_eq_true hcount, majority_eq_some_iff.mp hmost⟩

/-- The quorum of the responses to some requests is a quorum of what these observe. -/
theorem quorum_answers {sites : List Site} {ip : String}
    (h : quorum env (sites.filterMap env.answer?) requireTls = some ip) :
    agreed (sites.filterMap (env.observed requireTls)) = ip := by
  rw [quorum_eq] at h
  obtain ⟨values, hvalues, rfl⟩ := Option.map_eq_some_iff.mp h
  rw [values_eq_observed sites values hvalues]

theorem mapM_perm {α β : Type} {f : α → Option β} {xs ys : List α} (h : xs.Perm ys) :
    Option.Rel List.Perm (xs.mapM f) (ys.mapM f) := by
  induction h with
  | nil => exact .some (.refl _)
  | @cons x xs ys _ ih =>
    rw [List.mapM_cons, List.mapM_cons]
    cases f x with
    | none => exact .none
    | some value =>
      generalize xs.mapM f = values, ys.mapM f = values' at ih ⊢
      cases ih with
      | none => exact .none
      | some hperm => exact .some (hperm.cons value)
  | swap x y xs =>
    simp only [List.mapM_cons]
    cases f x with
    | none => cases f y <;> exact .none
    | some value =>
      cases f y with
      | none => exact .none
      | some other =>
        cases xs.mapM f with
        | none => exact .none
        | some values => exact .some (.swap value other values)
  | @trans xs ys zs _ _ ih ih' =>
    generalize xs.mapM f = values, ys.mapM f = values', zs.mapM f = values'' at ih ih' ⊢
    cases ih with
    | none => exact ih'
    | some hperm =>
      cases ih' with
      | some hperm' => exact .some (hperm.trans hperm')

/-- The value does not depend on the order of the results. -/
theorem quorum_perm {results results' : List (String × Response)} (h : results.Perm results') :
    quorum env results requireTls = quorum env results' requireTls := by
  rw [quorum_eq, quorum_eq]
  have hvalues := mapM_perm (f := fun result : String × Response =>
    quorumValue env requireTls result.1 result.2) h
  generalize (results.mapM _ : Option (List String)) = values,
    (results'.mapM _ : Option (List String)) = values' at hvalues ⊢
  cases hvalues with
  | none => rfl
  | some hperm =>
    have hkept := hperm.filter (· ≠ "")
    unfold agreed
    simp only [Option.map_some]
    rw [majority_perm hkept]
    simp only [hkept.count_eq]

end Quorum

/-! ## Groups -/

section Groups

variable {env : CheckEnv}

/-- What a round of a loop over the probes does. -/
theorem visit_cases {run run' : GroupRun} {site : Site} (h : run.visit env site = some run') :
    (∃ error, error ≠ "" ∧ env.outcome site = .failed error ∧ run' = { run with
        findings := { run.findings with
          asked := run.findings.asked ++ [site], errors := run.findings.errors ++ [error]
          sawTransient := true } }) ∨
      (∃ response blocked, env.outcome site = .answered response ∧
        captiveError env response.body response.writeOut = some blocked ∧ blocked ≠ "" ∧
        run' = { run with
          findings := { run.findings with asked := run.findings.asked ++ [site] }
          protocolBlocked := run.protocolBlocked ++ [blocked] }) ∨
      ∃ response evidence, env.outcome site = .answered response ∧
        captiveError env response.body response.writeOut = some "" ∧
        recordResponseFailure response site.probe false = some evidence ∧
        run' = { run with
          findings := { run.findings with asked := run.findings.asked ++ [site] }.merge evidence
          results := run.results ++ [(site.probe, response)] } := by
  unfold GroupRun.visit at h
  cases houtcome : env.outcome site with
  | failed error =>
    simp only [houtcome] at h
    split at h
    · cases h
    · rename_i herror
      obtain rfl := Option.some.inj h
      exact .inl ⟨error, herror, rfl, rfl⟩
  | answered response =>
    simp only [houtcome] at h
    obtain ⟨blocked, hblocked, h⟩ := Option.bind_eq_some_iff.mp h
    split at h
    · rename_i hne
      obtain rfl := Option.some.inj h
      exact .inr (.inl ⟨response, blocked, rfl, hblocked, hne, rfl⟩)
    · rename_i hempty
      obtain rfl := not_not.mp hempty
      obtain ⟨evidence, hevidence, h⟩ := Option.bind_eq_some_iff.mp h
      obtain rfl := Option.some.inj h
      exact .inr (.inr ⟨response, evidence, rfl, hblocked, hevidence, rfl⟩)

theorem visitAll_cons {run run' : GroupRun} {site : Site} {rest : List Site}
    (hlate : env.late site = false) (h : run.visitAll env (site :: rest) = some run') :
    ∃ next, run.visit env site = some next ∧ next.visitAll env rest = some run' := by
  unfold GroupRun.visitAll at h
  rw [hlate, if_neg (by decide)] at h
  cases hvisit : run.visit env site with
  | none =>
    rw [hvisit] at h
    cases h
  | some next =>
    rw [hvisit] at h
    exact ⟨next, rfl, h⟩

/-- A group without a captive portal keeps the responses to its requests. -/
theorem visitAll_results {sites : List Site} {run run' : GroupRun}
    (h : run.visitAll env sites = some run') (hblocked : run'.protocolBlocked = []) :
    run.protocolBlocked = [] ∧ run'.results =
      run.results ++ (sites.takeWhile fun site => !env.late site).filterMap env.answer? := by
  induction sites generalizing run with
  | nil =>
    obtain rfl := Option.some.inj h
    simpa using hblocked
  | cons site rest ih =>
    cases hlate : env.late site with
    | true =>
      unfold GroupRun.visitAll at h
      rw [hlate, if_pos rfl] at h
      obtain rfl := Option.some.inj h
      simpa [hlate] using hblocked
    | false =>
      obtain ⟨next, hvisit, hrest⟩ := visitAll_cons hlate h
      obtain ⟨hnext, hresults⟩ := ih hrest
      rw [List.takeWhile_cons, hlate, hresults]
      rcases visit_cases hvisit with ⟨error, _, houtcome, rfl⟩ | ⟨response, blocked, _, _, _, rfl⟩ |
        ⟨response, evidence, houtcome, _, _, rfl⟩
      · have hanswer : env.answer? site = none := by simp [CheckEnv.answer?, houtcome]
        refine ⟨hnext, ?_⟩
        simp [hanswer]
      · simp at hnext
      · have hanswer : env.answer? site = some (site.probe, response) := by
          simp [CheckEnv.answer?, houtcome]
        refine ⟨hnext, ?_⟩
        simp [hanswer]

end Groups

/-! ## Attempts -/

section Attempts

variable {env : CheckEnv} {unavailable : List String} {protocol : String} {n : Nat}
  {findings : Findings}

/-- What an attempt without a captive portal has gone through. -/
structure AttemptRun (env : CheckEnv) (unavailable : List String) (protocol : String) (n : Nat)
    (findings : Findings) (verified insecure : GroupRun) (verifiedIp insecureIp : String) :
    Prop where
  verifiedRun : GroupRun.visitAll env { findings }
    (groupSites unavailable protocol n .verified) = some verified
  verifiedOpen : verified.protocolBlocked = []
  verifiedQuorum : quorum env verified.results true = some verifiedIp
  insecureRun : insecureRun env unavailable protocol n verified = some insecure
  insecureOpen : insecure.protocolBlocked = []
  insecureQuorum : quorum env insecure.results false = some insecureIp

/-- An attempt gives up, settles the check, or goes on to the next one. -/
theorem attempt_cases {ending : AttemptEnd}
    (h : attempt env unavailable protocol n findings = some ending) :
    (∃ run : GroupRun, run.protocolBlocked ≠ [] ∧ ending = run.giveUp protocol) ∨
      ∃ verified insecure verifiedIp insecureIp,
        AttemptRun env unavailable protocol n findings verified insecure verifiedIp insecureIp ∧
        ((verifiedIp ≠ "" ∧
            ending = .settled (verifiedResult protocol verifiedIp) insecure.findings) ∨
          verifiedIp = "" ∧ ∃ plain plainIp,
            GroupRun.visitAll env { findings := insecure.findings }
              (groupSites unavailable protocol n .plain) = some plain ∧
            plain.protocolBlocked = [] ∧ quorum env plain.results false = some plainIp ∧
            ((insecureIp ≠ "" ∧
                ending = .settled (insecureResult protocol insecureIp) plain.findings) ∨
              (plainIp ≠ "" ∧ ending = .settled (plainResult protocol plainIp) plain.findings) ∨
              insecureIp = "" ∧ plainIp = "" ∧ ending = .undecided plain.findings)) := by
  unfold attempt at h
  obtain ⟨verified, hverified, h⟩ := Option.bind_eq_some_iff.mp h
  split at h
  · rename_i hblocked
    obtain rfl := Option.some.inj h
    exact .inl ⟨verified, hblocked, rfl⟩
  rename_i hverifiedOpen
  obtain ⟨verifiedIp, hverifiedIp, h⟩ := Option.bind_eq_some_iff.mp h
  obtain ⟨insecure, hinsecure, h⟩ := Option.bind_eq_some_iff.mp h
  split at h
  · rename_i hblocked
    obtain rfl := Option.some.inj h
    exact .inl ⟨insecure, hblocked, rfl⟩
  rename_i hinsecureOpen
  obtain ⟨insecureIp, hinsecureIp, h⟩ := Option.bind_eq_some_iff.mp h
  have hrun : AttemptRun env unavailable protocol n findings verified insecure verifiedIp
      insecureIp :=
    ⟨hverified, not_not.mp hverifiedOpen, hverifiedIp, hinsecure, not_not.mp hinsecureOpen,
      hinsecureIp⟩
  split at h
  · rename_i hip
    obtain rfl := Option.some.inj h
    exact .inr ⟨_, _, _, _, hrun, .inl ⟨hip, rfl⟩⟩
  rename_i hip
  obtain ⟨plain, hplain, h⟩ := Option.bind_eq_some_iff.mp h
  split at h
  · rename_i hblocked
    obtain rfl := Option.some.inj h
    exact .inl ⟨plain, hblocked, rfl⟩
  rename_i hplainOpen
  obtain ⟨plainIp, hplainIp, h⟩ := Option.bind_eq_some_iff.mp h
  refine .inr ⟨_, _, _, _, hrun, .inr ⟨not_not.mp hip, plain, plainIp, hplain,
    not_not.mp hplainOpen, hplainIp, ?_⟩⟩
  split at h
  · rename_i hinsecureNe
    obtain rfl := Option.some.inj h
    exact .inl ⟨hinsecureNe, rfl⟩
  rename_i hinsecureEq
  split at h
  · rename_i hplainNe
    obtain rfl := Option.some.inj h
    exact .inr (.inl ⟨hplainNe, rfl⟩)
  rename_i hplainEq
  obtain rfl := Option.some.inj h
  exact .inr (.inr ⟨not_not.mp hinsecureEq, not_not.mp hplainEq, rfl⟩)

end Attempts

/-! ## Loops -/

section Loops

variable {env : CheckEnv} {unavailable : List String} {result : StrongResult}

/-- A result that the loops return comes from an attempt. -/
theorem attempts_settled {protocol : String} {findings findings' : Findings} {ns : List Nat}
    (h : attempts env unavailable protocol findings ns = some (.inl (result, findings'))) :
    ∃ n ∈ ns, ∃ before, attempt env unavailable protocol n before =
      some (.settled result findings') := by
  induction ns generalizing findings with
  | nil => cases h
  | cons n rest ih =>
    unfold attempts at h
    split at h
    · cases h
    cases hattempt : attempt env unavailable protocol n findings with
    | none =>
      rw [hattempt] at h
      cases h
    | some ending =>
      rw [hattempt] at h
      cases ending with
      | settled result' findings'' =>
        cases h
        exact ⟨n, List.mem_cons_self, findings, hattempt⟩
      | blocked findings'' => cases h
      | undecided findings'' =>
        obtain ⟨m, hm, hsettled⟩ := ih h
        exact ⟨m, List.mem_cons_of_mem _ hm, hsettled⟩

theorem protocols_settled {findings findings' : Findings} {ps : List String}
    (h : protocols env unavailable findings ps = some (.inl (result, findings'))) :
    ∃ protocol ∈ ps, ∃ n < probeAttempts, ∃ before, attempt env unavailable protocol n before =
      some (.settled result findings') := by
  induction ps generalizing findings with
  | nil => cases h
  | cons protocol rest ih =>
    unfold protocols at h
    split at h
    · cases h
    cases hattempts : attempts env unavailable protocol findings (List.range probeAttempts) with
    | none =>
      rw [hattempts] at h
      cases h
    | some ending =>
      rw [hattempts] at h
      cases ending with
      | inl settled =>
        cases h
        obtain ⟨n, hn, hsettled⟩ := attempts_settled hattempts
        exact ⟨protocol, List.mem_cons_self, n, List.mem_range.mp hn, hsettled⟩
      | inr findings'' =>
        obtain ⟨other, hother, hsettled⟩ := ih h
        exact ⟨other, List.mem_cons_of_mem _ hother, hsettled⟩

/-- A check ends with the result of an attempt, or concludes from what it has found. -/
theorem checkProxyStrong_cases {setting : String} {findings : Findings}
    (h : checkProxyStrong env setting unavailable = some (result, findings)) :
    (∃ protocol ∈ proxyProtocols setting, ∃ n < probeAttempts, ∃ before,
        attempt env unavailable protocol n before = some (.settled result findings)) ∨
      protocols env unavailable {} (proxyProtocols setting) = some (.inr findings) ∧
        result = findings.conclude := by
  unfold checkProxyStrong at h
  obtain ⟨ending, hending, h⟩ := Option.map_eq_some_iff.mp h
  cases ending with
  | inl settled =>
    obtain rfl : settled = (result, findings) := h
    exact .inl (protocols_settled hending)
  | inr findings' =>
    cases h
    exact .inr ⟨hending, rfl⟩

end Loops

/-! ## Trusted egress -/

/-- A verified probe has answered from its own host, with a certificate that curl accepts, that the
exit address is `ip`. -/
structure CheckEnv.Attests (env : CheckEnv) (site : Site) (ip : String) : Prop where
  verified : site.group = .verified
  https : site.probe ∈ probeUrls
  answered : ∃ response, env.outcome site = .answered response ∧ response.returncode = 0 ∧
    (∃ code, codeValue (metaCode response.writeOut) = some code ∧ 200 ≤ code ∧ code < 300) ∧
    (∃ effective own, Url.hostname (metaUrl response.writeOut) = some effective ∧
      Url.hostname site.probe = some own ∧ Text.lower effective = Text.lower own) ∧
    metaSslResult response.writeOut = "0" ∧
    parseProbeExitIp env site.probe response.body = some ip

section Trust

variable {env : CheckEnv} {unavailable : List String}

theorem metaValid_true {writeOut probe : String} (h : metaValid writeOut probe true = some true) :
    (∃ code, codeValue (metaCode writeOut) = some code ∧ 200 ≤ code ∧ code < 300) ∧
      (∃ effective own, Url.hostname (metaUrl writeOut) = some effective ∧
        Url.hostname probe = some own ∧ Text.lower effective = Text.lower own) ∧
      metaSslResult writeOut = "0" := by
  unfold metaValid at h
  split at h
  · cases h
  obtain ⟨code, hcode, h⟩ := Option.bind_eq_some_iff.mp h
  split at h
  · cases h
  rename_i hrange
  obtain ⟨effective, heffective, h⟩ := Option.bind_eq_some_iff.mp h
  obtain ⟨own, hown, h⟩ := Option.bind_eq_some_iff.mp h
  split at h
  · cases h
  rename_i hsame
  refine ⟨⟨code, hcode, not_not.mp hrange⟩, ⟨effective, own, heffective, hown, not_not.mp hsame⟩,
    ?_⟩
  simpa using h

theorem observed_attests {site : Site} {ip : String} (hgroup : site.group = .verified)
    (hprobe : site.probe ∈ probeUrls) (h : env.observed true site = some ip) :
    env.Attests site ip := by
  unfold CheckEnv.observed at h
  cases houtcome : env.outcome site with
  | failed error =>
    rw [houtcome] at h
    cases h
  | answered response =>
    rw [houtcome] at h
    obtain ⟨hvalue, hne⟩ := Option.filter_eq_some_iff.mp h
    unfold quorumValue at hvalue
    split at hvalue
    · cases hvalue
      simp at hne
    rename_i hcode
    obtain ⟨valid, hvalid, hvalue⟩ := Option.bind_eq_some_iff.mp hvalue
    cases valid with
    | false =>
      cases hvalue
      simp at hne
    | true =>
      rw [if_pos rfl] at hvalue
      obtain ⟨hcodes, hhosts, hssl⟩ := metaValid_true hvalid
      exact ⟨hgroup, hprobe, response, houtcome, not_not.mp hcode, hcodes, hhosts, hssl, hvalue⟩

theorem mem_groupSites {site : Site} {protocol : String} {n : Nat}
    (h : site ∈ groupSites unavailable protocol n .verified) :
    site.protocol = protocol ∧ site.attempt = n ∧ site.group = .verified ∧
      site.probe ∈ probeUrls := by
  obtain ⟨probe, hprobe, rfl⟩ := List.mem_map.mp h
  obtain ⟨⟨index, url⟩, hcandidate, rfl⟩ := List.mem_map.mp hprobe
  obtain ⟨offset, _, hurl⟩ := List.mem_filterMap.mp hcandidate
  obtain ⟨url', hget, hurl⟩ := Option.bind_eq_some_iff.mp hurl
  split at hurl
  · cases hurl
  · cases hurl
    exact ⟨rfl, rfl, rfl, List.mem_of_getElem? hget⟩

theorem probeCandidates_zero :
    (probeCandidates 0 unavailable).map Prod.snd =
      probeUrls.filter fun probe => probe ∉ unavailable.map Text.strip := by
  have hpairs : (List.range probeUrls.length).filterMap (fun offset =>
      (probeUrls[((max 0 (0 : Int)).toNat % probeUrls.length + offset) % probeUrls.length]?).map
        (((max 0 (0 : Int)).toNat % probeUrls.length + offset) % probeUrls.length, ·)) =
      (List.range probeUrls.length).zip probeUrls := by
    decide
  have hkept : probeCandidates 0 unavailable =
      ((List.range probeUrls.length).zip probeUrls).filter
        fun candidate => candidate.2 ∉ unavailable.map Text.strip := by
    rw [← hpairs, ← List.filterMap_eq_filter, List.filterMap_filterMap]
    unfold probeCandidates
    refine List.filterMap_congr fun offset _ => ?_
    rw [Option.bind_map]
    refine Option.bind_congr fun probe _ => ?_
    by_cases hprobe : probe ∈ unavailable.map Text.strip
    · simp only [Option.guard, Function.comp, hprobe, not_true_eq_false, decide_false, if_true,
        Bool.false_eq_true, if_false]
    · simp only [Option.guard, Function.comp, hprobe, not_false_eq_true, decide_true, if_true,
        if_false]
  have hsnd : ((List.range probeUrls.length).zip probeUrls).map Prod.snd = probeUrls := rfl
  rw [hkept, ← hsnd, List.filter_map]
  rfl

theorem groupSites_nodup (protocol : String) (n : Nat) :
    (groupSites unavailable protocol n .verified).Nodup := by
  unfold groupSites
  refine List.Nodup.map (fun probe other h => congrArg Site.probe h) ?_
  rw [probeCandidates_zero]
  exact List.Nodup.filter _ (by decide)

/-- Two occurrences of a value come from two elements. -/
theorem exists_two_of_count {α β : Type} [DecidableEq β] {f : α → Option β} {xs : List α}
    {value : β} (hnodup : xs.Nodup) (h : 2 ≤ (xs.filterMap f).count value) :
    ∃ a ∈ xs, ∃ b ∈ xs, a ≠ b ∧ f a = some value ∧ f b = some value := by
  rw [List.count_filterMap, List.countP_eq_length_filter] at h
  have hmem : ∀ a ∈ xs.filter (fun a => f a == some value), a ∈ xs ∧ f a = some value := by
    intro a ha
    obtain ⟨hxs, hf⟩ := List.mem_filter.mp ha
    exact ⟨hxs, by simpa using hf⟩
  have hkept : (xs.filter (fun a => f a == some value)).Nodup := hnodup.filter _
  generalize xs.filter (fun a => f a == some value) = kept at h hmem hkept
  match kept, h, hkept with
  | a :: b :: rest, _, hkept =>
    obtain ⟨ha, hfa⟩ := hmem a (by simp)
    obtain ⟨hb, hfb⟩ := hmem b (by simp)
    refine ⟨a, ha, b, hb, ?_, hfa, hfb⟩
    rintro rfl
    simp at hkept

/-- Trusted egress has the verdict of one attempt: probes of two hosts have attested the address
over verified TLS, and more than half of the verified observations agree with them. The order of the
responses does not matter for a quorum. -/
theorem trusted_egress_quorum (env : CheckEnv) (unavailable : List String) :
    (∀ setting result findings,
      checkProxyStrong env setting unavailable = some (result, findings) →
      result.egressTrusted = true →
      result.status = .live ∧ ∃ protocol ∈ proxyProtocols setting, ∃ n < probeAttempts,
        result.protocol = protocol ∧
        (let seen := (env.requests unavailable protocol n .verified).filterMap (env.observed true)
         seen.length < 2 * seen.count result.exitIp) ∧
        ∃ a ∈ env.requests unavailable protocol n .verified,
          ∃ b ∈ env.requests unavailable protocol n .verified,
            Url.hostname a.probe ≠ Url.hostname b.probe ∧
            env.Attests a result.exitIp ∧ env.Attests b result.exitIp) ∧
    ∀ results results' requireTls, results.Perm results' →
      quorum env results requireTls = quorum env results' requireTls := by
  refine ⟨fun setting result findings h htrusted => ?_, fun _ _ _ => quorum_perm⟩
  rcases checkProxyStrong_cases h with ⟨protocol, hprotocol, n, hn, before, hsettled⟩ | ⟨_, rfl⟩
  · rcases attempt_cases hsettled with ⟨_, _, hending⟩ | ⟨verified, insecure, ip, _, hrun, hending⟩
    · cases hending
    rcases hending with
        ⟨hip, hending⟩ | ⟨_, _, _, _, _, _, ⟨_, hending⟩ | ⟨_, hending⟩ | ⟨_, _, hending⟩⟩
    · cases hending
      obtain ⟨-, hresults⟩ := visitAll_results hrun.verifiedRun hrun.verifiedOpen
      have hquorum := hrun.verifiedQuorum
      rw [hresults, List.nil_append] at hquorum
      obtain ⟨hcount, hmost⟩ := agreed_spec (quorum_answers hquorum) hip
      refine ⟨rfl, protocol, hprotocol, n, hn, rfl, hmost, ?_⟩
      have hnodup : (env.requests unavailable protocol n .verified).Nodup :=
        (List.takeWhile_sublist _).nodup (groupSites_nodup protocol n)
      obtain ⟨a, ha, b, hb, hab, hfa, hfb⟩ := exists_two_of_count hnodup hcount
      obtain ⟨hap, han, hag, haprobe⟩ := mem_groupSites ((List.takeWhile_sublist _).subset ha)
      obtain ⟨hbp, hbn, hbg, hbprobe⟩ := mem_groupSites ((List.takeWhile_sublist _).subset hb)
      have hhosts : ∀ p ∈ probeUrls, ∀ q ∈ probeUrls, p ≠ q → Url.hostname p ≠ Url.hostname q := by
        decide +kernel
      refine ⟨a, ha, b, hb, hhosts _ haprobe _ hbprobe ?_, observed_attests hag haprobe hfa,
        observed_attests hbg hbprobe hfb⟩
      intro hprobes
      refine hab ?_
      rcases a with ⟨_, _, _, _⟩
      rcases b with ⟨_, _, _, _⟩
      simp_all
    · cases hending
      cases htrusted
    · cases hending
      cases htrusted
    · cases hending
  · unfold Findings.conclude at htrusted
    split at htrusted <;> cases htrusted

end Trust

/-! ## Dead proxies -/

/-- Nothing speaks against the verdict that the proxy is dead. -/
structure Findings.Clean (findings : Findings) : Prop where
  errors : findings.errors = []
  blockedResults : findings.blockedResults = []
  transient : findings.sawTransient = false
  uncertain : findings.sawUncertain = false
  probeEndpoint : findings.sawProbeEndpointFailure = false

section Environment

variable (env : CheckEnv) (unavailable : List String)

/-- What a request that meets no captive portal says against the proxy. -/
def CheckEnv.evidence? (site : Site) : Option Evidence :=
  match env.outcome site with
  | .answered response =>
    if captiveError env response.body response.writeOut = some "" then
      recordResponseFailure response site.probe false
    else none
  | .failed _ => none

/-- The request shows a failure of the proxy. -/
def CheckEnv.Fails (site : Site) : Prop := env.evidence? site = some { proxy := true }

/-- The request shows a failure of the proxy, or is answered as it should be. -/
def CheckEnv.Decides (site : Site) : Prop := env.Fails site ∨ env.evidence? site = some {}

instance (site : Site) : Decidable (env.Fails site) := inferInstanceAs (Decidable (_ = _))

instance (site : Site) : Decidable (env.Decides site) := inferInstanceAs (Decidable (_ ∨ _))

/-- The attempts, and the protocols, that the clock leaves time for. -/
def CheckEnv.attemptsInTime (protocol : String) : List Nat :=
  (List.range probeAttempts).takeWhile fun n => !env.attemptLate protocol n

def CheckEnv.protocolsInTime (setting : String) : List String :=
  (proxyProtocols setting).takeWhile fun protocol => !env.protocolLate protocol

/-- The requests of an attempt that nothing but the clock cuts short. -/
def CheckEnv.attemptRequests (protocol : String) (n : Nat) : List Site :=
  env.requests unavailable protocol n .verified ++ env.requests unavailable protocol n .plain

/-- The requests of a check that nothing but the clock cuts short. -/
def CheckEnv.scheduled (setting : String) : List Site :=
  (env.protocolsInTime setting).flatMap fun protocol =>
    (env.attemptsInTime protocol).flatMap (env.attemptRequests unavailable protocol)

/-- Neither the verified nor the plain probes of an attempt agree. -/
def CheckEnv.NoQuorum (protocol : String) (n : Nat) : Prop :=
  quorum env ((env.requests unavailable protocol n .verified).filterMap env.answer?) true =
    some "" ∧
    quorum env ((env.requests unavailable protocol n .plain).filterMap env.answer?) false = some ""

instance (protocol : String) (n : Nat) : Decidable (env.NoQuorum unavailable protocol n) :=
  inferInstanceAs (Decidable (_ ∧ _))

/-- Every request decides, one shows a failure of the proxy, and no attempt has a quorum. -/
def CheckEnv.Condemns (setting : String) : Prop :=
  (∀ site ∈ env.scheduled unavailable setting, env.Decides site) ∧
    (∃ site ∈ env.scheduled unavailable setting, env.Fails site) ∧
    ∀ protocol ∈ env.protocolsInTime setting, ∀ n ∈ env.attemptsInTime protocol,
      env.NoQuorum unavailable protocol n

instance (setting : String) : Decidable (env.Condemns unavailable setting) :=
  inferInstanceAs (Decidable (_ ∧ _))

/-- The findings after requests that decide. -/
def Findings.after (findings : Findings) (sites : List Site) : Findings :=
  { findings with
    sawProxyFailure := findings.sawProxyFailure || sites.any fun site => env.Fails site
    asked := findings.asked ++ sites }

end Environment

section Dead

variable {env : CheckEnv} {unavailable : List String}

@[simp] theorem Findings.after_nil (findings : Findings) : findings.after env [] = findings := by
  simp [Findings.after]

@[simp] theorem Findings.after_after (findings : Findings) (sites sites' : List Site) :
    (findings.after env sites).after env sites' = findings.after env (sites ++ sites') := by
  simp [Findings.after, Bool.or_assoc]

theorem Findings.Clean.after {findings : Findings} (h : findings.Clean) (sites : List Site) :
    (findings.after env sites).Clean :=
  ⟨h.errors, h.blockedResults, h.transient, h.uncertain, h.probeEndpoint⟩

theorem Findings.conclude_dead (findings : Findings) :
    findings.conclude.status = .dead ↔ findings.Clean ∧ findings.sawProxyFailure = true := by
  unfold Findings.conclude
  cases hblocked : findings.blockedResults with
  | cons head rest =>
    refine iff_of_false (by simp) ?_
    rintro ⟨hclean, -⟩
    rw [hclean.blockedResults] at hblocked
    cases hblocked
  | nil =>
    dsimp only
    split
    · rename_i hdead
      simp only [Bool.and_eq_true, Bool.not_eq_true', Bool.or_eq_false_iff, ne_eq,
        decide_eq_false_iff_not, not_not] at hdead
      obtain ⟨hproxy, ⟨⟨htransient, huncertain⟩, hendpoint⟩, herrors⟩ := hdead
      exact iff_of_true rfl ⟨⟨herrors, hblocked, htransient, huncertain, hendpoint⟩, hproxy⟩
    · rename_i hnot
      refine iff_of_false (by simp) ?_
      rintro ⟨hclean, hproxy⟩
      simp [hclean.errors, hclean.transient, hclean.uncertain, hclean.probeEndpoint, hproxy] at hnot

theorem Findings.conclude_status (findings : Findings) :
    findings.conclude.status = .blocked ∨ findings.conclude.status = .dead ∨
      findings.conclude.status = .inconclusive := by
  unfold Findings.conclude
  split
  · exact .inl rfl
  · dsimp only
    split
    · exact .inr (.inl rfl)
    · exact .inr (.inr rfl)

/-- What a response that decides says. -/
theorem CheckEnv.Decides.answered {site : Site} (h : env.Decides site) :
    ∃ response, env.outcome site = .answered response ∧
      captiveError env response.body response.writeOut = some "" ∧
      recordResponseFailure response site.probe false =
        some { proxy := decide (env.Fails site) } := by
  have hevidence : env.evidence? site = some { proxy := decide (env.Fails site) } := by
    by_cases hfails : env.Fails site
    · rw [decide_eq_true hfails]
      exact hfails
    · rw [decide_eq_false hfails]
      exact h.resolve_left hfails
  cases houtcome : env.outcome site with
  | failed error =>
    simp only [CheckEnv.evidence?, houtcome] at hevidence
    cases hevidence
  | answered response =>
    unfold CheckEnv.evidence? at hevidence
    rw [houtcome] at hevidence
    dsimp only at hevidence
    split at hevidence
    · rename_i hcaptive
      exact ⟨response, rfl, hcaptive, hevidence⟩
    · cases hevidence

structure GroupRun.Clean (run : GroupRun) : Prop where
  findings : run.findings.Clean
  protocolBlocked : run.protocolBlocked = []

/-- A group after requests that decide. -/
def GroupRun.after (env : CheckEnv) (run : GroupRun) (sites : List Site) : GroupRun :=
  { run with
    findings := run.findings.after env sites
    results := run.results ++ sites.filterMap env.answer? }

@[simp] theorem GroupRun.after_findings (run : GroupRun) (sites : List Site) :
    (run.after env sites).findings = run.findings.after env sites := rfl

@[simp] theorem GroupRun.after_protocolBlocked (run : GroupRun) (sites : List Site) :
    (run.after env sites).protocolBlocked = run.protocolBlocked := rfl

@[simp] theorem GroupRun.after_results (run : GroupRun) (sites : List Site) :
    (run.after env sites).results = run.results ++ sites.filterMap env.answer? := rfl

theorem GroupRun.after_after (run : GroupRun) (sites sites' : List Site) :
    (run.after env sites).after env sites' = run.after env (sites ++ sites') := by
  simp [GroupRun.after, List.filterMap_append]

theorem visit_decides {site : Site} (h : env.Decides site) (run : GroupRun) :
    run.visit env site = some (run.after env [site]) := by
  obtain ⟨response, houtcome, hcaptive, hevidence⟩ := h.answered
  have hanswer : env.answer? site = some (site.probe, response) := by
    simp [CheckEnv.answer?, houtcome]
  unfold GroupRun.visit
  rw [houtcome]
  simp [hcaptive, hevidence, GroupRun.after, Findings.after, Findings.merge, hanswer]

theorem visit_clean {run run' : GroupRun} {site : Site} (h : run.visit env site = some run')
    (hclean : run'.Clean) : run.Clean ∧ env.Decides site := by
  obtain ⟨⟨herrors, hblocked, htransient, huncertain, hendpoint⟩, hopen⟩ := hclean
  rcases visit_cases h with ⟨error, _, _, rfl⟩ | ⟨_, blocked, _, _, _, rfl⟩ |
    ⟨response, evidence, houtcome, hcaptive, hevidence, rfl⟩
  · simp at herrors
  · simp at hopen
  · simp only [Findings.merge, Bool.or_eq_false_iff]
      at herrors hblocked htransient huncertain hendpoint
    refine ⟨⟨⟨herrors, hblocked, htransient.1, huncertain.1, hendpoint.1⟩, hopen⟩, ?_⟩
    have hsays : env.evidence? site = some evidence := by
      simp [CheckEnv.evidence?, houtcome, hcaptive, hevidence]
    obtain ⟨proxy, probeEndpoint, transient, uncertain⟩ := evidence
    obtain ⟨rfl, rfl, rfl⟩ : probeEndpoint = false ∧ transient = false ∧ uncertain = false :=
      ⟨hendpoint.2, htransient.2, huncertain.2⟩
    cases proxy with
    | true => exact .inl hsays
    | false => exact .inr hsays

theorem visitAll_decides {sites : List Site}
    (h : ∀ site ∈ sites.takeWhile fun site => !env.late site, env.Decides site) (run : GroupRun) :
    run.visitAll env sites =
      some (run.after env (sites.takeWhile fun site => !env.late site)) := by
  induction sites generalizing run with
  | nil => simp [GroupRun.visitAll, GroupRun.after]
  | cons site rest ih =>
    unfold GroupRun.visitAll
    cases hlate : env.late site with
    | true => simp [hlate, GroupRun.after]
    | false =>
      rw [List.takeWhile_cons, hlate] at h ⊢
      obtain ⟨hsite, hrest⟩ := List.forall_mem_cons.mp h
      rw [if_neg (by decide), visit_decides hsite]
      dsimp only
      rw [ih hrest, GroupRun.after_after]
      rfl

theorem visitAll_clean {sites : List Site} {run run' : GroupRun}
    (h : run.visitAll env sites = some run') (hclean : run'.Clean) :
    run.Clean ∧ ∀ site ∈ sites.takeWhile fun site => !env.late site, env.Decides site := by
  induction sites generalizing run with
  | nil =>
    obtain rfl := Option.some.inj h
    exact ⟨hclean, by simp⟩
  | cons site rest ih =>
    cases hlate : env.late site with
    | true =>
      unfold GroupRun.visitAll at h
      rw [hlate, if_pos rfl] at h
      obtain rfl := Option.some.inj h
      exact ⟨hclean, by simp [hlate]⟩
    | false =>
      obtain ⟨next, hvisit, hrest⟩ := visitAll_cons hlate h
      obtain ⟨hnext, hdecide⟩ := ih hrest
      obtain ⟨hrun, hsite⟩ := visit_clean hvisit hnext
      rw [List.takeWhile_cons, hlate]
      exact ⟨hrun, List.forall_mem_cons.mpr ⟨hsite, hdecide⟩⟩

theorem tlsFailed_of_decides {sites : List Site} (h : ∀ site ∈ sites, env.Decides site)
    (findings : Findings) :
    (GroupRun.after env { findings } sites).tlsFailed = false := by
  unfold GroupRun.tlsFailed
  refine List.any_eq_false.mpr fun result hresult => ?_
  simp only [GroupRun.after, List.nil_append] at hresult
  obtain ⟨site, hsite, hanswer⟩ := List.mem_filterMap.mp hresult
  obtain ⟨response, houtcome, -, hevidence⟩ := (h site hsite).answered
  simp only [CheckEnv.answer?, houtcome, Option.some.injEq] at hanswer
  subst hanswer
  intro htls
  -- a TLS failure is neither an answer nor a failure of the proxy
  have hcode : response.returncode = 35 ∨ response.returncode = 51 ∨ response.returncode = 60 := by
    simpa [tlsCodes] using htls
  unfold recordResponseFailure at hevidence
  rcases hcode with hcode | hcode | hcode <;> rw [hcode] at hevidence <;>
    simp [classifyCurlFailure, proxyDnsCodes, proxyFailureCodes, probeEndpointCodes, transientCodes,
      tlsCodes] at hevidence

variable {protocol : String} {n : Nat} {findings : Findings}

theorem attempt_decides (h : ∀ site ∈ env.attemptRequests unavailable protocol n, env.Decides site)
    (hquorum : env.NoQuorum unavailable protocol n) (findings : Findings) :
    attempt env unavailable protocol n findings =
      some (.undecided (findings.after env (env.attemptRequests unavailable protocol n))) := by
  obtain ⟨hverified, hplain⟩ := List.forall_mem_append.mp h
  obtain ⟨hverifiedIp, hplainIp⟩ := hquorum
  have htls := tlsFailed_of_decides hverified findings
  unfold CheckEnv.requests at hverified hplain hverifiedIp hplainIp htls
  have hempty : quorum env [] false = some "" := rfl
  unfold attempt insecureRun
  simp only [visitAll_decides hverified, visitAll_decides hplain, htls, hverifiedIp, hplainIp,
    hempty, GroupRun.after_protocolBlocked, GroupRun.after_results, GroupRun.after_findings,
    Findings.after_after, List.nil_append, Option.bind_eq_bind, Option.bind_some, ne_eq,
    not_true_eq_false, Bool.false_eq_true, if_false]
  rfl

/-- A quorum of verified probes settles the check. -/
theorem attempt_settles {ip : String}
    (h : ∀ site ∈ env.requests unavailable protocol n .verified, env.Decides site)
    (hquorum :
      quorum env ((env.requests unavailable protocol n .verified).filterMap env.answer?) true =
      some ip) (hip : ip ≠ "") (findings : Findings) :
    attempt env unavailable protocol n findings = some (.settled (verifiedResult protocol ip)
      (findings.after env (env.requests unavailable protocol n .verified))) := by
  have htls := tlsFailed_of_decides h findings
  unfold CheckEnv.requests at h hquorum htls
  have hempty : quorum env [] false = some "" := rfl
  unfold attempt insecureRun
  simp only [visitAll_decides h, htls, hquorum, hempty, GroupRun.after_protocolBlocked,
    GroupRun.after_results, GroupRun.after_findings, List.nil_append, Option.bind_eq_bind,
    Option.bind_some, ne_eq, not_true_eq_false, Bool.false_eq_true, if_false]
  exact if_pos hip

/-- A clean end of an attempt means that all of its requests decide and that none of its groups
agree. -/
theorem attempt_clean {findings' : Findings}
    (h : attempt env unavailable protocol n findings = some (.undecided findings'))
    (hclean : findings'.Clean) :
    findings.Clean ∧ (∀ site ∈ env.attemptRequests unavailable protocol n, env.Decides site) ∧
      env.NoQuorum unavailable protocol n := by
  rcases attempt_cases h with ⟨_, _, hending⟩ | ⟨verified, insecure, ip, insecureIp, hrun, hending⟩
  · cases hending
  rcases hending with ⟨_, hending⟩ | ⟨rfl, plain, plainIp, hplain, hopen, hplainIp, hending⟩
  · cases hending
  rcases hending with ⟨_, hending⟩ | ⟨_, hending⟩ | ⟨rfl, rfl, hending⟩
  · cases hending
  · cases hending
  cases hending
  obtain ⟨hinsecure, hdecidePlain⟩ := visitAll_clean hplain ⟨hclean, hopen⟩
  obtain ⟨-, hplainResults⟩ := visitAll_results hplain hopen
  obtain ⟨-, hverifiedResults⟩ := visitAll_results hrun.verifiedRun hrun.verifiedOpen
  have hverifiedClean : verified.findings.Clean := by
    have hran := hrun.insecureRun
    unfold insecureRun at hran
    split at hran
    · -- the group with `--insecure` has started from an uncertainty
      obtain ⟨hstart, -⟩ := visitAll_clean hran ⟨hinsecure.findings, hrun.insecureOpen⟩
      have huncertain := hstart.findings.uncertain
      cases huncertain
    · obtain rfl := Option.some.inj hran
      exact hinsecure.findings
  obtain ⟨hstart, hdecideVerified⟩ :=
    visitAll_clean hrun.verifiedRun ⟨hverifiedClean, hrun.verifiedOpen⟩
  refine ⟨hstart.findings, List.forall_mem_append.mpr ⟨hdecideVerified, hdecidePlain⟩, ?_, ?_⟩
  · have hquorum := hrun.verifiedQuorum
    rwa [hverifiedResults, List.nil_append] at hquorum
  · rwa [hplainResults, List.nil_append] at hplainIp

theorem GroupRun.giveUp_not_clean {run : GroupRun} (h : run.protocolBlocked ≠ [])
    {findings' : Findings} (hending : AttemptEnd.blocked findings' = run.giveUp protocol) :
    ¬ findings'.Clean := by
  intro hclean
  cases hending
  have hblocked := hclean.blockedResults
  simp only [List.append_eq_nil_iff, List.map_eq_nil_iff] at hblocked
  exact h hblocked.2

theorem attempts_decides {ns : List Nat}
    (h : ∀ n ∈ ns.takeWhile fun n => !env.attemptLate protocol n,
      (∀ site ∈ env.attemptRequests unavailable protocol n, env.Decides site) ∧
        env.NoQuorum unavailable protocol n) (findings : Findings) :
    attempts env unavailable protocol findings ns = some (.inr (findings.after env
      ((ns.takeWhile fun n => !env.attemptLate protocol n).flatMap
        (env.attemptRequests unavailable protocol)))) := by
  induction ns generalizing findings with
  | nil => simp [attempts]
  | cons n rest ih =>
    unfold attempts
    cases hlate : env.attemptLate protocol n with
    | true => simp [hlate]
    | false =>
      rw [List.takeWhile_cons, hlate] at h ⊢
      obtain ⟨⟨hdecide, hquorum⟩, hrest⟩ := List.forall_mem_cons.mp h
      rw [if_neg (by decide), attempt_decides hdecide hquorum]
      dsimp only
      rw [ih hrest, Findings.after_after]
      rfl

theorem attempts_clean {ns : List Nat} {findings' : Findings}
    (h : attempts env unavailable protocol findings ns = some (.inr findings'))
    (hclean : findings'.Clean) :
    findings.Clean ∧ ∀ n ∈ ns.takeWhile fun n => !env.attemptLate protocol n,
      (∀ site ∈ env.attemptRequests unavailable protocol n, env.Decides site) ∧
        env.NoQuorum unavailable protocol n := by
  induction ns generalizing findings with
  | nil =>
    cases h
    exact ⟨hclean, by simp⟩
  | cons n rest ih =>
    unfold attempts at h
    cases hlate : env.attemptLate protocol n with
    | true =>
      rw [hlate, if_pos rfl] at h
      cases h
      exact ⟨hclean, by simp [hlate]⟩
    | false =>
      rw [hlate, if_neg (by decide)] at h
      cases hattempt : attempt env unavailable protocol n findings with
      | none =>
        rw [hattempt] at h
        cases h
      | some ending =>
        rw [hattempt] at h
        cases ending with
        | settled result findings'' => cases h
        | blocked findings'' =>
          cases h
          rcases attempt_cases hattempt with ⟨run, hblocked, hending⟩ | ⟨_, _, _, _, _, hending⟩
          · exact absurd hclean (GroupRun.giveUp_not_clean hblocked hending)
          · rcases hending with ⟨_, hending⟩ |
              ⟨_, _, _, _, _, _, ⟨_, hending⟩ | ⟨_, hending⟩ | ⟨_, _, hending⟩⟩ <;> cases hending
        | undecided findings'' =>
          obtain ⟨hnext, hdecide⟩ := ih h
          obtain ⟨hstart, hattemptDecides, hquorum⟩ := attempt_clean hattempt hnext
          rw [List.takeWhile_cons, hlate]
          exact ⟨hstart, List.forall_mem_cons.mpr ⟨⟨hattemptDecides, hquorum⟩, hdecide⟩⟩

theorem protocols_decides {ps : List String}
    (h : ∀ protocol ∈ ps.takeWhile fun protocol => !env.protocolLate protocol,
      ∀ n ∈ env.attemptsInTime protocol,
        (∀ site ∈ env.attemptRequests unavailable protocol n, env.Decides site) ∧
          env.NoQuorum unavailable protocol n) (findings : Findings) :
    protocols env unavailable findings ps = some (.inr (findings.after env
      ((ps.takeWhile fun protocol => !env.protocolLate protocol).flatMap fun protocol =>
        (env.attemptsInTime protocol).flatMap (env.attemptRequests unavailable protocol)))) := by
  induction ps generalizing findings with
  | nil => simp [protocols]
  | cons protocol rest ih =>
    unfold protocols
    cases hlate : env.protocolLate protocol with
    | true => simp [hlate]
    | false =>
      rw [List.takeWhile_cons, hlate] at h ⊢
      obtain ⟨hprotocol, hrest⟩ := List.forall_mem_cons.mp h
      rw [if_neg (by decide), attempts_decides hprotocol]
      dsimp only
      rw [ih hrest, Findings.after_after]
      rfl

theorem protocols_clean {ps : List String} {findings' : Findings}
    (h : protocols env unavailable findings ps = some (.inr findings')) (hclean : findings'.Clean) :
    findings.Clean ∧ ∀ protocol ∈ ps.takeWhile fun protocol => !env.protocolLate protocol,
      ∀ n ∈ env.attemptsInTime protocol,
        (∀ site ∈ env.attemptRequests unavailable protocol n, env.Decides site) ∧
          env.NoQuorum unavailable protocol n := by
  induction ps generalizing findings with
  | nil =>
    cases h
    exact ⟨hclean, by simp⟩
  | cons protocol rest ih =>
    unfold protocols at h
    cases hlate : env.protocolLate protocol with
    | true =>
      rw [hlate, if_pos rfl] at h
      cases h
      exact ⟨hclean, by simp [hlate]⟩
    | false =>
      rw [hlate, if_neg (by decide)] at h
      cases hattempts : attempts env unavailable protocol findings (List.range probeAttempts) with
      | none =>
        rw [hattempts] at h
        cases h
      | some ending =>
        rw [hattempts] at h
        cases ending with
        | inl settled => cases h
        | inr findings'' =>
          obtain ⟨hnext, hdecide⟩ := ih h
          obtain ⟨hstart, hprotocol⟩ := attempts_clean hattempts hnext
          rw [List.takeWhile_cons, hlate]
          exact ⟨hstart, List.forall_mem_cons.mpr ⟨hprotocol, hdecide⟩⟩

variable {setting : String}

theorem CheckEnv.mem_scheduled {site : Site} :
    site ∈ env.scheduled unavailable setting ↔ ∃ protocol ∈ env.protocolsInTime setting,
      ∃ n ∈ env.attemptsInTime protocol, site ∈ env.attemptRequests unavailable protocol n := by
  simp only [CheckEnv.scheduled, List.mem_flatMap]

/-- The check of a proxy that is condemned. -/
theorem CheckEnv.Condemns.run (h : env.Condemns unavailable setting) :
    checkProxyStrong env setting unavailable =
        some ((({} : Findings).after env (env.scheduled unavailable setting)).conclude,
          ({} : Findings).after env (env.scheduled unavailable setting)) ∧
      (({} : Findings).after env (env.scheduled unavailable setting)).conclude.status = .dead := by
  obtain ⟨hdecide, ⟨site, hsite, hfails⟩, hquorum⟩ := h
  have hrun : protocols env unavailable {} (proxyProtocols setting) = _ :=
    protocols_decides (fun protocol hprotocol n hn => ⟨fun site hsite => hdecide site
      (CheckEnv.mem_scheduled.mpr ⟨protocol, hprotocol, n, hn, hsite⟩),
      hquorum protocol hprotocol n hn⟩) {}
  refine ⟨by rw [checkProxyStrong, hrun]; rfl, ?_⟩
  have hstart : ({} : Findings).Clean := ⟨rfl, rfl, rfl, rfl, rfl⟩
  refine (Findings.conclude_dead _).mpr ⟨hstart.after _, ?_⟩
  have hany : (env.scheduled unavailable setting).any (fun site => env.Fails site) = true :=
    List.any_eq_true.mpr ⟨site, hsite, decide_eq_true hfails⟩
  simp [Findings.after, hany]

theorem settled_exitIp {result : StrongResult} {findings' : Findings}
    (h : attempt env unavailable protocol n findings = some (.settled result findings')) :
    result.exitIp ≠ "" ∧ (result.status = .live ∨ result.status = .liveUnverified) := by
  rcases attempt_cases h with ⟨_, _, hending⟩ | ⟨verified, insecure, ip, _, _, hending⟩
  · cases hending
  rcases hending with ⟨hip, hending⟩ |
    ⟨_, _, _, _, _, _, ⟨hip, hending⟩ | ⟨hip, hending⟩ | ⟨_, _, hending⟩⟩ <;> cases hending
  · exact ⟨hip, .inl rfl⟩
  · exact ⟨hip, .inr rfl⟩
  · exact ⟨hip, .inr rfl⟩

/-- Every dead proxy is condemned, and all the requests that there is time for are made. -/
theorem CheckEnv.condemns_of_dead {result : StrongResult} {findings : Findings}
    (h : checkProxyStrong env setting unavailable = some (result, findings))
    (hdead : result.status = .dead) :
    env.Condemns unavailable setting ∧ findings.asked = env.scheduled unavailable setting := by
  rcases checkProxyStrong_cases h with ⟨protocol, _, n, _, before, hsettled⟩ | ⟨hrun, rfl⟩
  · rcases (settled_exitIp hsettled).2 with hstatus | hstatus <;>
      rw [hdead] at hstatus <;> cases hstatus
  obtain ⟨hclean, hproxy⟩ := (Findings.conclude_dead findings).mp hdead
  obtain ⟨-, hdecide⟩ := protocols_clean hrun hclean
  -- the same loops, forwards
  have hfindings : findings = ({} : Findings).after env (env.scheduled unavailable setting) := by
    have hforward := (protocols_decides hdecide ({} : Findings)).symm.trans hrun
    exact (Sum.inr.inj (Option.some.inj hforward)).symm
  refine ⟨⟨fun site hsite => ?_, ?_,
    fun protocol hprotocol n hn => (hdecide protocol hprotocol n hn).2⟩,
    by rw [hfindings]; simp [Findings.after]⟩
  · obtain ⟨protocol, hprotocol, n, hn, hmem⟩ := CheckEnv.mem_scheduled.mp hsite
    exact (hdecide protocol hprotocol n hn).1 site hmem
  · rw [hfindings] at hproxy
    simpa [Findings.after] using hproxy

end Dead

/-! ## Two checks -/

namespace Scenario

/-- What the whoami host sees, as a JSON text. -/
def whoamiBody : String := "\x7b\"ip\":\"198.51.100.8\"\x7d"

/-- `json.loads` on the texts below; a bare address is no JSON. -/
def whoamiLoads (body : String) : Loaded :=
  if body = whoamiBody then
    .value (.dict [("ip", .text "198.51.100.8")] "\x7b'ip': '198.51.100.8'\x7d")
  else .invalid

/-- An answer as it should be. -/
def answerOf (probe body : String) : Response where
  returncode := 0
  body := body
  writeOut := "200|" ++ probe ++ "|0"

/-- Two of the hosts see another address than the others. -/
def splitBody (probe : String) : String :=
  if probe = proxioWhoamiUrl then whoamiBody
  else if probe = "https://checkip.amazonaws.com" ∨ probe = "http://icanhazip.com" then
    "198.51.100.8"
  else "198.51.100.7"

def splitIp (probe : String) : String :=
  if probe = proxioWhoamiUrl ∨ probe = "https://checkip.amazonaws.com" ∨
    probe = "http://icanhazip.com" then "198.51.100.8" else "198.51.100.7"

/-- SOCKS is refused, and over HTTP the hosts are split. -/
def splitExit : CheckEnv where
  loads := whoamiLoads
  isWord _ := false
  outcome site :=
    if site.protocol = "socks5" then .answered { returncode := 97, body := "", writeOut := "" }
    else .answered (answerOf site.probe (splitBody site.probe))

/-- What the answer of each host reads as. -/
structure HostAnswers (probe : String) : Prop where
  fields : metaFields ("200|" ++ probe ++ "|0") = ["200", probe, "0"]
  host : (Url.hostname probe).any (fun host => Text.lower host ∉ captiveHosts) = true
  marker : (captiveMarkers.any fun marker =>
    contains (Text.lower (splitBody probe)).toList marker.toList) = false
  value : parseProbeExitIp splitExit probe (splitBody probe) = some (splitIp probe)

theorem hostAnswers {probe : String} (h : probe ∈ probeUrls ++ httpProbeUrls) :
    HostAnswers probe := by
  have hall : ∀ probe ∈ probeUrls ++ httpProbeUrls,
      metaFields ("200|" ++ probe ++ "|0") = ["200", probe, "0"] ∧
        (Url.hostname probe).any (fun host => Text.lower host ∉ captiveHosts) = true ∧
        (captiveMarkers.any fun marker =>
          contains (Text.lower (splitBody probe)).toList marker.toList) = false ∧
        parseProbeExitIp splitExit probe (splitBody probe) = some (splitIp probe) := by
    decide +kernel
  obtain ⟨hfields, hhost, hmarker, hvalue⟩ := hall probe h
  exact ⟨hfields, hhost, hmarker, hvalue⟩

theorem metaFields_answerOf {probe : String} (h : probe ∈ probeUrls ++ httpProbeUrls)
    (body : String) : metaFields (answerOf probe body).writeOut = ["200", probe, "0"] :=
  (hostAnswers h).fields

/-- The hosts of the probes are no captive portals. -/
theorem hostname_probe {probe : String} (h : probe ∈ probeUrls ++ httpProbeUrls) :
    ∃ host, Url.hostname probe = some host ∧ Text.lower host ∉ captiveHosts := by
  obtain ⟨host, hhost, hcaptive⟩ := (Option.any_eq_true _ _).mp (hostAnswers h).host
  exact ⟨host, hhost, of_decide_eq_true hcaptive⟩

theorem metaValid_answerOf {probe : String} (h : probe ∈ probeUrls ++ httpProbeUrls) (body : String)
    (requireTls : Bool) :
    metaValid (answerOf probe body).writeOut probe requireTls = some true := by
  obtain ⟨host, hhost, -⟩ := hostname_probe h
  have hdigit : Text.isDigit "200" = true := by decide
  have hcode : codeValue "200" = some 200 := by decide
  simp [metaValid, metaCode, metaUrl, metaSslResult, metaFields_answerOf h, hdigit, hcode, hhost]

theorem captiveError_answerOf {probe : String} (h : probe ∈ probeUrls ++ httpProbeUrls) :
    captiveError splitExit (splitBody probe) (answerOf probe (splitBody probe)).writeOut =
      some "" := by
  obtain ⟨host, hhost, hcaptive⟩ := hostname_probe h
  have hmarkers := (hostAnswers h).marker
  simp [captiveError, metaUrl, metaSslResult, metaFields_answerOf h, hhost, hcaptive, hmarkers]

theorem quorumValue_answerOf {probe : String} (h : probe ∈ probeUrls ++ httpProbeUrls)
    (requireTls : Bool) :
    quorumValue splitExit requireTls probe (answerOf probe (splitBody probe)) =
      some (splitIp probe) := by
  have hzero : ¬ (answerOf probe (splitBody probe)).returncode ≠ 0 := not_not.mpr rfl
  have hbody : (answerOf probe (splitBody probe)).body = splitBody probe := rfl
  unfold quorumValue
  rw [if_neg hzero, metaValid_answerOf h, Option.bind_eq_bind, Option.bind_some, if_pos rfl, hbody]
  exact (hostAnswers h).value

/-- The requests of an attempt go to the hosts of its group that are available. -/
theorem splitExit_requests (unavailable : List String) (protocol : String) (n : Nat) :
    splitExit.requests unavailable protocol n .verified =
        (probeUrls.filter fun probe => probe ∉ unavailable.map Text.strip).map
          (fun probe => ⟨protocol, n, .verified, probe⟩) ∧
      splitExit.requests unavailable protocol n .plain =
        httpProbeUrls.map fun probe => ⟨protocol, n, .plain, probe⟩ := by
  constructor
  · unfold CheckEnv.requests groupSites
    rw [probeCandidates_zero]
    exact List.takeWhile_eq_self_iff.mpr fun _ _ => rfl
  · rfl

theorem splitExit_fails {site : Site} (h : site.protocol = "socks5") : splitExit.Fails site := by
  have hcaptive : captiveError splitExit "" "" = some "" := by decide
  have houtcome : splitExit.outcome site =
      .answered { returncode := 97, body := "", writeOut := "" } :=
    if_pos h
  unfold CheckEnv.Fails CheckEnv.evidence?
  rw [houtcome]
  exact if_pos hcaptive

theorem splitExit_outcome {site : Site} (h : site.protocol = "http") :
    splitExit.outcome site = .answered (answerOf site.probe (splitBody site.probe)) :=
  if_neg (by rw [h]; decide)

theorem splitExit_answers {site : Site} (h : site.protocol = "http")
    (hprobe : site.probe ∈ probeUrls ++ httpProbeUrls) : splitExit.evidence? site = some {} := by
  have hdigit : Text.isDigit "200" = true := by decide
  have hcode : codeValue "200" = some 200 := by decide
  have hrecord (body : String) :
      recordResponseFailure (answerOf site.probe body) site.probe false = some {} := by
    have hzero : ¬ (answerOf site.probe body).returncode ≠ 0 := not_not.mpr rfl
    unfold recordResponseFailure
    rw [if_neg hzero]
    simp [metaHttpCode, metaCode, metaFields_answerOf hprobe, hdigit, hcode,
      metaValid_answerOf hprobe]
  unfold CheckEnv.evidence?
  rw [splitExit_outcome h]
  exact (if_pos (captiveError_answerOf hprobe)).trans (hrecord _)

theorem splitExit_quorum {probes : List String}
    (hprobes : ∀ probe ∈ probes, probe ∈ probeUrls ++ httpProbeUrls) (n : Nat) (group : ProbeGroup)
    (requireTls : Bool) :
    quorum splitExit ((probes.map fun probe => (⟨"http", n, group, probe⟩ : Site)).filterMap
      splitExit.answer?) requireTls = some (agreed ((probes.map splitIp).filter (· ≠ ""))) := by
  have hvalues : ((probes.map fun probe => (⟨"http", n, group, probe⟩ : Site)).filterMap
      splitExit.answer?).mapM (fun result => quorumValue splitExit requireTls result.1 result.2) =
      some (probes.map splitIp) := by
    induction probes with
    | nil => rfl
    | cons probe rest ih =>
      obtain ⟨hprobe, hrest⟩ := List.forall_mem_cons.mp hprobes
      have hanswer : splitExit.answer? ⟨"http", n, group, probe⟩ =
          some (probe, answerOf probe (splitBody probe)) := rfl
      rw [List.map_cons, List.filterMap_cons_some hanswer, List.mapM_cons,
        quorumValue_answerOf hprobe, ih hrest]
      rfl
  rw [quorum_eq, hvalues]
  rfl

theorem splitExit_noQuorum {protocol : String} (hprotocol : protocol = "socks5" ∨ protocol = "http")
    (n : Nat) : splitExit.NoQuorum [] protocol n := by
  obtain ⟨hverified, hplain⟩ := splitExit_requests [] protocol n
  unfold CheckEnv.NoQuorum
  rw [hverified, hplain]
  rcases hprotocol with rfl | rfl
  · exact ⟨rfl, rfl⟩
  · rw [splitExit_quorum fun probe hprobe =>
        List.mem_append_left _ (List.mem_of_mem_filter hprobe),
      splitExit_quorum (fun probe => List.mem_append_right _)]
    exact ⟨by decide, by decide⟩

/-- The split proxy is condemned: SOCKS fails, and over HTTP the hosts disagree. -/
theorem splitExit_condemned : splitExit.Condemns [] "auto" := by
  have hprotocols : splitExit.protocolsInTime "auto" = ["socks5", "http"] := by decide
  have hattempts (protocol : String) : splitExit.attemptsInTime protocol = [0, 1] := rfl
  have hsites {protocol : String} {n : Nat} {site : Site}
      (h : site ∈ splitExit.attemptRequests [] protocol n) :
      site.protocol = protocol ∧ site.probe ∈ probeUrls ++ httpProbeUrls := by
    obtain ⟨hverified, hplain⟩ := splitExit_requests [] protocol n
    unfold CheckEnv.attemptRequests at h
    rw [hverified, hplain] at h
    rcases List.mem_append.mp h with h | h <;> obtain ⟨probe, hprobe, rfl⟩ := List.mem_map.mp h
    · exact ⟨rfl, List.mem_append_left _ (List.mem_of_mem_filter hprobe)⟩
    · exact ⟨rfl, List.mem_append_right _ hprobe⟩
  refine ⟨fun site hsite => ?_, ?_, fun protocol hprotocol n _ => ?_⟩
  · obtain ⟨protocol, hprotocol, n, -, hmem⟩ := CheckEnv.mem_scheduled.mp hsite
    obtain ⟨rfl, hprobe⟩ := hsites hmem
    rw [hprotocols] at hprotocol
    rcases List.mem_pair.mp hprotocol with hsocks | hhttp
    · exact .inl (splitExit_fails hsocks)
    · exact .inr (splitExit_answers hhttp hprobe)
  · refine ⟨⟨"socks5", 0, .plain, "http://icanhazip.com"⟩, ?_, splitExit_fails rfl⟩
    refine CheckEnv.mem_scheduled.mpr ⟨"socks5", by simp [hprotocols], 0, by simp [hattempts], ?_⟩
    exact List.mem_append_right _ (by rw [(splitExit_requests _ _ _).2]; decide)
  · rw [hprotocols] at hprotocol
    exact splitExit_noQuorum (List.mem_pair.mp hprotocol) n

/-- Without the third host, two of three hosts agree. -/
theorem splitExit_settles :
    ∃ findings, checkProxyStrong splitExit "http" ["https://checkip.amazonaws.com"] =
      some (verifiedResult "http" "198.51.100.7", findings) := by
  obtain ⟨hverified, -⟩ := splitExit_requests ["https://checkip.amazonaws.com"] "http" 0
  have hprobes : ∀ probe ∈ probeUrls.filter fun probe =>
      probe ∉ ["https://checkip.amazonaws.com"].map Text.strip,
      probe ∈ probeUrls ++ httpProbeUrls :=
    fun probe hprobe => List.mem_append_left _ (List.mem_of_mem_filter hprobe)
  have hdecide : ∀ site ∈ splitExit.requests ["https://checkip.amazonaws.com"] "http" 0 .verified,
      splitExit.Decides site := by
    rw [hverified]
    intro site hsite
    obtain ⟨probe, hprobe, rfl⟩ := List.mem_map.mp hsite
    exact .inr (splitExit_answers rfl (hprobes probe hprobe))
  have hquorum : quorum splitExit ((splitExit.requests ["https://checkip.amazonaws.com"] "http" 0
      .verified).filterMap splitExit.answer?) true = some "198.51.100.7" := by
    rw [hverified, splitExit_quorum hprobes]
    decide
  have hprotocols : proxyProtocols "http" = ["http"] := by decide
  have hattempt := attempt_settles hdecide hquorum (by decide) {}
  generalize Findings.after splitExit {} _ = findings at hattempt
  have hattempts : attempts splitExit ["https://checkip.amazonaws.com"] "http" {}
      (List.range probeAttempts) =
        some (.inl (verifiedResult "http" "198.51.100.7", findings)) := by
    have hrange : List.range probeAttempts = [0, 1] := rfl
    rw [hrange]
    unfold attempts
    rw [hattempt]
    rfl
  refine ⟨findings, ?_⟩
  unfold checkProxyStrong
  rw [hprotocols]
  unfold protocols
  rw [hattempts]
  rfl

end Scenario

open Scenario in
theorem trusted_egress_quorum_splitExit :
    ∃ protocol ∈ proxyProtocols "http", ∃ n < probeAttempts,
      ∃ a ∈ splitExit.requests ["https://checkip.amazonaws.com"] protocol n .verified,
        splitExit.Attests a "198.51.100.7" := by
  obtain ⟨findings, hcheck⟩ := splitExit_settles
  obtain ⟨-, protocol, hprotocol, n, hn, -, -, a, ha, b, hb, -, hattests, -⟩ :=
    (trusted_egress_quorum _ _).1 _ _ _ hcheck rfl
  exact ⟨protocol, hprotocol, n, hn, a, ha, hattests⟩

end EarnProxy

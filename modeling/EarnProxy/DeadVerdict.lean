import EarnProxy.StrongCheck

/-!
# When a working proxy is found dead

A check without a quorum has gone through its attempts until the time was up or a captive portal
ended them. What it has asked and whether it has met a portal is a relation on the environment
alone; with it the verdicts that contradict the observations of a check are known exactly.
-/

namespace EarnProxy

section Courses

variable (env : CheckEnv) (unavailable : List String)

/-- The request meets a captive portal. -/
def CheckEnv.Captive (site : Site) : Prop :=
  match env.outcome site with
  | .answered response => ∃ error ∈ captiveError env response.body response.writeOut, error ≠ ""
  | .failed _ => False

/-- No exception comes of the request. -/
def CheckEnv.Reads (site : Site) : Prop :=
  match env.outcome site with
  | .answered response => ∃ error ∈ captiveError env response.body response.writeOut,
      error = "" → (recordResponseFailure response site.probe false).isSome
  | .failed error => error ≠ ""

/-- The request ends with a TLS failure. -/
def CheckEnv.TlsFails (site : Site) : Prop := ∃ a ∈ env.answer? site, a.2.returncode ∈ tlsCodes

instance (site : Site) : Decidable (env.TlsFails site) :=
  inferInstanceAs (Decidable (∃ a ∈ env.answer? site, a.2.returncode ∈ tlsCodes))

/-- The requests with `--insecure`, which only a TLS failure starts. -/
def CheckEnv.insecureRequests (protocol : String) (n : Nat) : List Site :=
  if ∃ site ∈ env.requests unavailable protocol n .verified, env.TlsFails site then
    env.requests unavailable protocol n .insecure
  else []

/-- What the answers to the requests agree on. -/
def CheckEnv.agreement (sites : List Site) (requireTls : Bool) : Option String :=
  quorum env (sites.filterMap env.answer?) requireTls

/-- The attempt meets a captive portal before any quorum, and has made these requests. -/
inductive CheckEnv.GivesUp (protocol : String) (n : Nat) : List Site → Prop where
  | verified (reads : ∀ site ∈ env.requests unavailable protocol n .verified, env.Reads site)
      (portal : ∃ site ∈ env.requests unavailable protocol n .verified, env.Captive site) :
      GivesUp protocol n (env.requests unavailable protocol n .verified)
  | insecure {ip : String}
      (verified : ∀ site ∈ env.requests unavailable protocol n .verified,
        env.Reads site ∧ ¬ env.Captive site)
      (quorum : env.agreement (env.requests unavailable protocol n .verified) true = some ip)
      (reads : ∀ site ∈ env.insecureRequests unavailable protocol n, env.Reads site)
      (portal : ∃ site ∈ env.insecureRequests unavailable protocol n, env.Captive site) :
      GivesUp protocol n (env.requests unavailable protocol n .verified ++
        env.insecureRequests unavailable protocol n)
  | plain {ip : String}
      (verified : ∀ site ∈ env.requests unavailable protocol n .verified,
        env.Reads site ∧ ¬ env.Captive site)
      (quorum : env.agreement (env.requests unavailable protocol n .verified) true = some "")
      (insecure : ∀ site ∈ env.insecureRequests unavailable protocol n,
        env.Reads site ∧ ¬ env.Captive site)
      (quorum' : env.agreement (env.insecureRequests unavailable protocol n) false = some ip)
      (reads : ∀ site ∈ env.requests unavailable protocol n .plain, env.Reads site)
      (portal : ∃ site ∈ env.requests unavailable protocol n .plain, env.Captive site) :
      GivesUp protocol n (env.requests unavailable protocol n .verified ++
        env.insecureRequests unavailable protocol n ++ env.requests unavailable protocol n .plain)

/-- The attempt meets no captive portal, and none of its groups has a quorum. -/
structure CheckEnv.Disagrees (protocol : String) (n : Nat) : Prop where
  verified : ∀ site ∈ env.requests unavailable protocol n .verified,
    env.Reads site ∧ ¬ env.Captive site
  insecure : ∀ site ∈ env.insecureRequests unavailable protocol n,
    env.Reads site ∧ ¬ env.Captive site
  plain : ∀ site ∈ env.requests unavailable protocol n .plain, env.Reads site ∧ ¬ env.Captive site
  verifiedQuorum : env.agreement (env.requests unavailable protocol n .verified) true = some ""
  insecureQuorum : env.agreement (env.insecureRequests unavailable protocol n) false = some ""
  plainQuorum : env.agreement (env.requests unavailable protocol n .plain) false = some ""

/-- The attempts of a protocol settle nothing; they make these requests, and the flag says whether
they end at a captive portal. -/
inductive CheckEnv.AttemptCourse (protocol : String) : List Nat → List Site → Bool → Prop where
  | done : AttemptCourse protocol [] [] false
  | late {n : Nat} {rest : List Nat} (late : env.attemptLate protocol n = true) :
      AttemptCourse protocol (n :: rest) [] false
  | givesUp {n : Nat} {rest : List Nat} {sites : List Site}
      (inTime : env.attemptLate protocol n = false)
      (ending : env.GivesUp unavailable protocol n sites) :
      AttemptCourse protocol (n :: rest) sites true
  | disagrees {n : Nat} {rest : List Nat} {sites : List Site} {portal : Bool}
      (inTime : env.attemptLate protocol n = false)
      (ending : env.Disagrees unavailable protocol n)
      (further : AttemptCourse protocol rest sites portal) :
      AttemptCourse protocol (n :: rest) (env.requests unavailable protocol n .verified ++
        env.insecureRequests unavailable protocol n ++
        env.requests unavailable protocol n .plain ++ sites) portal

/-- The protocols settle nothing. -/
inductive CheckEnv.Course : List String → List Site → Bool → Prop where
  | done : Course [] [] false
  | late {protocol : String} {rest : List String} (late : env.protocolLate protocol = true) :
      Course (protocol :: rest) [] false
  | next {protocol : String} {rest : List String} {sites sites' : List Site} {portal portal' : Bool}
      (inTime : env.protocolLate protocol = false)
      (attempts : env.AttemptCourse unavailable protocol (List.range probeAttempts) sites portal)
      (further : Course rest sites' portal') :
      Course (protocol :: rest) (sites ++ sites') (portal || portal')

end Courses

section Findings

/-- The findings after these requests; the flag says whether they have met a captive portal. -/
structure Findings.Grows (findings findings' : Findings) (sites : List Site) (portal : Bool) :
    Prop where
  asked : findings'.asked = findings.asked ++ sites
  blocked : findings'.blockedResults ≠ [] ↔ findings.blockedResults ≠ [] ∨ portal = true

theorem Findings.Grows.refl (findings : Findings) : findings.Grows findings [] false :=
  ⟨by simp, by simp⟩

theorem Findings.Grows.trans {f f' f'' : Findings} {sites sites' : List Site}
    {portal portal' : Bool} (h : f.Grows f' sites portal) (h' : f'.Grows f'' sites' portal') :
    f.Grows f'' (sites ++ sites') (portal || portal') where
  asked := by rw [h'.asked, h.asked, List.append_assoc]
  blocked := by rw [h'.blocked, h.blocked, Bool.or_eq_true, or_assoc]

variable {env : CheckEnv} {unavailable : List String}

/-- What the visits of some requests leave. -/
structure GroupRun.Visited (env : CheckEnv) (run run' : GroupRun) (sites : List Site) : Prop where
  grows : run.findings.Grows run'.findings sites false
  portal : run'.protocolBlocked ≠ [] ↔ run.protocolBlocked ≠ [] ∨ ∃ site ∈ sites, env.Captive site
  reads : ∀ site ∈ sites, env.Reads site

theorem GroupRun.Visited.refl (run : GroupRun) : run.Visited env run [] :=
  ⟨.refl _, by simp, by simp⟩

theorem GroupRun.Visited.trans {run run' run'' : GroupRun} {sites sites' : List Site}
    (h : run.Visited env run' sites) (h' : run'.Visited env run'' sites') :
    run.Visited env run'' (sites ++ sites') where
  grows := h.grows.trans h'.grows
  portal := by
    rw [h'.portal, h.portal, or_assoc]
    simp only [List.mem_append, or_and_right, exists_or]
  reads := List.forall_mem_append.mpr ⟨h.reads, h'.reads⟩

theorem visit_visited {run run' : GroupRun} {site : Site} (h : run.visit env site = some run') :
    run.Visited env run' [site] := by
  rcases visit_cases h with
      ⟨error, hne, houtcome, rfl⟩ | ⟨response, blocked, houtcome, hcaptive, hne, rfl⟩ |
    ⟨response, evidence, houtcome, hcaptive, hevidence, rfl⟩
  · refine ⟨⟨rfl, by simp⟩, ?_, ?_⟩
    · simp [CheckEnv.Captive, houtcome]
    · simpa [CheckEnv.Reads, houtcome] using hne
  · refine ⟨⟨rfl, by simp⟩, ?_, ?_⟩
    · simp [CheckEnv.Captive, houtcome, hcaptive, hne]
    · simp [CheckEnv.Reads, houtcome, hcaptive, hne]
  · refine ⟨⟨rfl, by simp [Findings.merge]⟩, ?_, ?_⟩
    · simp [CheckEnv.Captive, houtcome, hcaptive]
    · simp [CheckEnv.Reads, houtcome, hcaptive, hevidence]

theorem visit_of_reads {site : Site} (h : env.Reads site) (run : GroupRun) :
    ∃ run', run.visit env site = some run' := by
  unfold CheckEnv.Reads at h
  unfold GroupRun.visit
  cases houtcome : env.outcome site with
  | failed error =>
    rw [houtcome] at h
    exact ⟨_, if_neg h⟩
  | answered response =>
    rw [houtcome] at h
    obtain ⟨error, herror, hrecord⟩ := h
    rw [Option.mem_def] at herror
    by_cases hempty : error = ""
    · obtain ⟨evidence, hevidence⟩ := Option.isSome_iff_exists.mp (hrecord hempty)
      simp [herror, hempty, hevidence]
    · simp [herror, hempty]

theorem visitAll_visited {sites : List Site} {run run' : GroupRun}
    (h : run.visitAll env sites = some run') :
    run.Visited env run' (sites.takeWhile fun site => !env.late site) := by
  induction sites generalizing run with
  | nil =>
    obtain rfl := Option.some.inj h
    exact .refl run
  | cons site rest ih =>
    cases hlate : env.late site with
    | true =>
      unfold GroupRun.visitAll at h
      rw [hlate, if_pos rfl] at h
      obtain rfl := Option.some.inj h
      rw [List.takeWhile_cons, hlate]
      exact .refl run
    | false =>
      obtain ⟨next, hvisit, hrest⟩ := visitAll_cons hlate h
      rw [List.takeWhile_cons, hlate]
      exact (visit_visited hvisit).trans (ih hrest)

theorem visitAll_of_reads {sites : List Site}
    (h : ∀ site ∈ sites.takeWhile fun site => !env.late site, env.Reads site) (run : GroupRun) :
    ∃ run', run.visitAll env sites = some run' := by
  induction sites generalizing run with
  | nil => exact ⟨run, rfl⟩
  | cons site rest ih =>
    unfold GroupRun.visitAll
    cases hlate : env.late site with
    | true => exact ⟨run, if_pos rfl⟩
    | false =>
      rw [List.takeWhile_cons, hlate] at h
      obtain ⟨hsite, hrest⟩ := List.forall_mem_cons.mp h
      obtain ⟨next, hnext⟩ := visit_of_reads hsite run
      rw [if_neg (by decide), hnext]
      exact ih hrest next

end Findings

/-! ## The course of a check without a quorum -/

section Endings

variable {env : CheckEnv} {unavailable : List String} {protocol : String} {n : Nat}
  {findings findings' : Findings}

/-- The group of the verified probes, from the start of an attempt. -/
theorem verified_visited {verified : GroupRun}
    (h : GroupRun.visitAll env { findings } (groupSites unavailable protocol n .verified) =
      some verified) :
    GroupRun.Visited env { findings } verified (env.requests unavailable protocol n .verified) :=
  visitAll_visited h

theorem tlsFailed_iff {verified : GroupRun}
    (h : verified.results = (env.requests unavailable protocol n .verified).filterMap env.answer?) :
    verified.tlsFailed = true ↔
      ∃ site ∈ env.requests unavailable protocol n .verified, env.TlsFails site := by
  unfold GroupRun.tlsFailed
  rw [h, List.any_eq_true]
  simp only [List.mem_filterMap, decide_eq_true_eq, CheckEnv.TlsFails, Option.mem_def]
  constructor
  · rintro ⟨result, ⟨site, hsite, hanswer⟩, htls⟩
    exact ⟨site, hsite, result, hanswer, htls⟩
  · rintro ⟨site, hsite, result, hanswer, htls⟩
    exact ⟨result, ⟨site, hsite, hanswer⟩, htls⟩

theorem insecureRun_visited {verified insecure : GroupRun}
    (hresults : verified.results =
      (env.requests unavailable protocol n .verified).filterMap env.answer?)
    (h : insecureRun env unavailable protocol n verified = some insecure) :
    GroupRun.Visited env { findings := verified.findings } insecure
        (env.insecureRequests unavailable protocol n) ∧
      (insecure.protocolBlocked = [] → insecure.results =
        (env.insecureRequests unavailable protocol n).filterMap env.answer?) := by
  unfold insecureRun at h
  unfold CheckEnv.insecureRequests
  by_cases htls : verified.tlsFailed = true
  · rw [if_pos htls] at h
    rw [if_pos ((tlsFailed_iff hresults).mp htls)]
    have hvisited := visitAll_visited h
    refine ⟨⟨⟨hvisited.grows.asked, hvisited.grows.blocked⟩, hvisited.portal, hvisited.reads⟩,
      fun hopen => ?_⟩
    exact (visitAll_results h hopen).2.trans (List.nil_append _)
  · rw [if_neg htls] at h
    rw [if_neg fun hfails => htls ((tlsFailed_iff hresults).mpr hfails)]
    obtain rfl := Option.some.inj h
    exact ⟨.refl _, fun _ => rfl⟩

theorem insecureRun_of_reads {verified : GroupRun}
    (hresults : verified.results =
      (env.requests unavailable protocol n .verified).filterMap env.answer?)
    (h : ∀ site ∈ env.insecureRequests unavailable protocol n, env.Reads site) :
    ∃ insecure, insecureRun env unavailable protocol n verified = some insecure := by
  unfold insecureRun
  unfold CheckEnv.insecureRequests at h
  by_cases htls : verified.tlsFailed = true
  · rw [if_pos ((tlsFailed_iff hresults).mp htls)] at h
    rw [if_pos htls]
    exact visitAll_of_reads h _
  · rw [if_neg htls]
    exact ⟨_, rfl⟩

/-- A group that has ended open has met no portal. -/
theorem GroupRun.Visited.open_iff {run run' : GroupRun} {sites : List Site}
    (h : run.Visited env run' sites) (hstart : run.protocolBlocked = []) :
    run'.protocolBlocked = [] ↔ ∀ site ∈ sites, env.Reads site ∧ ¬ env.Captive site := by
  have hportal := h.portal
  rw [hstart] at hportal
  constructor
  · intro hopen site hsite
    refine ⟨h.reads site hsite, fun hmeets => ?_⟩
    exact hportal.mpr (.inr ⟨site, hsite, hmeets⟩) hopen
  · intro hopen
    by_contra hblocked
    rcases hportal.mp hblocked with hnil | ⟨site, hsite, hmeets⟩
    · exact hnil rfl
    · exact (hopen site hsite).2 hmeets

theorem GroupRun.Visited.blocked_iff {run run' : GroupRun} {sites : List Site}
    (h : run.Visited env run' sites) (hstart : run.protocolBlocked = []) :
    run'.protocolBlocked ≠ [] ↔ ∃ site ∈ sites, env.Captive site := by
  rw [h.portal, hstart]
  exact or_iff_right (by simp)

/-- The findings of a group that gives up. -/
theorem GroupRun.giveUp_grows (protocol : String) {run : GroupRun} {sites : List Site}
    (h : findings.Grows run.findings sites false) (hblocked : run.protocolBlocked ≠ []) :
    ∃ findings', run.giveUp protocol = .blocked findings' ∧
      findings.Grows findings' sites true := by
  refine ⟨_, rfl, h.asked, iff_of_true ?_ (.inr rfl)⟩
  intro hnil
  exact hblocked (List.map_eq_nil_iff.mp (List.append_eq_nil_iff.mp hnil).2)

/-- An attempt that gives up has met a captive portal. -/
theorem attempt_givesUp
    (h : attempt env unavailable protocol n findings = some (.blocked findings')) :
    ∃ sites, env.GivesUp unavailable protocol n sites ∧ findings.Grows findings' sites true := by
  unfold attempt at h
  obtain ⟨verified, hverified, h⟩ := Option.bind_eq_some_iff.mp h
  have hfirst := verified_visited hverified
  split at h
  · rename_i hblocked
    obtain ⟨findings'', hending, hgrows⟩ := GroupRun.giveUp_grows protocol hfirst.grows hblocked
    obtain rfl : findings'' = findings' := by simpa [hending] using h
    exact ⟨_, .verified hfirst.reads ((hfirst.blocked_iff rfl).mp hblocked), hgrows⟩
  rename_i hopen
  have hopen := not_not.mp hopen
  have hresults := (visitAll_results hverified hopen).2
  rw [List.nil_append] at hresults
  change verified.results =
    (env.requests unavailable protocol n .verified).filterMap env.answer? at hresults
  obtain ⟨verifiedIp, hverifiedIp, h⟩ := Option.bind_eq_some_iff.mp h
  obtain ⟨insecure, hinsecure, h⟩ := Option.bind_eq_some_iff.mp h
  obtain ⟨hsecond, hinsecureResults⟩ := insecureRun_visited hresults hinsecure
  have hgrows := hfirst.grows.trans hsecond.grows
  rw [hresults] at hverifiedIp
  split at h
  · rename_i hblocked
    obtain ⟨findings'', hending, hgrows⟩ := GroupRun.giveUp_grows protocol hgrows hblocked
    obtain rfl : findings'' = findings' := by simpa [hending] using h
    exact ⟨_, .insecure ((hfirst.open_iff rfl).mp hopen) hverifiedIp hsecond.reads
      ((hsecond.blocked_iff rfl).mp hblocked), hgrows⟩
  rename_i hopen'
  have hopen' := not_not.mp hopen'
  obtain ⟨insecureIp, hinsecureIp, h⟩ := Option.bind_eq_some_iff.mp h
  rw [hinsecureResults hopen'] at hinsecureIp
  split at h
  · cases h
  rename_i hip
  rw [not_not.mp hip] at hverifiedIp
  obtain ⟨plain, hplain, h⟩ := Option.bind_eq_some_iff.mp h
  have hthird := visitAll_visited hplain
  split at h
  · rename_i hblocked
    obtain ⟨findings'', hending, hgrows⟩ := GroupRun.giveUp_grows protocol
      (hgrows.trans hthird.grows) hblocked
    obtain rfl : findings'' = findings' := by simpa [hending] using h
    exact ⟨_, .plain ((hfirst.open_iff rfl).mp hopen) hverifiedIp ((hsecond.open_iff rfl).mp hopen')
      hinsecureIp hthird.reads ((hthird.blocked_iff rfl).mp hblocked), hgrows⟩
  obtain ⟨plainIp, hplainIp, h⟩ := Option.bind_eq_some_iff.mp h
  split at h
  · cases h
  split at h
  · cases h
  · cases h

/-- An attempt that goes on to the next one has no quorum. -/
theorem attempt_disagrees
    (h : attempt env unavailable protocol n findings = some (.undecided findings')) :
    env.Disagrees unavailable protocol n ∧ findings.Grows findings'
      (env.requests unavailable protocol n .verified ++
        env.insecureRequests unavailable protocol n ++
        env.requests unavailable protocol n .plain) false := by
  rcases attempt_cases h with ⟨_, _, hending⟩ | ⟨verified, insecure, ip, insecureIp, hrun, hending⟩
  · cases hending
  rcases hending with ⟨_, hending⟩ | ⟨rfl, plain, plainIp, hplain, hopen, hplainIp, hending⟩
  · cases hending
  rcases hending with ⟨_, hending⟩ | ⟨_, hending⟩ | ⟨rfl, rfl, hending⟩
  · cases hending
  · cases hending
  cases hending
  have hfirst := verified_visited hrun.verifiedRun
  have hresults := (visitAll_results hrun.verifiedRun hrun.verifiedOpen).2
  rw [List.nil_append] at hresults
  obtain ⟨hsecond, hinsecureResults⟩ := insecureRun_visited hresults hrun.insecureRun
  have hthird := visitAll_visited hplain
  have hplainResults := (visitAll_results hplain hopen).2
  rw [List.nil_append] at hplainResults
  refine ⟨?_, (hfirst.grows.trans hsecond.grows).trans hthird.grows⟩
  exact {
    verified := (hfirst.open_iff rfl).mp hrun.verifiedOpen
    insecure := (hsecond.open_iff rfl).mp hrun.insecureOpen
    plain := (hthird.open_iff rfl).mp hopen
    verifiedQuorum := (congrArg (quorum env · true) hresults).symm.trans hrun.verifiedQuorum
    insecureQuorum := (congrArg (quorum env · false)
      (hinsecureResults hrun.insecureOpen)).symm.trans hrun.insecureQuorum
    plainQuorum := (congrArg (quorum env · false) hplainResults).symm.trans hplainIp }

/-- The verified probes of an attempt, when none of them meets a portal. -/
theorem verified_open
    (h : ∀ site ∈ env.requests unavailable protocol n .verified, env.Reads site ∧
      ¬ env.Captive site)
    (findings : Findings) :
    ∃ verified, GroupRun.visitAll env { findings } (groupSites unavailable protocol n .verified) =
        some verified ∧ verified.protocolBlocked = [] ∧
      verified.results = (env.requests unavailable protocol n .verified).filterMap env.answer? ∧
      findings.Grows verified.findings (env.requests unavailable protocol n .verified) false := by
  obtain ⟨verified, hverified⟩ :=
    visitAll_of_reads (fun site hsite => (h site hsite).1) { findings }
  have hvisited := verified_visited hverified
  have hopen := (hvisited.open_iff rfl).mpr h
  have hresults := (visitAll_results hverified hopen).2
  rw [List.nil_append] at hresults
  exact ⟨verified, hverified, hopen, hresults, hvisited.grows⟩

/-- The probes with `--insecure`, likewise. -/
theorem insecure_open {verified : GroupRun}
    (hresults : verified.results =
      (env.requests unavailable protocol n .verified).filterMap env.answer?)
    (h : ∀ site ∈ env.insecureRequests unavailable protocol n, env.Reads site ∧
      ¬ env.Captive site) :
    ∃ insecure, insecureRun env unavailable protocol n verified = some insecure ∧
      insecure.protocolBlocked = [] ∧
      insecure.results = (env.insecureRequests unavailable protocol n).filterMap env.answer? ∧
      verified.findings.Grows insecure.findings (env.insecureRequests unavailable protocol n)
        false := by
  obtain ⟨insecure, hinsecure⟩ := insecureRun_of_reads hresults fun site hsite => (h site hsite).1
  obtain ⟨hvisited, hanswers⟩ := insecureRun_visited hresults hinsecure
  have hopen := (hvisited.open_iff rfl).mpr h
  exact ⟨insecure, hinsecure, hopen, hanswers hopen, hvisited.grows⟩

theorem CheckEnv.GivesUp.attempt {sites : List Site} (h : env.GivesUp unavailable protocol n sites)
    (findings : Findings) : ∃ findings',
      attempt env unavailable protocol n findings = some (.blocked findings') ∧
        findings.Grows findings' sites true := by
  unfold EarnProxy.attempt
  cases h with
  | verified hreads hportal =>
    obtain ⟨verified, hverified⟩ := visitAll_of_reads hreads { findings }
    have hvisited := verified_visited hverified
    have hblocked := (hvisited.blocked_iff rfl).mpr hportal
    obtain ⟨findings', hending, hgrows⟩ := GroupRun.giveUp_grows protocol hvisited.grows hblocked
    refine ⟨findings', ?_, hgrows⟩
    rw [← hending]
    simp only [hverified, Option.bind_eq_bind, Option.bind_some, hblocked, ne_eq, not_false_eq_true,
      if_true, Option.pure_def]
  | insecure hopen hquorum hreads hportal =>
    obtain ⟨verified, hverified, hopen, hresults, hfirst⟩ := verified_open hopen findings
    obtain ⟨insecure, hinsecure⟩ := insecureRun_of_reads hresults hreads
    have hsecond := (insecureRun_visited hresults hinsecure).1
    have hblocked := (hsecond.blocked_iff rfl).mpr hportal
    obtain ⟨findings', hending, hgrows⟩ := GroupRun.giveUp_grows protocol
      (hfirst.trans hsecond.grows) hblocked
    refine ⟨findings', ?_, hgrows⟩
    rw [CheckEnv.agreement, ← hresults] at hquorum
    rw [← hending]
    simp only [hverified, hopen, hquorum, hinsecure, Option.bind_eq_bind, Option.bind_some,
      hblocked, ne_eq, not_true_eq_false, not_false_eq_true, if_true, if_false, Option.pure_def]
  | plain hopen hquorum hopen' hquorum' hreads hportal =>
    obtain ⟨verified, hverified, hopen, hresults, hfirst⟩ := verified_open hopen findings
    obtain ⟨insecure, hinsecure, hopen', hresults', hsecond⟩ := insecure_open hresults hopen'
    obtain ⟨plain, hplain⟩ := visitAll_of_reads hreads { findings := insecure.findings }
    have hthird := visitAll_visited hplain
    have hblocked := (hthird.blocked_iff rfl).mpr hportal
    obtain ⟨findings', hending, hgrows⟩ := GroupRun.giveUp_grows protocol
      ((hfirst.trans hsecond).trans hthird.grows) hblocked
    refine ⟨findings', ?_, hgrows⟩
    rw [CheckEnv.agreement, ← hresults] at hquorum
    rw [CheckEnv.agreement, ← hresults'] at hquorum'
    rw [← hending]
    simp only [hverified, hopen, hquorum, hinsecure, hopen', hquorum', hplain, Option.bind_eq_bind,
      Option.bind_some, hblocked, ne_eq, not_true_eq_false, not_false_eq_true, if_true, if_false,
      Option.pure_def]

theorem CheckEnv.Disagrees.attempt (h : env.Disagrees unavailable protocol n)
    (findings : Findings) : ∃ findings',
      attempt env unavailable protocol n findings = some (.undecided findings') ∧
        findings.Grows findings' (env.requests unavailable protocol n .verified ++
          env.insecureRequests unavailable protocol n ++
          env.requests unavailable protocol n .plain) false := by
  obtain ⟨verified, hverified, hopen, hresults, hfirst⟩ := verified_open h.verified findings
  obtain ⟨insecure, hinsecure, hopen', hresults', hsecond⟩ := insecure_open hresults h.insecure
  obtain ⟨plain, hplain⟩ := visitAll_of_reads (fun site hsite => (h.plain site hsite).1)
    { findings := insecure.findings }
  have hthird := visitAll_visited hplain
  have hopen'' := (hthird.open_iff rfl).mpr h.plain
  have hresults'' := (visitAll_results hplain hopen'').2
  have hquorum := h.verifiedQuorum
  have hquorum' := h.insecureQuorum
  have hquorum'' := h.plainQuorum
  rw [CheckEnv.agreement, ← hresults] at hquorum
  rw [CheckEnv.agreement, ← hresults'] at hquorum'
  rw [List.nil_append] at hresults''
  change plain.results =
    (env.requests unavailable protocol n .plain).filterMap env.answer? at hresults''
  rw [CheckEnv.agreement, ← hresults''] at hquorum''
  refine ⟨plain.findings, ?_, (hfirst.trans hsecond).trans hthird.grows⟩
  unfold EarnProxy.attempt
  simp only [hverified, hopen, hquorum, hinsecure, hopen', hquorum', hplain, hopen'', hquorum'',
    Option.bind_eq_bind, Option.bind_some, ne_eq, not_true_eq_false, if_false, Option.pure_def]

theorem attempts_course {ns : List Nat}
    (h : attempts env unavailable protocol findings ns = some (.inr findings')) :
    ∃ sites portal, env.AttemptCourse unavailable protocol ns sites portal ∧
      findings.Grows findings' sites portal := by
  induction ns generalizing findings with
  | nil =>
    cases h
    exact ⟨_, _, .done, .refl _⟩
  | cons n rest ih =>
    unfold attempts at h
    cases hlate : env.attemptLate protocol n with
    | true =>
      rw [hlate, if_pos rfl] at h
      cases h
      exact ⟨_, _, .late hlate, .refl _⟩
    | false =>
      rw [hlate, if_neg (by decide)] at h
      cases hattempt : attempt env unavailable protocol n findings with
      | none =>
        rw [hattempt] at h
        cases h
      | some ending =>
        rw [hattempt] at h
        cases ending with
        | settled result findings'' => cases h
        | blocked findings'' =>
          cases h
          obtain ⟨sites, hends, hgrows⟩ := attempt_givesUp hattempt
          exact ⟨sites, true, .givesUp hlate hends, hgrows⟩
        | undecided findings'' =>
          obtain ⟨hends, hgrows⟩ := attempt_disagrees hattempt
          obtain ⟨sites, portal, hcourse, hgrows'⟩ := ih h
          exact ⟨_, portal, .disagrees hlate hends hcourse, hgrows.trans hgrows'⟩

theorem CheckEnv.AttemptCourse.attempts {ns : List Nat} {sites : List Site} {portal : Bool}
    (h : env.AttemptCourse unavailable protocol ns sites portal) (findings : Findings) :
    ∃ findings', attempts env unavailable protocol findings ns = some (.inr findings') ∧
      findings.Grows findings' sites portal := by
  induction h generalizing findings with
  | done => exact ⟨findings, rfl, .refl _⟩
  | late hlate => exact ⟨findings, by rw [EarnProxy.attempts, hlate, if_pos rfl], .refl _⟩
  | givesUp hlate hends =>
    obtain ⟨findings', hattempt, hgrows⟩ := hends.attempt findings
    refine ⟨findings', ?_, hgrows⟩
    rw [EarnProxy.attempts, hlate, if_neg (by decide), hattempt]
  | disagrees hlate hends _ ih =>
    obtain ⟨next, hattempt, hgrows⟩ := hends.attempt findings
    obtain ⟨findings', hrest, hgrows'⟩ := ih next
    refine ⟨findings', ?_, hgrows.trans hgrows'⟩
    rw [EarnProxy.attempts, hlate, if_neg (by decide), hattempt]
    exact hrest

theorem Findings.conclude_blocked (h : findings.blockedResults ≠ []) :
    findings.conclude.exitIp = "" ∧ findings.conclude.status = .blocked := by
  unfold Findings.conclude
  cases hblocked : findings.blockedResults with
  | nil => exact absurd hblocked h
  | cons head rest => exact ⟨rfl, rfl⟩

theorem Findings.conclude_blocked_iff (findings : Findings) :
    findings.conclude.status = .blocked ↔ findings.blockedResults ≠ [] := by
  refine ⟨fun h hnil => ?_, fun h => (Findings.conclude_blocked h).2⟩
  unfold Findings.conclude at h
  rw [hnil] at h
  dsimp only at h
  split at h <;> cases h

theorem protocols_course {ps : List String}
    (h : protocols env unavailable findings ps = some (.inr findings')) :
    ∃ sites portal, env.Course unavailable ps sites portal ∧
      findings.Grows findings' sites portal := by
  induction ps generalizing findings with
  | nil =>
    cases h
    exact ⟨_, _, .done, .refl _⟩
  | cons protocol rest ih =>
    unfold protocols at h
    cases hlate : env.protocolLate protocol with
    | true =>
      rw [hlate, if_pos rfl] at h
      cases h
      exact ⟨_, _, .late hlate, .refl _⟩
    | false =>
      rw [hlate, if_neg (by decide)] at h
      cases hattempts : attempts env unavailable protocol findings (List.range probeAttempts) with
      | none =>
        rw [hattempts] at h
        cases h
      | some ending =>
        rw [hattempts] at h
        cases ending with
        | inl settled => cases h
        | inr findings'' =>
          obtain ⟨sites, portal, hcourse, hgrows⟩ := attempts_course hattempts
          obtain ⟨sites', portal', hcourse', hgrows'⟩ := ih h
          exact ⟨_, _, .next hlate hcourse hcourse', hgrows.trans hgrows'⟩

theorem CheckEnv.Course.protocols {ps : List String} {sites : List Site} {portal : Bool}
    (h : env.Course unavailable ps sites portal) (findings : Findings) :
    ∃ findings', protocols env unavailable findings ps = some (.inr findings') ∧
      findings.Grows findings' sites portal := by
  induction h generalizing findings with
  | done => exact ⟨findings, rfl, .refl _⟩
  | late hlate => exact ⟨findings, by rw [EarnProxy.protocols, hlate, if_pos rfl], .refl _⟩
  | next hlate hattempts _ ih =>
    obtain ⟨next, hrun, hgrows⟩ := hattempts.attempts findings
    obtain ⟨findings', hrest, hgrows'⟩ := ih next
    refine ⟨findings', ?_, hgrows.trans hgrows'⟩
    rw [EarnProxy.protocols, hlate, if_neg (by decide), hrun]
    exact hrest

end Endings

/-! ## The verdict -/

section Verdict

variable (env : CheckEnv) (unavailable : List String) (setting : String)

/-- Two of the requests observe different addresses. -/
def CheckEnv.Splits (sites : List Site) : Prop :=
  ∃ a ∈ sites, ∃ b ∈ sites, ∃ ip ∈ env.observed false a, ∃ ip' ∈ env.observed false b, ip ≠ ip'

/-- A check that has observed an address does not find the proxy dead, and one that has observed two
and has no quorum is inconclusive. -/
def CheckEnv.NeverDead : Prop :=
  ∀ result findings, checkProxyStrong env setting unavailable = some (result, findings) →
    ((∃ site ∈ findings.asked, (env.observed false site).isSome) → result.status ≠ .dead) ∧
      (env.Splits findings.asked → result.exitIp = "" → result.status = .inconclusive)

/-- The check has no quorum and meets a captive portal, and its requests observe two addresses. -/
def CheckEnv.PortalOutvotes : Prop :=
  ∃ sites, env.Course unavailable (proxyProtocols setting) sites true ∧ env.Splits sites

/-- A working proxy is found dead exactly when every request shows a failure of the proxy or is
answered as it should be, one shows a failure, one observes an address, and no attempt has a quorum;
and observations that disagree are overruled otherwise exactly when a captive portal is met. -/
theorem working_never_dead_iff :
    env.NeverDead unavailable setting ↔
      ¬ (env.Condemns unavailable setting ∧
        ∃ site ∈ env.scheduled unavailable setting, (env.observed false site).isSome) ∧
      ¬ env.PortalOutvotes unavailable setting := by
  constructor
  · intro hnever
    constructor
    · rintro ⟨hcondemns, hobserved⟩
      obtain ⟨hrun, hdead⟩ := hcondemns.run
      exact (hnever _ _ hrun).1 (by simpa [Findings.after] using hobserved) hdead
    · rintro ⟨sites, hcourse, hsplits⟩
      obtain ⟨findings, hrun, hgrows⟩ := hcourse.protocols {}
      have hcheck : checkProxyStrong env setting unavailable =
          some (findings.conclude, findings) := by
        rw [checkProxyStrong, hrun]
        rfl
      have hasked : findings.asked = sites := hgrows.asked
      obtain ⟨hexit, hblocked⟩ := Findings.conclude_blocked (hgrows.blocked.mpr (.inr rfl))
      have hinconclusive := (hnever _ _ hcheck).2 (hasked ▸ hsplits) hexit
      rw [hblocked] at hinconclusive
      cases hinconclusive
  · rintro ⟨hnot, hopen⟩ result findings hcheck
    have halive : (∃ site ∈ findings.asked, (env.observed false site).isSome) →
        result.status ≠ .dead := by
      intro hobserved hdead
      obtain ⟨hcondemns, hasked⟩ := CheckEnv.condemns_of_dead hcheck hdead
      rw [hasked] at hobserved
      exact hnot ⟨hcondemns, hobserved⟩
    refine ⟨halive, fun hsplits hempty => ?_⟩
    rcases checkProxyStrong_cases hcheck with ⟨_, _, _, _, _, hsettled⟩ | ⟨hrun, rfl⟩
    · exact absurd hempty (settled_exitIp hsettled).1
    obtain ⟨sites, portal, hcourse, hgrows⟩ := protocols_course hrun
    have hasked : findings.asked = sites := hgrows.asked
    rcases findings.conclude_status with hstatus | hstatus | hstatus
    · -- a portal was met on the way
      have hblocked := hgrows.blocked.mp (findings.conclude_blocked_iff.mp hstatus)
      obtain rfl := hblocked.resolve_left (not_not.mpr rfl)
      exact absurd ⟨sites, hcourse, hasked ▸ hsplits⟩ hopen
    · obtain ⟨a, ha, _, _, ip, hip, _⟩ := hsplits
      exact absurd hstatus (halive ⟨a, ha, Option.isSome_of_mem hip⟩)
    · exact hstatus

end Verdict

open Scenario in
/-- The verdict although an address has been observed. -/
theorem working_dead_splitExit :
    (checkProxyStrong splitExit "auto" []).map (·.1.status) = some .dead ∧
      ¬ splitExit.NeverDead [] "auto" := by
  obtain ⟨hrun, hdead⟩ := splitExit_condemned.run
  refine ⟨by rw [hrun, Option.map_some, hdead], fun hnever => ?_⟩
  refine (hnever _ _ hrun).1 ⟨⟨"http", 0, .plain, "http://icanhazip.com"⟩, ?_, ?_⟩ hdead
  · have hprotocols : splitExit.protocolsInTime "auto" = ["socks5", "http"] := by decide
    have hattempts : splitExit.attemptsInTime "http" = [0, 1] := rfl
    simp only [Findings.after, List.nil_append]
    refine CheckEnv.mem_scheduled.mpr ⟨"http", by simp [hprotocols], 0, by simp [hattempts], ?_⟩
    exact List.mem_append_right _ (by rw [(splitExit_requests _ _ _).2]; decide)
  · have hvalue : quorumValue splitExit false "http://icanhazip.com"
        (answerOf "http://icanhazip.com" (splitBody "http://icanhazip.com")) = _ :=
      quorumValue_answerOf (by simp [httpProbeUrls]) false
    unfold CheckEnv.observed
    rw [splitExit_outcome rfl]
    dsimp only
    rw [hvalue]
    decide

end EarnProxy

import EarnProxy.Swap.RunnerFence

/-!
# The provider is asked once

A job has one request each time that it is taken up: it enters its mutation once, and the runner
that takes it there asks once. The bound is a ration that an entry uses up and that the
administrator renews.

## Main results

* `provider_asked_once`: the provider is asked to swap an assignment at most once each time that a
  job is taken up, while its row is in the mutation and nothing else of its subscription is in
  flight.
* `lost_mutation_stays_closed`: a job whose runner is gone during the mutation stays where it is,
  and nothing of its subscription is swapped.
-/

namespace EarnProxy.Swap

/-! ## How often the provider is asked -/

/-- The administrator takes the job up again after it was closed without a provider change. -/
def Reopens (i : Nat) (s : RunnerState) : Act → Prop
  | .other e => AdminRetries i s.swap e
  | _ => False

instance (i : Nat) (s : RunnerState) (a : Act) : Decidable (Reopens i s a) := by
  cases a <;> unfold Reopens <;> infer_instance

/-- How often the provider was asked for the job. -/
def RunnerState.requested (s : RunnerState) (i : Nat) : Nat := s.requests.countP (·.1 = i)

/-- A runner has still to ask for the job. -/
def RunnerState.Ahead (s : RunnerState) (i : Nat) : Prop :=
  ∃ (k : Nat) (runner : Runner), s.runners[k]? = some runner ∧ runner.ahead? = some i

/-- The job has entered its mutation. -/
def RunnerState.Taken (s : RunnerState) (i : Nat) : Prop :=
  ∃ j ∈ s.swap.db.jobs, j.id = i ∧ j.Fenced

/-- The requests for a job that was taken up `n` times after the first: one more can come only while
it is not in its mutation yet, or while its runner has still to ask. -/
structure RunnerState.Rationed (s : RunnerState) (i n : Nat) : Prop where
  bound : s.requested i ≤ n + 1
  room : s.Ahead i ∨ ¬ s.Taken i → s.requested i ≤ n

theorem RunnerState.Guarded.taken_of_ahead {s : RunnerState} (h : s.Guarded) {i : Nat}
    (hahead : s.Ahead i) : ∃ j ∈ s.swap.db.jobs, j.id = i ∧ j.state = .mutating := by
  obtain ⟨k, runner, hk, hahead⟩ := hahead
  obtain ⟨claimToken, hfence⟩ := Runner.fence_of_ahead hahead
  obtain ⟨j, hj, hid, hstate, -⟩ := h.held k runner i claimToken hk hfence
  exact ⟨j, hj, hid, hstate⟩

theorem taken_of_step {s s' : RunnerState} {e : Event} {i : Nat} (hs : s.swap.db.Constrained)
    (hstep : Step s.swap e s'.swap) (htaken : s.Taken i) :
    s'.Taken i ∨ AdminRetries i s.swap e := by
  obtain ⟨j, hj, rfl, hfenced⟩ := htaken
  obtain ⟨j', hj', hfate, -⟩ := step_row hs hstep hj
  rcases hfate.fenced hfenced with hfenced' | ⟨hcall, hstate, hreason⟩
  · exact .inl ⟨j', hj', hfate.same_id, hfenced'⟩
  · exact .inr ⟨hcall, j, hj, rfl, hstate, hreason⟩

/-- Runners do not take a job up again. -/
theorem taken_of_commit {s s' : RunnerState} {call : Call} {now : Timestamp} {i : Nat}
    (hs : s.swap.db.Constrained) (ofRunner : call.OfRunner)
    (hswap : s'.swap = s.swap.commit now call) (htaken : s.Taken i) : s'.Taken i := by
  have hstep : Step s.swap { call, now, profile := .worker } s'.swap :=
    hswap ▸ commit_step ofRunner
  refine (taken_of_step hs hstep htaken).resolve_right fun hadmin => ?_
  rcases hadmin.1 with rfl | rfl <;> exact ofRunner

theorem ahead_of_set {s s' : RunnerState} {k i : Nat} {runner' : Runner}
    (hrunners : s'.runners = s.runners.set k runner') (h : s'.Ahead i) :
    runner'.ahead? = some i ∨ s.Ahead i := by
  obtain ⟨m, r, hm, hahead⟩ := h
  rw [hrunners, List.getElem?_set] at hm
  by_cases hne : k = m
  · grind
  · rw [if_neg hne] at hm
    exact .inr ⟨m, r, hm, hahead⟩

/-- The ration is kept where the job stays taken, no runner comes ahead, and nothing is asked. -/
theorem RunnerState.Rationed.keep {s s' : RunnerState} {i n : Nat} (h : s.Rationed i n)
    (hrequests : s'.requested i = s.requested i) (hahead : s'.Ahead i → s.Ahead i)
    (htaken : s.Taken i → s'.Taken i) : s'.Rationed i n := by
  refine ⟨hrequests ▸ h.bound, fun hroom => hrequests ▸ h.room ?_⟩
  exact hroom.imp hahead fun hnot htaken' => hnot (htaken htaken')

/-- A job that enters its mutation was not in one. -/
theorem RunnerState.Guarded.untaken_of_entry {s : RunnerState} {db' : Db} {i : Nat}
    {claimToken : Option String} (h : s.Guarded) (entry : Entry s.swap.db db' i claimToken) :
    ¬ s.Taken i := by
  obtain ⟨r, hr, hrid, hrunning⟩ := entry.before
  rintro ⟨t, ht, htid, hfenced⟩
  obtain rfl := h.traced.constrained.jobIds.eq ht hr (htid.trans hrid.symm)
  unfold Job.Fenced JobState.Mutation at hfenced
  grind

/-- A runner that asks is ahead, and then no runner is. -/
theorem RunnerState.Guarded.ask {s s' : RunnerState} {k : Nat} {job : Job} {number : Nat}
    {responseId : String} (h : s.Guarded)
    (hk : s.runners[k]? = some (.asking job number responseId))
    (hrunners : s'.runners = s.runners.set k (.asked job responseId)) :
    s.Ahead job.id ∧ ¬ s'.Ahead job.id := by
  refine ⟨⟨k, _, hk, rfl⟩, ?_⟩
  rintro ⟨m, r, hm, hahead⟩
  obtain ⟨_, hfence⟩ := Runner.fence_of_ahead hahead
  rw [hrunners, List.getElem?_set] at hm
  by_cases hne : k = m
  · have hr : r = .asked job responseId := by grind
    simp [hr, Runner.ahead?] at hahead
  · rw [if_neg hne] at hm
    exact hne (h.alone k m _ r job.id _ _ hk hm rfl hfence)

theorem RunnerState.Rationed.move {s s' : RunnerState} {a : Act} {k i n : Nat}
    {runner runner' : Runner} {swap : State} {asked : List (Nat × Nat)} (h : s.Rationed i n)
    (hguarded : s.Guarded) (hk : s.runners[k]? = some runner)
    (hmove : RunnerMove s.swap runner a (swap, runner') asked) (hswap : s'.swap = swap)
    (hrunners : s'.runners = s.runners.set k runner')
    (hrequests : s'.requests = s.requests ++ asked) : s'.Rationed i n := by
  have hids := hguarded.traced.constrained
  have hsame (hnil : asked = []) : s'.requested i = s.requested i := by
    simp [RunnerState.requested, hrequests, hnil]
  have hnone (hfence : runner'.fence? = none) (hahead : s'.Ahead i) : s.Ahead i := by
    refine (ahead_of_set hrunners hahead).resolve_left fun hown => ?_
    obtain ⟨_, hfence'⟩ := Runner.fence_of_ahead hown
    simp [hfence] at hfence'
  cases hmove with
  | outside now ofRunner outcome drawn fence' late =>
    exact h.keep (hsame rfl) (hnone fence') (taken_of_commit hids ofRunner hswap)
  | @enters call j claimToken now ofRunner outcome drawn entry =>
    by_cases hj : j = i
    · subst hj
      have hle := h.room (.inr (hguarded.untaken_of_entry entry))
      rw [← hsame rfl] at hle
      exact ⟨by omega, fun _ => hle⟩
    · refine h.keep (hsame rfl) (fun hahead => ?_) (taken_of_commit hids ofRunner hswap)
      exact (ahead_of_set hrunners hahead).resolve_left fun hown => hj (Option.some.inj hown)
  | inside fence row ahead asked target late =>
    refine h.keep (hsame rfl) (fun hahead => ?_) (by simp [hswap, RunnerState.Taken])
    rcases ahead_of_set hrunners hahead with hown | hold
    · exact ⟨k, runner, hk, ahead i hown⟩
    · exact hold
  | @asks job number responseId asking =>
    subst asking
    obtain ⟨hwas, hgone⟩ := hguarded.ask hk hrunners
    by_cases hj : job.id = i
    · subst hj
      have hmore : s'.requested job.id = s.requested job.id + 1 := by
        simp [RunnerState.requested, hrequests]
      obtain ⟨t, ht, htid, hstate⟩ := hguarded.taken_of_ahead hwas
      have htaken : s'.Taken job.id := ⟨t, hswap ▸ ht, htid, .inl (.inl hstate)⟩
      have hle := h.room (.inl hwas)
      refine ⟨by omega, fun hroom => ?_⟩
      exact absurd hroom (not_or.mpr ⟨hgone, not_not.mpr htaken⟩)
    · have hsame' : s'.requested i = s.requested i := by
        simp [RunnerState.requested, hrequests, hj]
      refine h.keep hsame' (fun hahead => ?_) (by simp [hswap, RunnerState.Taken])
      exact (ahead_of_set hrunners hahead).resolve_left (by simp [Runner.ahead?])
  | resolves now ofRunner outcome fence applied drawn fence' late =>
    exact h.keep (hsame rfl) (hnone fence') (taken_of_commit hids ofRunner hswap)
  | givesUp now errorCode late =>
    exact h.keep (hsame rfl) (hnone rfl) (taken_of_commit hids (by trivial) hswap)
  | stops fence' late =>
    exact h.keep (hsame rfl) (hnone fence') (by simp [hswap, RunnerState.Taken])

theorem run_rationed {db₀ : Db} {count : Nat} {s : RunnerState} {h : List (Act × RunnerState)}
    (fresh : db₀.Fresh) (run : History.Run RunnerStep (.start db₀ count) h s) (i : Nat) :
    s.Guarded ∧ s.Rationed i (History.occurrences (Reopens i) (.start db₀ count) h) := by
  refine run.invariant (I := fun h s => s.Guarded ∧
    s.Rationed i (History.occurrences (Reopens i) (.start db₀ count) h)) ?_ ?_
  · refine ⟨start_guarded fresh count, ?_, fun _ => ?_⟩ <;>
      simp [RunnerState.requested, RunnerState.start]
  · rintro h s a s' hrun ⟨hguarded, hrationed⟩ hstep
    refine ⟨hguarded.step hstep, ?_⟩
    rw [hrun.occurrences_snoc]
    rcases runner_step_cases hguarded.traced.constrained hstep with
      ⟨e, swap, rfl, -, hswap, rfl⟩ | ⟨k, runner, swap, runner', asked, hact, hk, -, hmove, rfl⟩
    · by_cases hreopens : Reopens i s (.other e)
      · rw [if_pos hreopens]
        have hbound : s.requested i ≤ _ := hrationed.bound
        refine ⟨?_, fun _ => ?_⟩ <;> simp only [RunnerState.requested] at * <;> omega
      · rw [if_neg hreopens, Nat.zero_add]
        exact hrationed.keep rfl id fun htaken =>
          (taken_of_step hguarded.traced.constrained hswap htaken).resolve_right hreopens
    · have hnot : ¬ Reopens i s a := by cases a <;> simp_all [Reopens, Act.runner?]
      rw [if_neg hnot, Nat.zero_add]
      exact hrationed.move hguarded hk hmove rfl rfl rfl

/-- The provider is asked to swap the assignment of a job at most once, and once more each time that
the administrator takes the job up again. When a runner asks, the row of the job is in its mutation
and is the one that the runner has read, no other job of the subscription is in flight, and no other
runner is behind a fence of the subscription. A job is applied only after it was asked for. -/
theorem provider_asked_once {db₀ : Db} {count : Nat} {s : RunnerState}
    {h : List (Act × RunnerState)} (fresh : db₀.Fresh)
    (run : History.Run RunnerStep (.start db₀ count) h s) :
    (∀ i, s.requested i ≤ 1 + History.occurrences (Reopens i) (.start db₀ count) h) ∧
    (∀ (k : Nat) job number responseId,
      s.runners[k]? = some (.asking job number responseId) →
        job ∈ s.swap.db.jobs ∧ job.state = .mutating ∧
          job.swapTarget = some (number, responseId) ∧
        (∀ j ∈ s.swap.db.jobs, j.subscriptionId = job.subscriptionId → j.state.InFlight → j = job) ∧
        ∀ (k' : Nat) (runner : Runner) i claimToken, s.runners[k']? = some runner →
          runner.fence? = some (i, claimToken) →
            (∃ j ∈ s.swap.db.jobs, j.id = i ∧ j.subscriptionId = job.subscriptionId) → k' = k) ∧
    ∀ j ∈ s.swap.db.jobs, j.state = .providerApplied → ∃ number, (j.id, number) ∈ s.requests := by
  have hguarded := (run_rationed fresh run 0).1
  have hids := hguarded.traced.constrained.jobIds
  refine ⟨fun i => ?_, fun k job number responseId hk => ?_, hguarded.applied⟩
  · rw [Nat.add_comm]
    exact (run_rationed fresh run i).2.bound
  · have hmem := hguarded.row k _ job hk rfl
    obtain ⟨j, hj, hid, hstate, -⟩ := hguarded.held k _ job.id _ hk rfl
    obtain rfl := hids.eq hj hmem hid
    have honly : ∀ r ∈ s.swap.db.jobs, r.subscriptionId = j.subscriptionId → r.state.InFlight →
        r = j := by
      intro r hr hsub hflight
      have hflight' : j.state.InFlight := .inr (.inl hstate)
      exact hids.eq hr hmem (hguarded.traced.inFlight r hr j hmem hflight hflight' hsub)
    refine ⟨hmem, hstate, hguarded.target j number responseId (List.mem_of_getElem? hk), honly, ?_⟩
    rintro k' runner i claimToken hk' hfence ⟨r, hr, rfl, hsub⟩
    obtain ⟨r', hr', hid', hstate', -⟩ := hguarded.held k' runner r.id claimToken hk' hfence
    obtain rfl := hids.eq hr' hr hid'
    obtain rfl := honly r' hr' hsub (.inr (.inl hstate'))
    exact hguarded.alone k' k _ _ _ _ _ hk' hk hfence rfl

namespace Scenario

/-- A job is queued for an assignment that the dashboard shows. -/
def jobQueued : List Act :=
  [.other (second 10 (subscription [risky "old" "192.0.2.1"])),
    .other (shown "ip:17" "192.0.2.1:8000" 11),
    .other (second 12 (.configure { autoSwap := true })),
    .other (second 13 (.queue 1000 [(1, 1)]))]

/-- The first of two runners takes the job up to the request. -/
def runnerAsks : List Act :=
  [.claim 0 (seconds 14) 300 none "token", .claim 1 (seconds 14) 300 none "other",
    .join 0 (seconds 15), .validate 0 (seconds 15) false, .enter 0 (seconds 16) false,
    .readFenced 0, .scope 0 ["16", "17"]]

/-- The provider answers, and what follows the record of the answer raises. -/
def providerAnswers : List Act :=
  [.ask 0, .answer 0 { status := 200, swaps := some [some ⟨"17", "192.0.2.2:8000", ""⟩] },
    .apply 0 (seconds 20) true]

end Scenario

/-- The states that two runners go through. -/
def runnerHistory (s : RunnerState) (acts : List Act) : List (Act × RunnerState) :=
  History.replay (fun s a => (s.next a).getD s) s acts

/-- What holds at the request, and once the provider has answered. -/
theorem provider_asked_once_answers :
    let h := runnerHistory (.start {} 2) (Scenario.jobQueued ++ Scenario.runnerAsks)
    let s := History.current (.start {} 2) h
    let h' := runnerHistory (.start {} 2)
      (Scenario.jobQueued ++ Scenario.runnerAsks ++ Scenario.providerAnswers)
    let s' := History.current (.start {} 2) h'
    (∃ job, s.runners[0]? = some (.asking job 17 "17") ∧ job ∈ s.swap.db.jobs ∧
      job.state = .mutating ∧ job.swapTarget = some (17, "17") ∧
      ∀ j ∈ s.swap.db.jobs, j.subscriptionId = job.subscriptionId → j.state.InFlight → j = job) ∧
    (∀ i, s'.requested i ≤ 1 + History.occurrences (Reopens i) (.start {} 2) h') ∧
    s'.swap.db.jobs.map Job.state = [.providerApplied] ∧ s'.requests = [(1, 17)] ∧
    ∀ j ∈ s'.swap.db.jobs, j.state = .providerApplied → ∃ number, (j.id, number) ∈ s'.requests := by
  intro h s h' s'
  have run : History.Run RunnerStep (.start {} 2) h s :=
    History.run_replay_accepted (by decide +kernel)
  have run' : History.Run RunnerStep (.start {} 2) h' s' :=
    History.run_replay_accepted (by decide +kernel)
  have hasking : (s.runners[0]?.bind Runner.row?).any fun job =>
      decide (s.runners[0]? = some (.asking job 17 "17")) := by decide +kernel
  obtain ⟨job, -, hjob⟩ := Option.any_eq_true _ _ |>.mp hasking
  have hk : s.runners[0]? = some (.asking job 17 "17") := of_decide_eq_true hjob
  obtain ⟨hmem, hstate, htarget, honly, -⟩ :=
    (provider_asked_once empty_fresh run).2.1 0 job 17 "17" hk
  obtain ⟨hbound, -, happlied⟩ := provider_asked_once empty_fresh run'
  exact ⟨⟨job, hk, hmem, hstate, htarget, honly⟩, hbound, by decide +kernel, by decide +kernel,
    happlied⟩

/-! ## A runner that is gone -/

/-- Nothing happens to the job `j` any more, nor to its subscription. -/
structure Stuck (j : Job) (s₀ s : RunnerState) : Prop where
  guarded : s.Guarded
  mem : j ∈ s.swap.db.jobs
  gone : ∀ runner ∈ s.runners, ∀ claimToken, runner.fence? ≠ some (j.id, claimToken)
  requests : ∀ request ∈ s.requests, request ∈ s₀.requests ∨
    ∃ r ∈ s.swap.db.jobs, r.id = request.1 ∧ r.subscriptionId ≠ j.subscriptionId

theorem requests_of_step {s s' : State} {e : Event} {j : Job} {old requests : List (Nat × Nat)}
    (hs : s.db.Constrained) (hstep : Step s e s')
    (h : ∀ request ∈ requests, request ∈ old ∨
      ∃ r ∈ s.db.jobs, r.id = request.1 ∧ r.subscriptionId ≠ j.subscriptionId) :
    ∀ request ∈ requests, request ∈ old ∨
      ∃ r ∈ s'.db.jobs, r.id = request.1 ∧ r.subscriptionId ≠ j.subscriptionId := by
  intro request hrequest
  refine (h request hrequest).imp_right ?_
  rintro ⟨r, hr, hid, hsub⟩
  obtain ⟨r', hr', hfate, -⟩ := step_row hs hstep hr
  exact ⟨r', hr', hfate.same_id.trans hid, hfate.same_subscription ▸ hsub⟩

theorem Stuck.step {j : Job} {s₀ s s' : RunnerState} {a : Act} (h : Stuck j s₀ s)
    (hstate : j.state = .mutating) (hstep : RunnerStep s a s') : Stuck j s₀ s' := by
  have hids := h.guarded.traced.constrained
  have hguarded' := h.guarded.step hstep
  rcases runner_step_cases hids hstep with
    ⟨e, swap, rfl, hadmits, hswap, rfl⟩ | ⟨k, runner, swap, runner', asked, -, hk, -, hmove, rfl⟩
  · exact ⟨hguarded', h.guarded.traced.keeps_admitted hswap hadmits h.mem hstate, h.gone,
      requests_of_step hids hswap h.requests⟩
  · have hown := h.gone runner (List.mem_of_getElem? hk)
    have hgone (hnot : ∀ claimToken, runner'.fence? ≠ some (j.id, claimToken)) :
        ∀ r ∈ s.runners.set k runner', ∀ claimToken, r.fence? ≠ some (j.id, claimToken) := by
      intro r hr
      rcases List.mem_or_eq_of_mem_set hr with hr | rfl
      · exact h.gone r hr
      · exact hnot
    have hkept {call : Call} (now : Timestamp) (ofRunner : call.OfRunner)
        (houtcome : call.outcome? ≠ some j.id) : j ∈ (s.swap.commit now call).db.jobs :=
      h.guarded.traced.keeps (commit_step ofRunner) h.mem hstate houtcome
    cases hmove with
    | outside now ofRunner outcome drawn fence' late =>
      refine ⟨hguarded', hkept now ofRunner (by simp [outcome]), hgone (by simp [fence']), ?_⟩
      simpa using requests_of_step hids (commit_step ofRunner) h.requests
    | @enters call i claimToken now ofRunner outcome drawn entry =>
      refine ⟨hguarded', hkept now ofRunner (by simp [outcome]), hgone ?_, ?_⟩
      · -- the job is in its mutation already, so the runner has entered another one
        rintro _ ⟨⟩
        exact h.guarded.untaken_of_entry entry ⟨j, h.mem, rfl, .inl (.inl hstate)⟩
      · simpa using requests_of_step hids (commit_step ofRunner) h.requests
    | inside fence =>
      exact ⟨hguarded', h.mem, hgone (fence ▸ hown), by simpa using h.requests⟩
    | @asks job number responseId asking =>
      subst asking
      refine ⟨hguarded', h.mem, hgone hown, fun request hrequest => ?_⟩
      rcases List.mem_append.mp hrequest with hrequest | hrequest
      · exact h.requests request hrequest
      · obtain rfl := List.mem_singleton.mp hrequest
        have hrow := h.guarded.row k _ job hk rfl
        obtain ⟨r, hr, hid, hrstate, -⟩ := h.guarded.held k _ job.id _ hk rfl
        obtain rfl := hids.jobIds.eq hr hrow hid
        refine .inr ⟨r, hr, rfl, fun hsub => ?_⟩
        -- both rows are in flight, so they are one, and the runner would be behind its fence
        have hone := h.guarded.traced.inFlight r hr j h.mem (.inr (.inl hrstate))
          (.inr (.inl hstate)) hsub
        exact hown r.claimToken (by rw [← hone]; rfl)
    | @resolves _ i claimToken call now ofRunner outcome fence applied drawn fence' late =>
      refine ⟨hguarded', hkept now ofRunner fun hcall => ?_, hgone (by simp [fence']), ?_⟩
      · obtain rfl : i = j.id := Option.some.inj (outcome.symm.trans hcall)
        exact hown claimToken fence
      · simpa using requests_of_step hids (commit_step ofRunner) h.requests
    | @givesUp job now errorCode late =>
      subst late
      have ofRunner : (Call.reconciliationRequired job.id errorCode job.claimToken).OfRunner :=
        trivial
      have hspent := h.guarded.late k _ job hk rfl
      refine ⟨hguarded', ?_, hgone (by simp [Runner.fence?]), ?_⟩
      · exact h.guarded.traced.keeps_spent (commit_step ofRunner) rfl hspent h.mem hstate
      · simpa using requests_of_step hids (commit_step ofRunner) h.requests
    | stops fence' late =>
      exact ⟨hguarded', h.mem, hgone (by simp [fence']), by simpa using h.requests⟩

/-- A job whose runner is gone while the job is in its mutation stays there for good, whatever the
other services and runners do, and the provider is asked for no other job of its subscription. -/
theorem lost_mutation_stays_closed {db₀ : Db} {count : Nat} {s s' : RunnerState}
    {h later : List (Act × RunnerState)} {j : Job} (fresh : db₀.Fresh)
    (run : History.Run RunnerStep (.start db₀ count) h s) (hj : j ∈ s.swap.db.jobs)
    (hstate : j.state = .mutating)
    (gone : ∀ runner ∈ s.runners, ∀ claimToken, runner.fence? ≠ some (j.id, claimToken))
    (rest : History.Run RunnerStep s later s') :
    j ∈ s'.swap.db.jobs ∧ ∀ request ∈ s'.requests, request ∈ s.requests ∨
      ∃ r ∈ s'.swap.db.jobs, r.id = request.1 ∧ r.subscriptionId ≠ j.subscriptionId := by
  have hstuck : Stuck j s s' := rest.always (P := Stuck j s)
    ⟨(run_rationed fresh run 0).1, hj, gone, fun _ => .inl⟩ fun _ _ _ h => h.step hstate
  exact ⟨hstuck.mem, hstuck.requests⟩

open EarnProxy.Swap.Scenario in
/-- The runner is gone after the request, and the other one looks for work. -/
theorem lost_mutation_stays_closed_crash :
    let s := History.current (.start {} 2)
      (runnerHistory (.start {} 2) (jobQueued ++ runnerAsks ++ [.ask 0, .crash 0]))
    let s' := History.current s (runnerHistory s
      [.other (second 600 (.retry 1)), .claim 1 (seconds 700) 300 (some 1) "third"])
    ∃ j ∈ s.swap.db.jobs, j.state = .mutating ∧ j ∈ s'.swap.db.jobs ∧
      ∀ request ∈ s'.requests, request ∈ s.requests ∨
        ∃ r ∈ s'.swap.db.jobs, r.id = request.1 ∧ r.subscriptionId ≠ j.subscriptionId := by
  intro s s'
  obtain ⟨j, hj, hstate, hgone⟩ : ∃ j ∈ s.swap.db.jobs, j.state = .mutating ∧
      ∀ runner ∈ s.runners, runner = .idle := by decide +kernel
  refine ⟨j, hj, hstate, @lost_mutation_stays_closed {} 2 _ _ _ _ _ empty_fresh
    (History.run_replay_accepted (by decide +kernel)) hj hstate ?_
    (History.run_replay_accepted (by decide +kernel))⟩
  intro runner hrunner claimToken
  rw [hgone runner hrunner]
  nofun

end EarnProxy.Swap

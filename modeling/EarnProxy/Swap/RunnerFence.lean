import EarnProxy.Swap.Runner

/-!
# Runners behind the fence

A runner that is behind the fence of a job holds the row of the job: no other runner is behind that
fence, and nobody else moves the row. It rests on the claim tokens: a token is drawn for one claim,
so neither a sweep nor a late runner proves a claim that is not its own.
-/

namespace EarnProxy.Swap

/-! ## The rows after a step -/

/-- A row that has left its mutation with an outcome. -/
def Job.Past (j : Job) : Prop := j.Fenced ∧ j.state ≠ .mutating

theorem Fate.past {db db' : Db} {e : Event} {j j' : Job} (h : Fate db db' e j j') (hj : j.Past) :
    j'.Past ∨ j'.claimToken = none := by
  rcases h.fenced hj.1 with hfenced | ⟨-, hstate, -⟩
  · refine .inl ⟨hfenced, fun hstate' => ?_⟩
    rcases h.enters hstate' with hstate | henters
    · exact hj.2 hstate
    · have := henters.1
      have := hj.1
      unfold Job.Fenced JobState.Mutation at this
      grind
  · cases h with
    | kept => exact .inl hj
    | moved move =>
      cases move with
      | restarted => exact .inr rfl
      | unchanged => exact .inr rfl
      | dropped state => unfold JobState.PreMutation at state; grind
      | mutating _ _ fences => have := fences.state; grind
      | applied _ _ _ state => grind
      | uncertain _ state => unfold JobState.Mutation at state; grind
      | inferred _ _ _ _ state => grind
    | recovered lapsed => have := lapsed.1; grind
    | claimed state => unfold Job.LeaseOver at state; grind
    | succeeded replaces => have := replaces.state; grind

section Rows

variable {s s' : State} {e : Event}

theorem step_sparing (hs : s.db.Constrained) (hstep : Step s e s') :
    Sparing e.call s.db.jobs s'.db.jobs := by
  unfold Step State.next at hstep
  split at hstep
  · dsimp only at hstep
    split at hstep
    · rename_i db hdb
      obtain rfl := Option.some.inj hstep
      exact transact_sparing hs hdb
    · obtain rfl := Option.some.inj hstep
      have hread : (s.read e).db = s.db := by
        unfold State.read
        split <;> rfl
      exact hread ▸ .refl (Job.Spared.refl e.call) _
  · cases hstep

/-- The row of a job after a step. -/
theorem step_row (hs : s.db.Constrained) (hstep : Step s e s') {j : Job} (hj : j ∈ s.db.jobs) :
    ∃ j' ∈ s'.db.jobs, Fate s.db s'.db e j j' ∧ j.Spared e.call j' := by
  obtain ⟨j', hj', hfate⟩ := step_fate hs hstep hj
  obtain ⟨ψ, news, hjobs, hψ, _⟩ := step_sparing hs hstep
  have hψj : ψ j ∈ s'.db.jobs := hjobs ▸ List.mem_append_left _ (List.mem_map_of_mem hj)
  obtain rfl := (step_constrained hs hstep).jobIds.eq hj' hψj
    (hfate.same_id.trans (hψ j hj).id.symm)
  exact ⟨ψ j, hψj, hfate, hψ j hj⟩

/-- Where a row after a step comes from. -/
theorem step_origin (hs : s.db.Constrained) (hstep : Step s e s') {j' : Job}
    (hj' : j' ∈ s'.db.jobs) :
    j'.New ∨ ∃ j ∈ s.db.jobs, Fate s.db s'.db e j j' ∧ j.Spared e.call j' := by
  obtain ⟨ψ, news, hjobs, hψ, hnews⟩ := step_sparing hs hstep
  rcases List.mem_append.mp (hjobs ▸ hj') with hmem | hmem
  · obtain ⟨j, hj, rfl⟩ := List.mem_map.mp hmem
    obtain ⟨j', hj'', hfate, hspared⟩ := step_row hs hstep hj
    obtain rfl := (step_constrained hs hstep).jobIds.eq hj' hj''
      ((hψ j hj).id.trans hspared.id.symm)
    exact .inr ⟨j, hj, hfate, hspared⟩
  · exact .inl (hnews j' hmem)

/-- A sweep reads rows of jobs that have left their mutation. -/
theorem step_rows (hstep : Step s e s') {r : Job} (hr : r ∈ s'.rows) :
    r ∈ s.rows ∨ s'.db = s.db ∧ r ∈ s.db.jobs := by
  unfold Step State.next at hstep
  split at hstep
  · rename_i holds
    clear holds
    by_cases hread : ∃ limit, e.call = .readSwaps limit
    · obtain ⟨limit, hcall⟩ := hread
      simp only [Db.transact, State.read, hcall, pure, Except.pure, Option.some.injEq] at hstep
      subst hstep
      rcases List.mem_append.mp hr with hr | hr
      · exact .inl hr
      · refine .inr ⟨rfl, ?_⟩
        have := List.mem_of_mem_take hr
        rw [List.mem_insertionSort] at this
        exact (List.mem_filter.mp this).1
    · have hrows : (s.read e).rows = s.rows := by
        unfold State.read
        split <;> first | rfl | exact absurd ⟨_, ‹_›⟩ hread
      dsimp only at hstep
      split at hstep
      · obtain rfl := Option.some.inj hstep
        exact .inl (hrows ▸ hr)
      · obtain rfl := Option.some.inj hstep
        exact .inl (hrows ▸ hr)
  · cases hstep

end Rows

/-! ## Tokens -/

/-- The token was drawn for a claim that has left its mutation: the job does not go by it into
another one. -/
def Spent (s : State) (tokens : List String) (i : Nat) (claimToken : Option String) : Prop :=
  ∀ token ∈ claimToken, token ∈ tokens ∧
    ∀ j ∈ s.db.jobs, j.id = i → j.claimToken = some token → j.Past

/-- The claim tokens of rows were drawn, and those of the rows that a sweep has read as applied are
spent. -/
structure Traced (s : State) (tokens : List String) : Prop where
  constrained : s.db.Constrained
  inFlight : OneInFlight s.db.jobs
  jobs : ∀ j ∈ s.db.jobs, ∀ token ∈ j.claimToken, token ∈ tokens
  rows : ∀ r ∈ s.rows, r.state = .providerApplied → Spent s tokens r.id r.claimToken

section Traced

variable {s s' : State} {tokens tokens' : List String} {e : Event}

theorem Spent.mono {i : Nat} {claimToken : Option String} (h : Spent s tokens i claimToken)
    (htokens : tokens ⊆ tokens') : Spent s tokens' i claimToken :=
  fun token ht => ⟨htokens (h token ht).1, (h token ht).2⟩

theorem Traced.mono (h : Traced s tokens) (htokens : tokens ⊆ tokens') : Traced s tokens' :=
  { h with
    jobs := fun j hj token ht => htokens (h.jobs j hj token ht)
    rows := fun r hr hstate => (h.rows r hr hstate).mono htokens }

/-- Where the token of a row comes from. -/
theorem token_origin (hs : s.db.Constrained) (hstep : Step s e s') {j' : Job}
    (hj' : j' ∈ s'.db.jobs) {token : String} (htoken : token ∈ j'.claimToken) :
    token ∈ e.call.drawn? ∨
      ∃ j ∈ s.db.jobs, token ∈ j.claimToken ∧ Fate s.db s'.db e j j' := by
  rcases step_origin hs hstep hj' with hnew | ⟨j, hj, hfate, hspared⟩
  · rw [hnew.2] at htoken
    cases htoken
  · rcases hspared.token with hnone | hsame | hdrawn
    · rw [hnone] at htoken
      cases htoken
    · exact .inr ⟨j, hj, hsame ▸ htoken, hfate⟩
    · exact .inl (hdrawn ▸ htoken)

theorem Spent.step {i : Nat} {claimToken : Option String} (h : Spent s tokens i claimToken)
    (hs : s.db.Constrained) (hstep : Step s e s') (htokens : tokens ⊆ tokens')
    (hdrawn : ∀ token ∈ e.call.drawn?, token ∈ tokens' ∧ token ∉ tokens) :
    Spent s' tokens' i claimToken := by
  intro token ht
  obtain ⟨hold, hpast⟩ := h token ht
  refine ⟨htokens hold, fun j' hj' hid htoken => ?_⟩
  rcases token_origin hs hstep hj' htoken with hnew | ⟨j, hj, hjtoken, hfate⟩
  · exact absurd hold (hdrawn token hnew).2
  · have hj := hpast j hj (hfate.same_id.symm.trans hid) hjtoken
    refine (hfate.past hj).resolve_right fun hnone => ?_
    rw [hnone] at htoken
    cases htoken

theorem Traced.step (h : Traced s tokens) (hstep : Step s e s') (htokens : tokens ⊆ tokens')
    (hdrawn : ∀ token ∈ e.call.drawn?, token ∈ tokens' ∧ token ∉ tokens) : Traced s' tokens' := by
  refine ⟨step_constrained h.constrained hstep, ?_, ?_, ?_⟩
  · exact (step_change h.constrained hstep).oneInFlight h.constrained.jobIds h.inFlight
  · intro j' hj' token htoken
    rcases token_origin h.constrained hstep hj' htoken with hnew | ⟨j, hj, hold, -⟩
    · exact (hdrawn token hnew).1
    · exact htokens (h.jobs j hj token hold)
  · intro r hr hstate
    rcases step_rows hstep hr with hr | ⟨hdb, hr⟩
    · exact (h.rows r hr hstate).step h.constrained hstep htokens hdrawn
    · -- the row was read just now
      intro token htoken
      refine ⟨htokens (h.jobs r hr token htoken), fun j hj hid _ => ?_⟩
      rw [hdb] at hj
      obtain rfl := h.constrained.jobIds.eq hj hr hid
      exact ⟨.inl (.inr (.inl hstate)), by simp [hstate]⟩

/-- A row in its mutation is left alone by every call that brings no outcome for it. -/
theorem Traced.keeps (h : Traced s tokens) (hstep : Step s e s') {j : Job} (hj : j ∈ s.db.jobs)
    (hstate : j.state = .mutating) (hcall : e.call.outcome? ≠ some j.id) : j ∈ s'.db.jobs := by
  obtain ⟨j', hj', -, hspared⟩ := step_row h.constrained hstep hj
  obtain rfl := (hspared.mutating hstate).resolve_right hcall
  exact hj'

theorem markReconciliationRequired_claimed {db db' : Db} {jobId : Nat} {errorCode : String}
    {claimToken : Option String} {now : Timestamp}
    (h : markReconciliationRequired db jobId errorCode claimToken now = .ok db') :
    ∃ j ∈ db.jobs, j.id = jobId ∧ j.ClaimedBy claimToken := by
  unfold markReconciliationRequired at h
  replace h := (Transaction.ok_of_check h).2
  dsimp only at h
  split at h
  · cases h
  · rename_i job hjob
    obtain ⟨hmem, hid⟩ := job?_mem hjob
    replace h := (Transaction.ok_of_check h).2
    exact ⟨job, hmem, hid, not_not.mp (Transaction.ok_of_check h).1⟩

/-- Who gives up with a spent token leaves a row in its mutation alone. -/
theorem Traced.keeps_spent (h : Traced s tokens) (hstep : Step s e s') {i : Nat}
    {errorCode : String} {claimToken : Option String}
    (hcall : e.call = .reconciliationRequired i errorCode claimToken)
    (hspent : Spent s tokens i claimToken) {j : Job} (hj : j ∈ s.db.jobs)
    (hstate : j.state = .mutating) : j ∈ s'.db.jobs := by
  by_cases houtcome : e.call.outcome? = some j.id
  swap
  · exact h.keeps hstep hj hstate houtcome
  rw [hcall] at houtcome
  obtain rfl := Option.some.inj houtcome
  have hread : s.read e = s := by simp [State.read, hcall]
  unfold Step State.next at hstep
  split at hstep
  · dsimp only at hstep
    split at hstep
    · rename_i db hdb
      unfold Db.transact at hdb
      rw [hcall] at hdb
      obtain ⟨j', hj', hid, hpresent, -, htoken⟩ := markReconciliationRequired_claimed hdb
      obtain rfl := h.constrained.jobIds.eq hj' hj hid
      obtain ⟨token, hsome⟩ : ∃ token, claimToken = some token := by
        cases claimToken with
        | none => simp [present] at hpresent
        | some token => exact ⟨token, rfl⟩
      have hpast := (hspent token hsome).2 j' hj' rfl (htoken.trans hsome)
      exact absurd hstate hpast.2
    · obtain rfl := Option.some.inj hstep
      rwa [hread]
  · cases hstep

/-- The other services leave a row in its mutation alone. -/
theorem Traced.keeps_admitted (h : Traced s tokens) (hstep : Step s e s')
    (hadmits : s.Admits e.call) {j : Job} (hj : j ∈ s.db.jobs) (hstate : j.state = .mutating) :
    j ∈ s'.db.jobs := by
  by_cases hcall : e.call.outcome? = some j.id
  swap
  · exact h.keeps hstep hj hstate hcall
  -- a sweep gives up, with the token of a row that it has read as applied
  obtain ⟨errorCode, claimToken, hcall⟩ : ∃ errorCode claimToken,
      e.call = .reconciliationRequired j.id errorCode claimToken := by
    cases hc : e.call <;> simp_all [Call.outcome?, State.Admits]
  rw [hcall] at hadmits
  obtain ⟨r, hr, hrid, hrstate, rfl⟩ := hadmits
  refine h.keeps_spent hstep hcall (fun token htoken => ?_) hj hstate
  exact hrid ▸ h.rows r hr hrstate token (Option.filter_eq_some_iff.mp htoken).1

end Traced

/-! ## The fence -/

/-- The runners behind the fence, and the rows of their jobs. -/
structure RunnerState.Guarded (s : RunnerState) : Prop where
  traced : Traced s.swap s.tokens
  held : ∀ (k : Nat) (runner : Runner) i claimToken, s.runners[k]? = some runner →
    runner.fence? = some (i, claimToken) →
      ∃ j ∈ s.swap.db.jobs, j.id = i ∧ j.state = .mutating ∧ j.claimToken = claimToken
  row : ∀ (k : Nat) (runner : Runner) job, s.runners[k]? = some runner → runner.row? = some job →
    job ∈ s.swap.db.jobs
  target : ∀ job number responseId, .asking job number responseId ∈ s.runners →
    job.swapTarget = some (number, responseId)
  alone : ∀ (k k' : Nat) (runner runner' : Runner) i claimToken claimToken',
    s.runners[k]? = some runner → s.runners[k']? = some runner' →
      runner.fence? = some (i, claimToken) → runner'.fence? = some (i, claimToken') → k = k'
  asked : ∀ (k : Nat) (runner : Runner) i, s.runners[k]? = some runner → runner.asked? = some i →
    ∃ number, (i, number) ∈ s.requests
  applied : ∀ j ∈ s.swap.db.jobs, j.state = .providerApplied → ∃ number, (j.id, number) ∈ s.requests
  late : ∀ (k : Nat) (runner : Runner) job, s.runners[k]? = some runner →
    runner.late? = some job → Spent s.swap s.tokens job.id job.claimToken

theorem Runner.fence_of_row {runner : Runner} {job : Job} (h : runner.row? = some job) :
    runner.fence? = some (job.id, job.claimToken) := by
  cases runner <;> simp_all [Runner.row?, Runner.fence?]

theorem Runner.fence_of_ahead {runner : Runner} {i : Nat} (h : runner.ahead? = some i) :
    ∃ claimToken, runner.fence? = some (i, claimToken) := by
  cases runner <;> simp_all [Runner.ahead?, Runner.fence?]

theorem Runner.fence_of_asked {runner : Runner} {i : Nat} (h : runner.asked? = some i) :
    ∃ claimToken, runner.fence? = some (i, claimToken) := by
  cases runner <;> simp_all [Runner.asked?, Runner.fence?]

theorem applied_of_step {s s' : State} {e : Event} {requests requests' : List (Nat × Nat)}
    (hs : s.db.Constrained) (hstep : Step s e s') (hrequests : requests ⊆ requests')
    (happlied : ∀ j ∈ s.db.jobs, j.state = .providerApplied → ∃ number, (j.id, number) ∈ requests)
    (hcall : ∀ i ∈ e.call.applied?, ∃ number, (i, number) ∈ requests) :
    ∀ j ∈ s'.db.jobs, j.state = .providerApplied → ∃ number, (j.id, number) ∈ requests' := by
  intro j' hj' hstate'
  rcases step_origin hs hstep hj' with hnew | ⟨j, hj, -, hspared⟩
  · cases hnew.1.symm.trans hstate'
  · have hasked : ∃ number, (j.id, number) ∈ requests := by
      rcases hspared.applied hstate' with hstate | hnamed
      · exact happlied j hj hstate
      · exact hcall j.id hnamed
    obtain ⟨number, hnumber⟩ := hasked
    exact ⟨number, hspared.id ▸ hrequests hnumber⟩

/-- One runner moves: the rows that the others hold stay, and what it holds itself is held by no
other. -/
theorem RunnerState.Guarded.moved {s s' : RunnerState} {k : Nat} {runner runner' : Runner}
    (h : s.Guarded) (hk : s.runners[k]? = some runner)
    (hrunners : s'.runners = s.runners.set k runner') (hrequests : s.requests ⊆ s'.requests)
    (htraced : Traced s'.swap s'.tokens)
    (hothers : ∀ j ∈ s.swap.db.jobs, j.state = .mutating → (∀ claimToken,
      runner.fence? ≠ some (j.id, claimToken)) → j ∈ s'.swap.db.jobs)
    (hheld : ∀ i claimToken, runner'.fence? = some (i, claimToken) →
      (∃ j ∈ s'.swap.db.jobs, j.id = i ∧ j.state = .mutating ∧ j.claimToken = claimToken) ∧
        ((∀ j ∈ s.swap.db.jobs, j.id = i → j.state ≠ .mutating) ∨
          ∃ claimToken, runner.fence? = some (i, claimToken)))
    (hrow : ∀ job, runner'.row? = some job → job ∈ s'.swap.db.jobs)
    (htarget : ∀ job number responseId, runner' = .asking job number responseId →
      job.swapTarget = some (number, responseId))
    (hasked : ∀ i, runner'.asked? = some i → ∃ number, (i, number) ∈ s'.requests)
    (happlied : ∀ j ∈ s'.swap.db.jobs, j.state = .providerApplied →
      ∃ number, (j.id, number) ∈ s'.requests)
    (hspent : ∀ i claimToken, Spent s.swap s.tokens i claimToken →
      Spent s'.swap s'.tokens i claimToken)
    (hlate : ∀ job, runner'.late? = some job → Spent s'.swap s'.tokens job.id job.claimToken) :
    s'.Guarded := by
  have hlength : k < s.runners.length := (List.getElem?_eq_some_iff.mp hk).1
  have hat : ∀ m r, s'.runners[m]? = some r →
      m = k ∧ r = runner' ∨ m ≠ k ∧ s.runners[m]? = some r := by
    intro m r hm
    rw [hrunners, List.getElem?_set] at hm
    grind
  -- what another runner holds, this one does not
  have hother : ∀ m r i claimToken claimToken', m ≠ k → s.runners[m]? = some r →
      r.fence? = some (i, claimToken) → runner.fence? ≠ some (i, claimToken') :=
    fun m r i _ _ hne hm hfence hfence' => hne (h.alone m k r runner i _ _ hm hk hfence hfence')
  have hkept : ∀ m r i claimToken, m ≠ k → s.runners[m]? = some r →
      r.fence? = some (i, claimToken) → ∃ j ∈ s.swap.db.jobs, j ∈ s'.swap.db.jobs ∧ j.id = i ∧
        j.state = .mutating ∧ j.claimToken = claimToken := by
    intro m r i claimToken hne hm hfence
    obtain ⟨j, hj, rfl, hstate, htoken⟩ := h.held m r i claimToken hm hfence
    have hfree := hothers j hj hstate fun _ => hother m r j.id _ _ hne hm hfence
    exact ⟨j, hj, hfree, rfl, hstate, htoken⟩
  refine ⟨htraced, ?_, ?_, ?_, ?_, ?_, happlied, ?_⟩
  · intro m r i claimToken hm hfence
    rcases hat m r hm with ⟨rfl, rfl⟩ | ⟨hne, hm⟩
    · exact (hheld i claimToken hfence).1
    · obtain ⟨j, -, hj⟩ := hkept m r i claimToken hne hm hfence
      exact ⟨j, hj⟩
  · intro m r job hm hjob
    rcases hat m r hm with ⟨rfl, rfl⟩ | ⟨hne, hm⟩
    · exact hrow job hjob
    · obtain ⟨j, hj, hj', hid, _⟩ := hkept m r job.id _ hne hm (Runner.fence_of_row hjob)
      obtain rfl := h.traced.constrained.jobIds.eq hj (h.row m r job hm hjob) hid
      exact hj'
  · intro job number responseId hmem
    rcases List.mem_or_eq_of_mem_set (hrunners ▸ hmem) with hmem | heq
    · exact h.target job number responseId hmem
    · exact htarget job number responseId heq.symm
  · -- the moved runner holds what it held before, or what no runner held
    have hfresh : ∀ m r i claimToken claimToken', m ≠ k → s.runners[m]? = some r →
        r.fence? = some (i, claimToken) → runner'.fence? ≠ some (i, claimToken') := by
      intro m r i claimToken claimToken' hne hm hfence hfence'
      rcases (hheld i claimToken' hfence').2 with hnone | ⟨_, hown⟩
      · obtain ⟨j, hj, hid, hstate, _⟩ := h.held m r i claimToken hm hfence
        exact hnone j hj hid hstate
      · exact hother m r i _ _ hne hm hfence hown
    intro m m' r r' i claimToken claimToken' hm hm' hfence hfence'
    rcases hat m r hm with ⟨rfl, rfl⟩ | ⟨hne, hm⟩ <;>
      rcases hat m' r' hm' with ⟨rfl, rfl⟩ | ⟨hne', hm'⟩
    · rfl
    · exact absurd hfence (hfresh m' r' i _ _ hne' hm' hfence')
    · exact absurd hfence' (hfresh m r i _ _ hne hm hfence)
    · exact h.alone m m' r r' i _ _ hm hm' hfence hfence'
  · intro m r i hm hi
    rcases hat m r hm with ⟨rfl, rfl⟩ | ⟨_, hm⟩
    · exact hasked i hi
    · obtain ⟨number, hnumber⟩ := h.asked m r i hm hi
      exact ⟨number, hrequests hnumber⟩
  · intro m r job hm hjob
    rcases hat m r hm with ⟨rfl, rfl⟩ | ⟨-, hm⟩
    · exact hlate job hjob
    · exact hspent _ _ (h.late m r job hm hjob)

/-- What one step of the system is: an event of another service, or the move of one runner. -/
theorem runner_step_cases {s s' : RunnerState} {a : Act} (hs : s.swap.db.Constrained)
    (hstep : RunnerStep s a s') :
    (∃ e swap, a = .other e ∧ s.swap.Admits e.call ∧ Step s.swap e swap ∧ s' = { s with swap }) ∨
    ∃ k runner swap runner' asked, a.runner? = some k ∧ s.runners[k]? = some runner ∧
      (∀ token ∈ a.drawn?, token ∉ s.tokens) ∧
      RunnerMove s.swap runner a (swap, runner') asked ∧
      s' = { swap, runners := s.runners.set k runner', requests := s.requests ++ asked
             tokens := s.tokens ++ a.drawn?.toList } := by
  by_cases hother : ∃ e, a = .other e
  · obtain ⟨e, rfl⟩ := hother
    simp only [RunnerStep, RunnerState.next, Option.ite_none_right_eq_some,
      Option.map_eq_some_iff] at hstep
    obtain ⟨hadmits, swap, hswap, rfl⟩ := hstep
    exact .inl ⟨e, swap, rfl, hadmits, hswap, rfl⟩
  · have hnext : s.next a = s.move a := by
      cases a <;> first | rfl | exact absurd ⟨_, rfl⟩ hother
    rw [RunnerStep, hnext] at hstep
    obtain ⟨k, hact, hstep⟩ := Option.bind_eq_some_iff.mp hstep
    obtain ⟨runner, hk, hstep⟩ := Option.bind_eq_some_iff.mp hstep
    split at hstep
    · cases hstep
    · rename_i hdrawn
      obtain ⟨⟨⟨swap, runner'⟩, asked⟩, hmove, hstep⟩ := Option.bind_eq_some_iff.mp hstep
      obtain rfl := Option.some.inj hstep
      refine .inr ⟨k, runner, swap, runner', asked, hact, hk, ?_, next_move hs.jobIds hmove, rfl⟩
      exact fun token htoken hold => hdrawn ⟨token, htoken, hold⟩

theorem Call.outcome_of_applied {call : Call} {i : Nat} (h : call.applied? = some i) :
    call.outcome? = some i := by
  cases call <;> simp_all [Call.applied?, Call.outcome?]

theorem Runner.holds_nothing {r : Runner} (hr : r.fence? = none) :
    (∀ i claimToken, r.fence? ≠ some (i, claimToken)) ∧ (∀ job, r.row? ≠ some job) ∧
      (∀ job number responseId, r ≠ .asking job number responseId) ∧ ∀ i, r.asked? ≠ some i := by
  refine ⟨by simp [hr], fun job hjob => ?_, ?_, fun i hi => ?_⟩
  · simp [Runner.fence_of_row hjob] at hr
  · rintro job number responseId rfl
    simp [Runner.fence?] at hr
  · obtain ⟨_, hfence⟩ := Runner.fence_of_asked hi
    simp [hfence] at hr

/-! A call of a runner commits, and may draw one fresh token. -/

section Commit

variable {s : RunnerState} {call : Call} {drawn : Option String}

theorem mem_drawn (hfresh : ∀ token ∈ drawn, token ∉ s.tokens)
    (hd : ∀ token ∈ call.drawn?, token ∈ drawn) :
    ∀ token ∈ call.drawn?, token ∈ s.tokens ++ drawn.toList ∧ token ∉ s.tokens := by
  intro token htoken
  refine ⟨?_, hfresh token (hd token htoken)⟩
  exact List.mem_append_right _ (Option.mem_toList.mpr (hd token htoken))

theorem RunnerState.Guarded.commit_traced (h : s.Guarded) (now : Timestamp)
    (ofRunner : call.OfRunner) (hfresh : ∀ token ∈ drawn, token ∉ s.tokens)
    (hd : ∀ token ∈ call.drawn?, token ∈ drawn) :
    Traced (s.swap.commit now call) (s.tokens ++ drawn.toList) :=
  h.traced.step (commit_step ofRunner) (List.subset_append_left _ _) (mem_drawn hfresh hd)

/-- A call that resolves nothing leaves the rows that are mutating. -/
theorem RunnerState.Guarded.commit_keeps (h : s.Guarded) (now : Timestamp)
    (ofRunner : call.OfRunner) (houtcome : call.outcome? = none) {j : Job}
    (hj : j ∈ s.swap.db.jobs) (hstate : j.state = .mutating) :
    j ∈ (s.swap.commit now call).db.jobs :=
  h.traced.keeps (commit_step ofRunner) hj hstate (by simp [houtcome])

theorem RunnerState.Guarded.commit_spent (h : s.Guarded) (now : Timestamp)
    (ofRunner : call.OfRunner) (hfresh : ∀ token ∈ drawn, token ∉ s.tokens)
    (hd : ∀ token ∈ call.drawn?, token ∈ drawn) (i : Nat) (claimToken : Option String)
    (hspent : Spent s.swap s.tokens i claimToken) :
    Spent (s.swap.commit now call) (s.tokens ++ drawn.toList) i claimToken :=
  hspent.step h.traced.constrained (commit_step ofRunner) (List.subset_append_left _ _)
    (mem_drawn hfresh hd)

/-- The token of a row that its runner has resolved is spent. -/
theorem RunnerState.Guarded.resolved_spent (h : s.Guarded) (now : Timestamp)
    (ofRunner : call.OfRunner) {k i : Nat} {runner : Runner} {claimToken : Option String}
    (hk : s.runners[k]? = some runner) (hfence : runner.fence? = some (i, claimToken))
    (hleft : ∀ j ∈ (s.swap.commit now call).db.jobs, j.id = i → j.state ≠ .mutating) :
    Spent (s.swap.commit now call) (s.tokens ++ drawn.toList) i claimToken := by
  have hids := h.traced.constrained
  -- the runner has held the row by this token
  obtain ⟨j, hj, hji, hstate, hjtoken⟩ := h.held k runner i claimToken hk hfence
  intro token htoken
  rw [← hjtoken] at htoken
  refine ⟨List.mem_append_left _ (h.traced.jobs j hj token htoken), fun j' hj' hid _ => ?_⟩
  obtain ⟨j'', hj'', hfate, -⟩ := step_row hids (commit_step ofRunner) hj
  obtain rfl := (step_constrained hids (commit_step ofRunner)).jobIds.eq hj' hj''
    (hid.trans (hji.symm.trans hfate.same_id.symm))
  have hfenced : j'.Fenced := by
    refine (hfate.fenced (.inl (.inl hstate))).resolve_right ?_
    rintro ⟨-, hblocked, -⟩
    cases hstate.symm.trans hblocked
  exact ⟨hfenced, hleft j' hj' hid⟩

end Commit

theorem RunnerState.Guarded.move {s : RunnerState} {a : Act} {k : Nat} {runner runner' : Runner}
    {swap : State} {asked : List (Nat × Nat)} (h : s.Guarded) (hk : s.runners[k]? = some runner)
    (hdrawn : ∀ token ∈ a.drawn?, token ∉ s.tokens)
    (hmove : RunnerMove s.swap runner a (swap, runner') asked) :
    RunnerState.Guarded
      { swap, runners := s.runners.set k runner', requests := s.requests ++ asked
        tokens := s.tokens ++ a.drawn?.toList } := by
  have hids := h.traced.constrained
  have hsub : s.tokens ⊆ s.tokens ++ a.drawn?.toList := List.subset_append_left _ _
  have hnever {r : Runner} (hr : r.late? = none) (swap : State) (tokens : List String) (job : Job)
      (hjob : r.late? = some job) : Spent swap tokens job.id job.claimToken := by
    simp [hr] at hjob
  cases hmove with
  | outside now ofRunner outcome drawn fence' late =>
    obtain ⟨hf, hr, hnot, ha⟩ := Runner.holds_nothing fence'
    refine h.moved hk rfl (by simp) (h.commit_traced now ofRunner hdrawn drawn)
      (fun j hj hstate _ => h.commit_keeps now ofRunner outcome hj hstate)
      (fun i t hi => absurd hi (hf i t)) (fun job hjob => absurd hjob (hr job))
      (fun job n r heq => absurd heq (hnot job n r)) (fun i hi => absurd hi (ha i)) ?_
      (h.commit_spent now ofRunner hdrawn drawn) (hnever late _ _)
    refine applied_of_step hids (commit_step ofRunner) (by simp) h.applied fun i hi => ?_
    simp [Call.outcome_of_applied hi] at outcome
  | @enters call i claimToken now ofRunner outcome drawn entry =>
    refine h.moved hk rfl (by simp) (h.commit_traced now ofRunner hdrawn (by simp [drawn]))
      (fun j hj hstate _ => h.commit_keeps now ofRunner outcome hj hstate) ?_
      (by simp [Runner.row?]) (by simp) (by simp [Runner.asked?]) ?_
      (h.commit_spent now ofRunner hdrawn (by simp [drawn])) (hnever rfl _ _)
    · rintro _ _ ⟨⟩
      refine ⟨entry.after, .inl fun j hj hid hstate => ?_⟩
      obtain ⟨r, hr, hrid, hrunning⟩ := entry.before
      obtain rfl := hids.jobIds.eq hr hj (hrid.trans hid.symm)
      cases hrunning.symm.trans hstate
    · refine applied_of_step hids (commit_step ofRunner) (by simp) h.applied fun j hj => ?_
      simp [Call.outcome_of_applied hj] at outcome
  | inside fence row ahead asked target late =>
    refine h.moved hk rfl (by simp) (h.traced.mono hsub) (fun j hj _ _ => hj) ?_ ?_ target ?_
      (by simpa using h.applied) (fun _ _ hspent => hspent.mono hsub) (hnever late _ _)
    · intro i claimToken hi
      rw [fence] at hi
      exact ⟨h.held k runner i claimToken hk hi, .inr ⟨claimToken, hi⟩⟩
    · exact fun job hjob => (row job hjob).elim id fun hold => h.row k runner job hk hold
    · intro i hi
      simpa using h.asked k runner i hk (asked i hi)
  | @asks job number responseId asking =>
    subst asking
    refine h.moved hk rfl (by simp) (h.traced.mono hsub) (fun j hj _ _ => hj) ?_ ?_ (by simp) ?_ ?_
      (fun _ _ hspent => hspent.mono hsub) (hnever rfl _ _)
    · intro i claimToken hi
      exact ⟨h.held k _ i claimToken hk hi, .inr ⟨claimToken, hi⟩⟩
    · exact fun job hjob => h.row k _ job hk hjob
    · rintro i ⟨⟩
      exact ⟨number, by simp⟩
    · intro j hj hstate
      obtain ⟨n, hn⟩ := h.applied j hj hstate
      exact ⟨n, List.mem_append_left _ hn⟩
  | @resolves _ i claimToken call now ofRunner outcome fence applied drawn fence' late =>
    obtain ⟨hf, hr, hnot, ha⟩ := Runner.holds_nothing fence'
    refine h.moved hk rfl (by simp) (h.commit_traced now ofRunner hdrawn (by simp [drawn])) ?_
      (fun i t hi => absurd hi (hf i t)) (fun job hjob => absurd hjob (hr job))
      (fun job n r heq => absurd heq (hnot job n r)) (fun i hi => absurd hi (ha i)) ?_
      (h.commit_spent now ofRunner hdrawn (by simp [drawn])) ?_
    · intro j hj hstate hfence
      refine h.traced.keeps (commit_step ofRunner) hj hstate fun hcall => ?_
      obtain rfl : i = j.id := Option.some.inj (outcome.symm.trans hcall)
      exact hfence claimToken fence
    · exact applied_of_step hids (commit_step ofRunner) (by simp) h.applied fun j hj =>
        h.asked k runner j hk (applied j hj)
    · intro job hjob
      obtain ⟨hsame, hleft⟩ := late job hjob
      obtain ⟨hid, hjobToken⟩ := Prod.mk.inj hsame
      rw [hid, hjobToken]
      exact h.resolved_spent now ofRunner hk fence hleft
  | @givesUp job now errorCode late =>
    subst late
    have ofRunner : (Call.reconciliationRequired job.id errorCode job.claimToken).OfRunner :=
      trivial
    refine h.moved hk rfl (by simp) (h.commit_traced now ofRunner hdrawn (by simp [Call.drawn?])) ?_
      (by simp [Runner.fence?]) (by simp [Runner.row?]) (by simp) (by simp [Runner.asked?]) ?_
      (h.commit_spent now ofRunner hdrawn (by simp [Call.drawn?])) (hnever rfl _ _)
    · intro j hj hstate _
      exact h.traced.keeps_spent (commit_step ofRunner) rfl (h.late k _ job hk rfl) hj hstate
    · exact applied_of_step hids (commit_step ofRunner) (by simp) h.applied
        (by simp [Call.applied?])
  | stops fence' late =>
    obtain ⟨hf, hr, hnot, ha⟩ := Runner.holds_nothing fence'
    exact h.moved hk rfl (by simp) (h.traced.mono hsub) (fun j hj _ _ => hj)
      (fun i t hi => absurd hi (hf i t)) (fun job hjob => absurd hjob (hr job))
      (fun job n r heq => absurd heq (hnot job n r)) (fun i hi => absurd hi (ha i))
      (by simpa using h.applied) (fun _ _ hspent => hspent.mono hsub) (hnever late _ _)

theorem RunnerState.Guarded.other {s : RunnerState} {e : Event} {swap : State} (h : s.Guarded)
    (hadmits : s.swap.Admits e.call) (hstep : Step s.swap e swap) :
    RunnerState.Guarded { s with swap } := by
  have hkept {j : Job} (hj : j ∈ s.swap.db.jobs) (hstate : j.state = .mutating) :
      j ∈ swap.db.jobs := h.traced.keeps_admitted hstep hadmits hj hstate
  have hdrawn : e.call.drawn? = none := by
    cases hc : e.call <;> simp_all [Call.drawn?, State.Admits]
  have happlied : e.call.applied? = none := by
    cases hc : e.call <;> simp_all [Call.applied?, State.Admits]
  refine ⟨h.traced.step hstep (List.Subset.refl _) (by simp [hdrawn]), ?_, ?_, h.target, h.alone,
    h.asked, ?_, ?_⟩
  · intro k runner i claimToken hk hfence
    obtain ⟨j, hj, hid, hstate, htoken⟩ := h.held k runner i claimToken hk hfence
    exact ⟨j, hkept hj hstate, hid, hstate, htoken⟩
  · intro k runner job hk hjob
    have hmem := h.row k runner job hk hjob
    obtain ⟨j, hj, hid, hstate, -⟩ := h.held k runner _ _ hk (Runner.fence_of_row hjob)
    obtain rfl := h.traced.constrained.jobIds.eq hj hmem hid
    exact hkept hmem hstate
  · exact applied_of_step h.traced.constrained hstep (List.Subset.refl _) h.applied
      (by simp [happlied])
  · exact fun k runner job hk hjob => (h.late k runner job hk hjob).step h.traced.constrained hstep
      (List.Subset.refl _) (by simp [hdrawn])

theorem RunnerState.Guarded.step {s s' : RunnerState} {a : Act} (h : s.Guarded)
    (hstep : RunnerStep s a s') : s'.Guarded := by
  rcases runner_step_cases h.traced.constrained hstep with
    ⟨e, swap, rfl, hadmits, hswap, rfl⟩ |
      ⟨k, runner, swap, runner', asked, -, hk, hdrawn, hmove, rfl⟩
  · exact h.other hadmits hswap
  · exact h.move hk hdrawn hmove

theorem start_guarded {db₀ : Db} (fresh : db₀.Fresh) (count : Nat) :
    (RunnerState.start db₀ count).Guarded := by
  have hidle : ∀ (k : Nat) (runner : Runner),
      (RunnerState.start db₀ count).runners[k]? = some runner → runner = .idle :=
    fun k runner hk => List.eq_of_mem_replicate (List.mem_of_getElem? hk)
  refine ⟨⟨fresh.toConstrained, ?_, ?_, by simp [RunnerState.start]⟩, ?_, ?_, ?_, ?_, ?_, ?_, ?_⟩
  · simp [OneInFlight, RunnerState.start, fresh.jobs]
  · simp [RunnerState.start, fresh.jobs]
  · intro k runner i claimToken hk hfence
    simp [hidle k runner hk, Runner.fence?] at hfence
  · intro k runner job hk hjob
    simp [hidle k runner hk, Runner.row?] at hjob
  · intro job number responseId hmem
    cases List.eq_of_mem_replicate hmem
  · intro k k' runner runner' i _ _ hk _ hfence
    simp [hidle k runner hk, Runner.fence?] at hfence
  · intro k runner i hk hi
    simp [hidle k runner hk, Runner.asked?] at hi
  · simp [RunnerState.start, fresh.jobs]
  · intro k runner job hk hjob
    simp [hidle k runner hk, Runner.late?] at hjob

end EarnProxy.Swap

import EarnProxy.Swap.Fence

/-!
# The swap quota

A subscription pays for a swap when the swap succeeds, and a job in its mutation holds a part of the
quota until then. Only the entry to the mutation looks at the quota, so this is where the bound
comes from; a job that is put back into the queue holds nothing.
-/

namespace EarnProxy.Swap

/-- The jobs of a subscription in their mutation. -/
def mutationJobs (jobs : List Job) (subscriptionId : Nat) : List Job :=
  jobs.filter fun j => j.subscriptionId = subscriptionId ∧ j.state.Mutation

theorem mutationJobs_length (jobs : List Job) (i : Nat) : (mutationJobs jobs i).length =
    Table.total (fun j : Job => j.subscriptionId = i ∧ j.state.Mutation) (fun _ => 1) jobs := by
  simp [mutationJobs, Table.total]

/-- The row stays in its subscription and does not enter its mutation. -/
structure Job.StaysOut (j j' : Job) : Prop where
  subscriptionId : j'.subscriptionId = j.subscriptionId
  mutation : j'.state.Mutation → j.state.Mutation

theorem Job.StaysOut.refl (j : Job) : j.StaysOut j := ⟨rfl, fun h => h⟩

theorem mutationJobs_le {jobs jobs' : List Job} (i : Nat)
    (hgrows : Table.Grows Job.StaysOut (fun j => ¬ j.state.Mutation) jobs jobs') :
    (mutationJobs jobs' i).length ≤ (mutationJobs jobs i).length := by
  obtain ⟨ψ, news, rfl, hψ, hnews⟩ := hgrows
  simp only [mutationJobs, ← List.countP_eq_length_filter, List.countP_append, List.countP_map]
  have hnone : news.countP (fun j => j.subscriptionId = i ∧ j.state.Mutation) = 0 := by
    refine List.countP_eq_zero.mpr fun j hj => ?_
    simp [hnews j hj]
  rw [hnone, Nat.add_zero]
  refine List.countP_mono_left fun j hj hcounts => ?_
  have hstays := hψ j hj
  simp only [Function.comp_apply, decide_eq_true_eq] at hcounts ⊢
  exact ⟨hstays.subscriptionId ▸ hcounts.1, hstays.mutation hcounts.2⟩

theorem staysOut_of_one {jobs : List Job} {j j' : Job} (hk : Table.Keyed Job.id jobs)
    (hj : j ∈ jobs) (hstays : j.StaysOut j') :
    Table.Grows Job.StaysOut (fun j => ¬ j.state.Mutation) jobs
      (Table.update (fun r => r.id = j.id) (fun _ => j') jobs) :=
  .of_update_mem Job.StaysOut.refl fun _ hr hid => hk.eq hr hj hid ▸ hstays

/-- A move either keeps the job out of its mutation or goes through the fence. -/
theorem Move.staysOut_or_fences {db : Db} {e : Event} {j j' : Job} (h : Move db e j j') :
    j.StaysOut j' ∨ ∃ a s, Fences db e j a s := by
  by_cases hmutation : j'.state.Mutation → j.state.Mutation
  · exact .inl ⟨h.same.subscriptionId, hmutation⟩
  · unfold JobState.Mutation at hmutation
    cases h with
    | dropped _ state' => grind
    | restarted => grind [Job.restarted]
    | mutating a s fences => exact .inr ⟨a, s, fences⟩
    | applied _ _ _ state => grind
    | uncertain _ state => unfold JobState.Mutation at state; grind
    | unchanged _ _ _ _ state => grind
    | inferred _ _ _ _ state => grind

/-- The fence is acquired only while the quota has room for one more swap. -/
theorem Fences.room {db : Db} {e : Event} {j : Job} {a : Assignment} {s : Subscription}
    (h : Fences db e j a s) (hk : Table.Keyed Job.id db.jobs) (hj : j ∈ db.jobs)
    (hquota : 0 ≤ s.swapQuota) :
    s.swapUsed + (mutationJobs db.jobs s.id).length + 1 ≤ s.swapQuota := by
  have hreserved : (mutationJobs db.jobs s.id).length ≤
      (reservedJobs db s.id (some j.id)).length := by
    simp only [mutationJobs, reservedJobs, ← List.countP_eq_length_filter]
    refine List.countP_mono_left fun r hr hcounts => ?_
    simp only [decide_eq_true_eq] at hcounts ⊢
    refine ⟨hcounts.1, .inr hcounts.2, fun hid => ?_⟩
    obtain rfl := hk.eq hr hj (Option.some.inj hid)
    rw [h.state] at hcounts
    exact absurd hcounts.2 (by decide)
  have hroom := of_decide_eq_false h.quota
  omega

/-- The subscription has spent and reserved at most its quota `q`. -/
def WithinQuota (db : Db) (i : Nat) (q : Int) : Prop :=
  ∃ s ∈ db.subscriptions, s.id = i ∧ s.swapQuota = q ∧
    s.swapUsed + (mutationJobs db.jobs i).length ≤ q

/-- The row of a subscription that is not charged. -/
theorem Inventory.subscription {db db' : Db} (h : Inventory db db') {s : Subscription}
    (hs : s ∈ db.subscriptions) : ∃ s' ∈ db'.subscriptions, s.Same s' := by
  obtain ⟨ψ, news, hrows, hψ, _⟩ := h.subscriptions
  exact ⟨ψ s, hrows ▸ List.mem_append_left _ (List.mem_map_of_mem hs), hψ s hs⟩

theorem WithinQuota.of_le {db db' : Db} {i : Nat} {q : Int} (h : WithinQuota db i q)
    (hinventory : Inventory db db')
    (hle : (mutationJobs db'.jobs i).length ≤ (mutationJobs db.jobs i).length) :
    WithinQuota db' i q := by
  obtain ⟨s, hs, hid, hquota, hused⟩ := h
  obtain ⟨s', hs', hsame⟩ := hinventory.subscription hs
  refine ⟨s', hs', hsame.1.trans hid, hsame.2.2.1.trans hquota, ?_⟩
  rw [hsame.2.2.2]
  omega

theorem Change.withinQuota {db db' : Db} {e : Event} {i : Nat} {q : Int} (hchange : Change db e db')
    (hdb : db.Constrained) (hq : 0 ≤ q) (h : WithinQuota db i q) : WithinQuota db' i q := by
  have hrecovered : Table.Grows Job.StaysOut (fun j => ¬ j.state.Mutation) db.jobs
      (Swap.recovered db.jobs e.now) := by
    have hreleased (j : Job) : j.StaysOut (j.released e.now) :=
      ⟨rfl, fun hstate' => absurd hstate' (show ¬ JobState.Mutation .pending by decide)⟩
    exact .of_update Job.StaysOut.refl (fun j _ => hreleased j) _
  cases hchange with
  | quiet hjobs _ hinventory => exact h.of_le hinventory (hjobs ▸ le_rfl)
  | @moved j j' hmem hmove hjobs _ _ hinventory =>
    rcases hmove.staysOut_or_fences with hstays | ⟨a, s, hfences⟩
    · exact h.of_le hinventory (hjobs ▸ mutationJobs_le i (staysOut_of_one hdb.jobIds hmem hstays))
    · have htotal := hdb.jobIds.total_update hmem (fun _ => j') (w := fun _ => 1)
        (p := fun j : Job => j.subscriptionId = i ∧ j.state.Mutation)
      rw [← hjobs, ← mutationJobs_length, ← mutationJobs_length] at htotal
      by_cases hsub : j.subscriptionId = i
      · obtain ⟨r, hr, hrid, hquota, _⟩ := h
        obtain ⟨hs, hsid, _⟩ := hfences.subscription
        obtain rfl := hdb.subscriptionIds.eq hs hr ((hsid.trans hsub).trans hrid.symm)
        have hroom := hfences.room hdb.jobIds hmem (hquota ▸ hq)
        obtain ⟨s', hs', hsame⟩ := hinventory.subscription hs
        refine ⟨s', hs', hsame.1.trans hrid, hsame.2.2.1.trans hquota, ?_⟩
        rw [hsame.2.2.2]
        rw [hrid, hquota] at hroom
        have hle : (mutationJobs db'.jobs i).length ≤ (mutationJobs db.jobs i).length + 1 := by
          split at htotal <;> split at htotal <;> omega
        omega
      · refine h.of_le hinventory (le_of_eq ?_)
        rw [if_neg fun hcounts => hsub hcounts.1,
          if_neg fun hcounts => hsub (hmove.same.subscriptionId ▸ hcounts.1)] at htotal
        omega
  | claimed hmem hstate _ hstate' hsame hjobs _ _ hinventory =>
    refine h.of_le hinventory ((mutationJobs_le i ?_).trans (mutationJobs_le i hrecovered))
    rw [hjobs]
    refine staysOut_of_one (recovered_ids hdb.jobIds e.now) hmem ⟨hsame.subscriptionId, ?_⟩
    rw [hstate']
    exact fun hnot => absurd hnot (by decide)
  | recovered hjobs _ _ hinventory =>
    exact h.of_le hinventory (hjobs ▸ mutationJobs_le i hrecovered)
  | queued news hjobs hpending _ _ _ hinventory =>
    refine h.of_le hinventory (hjobs ▸ mutationJobs_le i (.of_append Job.StaysOut.refl _ ?_))
    intro j hj
    rw [hpending j hj]
    decide
  | @succeeded j old new _ _ _ hmem hreplaces hjobs _ _ _ _ hsubscriptions =>
    obtain ⟨s, hs, hid, hquota, hused⟩ := h
    have hmutation : j.state.Mutation := .inr hreplaces.state
    have htotal := hdb.jobIds.total_update hmem (fun _ => j.succeeded old new e.now)
      (w := fun _ => 1) (p := fun j : Job => j.subscriptionId = i ∧ j.state.Mutation)
    rw [← hjobs, ← mutationJobs_length, ← mutationJobs_length] at htotal
    have hdone : ¬ ((j.succeeded old new e.now).subscriptionId = i ∧
        (j.succeeded old new e.now).state.Mutation) :=
      fun hcounts => absurd hcounts.2 (show ¬ JobState.Mutation .success by decide)
    rw [if_neg hdone] at htotal
    refine ⟨_, hsubscriptions ▸ Table.mem_update.mpr ⟨s, hs, rfl⟩, ?_⟩
    by_cases hsub : j.subscriptionId = i
    · rw [if_pos ⟨hsub, hmutation⟩] at htotal
      rw [if_pos (hid.trans hsub.symm)]
      refine ⟨hid, hquota, ?_⟩
      dsimp only
      omega
    · rw [if_neg fun hcounts => hsub hcounts.1] at htotal
      rw [if_neg fun hrow => hsub (hrow.symm.trans hid)]
      refine ⟨hid, hquota, ?_⟩
      omega

/-- Whatever is queued, retried or requested by hand: what a subscription has used and what its jobs
hold in their mutation never exceed its quota. -/
theorem swap_quota_never_overspent {s₀ s : State} {h : List (Event × State)} {i : Nat} {q : Int}
    (start : s₀.db.Constrained) (nonneg : 0 ≤ q)
    (subscription : ∃ row ∈ s₀.db.subscriptions, row.id = i ∧ row.swapQuota = q ∧ row.swapUsed ≤ q)
    (idle : ∀ j ∈ s₀.db.jobs, j.subscriptionId = i → ¬ j.state.Mutation)
    (run : History.Run Step s₀ h s) : ∃ row ∈ s.db.subscriptions, row.id = i ∧ row.swapQuota = q ∧
      row.swapUsed + (mutationJobs s.db.jobs i).length ≤ q := by
  have hnone : mutationJobs s₀.db.jobs i = [] := by
    refine List.filter_eq_nil_iff.mpr fun j hj => ?_
    have := idle j hj
    simpa using this
  have hwithin : WithinQuota s₀.db i q := by
    obtain ⟨row, hrow, hid, hquota, hused⟩ := subscription
    refine ⟨row, hrow, hid, hquota, ?_⟩
    rw [hnone]
    simpa using hused
  exact (run.always (P := fun s => s.db.Constrained ∧ WithinQuota s.db i q) ⟨start, hwithin⟩
    fun s e s' hs hstep => ⟨step_constrained hs.1 hstep,
      (step_change hs.1 hstep).withinQuota hs.1 nonneg hs.2⟩).2

/-- A subscription that may swap once. -/
def oneSwap : Db :=
  { subscriptions := [
      { id := 1, externalId := "1", swapQuota := 1, lastSeenAt := 0, updatedAt := 0 }] }

theorem oneSwap_constrained : oneSwap.Constrained where
  subscriptionIds := by simp [oneSwap, Table.Keyed]
  subscriptionExternalIds := by simp [oneSwap, Table.Keyed]
  assignmentIds := by simp [oneSwap, Table.Keyed]
  assignmentExternalIds := by simp [oneSwap, Table.Keyed]
  assignmentSequence := by simp [oneSwap]
  jobIds := by simp [oneSwap, Table.Keyed]
  jobsUnique := by decide

open EarnProxy.Swap.Scenario in
/-- A canceled job is retried after another one was queued in its place. -/
def retriedJob : List Event :=
  [second 10 (subscription [risky "a" "192.0.2.1", risky "b" "192.0.2.2"]),
    shown "d-1" "192.0.2.1:8000" 11, shown "d-2" "192.0.2.2:8000" 11,
    second 12 (.configure { autoSwap := true }), second 13 (.queue 1000 [(1, 1), (2, 1)]),
    second 14 (.cancel 1), second 15 (.queue 1000 [(2, 1)]), second 16 (.retry 1),
    second 17 (.claim 300 (some 1) "token"), second 18 (.revalidate 1 false (some "token") true),
    second 19 (.claim 300 (some 2) "other"), second 20 (.revalidate 2 false (some "other") true)]

theorem swap_quota_never_overspent_retriedJob :
    (oneSwap.after retriedJob).db.jobs.map Job.state = [.blocked, .mutating] ∧
      ∃ row ∈ (oneSwap.after retriedJob).db.subscriptions, row.id = 1 ∧ row.swapQuota = 1 ∧
        row.swapUsed + (mutationJobs (oneSwap.after retriedJob).db.jobs 1).length ≤ 1 := by
  have run : History.Run Step { db := oneSwap } (oneSwap.history retriedJob)
      (oneSwap.after retriedJob) := History.run_replay_accepted (by decide +kernel)
  refine ⟨by decide +kernel, ?_⟩
  exact swap_quota_never_overspent oneSwap_constrained (by decide) (by decide) (by decide) run

end EarnProxy.Swap

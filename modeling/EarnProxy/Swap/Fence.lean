import Mathlib.Data.List.Pairwise
import EarnProxy.Swap.Moves

/-!
# The mutation fence

A job enters its mutation under the token of its claim, while the lease runs, and leaves it only
with an outcome: after that it is not taken up again unless the administrator asks for it. At most
one job of a subscription is in flight.

## Main results

* `swap_mutation_fence`: how a job enters the fence, and how it leaves it.
* `swap_one_in_flight`: one job of a subscription in flight, one active job of an assignment.
-/

namespace EarnProxy.Swap

/-! ## What becomes of one row -/

/-- What an event leaves of a row. -/
inductive Fate (db db' : Db) (e : Event) (j : Job) : Job → Prop where
  | kept : Fate db db' e j j
  | moved {j' : Job} (move : Move db e j j') : Fate db db' e j j'
  | recovered {j' : Job} (lapsed : j.LeaseOver e.now) (state' : j'.state = .pending)
      (same : j.Same j') : Fate db db' e j j'
  | claimed {j' : Job} (state : j.state = .pending ∨ j.LeaseOver e.now)
      (state' : j'.state = .running) (same : j.Same j') : Fate db db' e j j'
  | succeeded {old new : Assignment} {newExternal : String} {mutationTime : Timestamp}
      (replaces : Replaces db j old new newExternal mutationTime)
      (mapped : ∃ m ∈ db'.mappings, m.swapJobId = j.id) :
      Fate db db' e j (j.succeeded old new e.now)

theorem Fate.same_id {db db' : Db} {e : Event} {j j' : Job} (h : Fate db db' e j j') :
    j'.id = j.id := by
  cases h with
  | kept => rfl
  | moved move => exact move.same.id
  | recovered _ _ same => exact same.id
  | claimed _ _ same => exact same.id
  | succeeded => rfl

theorem Fate.same_subscription {db db' : Db} {e : Event} {j j' : Job} (h : Fate db db' e j j') :
    j'.subscriptionId = j.subscriptionId := by
  cases h with
  | kept => rfl
  | moved move => exact move.same.subscriptionId
  | recovered _ _ same => exact same.subscriptionId
  | claimed _ _ same => exact same.subscriptionId
  | succeeded => rfl

/-- The row of the job that a transaction writes, and the other rows. -/
theorem grows_of_one {db db' : Db} {e : Event} {jobs : List Job} {j j' : Job}
    (hk : Table.Keyed Job.id jobs) (hj : j ∈ jobs) (hfate : Fate db db' e j j') :
    Table.Grows (Fate db db' e) (fun j => j.state = .pending) jobs
      (Table.update (fun r => r.id = j.id) (fun _ => j') jobs) := by
  refine ⟨fun r => if r.id = j.id then j' else r, [], by simp [Table.update], fun r hr => ?_,
    by simp⟩
  by_cases hid : r.id = j.id
  · obtain rfl := hk.eq hr hj hid
    simpa using hfate
  · simpa [hid] using Fate.kept

theorem recovered_fate {db db' : Db} (e : Event) (j : Job) :
    Fate db db' e j (if j.LeaseOver e.now then j.released e.now else j) := by
  split
  · exact .recovered ‹_› rfl ⟨rfl, rfl, rfl⟩
  · exact .kept

/-- Every row of the table has a fate, and every new row is pending. -/
theorem Change.grows {db db' : Db} {e : Event} (h : Change db e db')
    (hk : Table.Keyed Job.id db.jobs) :
    Table.Grows (Fate db db' e) (fun j => j.state = .pending) db.jobs db'.jobs := by
  cases h with
  | quiet hjobs => exact hjobs ▸ .refl (fun _ => .kept) _
  | moved hmem hmove hjobs => exact hjobs ▸ grows_of_one hk hmem (.moved hmove)
  | @claimed j j' hmem hstate _ hstate' hsame hjobs =>
    rw [hjobs]
    refine ⟨fun r => if r.id = j.id then j'
        else if r.LeaseOver e.now then r.released e.now else r, [], ?_, fun r hr => ?_, by simp⟩
    · rw [List.append_nil]
      unfold EarnProxy.Swap.recovered Table.update
      rw [List.map_map]
      refine List.map_congr_left fun r _ => ?_
      have hid : (if r.LeaseOver e.now then r.released e.now else r).id = r.id := by split <;> rfl
      simp only [Function.comp_apply, hid]
    · by_cases hid : r.id = j.id
      · -- the claimed row is this one, recovered first if its lease was over
        obtain ⟨r₀, hr₀, hrow⟩ := Table.mem_update.mp hmem
        have hr₀id : r₀.id = j.id := by
          rw [← hrow]
          split <;> rfl
        obtain rfl := hk.eq hr hr₀ (hid.trans hr₀id.symm)
        simp only [hid, if_true]
        by_cases hover : r.LeaseOver e.now
        · rw [if_pos hover] at hrow
          subst hrow
          exact .claimed (.inr hover) hstate'
            ⟨hsame.id, hsame.subscriptionId, hsame.oldAssignmentId⟩
        · rw [if_neg hover] at hrow
          subst hrow
          exact .claimed (.inl hstate) hstate' hsame
      · simpa only [hid, if_false] using recovered_fate e r
  | recovered hjobs =>
    rw [hjobs]
    exact ⟨_, [], (List.append_nil _).symm, fun r _ => recovered_fate e r, by simp⟩
  | queued news hjobs hpending => exact hjobs ▸ .of_append (fun _ => .kept) _ hpending
  | succeeded hmem hreplaces hjobs _ hmappings =>
    refine hjobs ▸ grows_of_one hk hmem (.succeeded hreplaces ?_)
    rw [hmappings]
    exact ⟨_, List.mem_append_right _ (List.mem_singleton_self _), rfl⟩

/-! ## Entering and leaving the mutation -/

/-- The event takes the running job `j` into its mutation: it brings the token of the claim, and the
lease of the claim runs. -/
def Enters (e : Event) (j : Job) : Prop :=
  j.state = .running ∧ (∃ until_ ∈ j.claimedUntil, e.now < until_) ∧
    ∃ token ∈ j.claimToken, Text.strip token ≠ "" ∧
      ∃ allowManual, e.call = .revalidate j.id allowManual (some token) true

/-- A job that has entered its mutation and was not taken up again. -/
def Job.Fenced (j : Job) : Prop :=
  j.state.Mutation ∨ j.state = .success ∨
    (j.state = .blocked ∧ j.reason = .reconciledNoProviderChange)

instance (j : Job) : Decidable j.Fenced := inferInstanceAs (Decidable (_ ∨ _))

/-- The administrator takes the job up again after it was closed without a provider change. -/
def AdminRetries (i : Nat) (s : State) (e : Event) : Prop :=
  (e.call = .retry i ∨ e.call = .requestManual i) ∧
    ∃ j ∈ s.db.jobs, j.id = i ∧ j.state = .blocked ∧ j.reason = .reconciledNoProviderChange

instance (i : Nat) (s : State) (e : Event) : Decidable (AdminRetries i s e) :=
  inferInstanceAs (Decidable (_ ∧ _))

/-- The event starts a provider mutation of the job. -/
def StartsMutation (i : Nat) (s : State) (e : Event) : Prop :=
  (∃ j ∈ s.db.jobs, j.id = i ∧ j.state ≠ .mutating) ∧
    ∃ s' ∈ s.next e, ∃ j ∈ s'.db.jobs, j.id = i ∧ j.state = .mutating

theorem Fences.enters {db : Db} {e : Event} {j : Job} {a : Assignment} {s : Subscription}
    (h : Fences db e j a s) : Enters e j := by
  obtain ⟨allowManual, token, hcall, htoken, hstrip, hne⟩ := h.call
  exact ⟨h.state, h.lease, token, htoken, hstrip.symm ▸ hne, allowManual, hcall⟩

theorem Fate.enters {db db' : Db} {e : Event} {j j' : Job} (h : Fate db db' e j j')
    (hstate' : j'.state = .mutating) : j.state = .mutating ∨ Enters e j := by
  cases h with
  | kept => exact .inl hstate'
  | moved move =>
    cases move with
    | dropped _ state' => grind
    | mutating _ _ fences => exact .inr fences.enters
    | inferred _ _ _ _ state => exact .inl hstate'
    | _ => cases hstate'
  | recovered _ state' => grind
  | claimed _ state' => grind
  | succeeded => cases hstate'

/-- A job in its mutation stays there or gets an outcome. -/
theorem Fate.leaves {db db' : Db} {e : Event} {j j' : Job} (h : Fate db db' e j j')
    (hstate : j.state.Mutation) :
    j'.state = j.state ∨ j'.state = .providerApplied ∨ j'.state = .reconciliationRequired ∨
      j'.state = .success ∨
        (j'.state = .blocked ∧ j'.reason = .reconciledNoProviderChange) := by
  unfold JobState.Mutation at hstate
  cases h with
  | kept => exact .inl rfl
  | moved move =>
    cases move with
    | dropped state => unfold JobState.PreMutation at state; grind
    | restarted _ _ state => grind
    | mutating _ _ fences => have := fences.state; grind
    | applied => exact .inr (.inl rfl)
    | uncertain => exact .inr (.inr (.inl rfl))
    | unchanged => exact .inr (.inr (.inr (.inr ⟨rfl, rfl⟩)))
    | inferred => exact .inl rfl
  | recovered lapsed => have := lapsed.1; grind
  | claimed state => unfold Job.LeaseOver at state; grind
  | succeeded => exact .inr (.inr (.inr (.inl rfl)))

/-- Only the administrator takes a job up again, and only after it was closed as unchanged. -/
theorem Fate.fenced {db db' : Db} {e : Event} {j j' : Job} (h : Fate db db' e j j')
    (hj : j.Fenced) :
    j'.Fenced ∨ ((e.call = .retry j.id ∨ e.call = .requestManual j.id) ∧ j.state = .blocked ∧
      j.reason = .reconciledNoProviderChange) := by
  by_cases hstate : j.state.Mutation
  · have hleaves := h.leaves hstate
    unfold Job.Fenced JobState.Mutation at *
    grind
  · have hclosed := hj.resolve_left hstate
    cases h with
    | kept => exact .inl hj
    | moved move =>
      cases move with
      | dropped state => unfold JobState.PreMutation at state; grind
      | restarted _ call state => exact .inr ⟨call, by grind⟩
      | mutating _ _ fences => have := fences.state; grind
      | applied _ _ _ state => grind
      | uncertain _ state => exact absurd state hstate
      | unchanged _ _ _ _ state => grind
      | inferred _ _ _ _ state => grind
    | recovered lapsed => have := lapsed.1; grind
    | claimed state => unfold Job.LeaseOver at state; grind
    | succeeded => exact .inl (.inr (.inl rfl))

theorem step_enters {s s' : State} {e : Event} (hs : s.db.Constrained) (hstep : Step s e s')
    {j' : Job} (hj' : j' ∈ s'.db.jobs) (hstate' : j'.state = .mutating) :
    ∃ j ∈ s.db.jobs, j.id = j'.id ∧ (j.state = .mutating ∨ Enters e j) := by
  obtain ⟨ψ, news, hjobs, hψ, hnews⟩ := (step_change hs hstep).grows hs.jobIds
  rw [hjobs] at hj'
  rcases List.mem_append.mp hj' with hj' | hj'
  · obtain ⟨j, hj, rfl⟩ := List.mem_map.mp hj'
    exact ⟨j, hj, (hψ j hj).same_id.symm, (hψ j hj).enters hstate'⟩
  · rw [hnews j' hj'] at hstate'
    cases hstate'

/-- The row of a job after an event. -/
theorem step_fate {s s' : State} {e : Event} (hs : s.db.Constrained) (hstep : Step s e s') {j : Job}
    (hj : j ∈ s.db.jobs) : ∃ j' ∈ s'.db.jobs, Fate s.db s'.db e j j' := by
  obtain ⟨ψ, news, hjobs, hψ, _⟩ := (step_change hs hstep).grows hs.jobIds
  refine ⟨ψ j, ?_, hψ j hj⟩
  rw [hjobs]
  exact List.mem_append_left _ (List.mem_map_of_mem hj)

theorem run_fenced {s s' : State} {h : List (Event × State)} {i : Nat} (hs : s.db.Constrained)
    (hmutation : ∃ j ∈ s.db.jobs, j.id = i ∧ j.state.Mutation) (run : History.Run Step s h s') :
    ¬ History.Sometime (AdminRetries i) s h →
      (∃ j ∈ s'.db.jobs, j.id = i ∧ j.Fenced) ∧ ¬ History.Sometime (StartsMutation i) s h := by
  refine run.invariant (I := fun h s' => ¬ History.Sometime (AdminRetries i) s h →
    (∃ j ∈ s'.db.jobs, j.id = i ∧ j.Fenced) ∧ ¬ History.Sometime (StartsMutation i) s h) ?_ ?_
  · obtain ⟨j, hj, hid, hstate⟩ := hmutation
    exact fun _ => ⟨⟨j, hj, hid, .inl hstate⟩, id⟩
  · intro h t e t' hrun ih hstep hretry
    have ht := run_constrained hs hrun
    obtain ⟨hnot, hbefore⟩ := not_or.mp hretry
    rw [hrun.current_eq] at hnot
    obtain ⟨⟨j, hj, hid, hfenced⟩, hstarts⟩ := ih hbefore
    obtain ⟨j', hj', hfate⟩ := step_fate ht hstep hj
    have hfenced' := (hfate.fenced hfenced).resolve_right fun hadmin =>
      hnot ⟨hid ▸ hadmin.1, j, hj, hid, hadmin.2⟩
    refine ⟨⟨j', hj', hfate.same_id.trans hid, hfenced'⟩, ?_⟩
    rintro (hnow | hearlier)
    · rw [hrun.current_eq] at hnow
      obtain ⟨⟨r, hr, hrid, hrstate⟩, t₁, ht₁, r', hr', hr'id, hr'state⟩ := hnow
      obtain rfl : t₁ = t' := Option.some.inj ((Option.mem_def.mp ht₁).symm.trans hstep)
      obtain ⟨r₀, hr₀, hr₀id, hr₀state⟩ := step_enters ht hstep hr' hr'state
      obtain rfl := ht.jobIds.eq hr₀ hr (hr₀id.trans (hr'id.trans hrid.symm))
      obtain rfl := ht.jobIds.eq hr₀ hj (hrid.trans hid.symm)
      have hrunning := (hr₀state.resolve_left hrstate).1
      unfold Job.Fenced JobState.Mutation at hfenced
      grind
    · exact hstarts hearlier

/-! ## A run -/

namespace Scenario

/-- A call `k` seconds after the start. -/
def second (k : Int) (call : Call) : Event := { call, now := seconds k }

/-- A proxy that is worth a swap. -/
def risky (id host : String) : RawProxy :=
  { id := some (.text id), host, port := some 8000, qualification := some "risk"
    providerEligible := some true, liveStatus := some "live", username := some "user"
    password := some "secret" }

def subscription (proxies : List RawProxy) : Call :=
  .syncSubscription ({ id := some (.number 1) }, proxies)

/-- The dashboard shows the proxy at an address. -/
def shown (dashboardId address : String) (k : Int) : Event :=
  second k (.observe
    { assignmentId := dashboardId, subscriptionId := "1", address, eligible := some true
      connections := some 3, observedAt := seconds k } 900)

end Scenario

open EarnProxy.Swap.Scenario in
/-- A job is queued, claimed and put into its mutation. -/
def swapStarts : List Event :=
  [second 10 (subscription [risky "old" "192.0.2.1"]), shown "d-1" "192.0.2.1:8000" 11,
    second 12 (.configure { autoSwap := true }), second 13 (.queue 1000 [(1, 1)]),
    second 14 (.claim 300 none "token"),
    second 15 (.revalidate 1 false (some "token") true)]

open EarnProxy.Swap.Scenario in
/-- The provider names the replacement, while others try to take the job up again. -/
def swapEnds : List Event :=
  [second 16 (.cancel 1), second 17 (.claim 300 (some 1) "other"),
    second 18 (.providerApplied 1 "old" (some "new") none (some "token")), second 19 (.retry 1),
    second 20 (subscription [risky "new" "192.0.2.2"]), shown "d-2" "192.0.2.2:8000" 21,
    second 22 (.succeed 1 "old" (some "new") none (some "token")), second 23 (.requestManual 1)]

def swapStarted : State := Db.after {} swapStarts

theorem swapStarts_runs : History.Run Step { db := {} } (Db.history {} swapStarts) swapStarted :=
  History.run_replay_accepted (by decide +kernel)

/-- The states that a list of events goes through after the start of the swap. -/
def swapHistory (events : List Event) : List (Event × State) :=
  History.replay (fun s e => (s.next e).getD s) swapStarted events

theorem swapEnds_runs : History.Run Step swapStarted (swapHistory swapEnds)
    (History.current swapStarted (swapHistory swapEnds)) :=
  History.run_replay_accepted (by decide +kernel)

theorem empty_fresh : ({} : Db).Fresh where
  subscriptionIds := by simp [Table.Keyed]
  subscriptionExternalIds := by simp [Table.Keyed]
  assignmentIds := by simp [Table.Keyed]
  assignmentExternalIds := by simp [Table.Keyed]
  assignmentSequence := by simp
  jobIds := by simp [Table.Keyed]
  jobsUnique := by decide
  jobs := rfl
  mappings := rfl

/-! ## The fence -/

/-- A job enters its mutation from its run alone, under the token of its claim and while the lease
runs. From its mutation it goes on to an outcome; and it is pending, running or mutated again only
after the administrator has taken it up after it was closed without a provider change. -/
theorem swap_mutation_fence {s₀ s : State} {h : List (Event × State)} (start : s₀.db.Constrained)
    (run : History.Run Step s₀ h s) :
    (∀ e s', Step s e s' →
      (∀ j' ∈ s'.db.jobs, j'.state = .mutating →
        ∃ j ∈ s.db.jobs, j.id = j'.id ∧ (j.state = .mutating ∨ Enters e j)) ∧
      ∀ j ∈ s.db.jobs, j.state.Mutation → ∃ j' ∈ s'.db.jobs, j'.id = j.id ∧
        (j'.state = j.state ∨ j'.state = .providerApplied ∨ j'.state = .reconciliationRequired ∨
          j'.state = .success ∨
            (j'.state = .blocked ∧ j'.reason = .reconciledNoProviderChange))) ∧
    ∀ i h' s', (∃ j ∈ s.db.jobs, j.id = i ∧ j.state.Mutation) → History.Run Step s h' s' →
      ¬ History.Sometime (AdminRetries i) s h' →
        (∀ j ∈ s'.db.jobs, j.id = i → j.Fenced) ∧ ¬ History.Sometime (StartsMutation i) s h' := by
  have hs := run_constrained start run
  refine ⟨fun e s' hstep => ⟨fun j' hj' hstate' => step_enters hs hstep hj' hstate',
    fun j hj hstate => ?_⟩, fun i h' s' hmutation run' hretry => ?_⟩
  · obtain ⟨j', hj', hfate⟩ := step_fate hs hstep hj
    exact ⟨j', hj', hfate.same_id, hfate.leaves hstate⟩
  · obtain ⟨⟨j, hj, hid, hfenced⟩, hstarts⟩ := run_fenced hs hmutation run' hretry
    refine ⟨fun r hr hrid => ?_, hstarts⟩
    obtain rfl := (run_constrained hs run').jobIds.eq hr hj (hrid.trans hid.symm)
    exact hfenced

theorem swap_mutation_fence_swapEnds :
    swapStarted.db.jobs.map Job.state = [.mutating] ∧
      ∀ j ∈ (History.current swapStarted (swapHistory swapEnds)).db.jobs, j.id = 1 → j.Fenced := by
  have hmutation : ∃ j ∈ swapStarted.db.jobs, j.id = 1 ∧ j.state.Mutation := by decide +kernel
  have hretry : ¬ History.Sometime (AdminRetries 1) swapStarted (swapHistory swapEnds) := by
    decide +kernel
  have hfence := swap_mutation_fence empty_fresh.toConstrained swapStarts_runs
  exact ⟨by decide +kernel, (hfence.2 1 _ _ hmutation swapEnds_runs hretry).1⟩

/-! ## One swap in flight -/

/-- At most one job of each subscription is in flight. -/
def OneInFlight (jobs : List Job) : Prop :=
  ∀ j ∈ jobs, ∀ j' ∈ jobs, j.state.InFlight → j'.state.InFlight →
    j.subscriptionId = j'.subscriptionId → j.id = j'.id

/-- The row stays in its subscription and is not put in flight. -/
structure Job.Settles (j j' : Job) : Prop where
  id : j'.id = j.id
  subscriptionId : j'.subscriptionId = j.subscriptionId
  inFlight : j'.state.InFlight → j.state.InFlight

theorem Job.Settles.refl (j : Job) : j.Settles j := ⟨rfl, rfl, fun h => h⟩

theorem OneInFlight.grows {jobs jobs' : List Job} (h : OneInFlight jobs)
    (hgrows : Table.Grows Job.Settles (fun j => ¬ j.state.InFlight) jobs jobs') :
    OneInFlight jobs' := by
  obtain ⟨ψ, news, rfl, hψ, hnews⟩ := hgrows
  have hold : ∀ j' ∈ jobs.map ψ ++ news, j'.state.InFlight → ∃ j ∈ jobs, j.Settles j' := by
    intro j' hj' hstate'
    rcases List.mem_append.mp hj' with hj' | hj'
    · obtain ⟨j, hj, rfl⟩ := List.mem_map.mp hj'
      exact ⟨j, hj, hψ j hj⟩
    · exact absurd hstate' (hnews j' hj')
  intro a' ha' b' hb' hastate hbstate hsub
  obtain ⟨a, ha, hsettles⟩ := hold a' ha' hastate
  obtain ⟨b, hb, hsettles'⟩ := hold b' hb' hbstate
  rw [hsettles.id, hsettles'.id]
  refine h a ha b hb (hsettles.inFlight hastate) (hsettles'.inFlight hbstate) ?_
  rw [← hsettles.subscriptionId, ← hsettles'.subscriptionId, hsub]

theorem Move.settles {db : Db} {e : Event} {j j' : Job} (h : Move db e j j') : j.Settles j' := by
  refine ⟨h.same.id, h.same.subscriptionId, fun hstate' => ?_⟩
  unfold JobState.InFlight JobState.Mutation at *
  cases h with
  | dropped _ state' => grind
  | restarted => cases hstate' <;> grind [Job.restarted]
  | mutating _ _ fences => exact .inl fences.state
  | applied _ _ _ state => exact .inr (.inl state)
  | uncertain _ state => exact .inr state
  | unchanged _ _ _ _ state => exact .inr (.inr (.inr state))
  | inferred _ _ _ _ state => exact .inr (.inr (.inr state))

/-- A statement that writes one row. -/
theorem settles_of_one {jobs : List Job} {j j' : Job} (hk : Table.Keyed Job.id jobs) (hj : j ∈ jobs)
    (hsettles : j.Settles j') :
    Table.Grows Job.Settles (fun j => ¬ j.state.InFlight) jobs
      (Table.update (fun r => r.id = j.id) (fun _ => j') jobs) :=
  .of_update_mem Job.Settles.refl fun _ hr hid => hk.eq hr hj hid ▸ hsettles

theorem Change.oneInFlight {db db' : Db} {e : Event} (hchange : Change db e db')
    (hk : Table.Keyed Job.id db.jobs) (h : OneInFlight db.jobs) : OneInFlight db'.jobs := by
  have hrecovered : OneInFlight (Swap.recovered db.jobs e.now) := by
    have hreleased (r : Job) : r.Settles (r.released e.now) := by
      refine ⟨rfl, rfl, fun hstate' => ?_⟩
      rcases hstate' with hstate' | hstate' | hstate' | hstate' <;> cases hstate'
    exact h.grows (.of_update Job.Settles.refl (fun r _ => hreleased r) _)
  cases hchange with
  | quiet hjobs => exact hjobs ▸ h
  | moved hmem hmove hjobs => exact hjobs ▸ h.grows (settles_of_one hk hmem hmove.settles)
  | @claimed j j' hmem _ hsibling _ hsame hjobs =>
    rw [hjobs]
    -- no other row of the subscription is in flight, whatever becomes of the claimed one
    have hother : ∀ r ∈ Swap.recovered db.jobs e.now, r.id ≠ j.id → r.state.InFlight →
        r.subscriptionId ≠ j.subscriptionId :=
      fun r hr hid hstate hsub => hsibling ⟨r, hr, hsub, hid, hstate⟩
    have hrow : ∀ r' ∈ Table.update (fun r => r.id = j.id) (fun _ => j')
        (Swap.recovered db.jobs e.now), r' = j' ∨ (r'.id ≠ j.id ∧
          r' ∈ Swap.recovered db.jobs e.now) := by
      intro r' hr'
      obtain ⟨r, hr, rfl⟩ := Table.mem_update.mp hr'
      by_cases hid : r.id = j.id
      · exact .inl (if_pos hid)
      · rw [if_neg hid]
        exact .inr ⟨hid, hr⟩
    intro a ha b hb hastate hbstate hsub
    rcases hrow a ha with ha | ⟨haid, ha⟩ <;> rcases hrow b hb with hb | ⟨hbid, hb⟩
    · rw [ha, hb]
    · refine absurd (hsub.symm.trans ?_) (hother b hb hbid hbstate)
      rw [ha, hsame.subscriptionId]
    · refine absurd (hsub.trans ?_) (hother a ha haid hastate)
      rw [hb, hsame.subscriptionId]
    · exact hrecovered a ha b hb hastate hbstate hsub
  | recovered hjobs => exact hjobs ▸ hrecovered
  | queued news hjobs hpending =>
    refine hjobs ▸ h.grows (.of_append Job.Settles.refl _ fun j hj hstate => ?_)
    rw [hpending j hj] at hstate
    rcases hstate with hstate | hstate | hstate | hstate <;> cases hstate
  | @succeeded j old new _ _ _ hmem hreplaces hjobs =>
    refine hjobs ▸ h.grows (settles_of_one hk hmem ⟨rfl, rfl, fun hstate' => ?_⟩)
    rcases hstate' with hstate' | hstate' | hstate' | hstate' <;> cases hstate'

/-- The index on the active jobs of an assignment. -/
theorem JobsUnique.eq_of_active {jobs : List Job} (h : JobsUnique jobs) {j j' : Job} {i : Nat}
    (hj : j ∈ jobs) (hj' : j' ∈ jobs) (hstate : j.state.Active) (hstate' : j'.state.Active)
    (hold : j.oldAssignmentId = some i) (hold' : j'.oldAssignmentId = some i) : j = j' := by
  by_contra hne
  let Apart (a b : Job) : Prop := ∀ x, a.oldAssignmentId = some x → b.oldAssignmentId ≠ some x
  have hpairs : (jobs.filter fun j => j.state.Active).Pairwise Apart :=
    (List.pairwise_filterMap.mp h.1).imp fun hab x hx hy => hab x hx x hy rfl
  have hsymm : Std.Symm Apart := ⟨fun _ _ hab x hx hy => hab x hy hx⟩
  refine hpairs.forall ?_ ?_ hne i hold hold'
  · exact List.mem_filter.mpr ⟨hj, by simpa using hstate⟩
  · exact List.mem_filter.mpr ⟨hj', by simpa using hstate'⟩

/-- In every run at most one job of a subscription is in flight, and at most one job of an
assignment is active. -/
theorem swap_one_in_flight {db₀ : Db} {s : State} {h : List (Event × State)} (fresh : db₀.Fresh)
    (run : History.Run Step { db := db₀ } h s) :
    (∀ j ∈ s.db.jobs, ∀ j' ∈ s.db.jobs, j.state.InFlight → j'.state.InFlight →
      j.subscriptionId = j'.subscriptionId → j = j') ∧
    ∀ j ∈ s.db.jobs, ∀ j' ∈ s.db.jobs, ∀ i, j.state.Active → j'.state.Active →
      j.oldAssignmentId = some i → j'.oldAssignmentId = some i → j = j' := by
  have hs : s.db.Constrained ∧ OneInFlight s.db.jobs := by
    refine run.always (P := fun s => s.db.Constrained ∧ OneInFlight s.db.jobs)
      ⟨fresh.toConstrained, ?_⟩ fun s e s' hs hstep => ?_
    · intro j hj
      rw [fresh.jobs] at hj
      cases hj
    · exact ⟨step_constrained hs.1 hstep, (step_change hs.1 hstep).oneInFlight hs.1.jobIds hs.2⟩
  refine ⟨fun j hj j' hj' hstate hstate' hsub => ?_, fun j hj j' hj' i hstate hstate' hold hold' =>
    hs.1.jobsUnique.eq_of_active hj hj' hstate hstate' hold hold'⟩
  exact hs.1.jobIds.eq hj hj' (hs.2 j hj j' hj' hstate hstate' hsub)

open EarnProxy.Swap.Scenario in
/-- Two jobs of one subscription, claimed one after the other. -/
def twoJobs : List Event :=
  [second 10 (subscription [risky "a" "192.0.2.1", risky "b" "192.0.2.2"]),
    shown "d-1" "192.0.2.1:8000" 11, shown "d-2" "192.0.2.2:8000" 11,
    second 12 (.configure { autoSwap := true }), second 13 (.queue 1000 [(1, 1), (2, 1)]),
    second 14 (.claim 300 none "token"), second 15 (.claim 300 none "other")]

theorem swap_one_in_flight_twoJobs :
    (Db.after {} twoJobs).db.jobs.map Job.state = [.running, .pending] ∧
      ∀ j ∈ (Db.after {} twoJobs).db.jobs, ∀ j' ∈ (Db.after {} twoJobs).db.jobs,
        j.state.InFlight → j'.state.InFlight → j.subscriptionId = j'.subscriptionId → j = j' := by
  refine ⟨by decide +kernel, ?_⟩
  exact (swap_one_in_flight (h := Db.history {} twoJobs) empty_fresh
    (History.run_replay_accepted (by decide +kernel))).1

end EarnProxy.Swap

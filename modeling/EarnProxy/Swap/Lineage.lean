import EarnProxy.Swap.Quota

/-!
# Outcomes and lineage

A swap succeeds together with the one row that says what replaced what, on evidence that is later
than its mutation. A sweep closes a job as unchanged on what it has read before.

## Main results

* `swap_outcomes_evidenced`: the lineage of the jobs in every reachable state, and the evidence for
  every outcome.
-/

namespace EarnProxy.Swap

/-! ## Lineage -/

def Db.mappingsOf (db : Db) (jobId : Nat) : List Mapping :=
  db.mappings.filter fun m => m.swapJobId = jobId

/-- A job has its one mapping when it has succeeded. Then the row of the old assignment is gone. -/
structure Lineage (db : Db) (j : Job) : Prop where
  mapped : j.state = .success ↔ (db.mappingsOf j.id).length = 1
  unmapped : j.state ≠ .success → db.mappingsOf j.id = []
  replaced : j.state = .success → ∀ m ∈ db.mappingsOf j.id,
    m.oldAssignmentExternalId = j.frozenOld ∧ m.newAssignmentExternalId ≠ m.oldAssignmentExternalId
  gone : j.state = .success → ∃ i, j.oldAssignmentId = some i ∧ i ≤ db.assignmentSequence ∧
    ∀ a ∈ db.assignments, a.id ≠ i

/-- Every job has its lineage, and every mapping its job. -/
structure Lineages (db : Db) : Prop where
  jobs : ∀ j ∈ db.jobs, Lineage db j
  mappings : ∀ m ∈ db.mappings, ∃ j ∈ db.jobs, j.id = m.swapJobId

/-- What an event that closes no job leaves of the lineage. -/
theorem Lineage.keep {db db' : Db} {j j' : Job} (h : Lineage db j) (hid : j'.id = j.id)
    (hsuccess : j.state = .success → j' = j) (hnot : j.state ≠ .success → j'.state ≠ .success)
    (hmappings : db'.mappings = db.mappings) (hinventory : Inventory db db') : Lineage db' j' := by
  have hof : db'.mappingsOf j'.id = db.mappingsOf j.id := by
    unfold Db.mappingsOf
    rw [hmappings, hid]
  have hiff : j'.state = .success ↔ j.state = .success := by
    refine ⟨fun hs => by_contra fun hne => hnot hne hs, fun hs => (hsuccess hs).symm ▸ hs⟩
  refine ⟨by rw [hof, hiff]; exact h.mapped, ?_, ?_, ?_⟩
  · rw [hof]
    exact fun hne => h.unmapped fun hs => hne (hiff.mpr hs)
  · rw [hof]
    intro hs
    obtain rfl := hsuccess (hiff.mp hs)
    exact h.replaced hs
  · intro hs
    obtain rfl := hsuccess (hiff.mp hs)
    obtain ⟨i, hi, hle, hgone⟩ := h.gone hs
    refine ⟨i, hi, hle.trans hinventory.sequence, fun a' ha' => ?_⟩
    obtain ⟨ψ, news, hrows, hψ, hnews⟩ := hinventory.assignments
    rw [hrows] at ha'
    rcases List.mem_append.mp ha' with ha' | ha'
    · obtain ⟨a, ha, rfl⟩ := List.mem_map.mp ha'
      exact (hψ a ha).1 ▸ hgone a ha
    · exact (hle.trans_lt (hnews a' ha').1).ne'

/-- Success is terminal. -/
theorem Fate.of_success {db db' : Db} {e : Event} {j j' : Job} (h : Fate db db' e j j')
    (hstate : j.state = .success) : j' = j := by
  cases h with
  | kept => rfl
  | moved move =>
    cases move with
    | dropped state => rw [hstate] at state; exact absurd state (by decide)
    | restarted _ _ state => rw [hstate] at state; exact absurd state (by decide)
    | mutating _ _ fences => exact absurd (hstate.symm.trans fences.state) (by decide)
    | applied _ _ _ state => exact absurd (hstate.symm.trans state) (by decide)
    | uncertain _ state => rw [hstate] at state; exact absurd state (by decide)
    | unchanged _ _ _ _ state => exact absurd (hstate.symm.trans state) (by decide)
    | inferred _ _ _ _ state => exact absurd (hstate.symm.trans state) (by decide)
  | recovered lapsed => exact absurd (hstate.symm.trans lapsed.1) (by decide)
  | claimed state =>
    rcases state with state | lapsed
    · exact absurd (hstate.symm.trans state) (by decide)
    · exact absurd (hstate.symm.trans lapsed.1) (by decide)
  | succeeded replaces =>
    rcases replaces.state with state | state <;> exact absurd (hstate.symm.trans state) (by decide)

theorem Lineage.of_unmapped {db : Db} {j : Job} (hstate : j.state ≠ .success)
    (hnone : db.mappingsOf j.id = []) : Lineage db j where
  mapped := by simp [hstate, hnone]
  unmapped := fun _ => hnone
  replaced := fun h => absurd h hstate
  gone := fun h => absurd h hstate

/-- A job succeeds with its mapping only. -/
theorem Fate.of_open {db db' : Db} {e : Event} {j j' : Job} (h : Fate db db' e j j')
    (hmappings : db'.mappings = db.mappings) (hstate : j.state ≠ .success) :
    j'.state ≠ .success := by
  cases h with
  | kept => exact hstate
  | moved move =>
    cases move with
    | dropped _ state' => rcases state' with h | h | h <;> rw [h] <;> decide
    | inferred => exact hstate
    | _ => exact nofun
  | recovered _ state' => rw [state']; decide
  | claimed _ state' => rw [state']; decide
  | succeeded replaces mapped =>
    obtain ⟨m, hm, hid⟩ := mapped
    exact absurd hid (replaces.unmapped m (hmappings ▸ hm))

/-- An event that writes no mapping. -/
theorem Lineages.keep {db db' : Db} {e : Event} (h : Lineages db)
    (hgrows : Table.Grows (Fate db db' e) (fun j => j.state = .pending) db.jobs db'.jobs)
    (hids : Table.Keyed Job.id db'.jobs) (hmappings : db'.mappings = db.mappings)
    (hinventory : Inventory db db') : Lineages db' := by
  obtain ⟨ψ, news, hjobs, hψ, hnews⟩ := hgrows
  have hold : ∀ j ∈ db.jobs, ψ j ∈ db'.jobs := by
    intro j hj
    rw [hjobs]
    exact List.mem_append_left _ (List.mem_map_of_mem hj)
  refine ⟨fun j' hj' => ?_, fun m hm => ?_⟩
  · have hmem := hj'
    rw [hjobs] at hmem
    rcases List.mem_append.mp hmem with hmem | hmem
    · obtain ⟨j, hj, rfl⟩ := List.mem_map.mp hmem
      exact (h.jobs j hj).keep (hψ j hj).same_id (hψ j hj).of_success
        ((hψ j hj).of_open hmappings) hmappings hinventory
    · -- a new job has a new id, so no mapping names it
      have hpending := hnews j' hmem
      have hnone : db'.mappingsOf j'.id = [] := by
        refine List.filter_eq_nil_iff.mpr fun m hm hmid => ?_
        rw [hmappings] at hm
        obtain ⟨j, hj, hid⟩ := h.mappings m hm
        rw [hjobs] at hids
        refine hids.ne_of_append (List.mem_map_of_mem hj) hmem ?_
        exact (hψ j hj).same_id.trans (hid.trans (of_decide_eq_true hmid))
      exact .of_unmapped (hpending ▸ nofun) hnone
  · rw [hmappings] at hm
    obtain ⟨j, hj, hid⟩ := h.mappings m hm
    exact ⟨ψ j, hold j hj, (hψ j hj).same_id.trans hid⟩

/-- The event that closes a job writes its mapping. -/
theorem Lineages.succeed {db db' : Db} {e : Event} (h : Lineages db) (hdb : db.Constrained)
    {j : Job} {old new : Assignment} {newExternal : String} {mutationTime readyAt : Timestamp}
    (hmem : j ∈ db.jobs) (hreplaces : Replaces db j old new newExternal mutationTime)
    (hjobs : db'.jobs =
      Table.update (fun r => r.id = j.id) (fun _ => j.succeeded old new e.now) db.jobs)
    (hmappings : db'.mappings = db.mappings ++ [{
      swapJobId := j.id, oldAssignmentExternalId := j.frozenOld
      newAssignmentExternalId := newExternal, successAt := e.now }])
    (hassignments : db'.assignments = (Table.update (fun a => a.id = new.id)
      (fun a => a.replacing readyAt e.now) db.assignments).filter fun a => a.id ≠ old.id)
    (hsequence : db'.assignmentSequence = db.assignmentSequence) : Lineages db' := by
  have hkept : ∀ a' ∈ db'.assignments, a'.id ≠ old.id ∧ ∃ a ∈ db.assignments, a.id = a'.id := by
    intro a' ha'
    rw [hassignments] at ha'
    obtain ⟨ha', hne⟩ := List.mem_filter.mp ha'
    obtain ⟨a, ha, rfl⟩ := Table.mem_update.mp ha'
    exact ⟨of_decide_eq_true hne, a, ha, by split <;> rfl⟩
  have hof (i : Nat) : db'.mappingsOf i = db.mappingsOf i ++ (if j.id = i then [{
      swapJobId := j.id, oldAssignmentExternalId := j.frozenOld
      newAssignmentExternalId := newExternal, successAt := e.now }] else []) := by
    unfold Db.mappingsOf
    rw [hmappings, List.filter_append]
    congr 1
    by_cases hid : j.id = i <;> simp [hid]
  have hnone : db.mappingsOf j.id = [] := by
    refine List.filter_eq_nil_iff.mpr fun m hm => ?_
    simpa using hreplaces.unmapped m hm
  refine ⟨fun r' hr' => ?_, fun m hm => ?_⟩
  · rw [hjobs] at hr'
    obtain ⟨r, hr, rfl⟩ := Table.mem_update.mp hr'
    by_cases hid : r.id = j.id
    · rw [if_pos hid]
      have hone := hof j.id
      rw [hnone, List.nil_append, if_pos rfl] at hone
      refine ⟨?_, fun hnot => absurd rfl hnot, fun _ m hm => ?_, fun _ => ?_⟩
      · exact ⟨fun _ => congrArg List.length hone, fun _ => rfl⟩
      · rw [show (j.succeeded old new e.now).id = j.id from rfl, hone] at hm
        obtain rfl := List.mem_singleton.mp hm
        exact ⟨rfl, hreplaces.changed.2⟩
      · refine ⟨old.id, rfl, ?_, fun a ha => (hkept a ha).1⟩
        rw [hsequence]
        exact hdb.assignmentSequence old hreplaces.oldRow.1
    · rw [if_neg hid]
      have hsame := hof r.id
      rw [if_neg (Ne.symm hid), List.append_nil] at hsame
      have hlineage := h.jobs r hr
      refine ⟨hsame.symm ▸ hlineage.mapped, hsame.symm ▸ hlineage.unmapped,
        hsame.symm ▸ hlineage.replaced, fun hstate => ?_⟩
      obtain ⟨i, hi, hle, hgone⟩ := hlineage.gone hstate
      refine ⟨i, hi, hsequence.symm ▸ hle, fun a' ha' => ?_⟩
      obtain ⟨_, a, ha, haid⟩ := hkept a' ha'
      exact haid ▸ hgone a ha
  · rw [hmappings] at hm
    have hrow (r : Job) (hr : r ∈ db.jobs) : ∃ r' ∈ db'.jobs, r'.id = r.id := by
      rw [hjobs]
      refine ⟨_, Table.mem_update.mpr ⟨r, hr, rfl⟩, ?_⟩
      split
      · exact Eq.symm ‹_›
      · rfl
    rcases List.mem_append.mp hm with hm | hm
    · obtain ⟨r, hr, hid⟩ := h.mappings m hm
      obtain ⟨r', hr', hid'⟩ := hrow r hr
      exact ⟨r', hr', hid'.trans hid⟩
    · rw [List.mem_singleton.mp hm]
      exact hrow j hmem

theorem Change.lineages {db db' : Db} {e : Event} (hchange : Change db e db') (hdb : db.Constrained)
    (h : Lineages db) : Lineages db' := by
  have hgrows := hchange.grows hdb.jobIds
  have hids := (hchange.constrained hdb).jobIds
  cases hchange with
  | quiet _ hmappings hinventory => exact h.keep hgrows hids hmappings hinventory
  | moved _ _ _ _ hmappings hinventory => exact h.keep hgrows hids hmappings hinventory
  | claimed _ _ _ _ _ _ _ hmappings hinventory => exact h.keep hgrows hids hmappings hinventory
  | recovered _ _ hmappings hinventory => exact h.keep hgrows hids hmappings hinventory
  | queued _ _ _ _ _ hmappings hinventory => exact h.keep hgrows hids hmappings hinventory
  | succeeded hmem hreplaces hjobs _ hmappings hassignments hsequence =>
    exact h.succeed hdb hmem hreplaces hjobs hmappings hassignments hsequence

/-! ## Evidence -/

/-- The row of a job after an event. -/
theorem Change.fate {db db' : Db} {e : Event} (hchange : Change db e db') (hdb : db.Constrained)
    {j j' : Job} (hj : j ∈ db.jobs) (hj' : j' ∈ db'.jobs) (hid : j'.id = j.id) :
    Fate db db' e j j' := by
  have hids := (hchange.constrained hdb).jobIds
  obtain ⟨ψ, news, hjobs, hψ, _⟩ := hchange.grows hdb.jobIds
  have hmem : ψ j ∈ db'.jobs := by
    rw [hjobs]
    exact List.mem_append_left _ (List.mem_map_of_mem hj)
  obtain rfl := hids.eq hj' hmem (hid.trans (hψ j hj).same_id.symm)
  exact hψ j hj

/-- What `db` shows of the swap that leaves the mapping `m` for the job `j`. -/
structure ClosedOn (db : Db) (j : Job) (m : Mapping) : Prop where
  old : ∃ old ∈ db.assignments, old.externalId = m.oldAssignmentExternalId ∧
    old.subscriptionId = j.subscriptionId
  new : ∃ new ∈ db.assignments, Text.strip new.externalId = m.newAssignmentExternalId ∧
    new.subscriptionId = j.subscriptionId ∧ ∃ mutationTime ∈ j.mutationTime,
      (∃ syncedAt ∈ new.lastSeenAt, mutationTime < syncedAt) ∧
      ∃ observedAt ∈ new.dashboardObservedAt, mutationTime < observedAt

theorem Change.closedOn {db db' : Db} {e : Event} (hchange : Change db e db') (hdb : db.Constrained)
    {j j' : Job} (hj : j ∈ db.jobs) (hj' : j' ∈ db'.jobs) (hid : j'.id = j.id)
    (hstate : j.state ≠ .success) (hstate' : j'.state = .success) :
    ∃ m, db'.mappings = db.mappings ++ [m] ∧ m.swapJobId = j.id ∧ ClosedOn db j m := by
  have hfate := hchange.fate hdb hj hj' hid
  cases hchange with
  | quiet _ hmappings => exact absurd hstate' (hfate.of_open hmappings hstate)
  | moved _ _ _ _ hmappings => exact absurd hstate' (hfate.of_open hmappings hstate)
  | claimed _ _ _ _ _ _ _ hmappings => exact absurd hstate' (hfate.of_open hmappings hstate)
  | recovered _ _ hmappings => exact absurd hstate' (hfate.of_open hmappings hstate)
  | queued _ _ _ _ _ hmappings => exact absurd hstate' (hfate.of_open hmappings hstate)
  | @succeeded r old new newExternal mutationTime _ hmem hreplaces hjobs _ hmappings =>
    rw [hjobs] at hj'
    obtain ⟨r₀, hr₀, hrow⟩ := Table.mem_update.mp hj'
    have hr₀id : r₀.id = j.id := by
      rw [← hid, ← hrow]
      split
      · exact ‹r₀.id = r.id›
      · rfl
    obtain rfl := hdb.jobIds.eq hr₀ hj hr₀id
    by_cases hone : r₀.id = r.id
    · obtain rfl := hdb.jobIds.eq hr₀ hmem hone
      obtain ⟨hold, holdExternal, holdSub, _⟩ := hreplaces.oldRow
      obtain ⟨hnew, hnewSub, hnewExternal⟩ := hreplaces.newRow
      exact ⟨_, hmappings, rfl, ⟨old, hold, holdExternal, holdSub⟩, new, hnew, hnewExternal,
        hnewSub, mutationTime, hreplaces.time, hreplaces.synced, hreplaces.observed⟩
    · rw [if_neg hone] at hrow
      exact absurd (hrow.symm ▸ hstate') hstate

/-- `db` shows the old assignment of the job as it was when the mutation of `row` began. While it is
in use in the subscription of the job, sync and dashboard have seen it after that mutation. -/
structure ShownUnchanged (db : Db) (row : Job) (old : Assignment) : Prop where
  mem : old ∈ db.assignments
  externalId : old.externalId = row.frozenOld
  present : old.missingAt = none
  address : ∃ endpoint,
    dashboardAddressEndpoint (Text.strip (row.mutationOldAssignmentAddress.getD "")) =
      some endpoint ∧ normalized old.host = endpoint.host ∧ some old.port = endpoint.port
  dashboardId : Text.strip (old.dashboardAssignmentId.getD "") = row.frozenDashboardId
  later : old.InUse → old.subscriptionId = row.subscriptionId → ∃ mutationAt ∈ row.mutationTime,
    (∃ syncedAt ∈ old.lastSeenAt, mutationAt < syncedAt) ∧
      ∃ observedAt ∈ old.dashboardObservedAt, mutationAt < observedAt

theorem unchangedEvidence_shown {db : Db} {row : Job} {now : Timestamp} {old : Assignment}
    (h : unchangedEvidence db row now = some old) : ShownUnchanged db row old := by
  unfold unchangedEvidence at h
  split at h
  · cases h
  · rename_i mutationAt htime
    split at h
    · cases h
    · split at h
      · rename_i hcovers
        obtain ⟨hresolve, hunchanged⟩ := Option.filter_eq_some_iff.mp h
        obtain ⟨hpresent, _, ⟨endpoint, hendpoint, hhost, hport⟩, hdashboard, _⟩ :=
          of_decide_eq_true hunchanged
        have hmem : old ∈ db.assignments := Table.mem_of_lookup hresolve
        refine ⟨hmem, Table.key_of_lookup hresolve, hpresent,
          ⟨endpoint, hendpoint, hhost, hport⟩, hdashboard, fun hused hsub => ?_⟩
        have hcovered : old ∈ usedAssignments db row.subscriptionId :=
          List.mem_filter.mpr ⟨hmem, by simpa using ⟨hsub, hpresent, hused⟩⟩
        obtain ⟨syncedAt, hsynced, observedAt, hobserved, hsync, hobs, _⟩ :=
          hcovers.2 old hcovered
        exact ⟨mutationAt, htime, ⟨syncedAt, hsynced, hsync⟩, observedAt, hobserved, hobs⟩
      · cases h

theorem awaitingJobs_mem {db : Db} {limit : Int} {row : Job} (h : row ∈ awaitingJobs db limit) :
    row ∈ db.jobs ∧ (row.state = .providerApplied ∨ row.state = .reconciliationRequired) := by
  have hsorted := List.mem_of_mem_take h
  rw [List.mem_insertionSort] at hsorted
  simpa using hsorted

/-- The rows are about the same mutation. -/
structure Job.SameMutation (row j : Job) : Prop where
  subscriptionId : j.subscriptionId = row.subscriptionId
  mutationTime : j.mutationTime = row.mutationTime
  frozenOld : j.frozenOld = row.frozenOld
  address : j.mutationOldAssignmentAddress = row.mutationOldAssignmentAddress
  dashboardId : j.frozenDashboardId = row.frozenDashboardId

theorem Job.SameMutation.trans {row j j' : Job} (h : row.SameMutation j) (h' : j.SameMutation j') :
    row.SameMutation j' where
  subscriptionId := h'.subscriptionId.trans h.subscriptionId
  mutationTime := h'.mutationTime.trans h.mutationTime
  frozenOld := h'.frozenOld.trans h.frozenOld
  address := h'.address.trans h.address
  dashboardId := h'.dashboardId.trans h.dashboardId

/-- A job whose mutation is over keeps what the mutation was about, until the administrator takes it
up again. -/
theorem Fate.sameMutation {db db' : Db} {e : Event} {j j' : Job} (h : Fate db db' e j j')
    (hfenced : j.Fenced) (hstate : j.state ≠ .mutating) :
    (j'.state ≠ .mutating ∧ j.SameMutation j') ∨
      ((e.call = .retry j.id ∨ e.call = .requestManual j.id) ∧ j.state = .blocked ∧
        j.reason = .reconciledNoProviderChange) := by
  unfold Job.Fenced JobState.Mutation at hfenced
  cases h with
  | kept => exact .inl ⟨hstate, rfl, rfl, rfl, rfl, rfl⟩
  | moved move =>
    cases move with
    | dropped state => unfold JobState.PreMutation at state; grind
    | restarted _ call state => exact .inr ⟨call, by grind⟩
    | mutating _ _ fences => have := fences.state; grind
    | applied _ _ _ state => exact absurd state hstate
    | uncertain => exact .inl ⟨nofun, rfl, rfl, rfl, rfl, rfl⟩
    | unchanged => exact .inl ⟨nofun, rfl, rfl, rfl, rfl, rfl⟩
    | inferred => exact .inl ⟨hstate, rfl, rfl, rfl, rfl, rfl⟩
  | recovered lapsed => have := lapsed.1; grind
  | claimed state => unfold Job.LeaseOver at state; grind
  | succeeded => exact .inl ⟨nofun, rfl, rfl, rfl, rfl, rfl⟩

/-- The event reads the row of a job that awaits its outcome. -/
def ReadsAwaiting (row : Job) (s : State) (e : Event) : Prop :=
  (∃ limit, e.call = .readSwaps limit) ∧ row ∈ s.db.jobs ∧
    (row.state = .providerApplied ∨ row.state = .reconciliationRequired)

/-- The event reads the evidence for the row, and finds the old assignment as it was. -/
def SeesUnchanged (row : Job) (old : Assignment) (s : State) (e : Event) : Prop :=
  e.call = .proveUnchanged row ∧ ShownUnchanged s.db row old

/-- The row was read, and the evidence for it after that. -/
def ReadThenSeen (s₀ : State) (h : List (Event × State)) (row : Job) (old : Assignment) : Prop :=
  ∃ later earlier, h = later ++ earlier ∧ History.Sometime (ReadsAwaiting row) s₀ earlier ∧
    History.Sometime (SeesUnchanged row old) (History.current s₀ earlier) later

/-- What the sweeps hold was true when they read it. -/
structure Reads (s₀ : State) (h : List (Event × State)) (s : State) : Prop where
  rows : ∀ row ∈ s.rows, History.Sometime (ReadsAwaiting row) s₀ h
  /-- The row of the job is still about the mutation. -/
  current : ∀ row ∈ s.rows, ¬ History.Sometime (AdminRetries row.id) s₀ h →
    ∃ j ∈ s.db.jobs, j.id = row.id ∧ j.Fenced ∧ j.state ≠ .mutating ∧ row.SameMutation j
  unchanged : ∀ p ∈ s.unchanged, p.1 ∈ s.rows ∧ ReadThenSeen s₀ h p.1 p.2

theorem ReadThenSeen.later {s₀ : State} {h : List (Event × State)} {row : Job} {old : Assignment}
    (hseen : ReadThenSeen s₀ h row old) (x : Event × State) :
    ReadThenSeen s₀ (x :: h) row old := by
  obtain ⟨later, earlier, rfl, hread, hsees⟩ := hseen
  exact ⟨x :: later, earlier, rfl, hread, .inr hsees⟩

theorem Reads.start (db : Db) : Reads { db } [] { db } where
  rows := by simp
  current := by simp
  unchanged := by simp

theorem step_reads {s s' : State} {e : Event} (hstep : Step s e s') :
    s.Holds e.call ∧ s'.rows = (s.read e).rows ∧ s'.unchanged = (s.read e).unchanged := by
  unfold Step State.next at hstep
  split at hstep
  · rename_i hholds
    dsimp only at hstep
    split at hstep <;> obtain rfl := Option.some.inj hstep <;> exact ⟨hholds, rfl, rfl⟩
  · cases hstep

theorem State.read_rows {s : State} {e : Event} {row : Job} (h : row ∈ (s.read e).rows) :
    row ∈ s.rows ∨ ReadsAwaiting row s e := by
  unfold State.read at h
  split at h
  · rename_i limit hcall
    exact (List.mem_append.mp h).imp_right fun h => ⟨⟨limit, hcall⟩, awaitingJobs_mem h⟩
  all_goals exact .inl h

theorem State.read_unchanged {s : State} {e : Event} {p : Job × Assignment}
    (hholds : s.Holds e.call) (h : p ∈ (s.read e).unchanged) :
    p ∈ s.unchanged ∨ (p.1 ∈ s.rows ∧ SeesUnchanged p.1 p.2 s e) := by
  unfold State.read at h
  split at h
  · exact .inl h
  · rename_i row hcall
    refine (List.mem_append.mp h).imp_right fun h => ?_
    obtain ⟨old, hold, rfl⟩ := Option.map_eq_some_iff.mp (Option.mem_toList.mp h)
    refine ⟨?_, hcall, unchangedEvidence_shown hold⟩
    rwa [hcall] at hholds
  all_goals exact .inl h

theorem State.rows_read {s : State} (e : Event) {row : Job} (h : row ∈ s.rows) :
    row ∈ (s.read e).rows := by
  unfold State.read
  split
  · exact List.mem_append_left _ h
  all_goals exact h

theorem Reads.step {s₀ s s' : State} {h : List (Event × State)} {e : Event}
    (hs : s.db.Constrained) (hrun : History.Run Step s₀ h s) (hreads : Reads s₀ h s)
    (hstep : Step s e s') : Reads s₀ ((e, s') :: h) s' := by
  obtain ⟨hholds, hrows, hunchanged⟩ := step_reads hstep
  refine ⟨fun row hrow => ?_, fun row hrow hretry => ?_, fun p hp => ?_⟩
  · rw [hrows] at hrow
    rcases State.read_rows hrow with hrow | hrow
    · exact .inr (hreads.rows row hrow)
    · exact .now hrun hrow
  · obtain ⟨hnot, hbefore⟩ := not_or.mp hretry
    rw [hrun.current_eq] at hnot
    obtain ⟨j, hj, hid, hfenced, hstate, hsame⟩ : ∃ j ∈ s.db.jobs, j.id = row.id ∧ j.Fenced ∧
        j.state ≠ .mutating ∧ row.SameMutation j := by
      rw [hrows] at hrow
      rcases State.read_rows hrow with hrow | ⟨-, hrow, hstate⟩
      · exact hreads.current row hrow hbefore
      · refine ⟨row, hrow, rfl, .inl (.inr hstate), ?_, rfl, rfl, rfl, rfl, rfl⟩
        rcases hstate with hstate | hstate <;> rw [hstate] <;> decide
    obtain ⟨j', hj', hfate⟩ := step_fate hs hstep hj
    have hadmin : ¬ ((e.call = .retry j.id ∨ e.call = .requestManual j.id) ∧ j.state = .blocked ∧
        j.reason = .reconciledNoProviderChange) :=
      fun hadmin => hnot ⟨hid ▸ hadmin.1, j, hj, hid, hadmin.2⟩
    obtain ⟨hstate', hsame'⟩ := (hfate.sameMutation hfenced hstate).resolve_right hadmin
    exact ⟨j', hj', hfate.same_id.trans hid, (hfate.fenced hfenced).resolve_right hadmin, hstate',
      hsame.trans hsame'⟩
  · rw [hunchanged] at hp
    rw [hrows]
    rcases State.read_unchanged hholds hp with hp | ⟨hrow, hsees⟩
    · obtain ⟨hrow, hseen⟩ := hreads.unchanged p hp
      exact ⟨State.rows_read e hrow, hseen.later _⟩
    · refine ⟨State.rows_read e hrow, [(e, s')], h, rfl, hreads.rows p.1 hrow, .inl ?_⟩
      exact hrun.current_eq.symm ▸ hsees

/-- The job was closed without a provider change. -/
def Job.ClosedUnchanged (j : Job) : Prop :=
  j.state = .blocked ∧ j.reason = .reconciledNoProviderChange

instance (j : Job) : Decidable j.ClosedUnchanged := inferInstanceAs (Decidable (_ ∧ _))

/-- Only a sweep closes a job without a provider change. -/
theorem Fate.closesUnchanged {db db' : Db} {e : Event} {j j' : Job} (h : Fate db db' e j j')
    (hopen : ¬ j.ClosedUnchanged) (hclosed : j'.ClosedUnchanged) :
    ∃ row old, e.call = .closeUnchanged row old ∧ row.id = j.id := by
  obtain ⟨hstate', hreason'⟩ := hclosed
  cases h with
  | kept => exact absurd ⟨hstate', hreason'⟩ hopen
  | moved move =>
    cases move with
    | dropped _ _ reason => exact absurd hreason' reason
    | unchanged row old call id => exact ⟨row, old, call, id⟩
    | inferred _ _ _ _ state => exact absurd (state.symm.trans hstate') (by decide)
    | _ => cases hstate'
  | recovered _ state' => rw [state'] at hstate'; cases hstate'
  | claimed _ state' => rw [state'] at hstate'; cases hstate'
  | succeeded => cases hstate'

/-- The event closes the job for a sweep, which had read its row while the job awaited its outcome,
and had found the old assignment as it was after that. What it had read is about the mutation of the
job, unless the administrator took the job up again after an earlier closing of this kind. -/
def SweptUnchanged (s₀ : State) (h : List (Event × State)) (e : Event) (j : Job) : Prop :=
  ∃ row old, e.call = .closeUnchanged row old ∧ row.id = j.id ∧ ReadThenSeen s₀ h row old ∧
    (¬ History.Sometime (AdminRetries j.id) s₀ h → row.SameMutation j)

theorem Reads.swept {s₀ s s' : State} {h : List (Event × State)} {e : Event} (hreads : Reads s₀ h s)
    (hs : s.db.Constrained) (hstep : Step s e s') {j j' : Job} (hj : j ∈ s.db.jobs)
    (hj' : j' ∈ s'.db.jobs) (hid : j'.id = j.id) (hopen : ¬ j.ClosedUnchanged)
    (hclosed : j'.ClosedUnchanged) : SweptUnchanged s₀ h e j := by
  have hfate := (step_change hs hstep).fate hs hj hj' hid
  obtain ⟨row, old, hcall, hrow⟩ := hfate.closesUnchanged hopen hclosed
  obtain ⟨hholds, _⟩ := step_reads hstep
  rw [hcall] at hholds
  obtain ⟨hmem, hseen⟩ := hreads.unchanged _ hholds
  refine ⟨row, old, hcall, hrow, hseen, fun hretry => ?_⟩
  obtain ⟨r, hr, hrid, _, _, hsame⟩ := hreads.current row hmem (hrow.symm ▸ hretry)
  obtain rfl := hs.jobIds.eq hr hj (hrid.trans hrow)
  exact hsame

/-! ## Calls that raise -/

/-- With both indexes in place, the schema only repairs replacements. -/
theorem ensureProxiwareSwapSchema_eq {db : Db} (hunique : JobsUnique db.jobs) (wall : Timestamp) :
    ensureProxiwareSwapSchema db wall =
      db.updateAssignments (fun a => a.AwaitsRepair db) fun a => a.repaired wall := by
  unfold ensureProxiwareSwapSchema
  split
  · simp only [migrateJobs_eq hunique]
  · rename_i hnone
    have hsame : Table.update (fun a => a.AwaitsRepair db) (fun a => a.repaired wall)
        db.assignments = db.assignments :=
      Table.update_eq_self fun a ha hawaits => hnone ⟨a, ha, hawaits⟩
    unfold Db.updateAssignments
    rw [hsame]

theorem serve_raised {db : Db} (hunique : JobsUnique db.jobs) {wall : Timestamp}
    {service : Db → Tx Db} (h : (db.serve wall service).2.isSome) :
    (db.serve wall service).1 =
      db.updateAssignments (fun a => a.AwaitsRepair db) fun a => a.repaired wall := by
  rw [← ensureProxiwareSwapSchema_eq hunique]
  unfold Db.serve at h ⊢
  dsimp only at h ⊢
  split at h
  · cases h
  · rfl

/-! ## Outcomes -/

/-- In every reachable state a job has succeeded when its one mapping is there; then the row of the
old assignment is gone. A success is closed on a replacement that was synced and observed after the
mutation, and stays. A job is closed without a provider change on what a sweep has seen of the old
assignment. A call of `mark_swap_success` that raises changes nothing, but the schema that it has
ensured before may have repaired earlier replacements. -/
theorem swap_outcomes_evidenced {db₀ : Db} {s : State} {h : List (Event × State)}
    (fresh : db₀.Fresh) (run : History.Run Step { db := db₀ } h s) :
    (∀ j ∈ s.db.jobs, Lineage s.db j) ∧
    (∀ e s', Step s e s' →
      (∀ j ∈ s.db.jobs, j.state = .success → j ∈ s'.db.jobs) ∧
      ∀ j ∈ s.db.jobs, ∀ j' ∈ s'.db.jobs, j'.id = j.id →
        (j.state ≠ .success → j'.state = .success →
          ∃ m, s'.db.mappings = s.db.mappings ++ [m] ∧ m.swapJobId = j.id ∧
            ClosedOn s.db j m) ∧
        (¬ j.ClosedUnchanged → j'.ClosedUnchanged → SweptUnchanged { db := db₀ } h e j)) ∧
    ∀ jobId oldExternal newExternal newAddress token current wall profile,
      let left := s.db.serve wall fun db => markSwapSuccess db jobId oldExternal newExternal
        newAddress token current profile
      left.2.isSome →
        left.1 =
          s.db.updateAssignments (fun a => a.AwaitsRepair s.db) fun a => a.repaired wall := by
  have hall : s.db.Constrained ∧ Lineages s.db ∧ Reads { db := db₀ } h s := by
    refine run.invariant (I := fun h s => s.db.Constrained ∧ Lineages s.db ∧
      Reads { db := db₀ } h s) ⟨fresh.toConstrained, ⟨?_, ?_⟩, .start db₀⟩ ?_
    · simp [fresh.jobs]
    · simp [fresh.mappings]
    · intro h t e t' hrun ⟨ht, hlineages, hreads⟩ hstep
      exact ⟨step_constrained ht hstep, (step_change ht hstep).lineages ht hlineages,
        hreads.step ht hrun hstep⟩
  obtain ⟨hs, hlineages, hreads⟩ := hall
  refine ⟨hlineages.jobs, fun e s' hstep => ⟨fun j hj hstate => ?_, fun j hj j' hj' hid =>
    ⟨fun hstate hstate' => ?_, fun hopen hclosed => ?_⟩⟩, fun _ _ _ _ _ _ wall _ hraised => ?_⟩
  · obtain ⟨j', hj', hfate⟩ := step_fate hs hstep hj
    exact hfate.of_success hstate ▸ hj'
  · exact (step_change hs hstep).closedOn hs hj hj' hid hstate hstate'
  · exact hreads.swept hs hstep hj hj' hid hopen hclosed
  · exact serve_raised hs.jobsUnique hraised

/-- A whole swap. -/
def swapped : List Event := swapStarts ++ swapEnds

theorem swap_outcomes_evidenced_swapped :
    (Db.after {} swapped).db.jobs.map Job.state = [.success] ∧
      ∀ j ∈ (Db.after {} swapped).db.jobs, Lineage (Db.after {} swapped).db j := by
  have hrun : History.Run Step { db := {} } (Db.history {} swapped) (Db.after {} swapped) :=
    History.run_replay_accepted (by decide +kernel)
  exact ⟨by decide +kernel, (swap_outcomes_evidenced empty_fresh hrun).1⟩

open EarnProxy.Swap.Scenario in
/-- After the swap the provider reports the replacement under another subscription. -/
def movedAway : List Event :=
  swapped ++ [second 24 (.syncSubscription ({ id := some (.number 2) }, [risky "new" "192.0.2.2"]))]

open EarnProxy.Swap.Scenario in
/-- After the swap the provider reports the replacement as pending. -/
def pendingAgain : List Event :=
  swapped ++ [second 24 (subscription
    [{ id := some (.text "new"), host := "192.0.2.2", port := some 8000
       status := some "pending" }])]

open EarnProxy.Swap.Scenario in
/-- The old assignment is paused, so that only the other one must be covered by the dashboard; what
the dashboard shows of the old one is from the start of the mutation. -/
def pausedReads : List Event :=
  swapStarts ++
    [second 16 (.providerApplied 1 "old" (some "new") none (some "token")),
      second 17 (.reconciliationRequired 1 "provider_timeout" (some "token")),
      second 18 (subscription
        [{ risky "old" "192.0.2.1" with status := some "paused" }, risky "other" "192.0.2.3"]),
      second 19 (.observe
        { assignmentId := "d-1", subscriptionId := "1", address := "192.0.2.1:8000"
          eligible := some true, connections := some 3, observedAt := seconds 15 } 900),
      shown "d-3" "192.0.2.3:8000" 20, second 21 (.readSwaps 20)]

open EarnProxy.Swap.Scenario in
def pausedProves : List Event :=
  pausedReads ++ (Db.after {} pausedReads).rows.map fun row => second 22 (.proveUnchanged row)

/-- The dashboard showed the old assignment of the job after its mutation. -/
def ShownLater (db : Db) (j : Job) : Prop :=
  ∃ old ∈ db.assignments, old.externalId = j.frozenOld ∧
    ∃ observedAt ∈ old.dashboardObservedAt, ∃ mutationTime ∈ j.mutationTime,
      mutationTime < observedAt

instance (db : Db) (j : Job) : Decidable (ShownLater db j) :=
  inferInstanceAs (Decidable (∃ old ∈ db.assignments, _))

open EarnProxy.Swap.Scenario in
/-- A replacement may leave the subscription after the swap. An old assignment that is not in use is
taken as unchanged on what the dashboard showed before the mutation. A call that raises may repair
an earlier replacement. -/
theorem swap_outcomes_not_exact :
    (∃ h s, History.Run Step { db := {} } h s ∧ ∃ j ∈ s.db.jobs, j.state = .success ∧
      ∃ m ∈ s.db.mappingsOf j.id, ∀ a ∈ s.db.assignments,
        a.externalId = m.newAssignmentExternalId → a.subscriptionId ≠ j.subscriptionId) ∧
    (∃ h s e s', History.Run Step { db := {} } h s ∧ Step s e s' ∧ ∃ j ∈ s.db.jobs,
      ∃ j' ∈ s'.db.jobs, j'.id = j.id ∧ ¬ j.ClosedUnchanged ∧ j'.ClosedUnchanged ∧
        ∀ x ∈ h, ¬ ShownLater x.2.db j) ∧
    ∃ h s, History.Run Step { db := {} } h s ∧
      let left := s.db.serve (seconds 25) fun db =>
        markSwapSuccess db 1 "" none none none (seconds 25) .web
      left.2.isSome ∧ left.1.assignments ≠ s.db.assignments := by
  refine ⟨⟨Db.history {} movedAway, _, History.run_replay_accepted (by decide +kernel), ?_⟩, ?_,
    ⟨Db.history {} pendingAgain, _, History.run_replay_accepted (by decide +kernel), ?_⟩⟩
  · decide +kernel
  · obtain ⟨p, hp, s', hs', hclosed⟩ : ∃ p ∈ (Db.after {} pausedProves).unchanged,
        ∃ s' ∈ (Db.after {} pausedProves).next (second 23 (.closeUnchanged p.1 p.2)),
          ∃ j ∈ (Db.after {} pausedProves).db.jobs, ∃ j' ∈ s'.db.jobs, j'.id = j.id ∧
            ¬ j.ClosedUnchanged ∧ j'.ClosedUnchanged ∧
            ∀ x ∈ Db.history {} pausedProves, ¬ ShownLater x.2.db j := by
      decide +kernel
    exact ⟨Db.history {} pausedProves, _, _, s', History.run_replay_accepted (by decide +kernel),
      hs', hclosed⟩
  · decide +kernel

end EarnProxy.Swap

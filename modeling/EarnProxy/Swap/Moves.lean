import EarnProxy.Library.Transaction
import EarnProxy.Swap.System

/-!
# What one event can do

`Change` says it for the tables of a swap: an event leaves the jobs alone, moves one of them, claims
one, queues new ones or closes one with its mapping. `Move` lists the ways in which one job can
move, with the guards that the service has checked. Every invariant of the swap jobs follows from
`transact_change`.
-/

namespace EarnProxy.Swap

/-! ## The inventory -/

/-- The row keeps its ids. -/
def Assignment.Same (a a' : Assignment) : Prop := a'.id = a.id ∧ a'.externalId = a.externalId

/-- A row that a sync adds. -/
def Assignment.AddedTo (db : Db) (a : Assignment) : Prop :=
  db.assignmentSequence < a.id ∧ Text.strip a.externalId = a.externalId ∧ a.externalId ≠ ""

/-- The row keeps its ids and its quota. -/
def Subscription.Same (s s' : Subscription) : Prop :=
  s'.id = s.id ∧ s'.externalId = s.externalId ∧ s'.swapQuota = s.swapQuota ∧
    s'.swapUsed = s.swapUsed

/-- A payload can name the row. -/
def Subscription.Reported (s : Subscription) : Prop :=
  ∃ raw : RawSubscription, raw.externalId? = some s.externalId

/-- The official ids that a sync writes. -/
structure Db.Official (db : Db) : Prop where
  subscriptions : ∀ s ∈ db.subscriptions, s.Reported
  assignments : ∀ a ∈ db.assignments, Text.strip a.externalId = a.externalId ∧ a.externalId ≠ ""

/-- Rows of the inventory stay, under their ids, and new ones come under new ids. -/
structure Inventory (db db' : Db) : Prop where
  assignments : Table.Grows Assignment.Same (Assignment.AddedTo db) db.assignments db'.assignments
  sequence : db.assignmentSequence ≤ db'.assignmentSequence
  subscriptions :
    Table.Grows Subscription.Same Subscription.Reported db.subscriptions db'.subscriptions
  keyed : db.Keyed → db'.Keyed

namespace Inventory

variable {db db' db'' : Db}

theorem of_eq (hassignments : db'.assignments = db.assignments)
    (hsequence : db'.assignmentSequence = db.assignmentSequence)
    (hsubscriptions : db'.subscriptions = db.subscriptions) : Inventory db db' where
  assignments := by
    rw [hassignments]
    exact .refl (fun _ => ⟨rfl, rfl⟩) _
  sequence := hsequence.ge
  subscriptions := by
    rw [hsubscriptions]
    exact .refl (fun _ => ⟨rfl, rfl, rfl, rfl⟩) _
  keyed := by
    intro h
    exact ⟨hsubscriptions ▸ h.subscriptionIds, hsubscriptions ▸ h.subscriptionExternalIds,
      hassignments ▸ h.assignmentIds, hassignments ▸ h.assignmentExternalIds,
      hassignments ▸ hsequence ▸ h.assignmentSequence⟩

theorem refl (db : Db) : Inventory db db := of_eq rfl rfl rfl

theorem trans (h : Inventory db db') (h' : Inventory db' db'') : Inventory db db'' where
  assignments := by
    have hlater : Table.Grows Assignment.Same (Assignment.AddedTo db) db'.assignments
        db''.assignments :=
      h'.assignments.mono (fun _ _ hmove => hmove) fun a ha => ⟨h.sequence.trans_lt ha.1, ha.2⟩
    refine h.assignments.trans (fun a b c hab hbc => ?_) (fun a b ha hab => ?_) hlater
    · exact ⟨hbc.1.trans hab.1, hbc.2.trans hab.2⟩
    · unfold Assignment.AddedTo
      rw [hab.1, hab.2]
      exact ha
  sequence := h.sequence.trans h'.sequence
  subscriptions := by
    refine h.subscriptions.trans (fun a b c hab hbc => ?_) (fun a b ha hab => ?_) h'.subscriptions
    · exact ⟨hbc.1.trans hab.1, hbc.2.1.trans hab.2.1, hbc.2.2.1.trans hab.2.2.1,
        hbc.2.2.2.trans hab.2.2.2⟩
    · unfold Subscription.Reported
      rw [hab.2.1]
      exact ha
  keyed := fun hk => h'.keyed (h.keyed hk)

theorem updateAssignments (db : Db) {p : Assignment → Prop} [DecidablePred p]
    {f : Assignment → Assignment} (hf : ∀ a, Assignment.Same a (f a)) :
    Inventory db (db.updateAssignments p f) where
  assignments := .of_update (fun _ => ⟨rfl, rfl⟩) (fun a _ => hf a) _
  sequence := le_rfl
  subscriptions := .refl (fun _ => ⟨rfl, rfl, rfl, rfl⟩) _
  keyed := by
    intro h
    refine ⟨h.subscriptionIds, h.subscriptionExternalIds, ?_, ?_, fun a ha => ?_⟩
    · exact h.assignmentIds.map fun a _ => by split <;> simp [(hf a).1]
    · exact h.assignmentExternalIds.map fun a _ => by split <;> simp [(hf a).2]
    · obtain ⟨b, hb, rfl⟩ := Table.mem_update.mp ha
      have hid : (if p b then f b else b).id = b.id := by split <;> simp [(hf b).1]
      exact hid ▸ h.assignmentSequence b hb

theorem updateSubscriptions (db : Db) {p : Subscription → Prop} [DecidablePred p]
    {f : Subscription → Subscription} (hf : ∀ s, Subscription.Same s (f s)) :
    Inventory db { db with subscriptions := Table.update p f db.subscriptions } where
  assignments := .refl (fun _ => ⟨rfl, rfl⟩) _
  sequence := le_rfl
  subscriptions := .of_update (fun _ => ⟨rfl, rfl, rfl, rfl⟩) (fun s _ => hf s) _
  keyed := by
    intro h
    refine ⟨?_, ?_, h.assignmentIds, h.assignmentExternalIds, h.assignmentSequence⟩
    · exact h.subscriptionIds.map fun s _ => by split <;> simp [(hf s).1]
    · exact h.subscriptionExternalIds.map fun s _ => by split <;> simp [(hf s).2.1]

theorem updateSubscription (db : Db) (i : Nat) {f : Subscription → Subscription}
    (hf : ∀ s, Subscription.Same s (f s)) : Inventory db (db.updateSubscription i f) :=
  updateSubscriptions db hf

theorem official (h : Inventory db db') (hofficial : db.Official) : db'.Official where
  subscriptions := by
    obtain ⟨ψ, news, hrows, hψ, hnews⟩ := h.subscriptions
    intro s' hs'
    rw [hrows] at hs'
    rcases List.mem_append.mp hs' with hs' | hs'
    · obtain ⟨s, hs, rfl⟩ := List.mem_map.mp hs'
      unfold Subscription.Reported
      rw [(hψ s hs).2.1]
      exact hofficial.subscriptions s hs
    · exact hnews s' hs'
  assignments := by
    obtain ⟨ψ, news, hrows, hψ, hnews⟩ := h.assignments
    intro a' ha'
    rw [hrows] at ha'
    rcases List.mem_append.mp ha' with ha' | ha'
    · obtain ⟨a, ha, rfl⟩ := List.mem_map.mp ha'
      rw [(hψ a ha).2]
      exact hofficial.assignments a ha
    · exact (hnews a' ha').2

end Inventory

/-! ## Moves -/

/-- The row is that of the same job. -/
structure Job.Same (j j' : Job) : Prop where
  id : j'.id = j.id
  subscriptionId : j'.subscriptionId = j.subscriptionId
  oldAssignmentId : j'.oldAssignmentId = j.oldAssignmentId

/-- What the fence of a mutation was acquired on: the job `j` runs under an unexpired claim, no
sibling is in flight, and the quota has room. -/
structure Fences (db : Db) (e : Event) (j : Job) (a : Assignment) (s : Subscription) : Prop where
  call : ∃ allowManual token, e.call = .revalidate j.id allowManual (some token) true ∧
    j.claimToken = some token ∧ Text.strip token = token ∧ token ≠ ""
  state : j.state = .running
  lease : ∃ until_ ∈ j.claimedUntil, e.now < until_
  sibling : ¬ db.SiblingInFlight j
  subscription : s ∈ db.subscriptions ∧ s.id = j.subscriptionId ∧ Text.strip s.externalId ≠ ""
  quota : quotaExhausted db s (some j.id) = false
  assignment : a ∈ db.assignments ∧ j.oldAssignmentId = some a.id ∧ a.subscriptionId = s.id ∧
    Text.strip a.externalId ≠ "" ∧ present a.dashboardAssignmentId

/-- The row that `mark_provider_applied` leaves of a job. -/
def Job.providerApplied (j : Job) (oldExternal newExternal : String) (endpoint : Option Endpoint)
    (current : Timestamp) : Job :=
  { j with
    state := .providerApplied, reason := .providerApplied, errorCode := ""
    providerAppliedAt := some current, mutationOldAssignmentExternalId := some oldExternal
    mutationNewAssignmentExternalId := if newExternal = "" then none else some newExternal
    mutationNewAssignmentAddress := endpoint, claimedUntil := none, updatedAt := current }

/-- What `mark_provider_applied` has checked of its arguments. -/
structure Applies (db : Db) (j : Job) (oldExternal newExternal : String)
    (endpoint : Option Endpoint) : Prop where
  old : ∃ a ∈ db.assignments, a.externalId = oldExternal ∧ a.subscriptionId = j.subscriptionId ∧
    ∀ i ∈ j.oldAssignmentId, a.id = i
  frozen : j.frozenOld ≠ "" → j.frozenOld = oldExternal
  stripped : Text.strip oldExternal = oldExternal ∧ Text.strip newExternal = newExternal
  named : oldExternal ≠ "" ∧ (newExternal ≠ "" ∨ endpoint.isSome) ∧ oldExternal ≠ newExternal
  parsed : ∀ x ∈ endpoint, ∃ text, dashboardAddressEndpoint text = some x

/-- The ways in which an event moves one job. -/
inductive Move (db : Db) (e : Event) (j : Job) : Job → Prop where
  | dropped {j' : Job} (state : j.state.PreMutation)
      (state' : j'.state = .pending ∨ j'.state = .blocked ∨ j'.state = .canceled)
      (reason : j'.reason ≠ .reconciledNoProviderChange) (same : j.Same j') : Move db e j j'
  | restarted (reason : JobReason)
      (call : e.call = .retry j.id ∨ e.call = .requestManual j.id)
      (state : j.state ∈ [.pending, .failed, .blocked, .canceled]) :
      Move db e j (j.restarted reason e.now)
  | mutating (a : Assignment) (s : Subscription) (fences : Fences db e j a s) :
      Move db e j (j.mutatingOn a s e.now)
  | applied (oldExternal newExternal : String) (endpoint : Option Endpoint)
      (state : j.state = .mutating) (applies : Applies db j oldExternal newExternal endpoint) :
      Move db e j (j.providerApplied oldExternal newExternal endpoint e.now)
  | uncertain (code : String) (state : j.state.Mutation) :
      Move db e j { j with
        state := .reconciliationRequired, reason := .reconciliationRequired, errorCode := code
        reconciliationRequiredAt := some e.now, claimedUntil := none, updatedAt := e.now }
  | unchanged (row : Job) (old : Assignment) (call : e.call = .closeUnchanged row old)
      (id : row.id = j.id) (state : j.state = .reconciliationRequired) :
      Move db e j { j with
        state := .blocked, reason := .reconciledNoProviderChange, claimToken := none
        claimedUntil := none, blockedAt := some e.now, updatedAt := e.now }
  | inferred (row : Job) (newExternal : String) (call : e.call = .recordReplacement row newExternal)
      (id : row.id = j.id) (state : j.state = .reconciliationRequired)
      (unnamed : j.mutationNewAssignmentExternalId = none ∧ j.mutationNewAssignmentAddress = none) :
      Move db e j
        { j with mutationNewAssignmentExternalId := some newExternal, updatedAt := e.now }

theorem Move.same {db : Db} {e : Event} {j j' : Job} (h : Move db e j j') : j.Same j' := by
  cases h with
  | dropped _ _ _ same => exact same
  | _ => exact ⟨rfl, rfl, rfl⟩

/-- What a swap was closed on: the job `j` was carried out, and the evidence on the replacement is
later than the mutation. -/
structure Replaces (db : Db) (j : Job) (old new : Assignment) (newExternal : String)
    (mutationTime : Timestamp) : Prop where
  state : j.state = .providerApplied ∨ j.state = .reconciliationRequired
  oldRow : old ∈ db.assignments ∧ old.externalId = j.frozenOld ∧
    old.subscriptionId = j.subscriptionId ∧ ∀ i ∈ j.oldAssignmentId, old.id = i
  newRow : new ∈ db.assignments ∧ new.subscriptionId = j.subscriptionId ∧
    Text.strip new.externalId = newExternal
  changed : newExternal ≠ "" ∧ newExternal ≠ j.frozenOld
  time : j.mutationTime = some mutationTime
  synced : ∃ syncedAt ∈ new.lastSeenAt, mutationTime < syncedAt
  observed : ∃ observedAt ∈ new.dashboardObservedAt, mutationTime < observedAt
  unmapped : ∀ m ∈ db.mappings, m.swapJobId ≠ j.id

/-- The row that `mark_swap_success` leaves of a job. -/
def Job.succeeded (j : Job) (old new : Assignment) (current : Timestamp) : Job :=
  { j with
    state := .success, reason := .swapped, errorCode := "", oldAssignmentId := some old.id
    newAssignmentId := some new.id, claimToken := none, claimedUntil := none, updatedAt := current }

/-- The rows after the recovery of expired claims. -/
def recovered (jobs : List Job) (current : Timestamp) : List Job :=
  Table.update (fun j => j.LeaseOver current) (fun j => j.released current) jobs

/-- What an event does to the tables. -/
inductive Change (db : Db) (e : Event) (db' : Db) : Prop where
  | quiet (jobs : db'.jobs = db.jobs) (mappings : db'.mappings = db.mappings)
      (inventory : Inventory db db') : Change db e db'
  | moved {j j' : Job} (mem : j ∈ db.jobs) (move : Move db e j j')
      (jobs : db'.jobs = Table.update (fun r => r.id = j.id) (fun _ => j') db.jobs)
      (unique : JobsUnique db'.jobs) (mappings : db'.mappings = db.mappings)
      (inventory : Inventory db db') : Change db e db'
  | claimed {j j' : Job} (mem : j ∈ recovered db.jobs e.now) (state : j.state = .pending)
      (sibling : ¬ { db with jobs := recovered db.jobs e.now }.SiblingInFlight j)
      (state' : j'.state = .running) (same : j.Same j')
      (jobs : db'.jobs =
        Table.update (fun r => r.id = j.id) (fun _ => j') (recovered db.jobs e.now))
      (unique : JobsUnique db'.jobs) (mappings : db'.mappings = db.mappings)
      (inventory : Inventory db db') : Change db e db'
  | recovered (jobs : db'.jobs = recovered db.jobs e.now) (unique : JobsUnique db'.jobs)
      (mappings : db'.mappings = db.mappings) (inventory : Inventory db db') : Change db e db'
  | queued (news : List Job) (jobs : db'.jobs = db.jobs ++ news)
      (pending : ∀ j ∈ news, j.state = .pending) (ids : Table.Keyed Job.id db'.jobs)
      (unique : JobsUnique db'.jobs) (mappings : db'.mappings = db.mappings)
      (inventory : Inventory db db') : Change db e db'
  | succeeded {j : Job} {old new : Assignment} {newExternal : String} {mutationTime : Timestamp}
      {readyAt : Timestamp} (mem : j ∈ db.jobs)
      (replaces : Replaces db j old new newExternal mutationTime)
      (jobs : db'.jobs =
        Table.update (fun r => r.id = j.id) (fun _ => j.succeeded old new e.now) db.jobs)
      (unique : JobsUnique db'.jobs)
      (mappings : db'.mappings = db.mappings ++ [{
        swapJobId := j.id, oldAssignmentExternalId := j.frozenOld
        newAssignmentExternalId := newExternal, successAt := e.now }])
      (assignments : db'.assignments =
        (Table.update (fun a => a.id = new.id) (fun a => a.replacing readyAt e.now)
          db.assignments).filter fun a => a.id ≠ old.id)
      (sequence : db'.assignmentSequence = db.assignmentSequence)
      (subscriptions : db'.subscriptions = Table.update (fun s => s.id = j.subscriptionId)
        (fun s => { s with swapUsed := s.swapUsed + 1, updatedAt := e.now }) db.subscriptions) :
      Change db e db'

section Updates

variable {db db' : Db} {e : Event} {p : Job → Prop} [DecidablePred p] {f : Job → Job}

theorem writeJobs_ok {jobs : List Job} (h : db.writeJobs jobs = .ok db') :
    db' = { db with jobs := jobs } ∧ JobsUnique jobs := by
  unfold Db.writeJobs at h
  split at h
  · exact ⟨(Except.ok.inj h).symm, ‹_›⟩
  · cases h

theorem updateJobs_ok (h : db.updateJobs p f = .ok db') :
    db' = { db with jobs := Table.update p f db.jobs } ∧ JobsUnique (Table.update p f db.jobs) :=
  writeJobs_ok h

theorem updateJobsOr_ok {error : SwapError} (h : db.updateJobsOr p f error = .ok db') :
    (∃ j ∈ db.jobs, p j) ∧ db' = { db with jobs := Table.update p f db.jobs } ∧
      JobsUnique (Table.update p f db.jobs) := by
  unfold Db.updateJobsOr at h
  split at h
  · exact ⟨‹_›, updateJobs_ok h⟩
  · cases h

/-- A statement on one job moves it, or finds nothing to do. -/
theorem Change.of_update (hk : Table.Keyed Job.id db.jobs) {i : Nat} (hp : ∀ r, p r → r.id = i)
    (hmove : ∀ r ∈ db.jobs, p r → Move db e r (f r))
    (hjobs : db'.jobs = Table.update p f db.jobs) (hunique : JobsUnique (Table.update p f db.jobs))
    (hmappings : db'.mappings = db.mappings) (hinventory : Inventory db db') : Change db e db' := by
  by_cases hany : ∃ j ∈ db.jobs, p j
  · obtain ⟨j, hj, hpj⟩ := hany
    have hone := hk.update_row (f := f) hj hpj fun r hpr => (hp r hpr).trans (hp j hpj).symm
    exact .moved hj (hmove j hj hpj) (hjobs.trans hone) (hjobs ▸ hunique) hmappings hinventory
  · have hsame : Table.update p f db.jobs = db.jobs :=
      Table.update_eq_self fun r hr hpr => hany ⟨r, hr, hpr⟩
    exact .quiet (hjobs.trans hsame) hmappings hinventory

theorem job?_mem {i : Nat} {j : Job} (h : db.job? i = some j) : j ∈ db.jobs ∧ j.id = i :=
  ⟨Table.mem_of_lookup h, Table.key_of_lookup h⟩

end Updates

/-! ## The schema -/

theorem keepStrongest_foldl {wall : Timestamp} (visits : List (Nat × Job)) (jobs : List Job) :
    ∀ kept : List (Nat × Nat), (visits.map Prod.fst).Nodup →
      (∀ v ∈ visits, kept.lookup v.1 = none) →
      (visits.foldl (keepStrongest wall) (jobs, kept)).1 = jobs := by
  induction visits with
  | nil => intros; rfl
  | cons v visits ih =>
    intro kept hnodup hkept
    obtain ⟨hv, hrest⟩ := List.nodup_cons.mp hnodup
    have hvisit : keepStrongest wall (jobs, kept) v = (jobs, (v.1, v.2.id) :: kept) := by
      simp [keepStrongest, hkept v]
    rw [List.foldl_cons, hvisit]
    refine ih _ hrest fun w hw => ?_
    have hne : w.1 ≠ v.1 := fun heq => hv (heq ▸ List.mem_map_of_mem hw)
    rw [List.lookup_cons, beq_eq_false_iff_ne.mpr hne]
    exact hkept w (List.mem_cons_of_mem _ hw)

theorem conflictRows_keys (states : JobState → Prop) [DecidablePred states]
    (key : Job → Option Nat) (jobs : List Job) :
    ((conflictRows states key jobs).map Prod.fst).Perm
      ((jobs.filter fun j => states j.state).filterMap key) := by
  unfold conflictRows
  refine ((List.perm_insertionSort _ _).map Prod.fst).trans (.of_eq ?_)
  rw [List.map_filterMap]
  congr 1
  funext j
  cases key j <;> rfl

/-- Where both indexes hold, the migration has nothing to do. -/
theorem migrateJobs_eq {jobs : List Job} (h : JobsUnique jobs) (wall : Timestamp) :
    migrateJobs jobs wall = jobs := by
  have hactive : ((conflictRows JobState.Active Job.oldAssignmentId jobs).foldl
      (keepStrongest wall) (jobs, [])).1 = jobs :=
    keepStrongest_foldl _ _ _ ((conflictRows_keys _ _ _).nodup_iff.mpr h.1) fun _ _ => rfl
  simp only [migrateJobs, hactive]
  refine keepStrongest_foldl _ _ _ ((conflictRows_keys _ _ _).nodup_iff.mpr ?_) fun _ _ => rfl
  rw [List.filterMap_eq_map']
  exact h.2

theorem ensureProxiwareSwapSchema_change {db : Db} {e : Event} (hunique : JobsUnique db.jobs)
    (wall : Timestamp) : Change db e (ensureProxiwareSwapSchema db wall) := by
  unfold ensureProxiwareSwapSchema
  split
  · refine .quiet (migrateJobs_eq hunique wall) rfl ?_
    refine Inventory.trans ?_ (.updateAssignments _ fun _ => ⟨rfl, rfl⟩)
    exact .of_eq rfl rfl rfl
  · exact .quiet rfl rfl (.refl db)

/-! ## Queueing and claiming -/

/-- Some pending jobs are added. -/
structure Queues (db db' : Db) : Prop where
  jobs : ∃ news, db'.jobs = db.jobs ++ news ∧ ∀ j ∈ news, j.state = .pending
  ids : Table.Keyed Job.id db'.jobs
  unique : JobsUnique db'.jobs
  mappings : db'.mappings = db.mappings
  inventory : Inventory db db'

theorem Queues.trans {db db' db'' : Db} (h : Queues db db') (h' : Queues db' db'') :
    Queues db db'' where
  jobs := by
    obtain ⟨news, hjobs, hnews⟩ := h.jobs
    obtain ⟨news', hjobs', hnews'⟩ := h'.jobs
    refine ⟨news ++ news', by rw [hjobs', hjobs, List.append_assoc], fun j hj => ?_⟩
    exact (List.mem_append.mp hj).elim (hnews j) (hnews' j)
  ids := h'.ids
  unique := h'.unique
  mappings := h'.mappings.trans h.mappings
  inventory := h.inventory.trans h'.inventory

theorem queueDecision_queues {db : Db} (hids : Table.Keyed Job.id db.jobs)
    (hunique : JobsUnique db.jobs) (i : Nat) (decision : SwapDecision) (current : Timestamp) :
    Queues db (queueDecision db i decision current) := by
  have hsubscription (i : Nat) : Inventory db
      (db.updateSubscription i fun s => { s with updatedAt := current }) :=
    .updateSubscription db i fun _ => ⟨rfl, rfl, rfl, rfl⟩
  unfold queueDecision
  dsimp only
  split
  · split
    · rename_i db' hwrite
      obtain ⟨rfl, hunique'⟩ := writeJobs_ok hwrite
      refine ⟨⟨_, rfl, fun j hj => ?_⟩, ?_, hunique', rfl, ?_⟩
      · rw [List.mem_singleton.mp hj]
        rfl
      · exact hids.append_fresh fun r hr => (Table.lt_nextKey hr).ne
      · exact (hsubscription _).trans (.of_eq rfl rfl rfl)
    · exact ⟨⟨[], by simp [Db.updateSubscription], by simp⟩, hids, hunique, rfl, hsubscription _⟩
  · exact ⟨⟨[], by simp [Db.updateSubscription], by simp⟩, hids, hunique, rfl, hsubscription _⟩

theorem queueRows_queues {current : Timestamp} {threshold : Int} {rows : List (Nat × Nat)} :
    ∀ {db db' : Db}, Table.Keyed Job.id db.jobs → JobsUnique db.jobs →
      queueRows db current threshold rows = .ok db' → Queues db db' := by
  induction rows with
  | nil =>
    intro db db' hids hunique h
    obtain rfl := Except.ok.inj h
    exact ⟨⟨[], by simp, by simp⟩, hids, hunique, rfl, .refl db⟩
  | cons row rows ih =>
    intro db db' hids hunique h
    obtain ⟨next, hrow, hrest⟩ := Transaction.ok_of_bind h
    obtain ⟨decision, -, hnext⟩ := Transaction.ok_of_bind hrow
    obtain rfl := Except.ok.inj hnext
    have hqueues := queueDecision_queues hids hunique row.2 decision current
    exact hqueues.trans (ih hqueues.ids hqueues.unique hrest)

theorem Queues.change {db db' : Db} (h : Queues db db') (e : Event) : Change db e db' := by
  obtain ⟨news, hjobs, hnews⟩ := h.jobs
  exact .queued news hjobs hnews h.ids h.unique h.mappings h.inventory

theorem recovered_ids {jobs : List Job} (h : Table.Keyed Job.id jobs) (current : Timestamp) :
    Table.Keyed Job.id (recovered jobs current) :=
  h.map fun j _ => by split <;> rfl

theorem claimNextSwap_change {db : Db} {e : Event} {claimSeconds : Int} {jobId : Option Nat}
    {token : String} {out : Db × Option Job} (hids : Table.Keyed Job.id db.jobs)
    (h : claimNextSwap db e.now claimSeconds jobId token = .ok out) : Change db e out.1 := by
  obtain ⟨db₁, hrecover, h⟩ := Transaction.ok_of_bind h
  obtain ⟨rfl, hunique⟩ := updateJobs_ok hrecover
  have hinventory : Inventory db { db with jobs := recovered db.jobs e.now } := .of_eq rfl rfl rfl
  split at h
  · obtain rfl := Except.ok.inj h
    exact .recovered rfl hunique rfl hinventory
  · rename_i row hrow
    obtain ⟨hmem, hclaimable⟩ := List.mem_filter.mp (List.argmin_mem hrow)
    obtain ⟨_, hstate, hlease, hsibling⟩ := of_decide_eq_true hclaimable
    obtain ⟨db₂, hclaim, h⟩ := Transaction.ok_of_bind h
    obtain ⟨rfl, hunique₂⟩ := updateJobs_ok hclaim
    obtain rfl := Except.ok.inj h
    have hone := (recovered_ids hids e.now).update_row
      (p := fun j => j.id = row.id ∧ j.state = .pending ∧ ∀ until_ ∈ j.claimedUntil, until_ ≤ e.now)
      (f := fun j =>
        { j with
          state := .running, claimToken := some token
          claimedUntil := some (e.now + seconds (max 30 claimSeconds))
          attempts := j.attempts + 1, updatedAt := e.now })
      hmem ⟨rfl, hstate, hlease⟩ fun r hr => hr.1
    refine .claimed hmem hstate hsibling ?_ ?_ hone hunique₂ rfl (.of_eq rfl rfl rfl)
    · rfl
    · exact ⟨rfl, rfl, rfl⟩

/-! ## The mutation fence -/

theorem revalidationError?_eq_none {job : Job} {current : Timestamp} {claimToken : Option String}
    {enter : Bool} (h : revalidationError? job current claimToken enter = none) :
    (∀ token ∈ claimToken, job.claimToken.getD "" = token) ∧ job.state = .running ∧
      (enter → present claimToken ∧ ∃ until_ ∈ job.claimedUntil, current < until_) := by
  unfold revalidationError? at h
  split at h
  · cases h
  · rename_i hstale
    split at h
    · cases h
    · rename_i hstate
      refine ⟨by simpa using hstale, by simpa using hstate, fun henter => ?_⟩
      rw [if_pos henter] at h
      split at h
      · cases h
      · rename_i hpresent
        split at h
        · exact ⟨by simpa using hpresent, ‹_›⟩
        · cases h

theorem revalidation_allowed {db : Db} {job : Job} {current : Timestamp} {allowManual : Bool}
    {decision : SwapDecision} (h : revalidation db job current allowManual = .ok decision)
    (hallowed : decision.allowed) :
    ¬ db.SiblingInFlight job ∧ ∃ s, db.subscription? job.subscriptionId = some s ∧
      quotaExhausted db s (some job.id) = false := by
  unfold revalidation at h
  split at h
  · obtain rfl := Except.ok.inj h
    cases hallowed
  · split at h
    · obtain rfl := Except.ok.inj h
      cases hallowed
    · exact ⟨‹_›, SwapDecision.forSubscription_allowed h hallowed⟩

theorem enterMutation_change {db db' : Db} {e : Event} {job : Job} {allowManual : Bool}
    {claimToken : Option String} (hids : Table.Keyed Job.id db.jobs) (hjob : job ∈ db.jobs)
    (hcall : e.call = .revalidate job.id allowManual claimToken true)
    (herror : revalidationError? job e.now claimToken true = none)
    {decision : SwapDecision} (hdecision : revalidation db job e.now allowManual = .ok decision)
    (hallowed : decision.allowed)
    (h : enterMutation db job claimToken e.now = .ok db') : Change db e db' := by
  obtain ⟨hclaim, hstate, henter⟩ := revalidationError?_eq_none herror
  obtain ⟨hpresent, hlease⟩ := henter rfl
  obtain ⟨hsibling, s', hs', hquota⟩ := revalidation_allowed hdecision hallowed
  unfold enterMutation at h
  obtain ⟨htoken, h⟩ := Transaction.ok_of_check h
  dsimp only at h
  split at h
  · cases h
  · rename_i a s hidentity
    obtain ⟨db₁, hupdate, h⟩ := Transaction.ok_of_bind h
    obtain ⟨⟨j, hj, hid, _, hjtoken⟩, rfl, hunique⟩ := updateJobsOr_ok hupdate
    obtain rfl := hids.eq hj hjob hid
    obtain rfl := Except.ok.inj h
    -- the token of the row is the one that the caller brings, without blanks around it
    obtain ⟨token, rfl⟩ : ∃ token, claimToken = some token := by
      cases claimToken with
      | none => cases hpresent
      | some token => exact ⟨token, rfl⟩
    have hrow : j.claimToken.getD "" = token := hclaim token rfl
    generalize hstrip : Text.strip ((j.claimToken.filter (· ≠ "")).getD
      ((some token).getD "")) = stripped at htoken hjtoken hunique
    rw [hjtoken, Option.getD_some] at hrow
    subst hrow
    have hsame : Text.strip stripped = stripped := by
      rw [hjtoken] at hstrip
      simpa [Option.filter, htoken] using hstrip
    simp only [Option.bind_eq_bind, Option.bind_eq_some_iff, Option.map_eq_some_iff,
      Option.ite_none_right_eq_some, Option.some.injEq, Prod.mk.injEq] at hidentity
    obtain ⟨_, ⟨i, hi, rfl⟩, b, hb, t, ht, ⟨hsub, hexternal, hdashboard, hsubExternal⟩, rfl, rfl⟩ :=
      hidentity
    obtain rfl : t = s' := Option.some.inj (ht.symm.trans hs')
    have hbid : b.id = i := Table.key_of_lookup hb
    refine Change.of_update hids (p := fun r => r.id = j.id ∧ r.state = .running ∧
        r.claimToken = some stripped) (f := fun r => r.mutatingOn b t e.now) (i := j.id)
      (fun r hr => hr.1) (fun r hr hp => ?_) rfl hunique rfl ?_
    · obtain rfl := hids.eq hr hj hp.1
      exact .mutating b t
        { call := ⟨allowManual, stripped, hcall, hjtoken, hsame, htoken⟩
          state := hstate
          lease := hlease
          sibling := hsibling
          subscription := ⟨Table.mem_of_lookup ht, Table.key_of_lookup ht, hsubExternal⟩
          quota := hquota
          assignment := ⟨Table.mem_of_lookup hb, hbid ▸ hi, hsub, hexternal, hdashboard⟩ }
    · refine Inventory.trans ?_ (.updateAssignments _ fun _ => ⟨rfl, rfl⟩)
      exact .of_eq rfl rfl rfl

theorem refuseSwap_change {db : Db} {e : Event} {job : Job} {decision : SwapDecision}
    {allowManual : Bool} {out : Db × SwapDecision} (hids : Table.Keyed Job.id db.jobs)
    (h : refuseSwap db job decision allowManual e.now = .ok out) : Change db e out.1 := by
  unfold refuseSwap at h
  dsimp only at h
  generalize (if decision.allowed then GuardReason.manualActionRequired else decision.reason) =
    reason at h
  split at h
  · obtain ⟨db₁, hupdate, h⟩ := Transaction.ok_of_bind h
    obtain ⟨rfl, hunique⟩ := updateJobs_ok hupdate
    obtain rfl := Except.ok.inj h
    refine .of_update hids (fun r hr => hr.1) (fun r _ hp => ?_) rfl hunique rfl ?_
    · exact .dropped (.inr hp.2) (.inl rfl) nofun ⟨rfl, rfl, rfl⟩
    · refine Inventory.trans ?_ (.updateSubscription _ _ fun _ => ⟨rfl, rfl, rfl, rfl⟩)
      exact .of_eq rfl rfl rfl
  · obtain ⟨db₁, hupdate, h⟩ := Transaction.ok_of_bind h
    obtain ⟨rfl, hunique⟩ := updateJobs_ok hupdate
    obtain rfl := Except.ok.inj h
    refine .of_update hids (fun r hr => hr.1) (fun r _ hp => ?_) rfl hunique rfl
      (.of_eq rfl rfl rfl)
    exact .dropped (.inr hp.2) (.inr (.inl rfl)) nofun ⟨rfl, rfl, rfl⟩

theorem revalidateSwapJob_change {db : Db} {e : Event} {jobId : Nat} {allowManual enter : Bool}
    {claimToken : Option String} {out : Db × SwapDecision} (hids : Table.Keyed Job.id db.jobs)
    (hcall : e.call = .revalidate jobId allowManual claimToken enter)
    (h : revalidateSwapJob db jobId e.now allowManual claimToken enter = .ok out) :
    Change db e out.1 := by
  unfold revalidateSwapJob at h
  split at h
  · cases h
  · rename_i job hjob
    obtain ⟨hmem, rfl⟩ := job?_mem hjob
    split at h
    · cases h
    · rename_i herror
      obtain ⟨decision, hdecision, h⟩ := Transaction.ok_of_bind h
      split at h
      · rename_i hallowed
        obtain ⟨db₁, henter, h⟩ := Transaction.ok_of_bind h
        obtain rfl := Except.ok.inj h
        cases enter with
        | true => exact enterMutation_change hids hmem hcall herror hdecision hallowed.1 henter
        | false =>
          obtain rfl := Except.ok.inj henter
          exact .quiet rfl rfl (.refl db)
      · exact refuseSwap_change hids h

theorem validatedAddress_ok {text : String} {endpoint : Endpoint}
    (h : validatedAddress text = .ok endpoint) : dashboardAddressEndpoint text = some endpoint := by
  unfold validatedAddress at h
  split at h
  · rename_i found hfound
    exact hfound.trans (congrArg some (Except.ok.inj h))
  · cases h

/-- A row that goes by the name of the replacement is emptied. -/
inductive Empties (db : Db) (newExternal : String) (current : Timestamp) : Db → Prop where
  | unknown : Empties db newExternal current db
  | known (r : Assignment) (resolved : db.resolveAssignment newExternal = some r) :
      Empties db newExternal current (db.updateAssignment r.id fun a => a.superseded current)

/-- `mark_provider_applied` clears the evidence of the old assignment and empties the row of the
replacement before it moves the job. -/
theorem markProviderApplied_ok {db db' : Db} {jobId : Nat} {oldExternal : String}
    {newExternal newAddress claimToken : Option String} {current : Timestamp}
    (h : markProviderApplied db jobId oldExternal newExternal newAddress claimToken current =
      .ok db') :
    ∃ job ∈ db.jobs, job.id = jobId ∧ ∃ (endpoint : Option Endpoint) (i : Nat) (db₁ : Db),
      Applies db job (Text.strip oldExternal) (Text.strip (newExternal.getD "")) endpoint ∧
      Empties (db.updateAssignment i fun a => a.unobserved current)
        (Text.strip (newExternal.getD "")) current db₁ ∧
      db₁.updateJobs (fun j => j.id = jobId ∧ j.state = JobState.mutating) (fun j =>
        j.providerApplied (Text.strip oldExternal) (Text.strip (newExternal.getD "")) endpoint
          current) = .ok db' := by
  unfold markProviderApplied at h
  obtain ⟨hnamed, h⟩ := Transaction.ok_of_check h
  dsimp only at h
  obtain ⟨endpoint, hendpoint, h⟩ := Transaction.ok_of_bind h
  replace h := (Transaction.ok_of_check h).2
  split at h
  · cases h
  rename_i job hjob
  obtain ⟨hmem, hid⟩ := job?_mem hjob
  replace h := (Transaction.ok_of_check h).2
  replace h := (Transaction.ok_of_check h).2
  obtain ⟨hfrozen, h⟩ := Transaction.ok_of_check h
  split at h
  · cases h
  rename_i old hold
  obtain ⟨hresolve, hsub⟩ := Option.filter_eq_some_iff.mp hold
  obtain ⟨holdId, h⟩ := Transaction.ok_of_check h
  replace h := (Transaction.ok_of_check h).2
  refine ⟨job, hmem, hid, endpoint, old.id, _, ?_, ?_, h⟩
  · exact
      { old := ⟨old, Table.mem_of_lookup hresolve, Table.key_of_lookup hresolve,
          of_decide_eq_true hsub, by simpa using holdId⟩
        frozen := fun hne => by_contra fun hdiff => hfrozen ⟨hne, hdiff⟩
        stripped := ⟨Text.strip_strip _, Text.strip_strip _⟩
        named := by
          refine ⟨fun h => hnamed (.inl h), ?_, fun h => hnamed (.inr (.inr h))⟩
          by_contra hnone
          obtain ⟨hexternal, haddress⟩ := not_or.mp hnone
          refine hnamed (.inr (.inl ⟨not_not.mp hexternal, ?_⟩))
          by_contra hne
          rw [if_neg hne] at hendpoint
          obtain ⟨x, _, rfl⟩ := Transaction.ok_of_map hendpoint
          exact haddress rfl
        parsed := by
          intro x hx
          split at hendpoint
          · cases hendpoint
            cases hx
          · obtain ⟨y, hy, rfl⟩ := Transaction.ok_of_map hendpoint
            obtain rfl := Option.some.inj hx
            exact ⟨_, validatedAddress_ok hy⟩ }
  · split
    · rename_i r hr
      split at hr
      · cases hr
      · exact .known r hr
    · exact .unknown

theorem markProviderApplied_change {db db' : Db} {e : Event} {jobId : Nat} {oldExternal : String}
    {newExternal newAddress claimToken : Option String} (hids : Table.Keyed Job.id db.jobs)
    (h : markProviderApplied db jobId oldExternal newExternal newAddress claimToken e.now =
      .ok db') : Change db e db' := by
  obtain ⟨job, hmem, rfl, endpoint, i, db₁, happlies, hempties, h⟩ := markProviderApplied_ok h
  have hinventory : Inventory db (db.updateAssignment i fun a => a.unobserved e.now) :=
    .updateAssignments db fun _ => ⟨rfl, rfl⟩
  obtain ⟨hdb₁, hjobs, hmappings⟩ : Inventory db db₁ ∧ db₁.jobs = db.jobs ∧
      db₁.mappings = db.mappings := by
    cases hempties with
    | unknown => exact ⟨hinventory, rfl, rfl⟩
    | known r _ =>
      have hboth := hinventory.trans (.updateAssignments _ (p := fun a => a.id = r.id)
        (f := fun a => a.superseded e.now) fun _ => ⟨rfl, rfl⟩)
      exact ⟨hboth, rfl, rfl⟩
  obtain ⟨rfl, hunique⟩ := updateJobs_ok h
  rw [hjobs] at hunique
  refine .of_update hids (fun r hr => hr.1) (fun r hr hp => ?_)
    (congrArg (Table.update _ _) hjobs) hunique hmappings (hdb₁.trans (.of_eq rfl rfl rfl))
  obtain rfl := hids.eq hr hmem hp.1
  exact .applied _ _ _ hp.2 happlies

theorem markReconciliationRequired_change {db db' : Db} {e : Event} {jobId : Nat}
    {errorCode : String} {claimToken : Option String} (hids : Table.Keyed Job.id db.jobs)
    (h : markReconciliationRequired db jobId errorCode claimToken e.now = .ok db') :
    Change db e db' := by
  unfold markReconciliationRequired at h
  replace h := (Transaction.ok_of_check h).2
  dsimp only at h
  split at h
  · cases h
  · replace h := (Transaction.ok_of_check h).2
    replace h := (Transaction.ok_of_check h).2
    obtain ⟨db₁, hupdate, h⟩ := Transaction.ok_of_bind h
    obtain ⟨rfl, hunique⟩ := updateJobs_ok hupdate
    obtain rfl := Except.ok.inj h
    refine .of_update hids (fun r hr => hr.1) (fun r _ hp => ?_) rfl hunique rfl
      (.of_eq rfl rfl rfl)
    exact .uncertain _ hp.2

/-! ## Giving up and starting again -/

theorem blockReason_ne (code : String) : blockReason code ≠ .reconciledNoProviderChange := by
  unfold blockReason
  split <;> nofun

theorem markSwapBlocked_change {db db' : Db} {e : Event} {jobId : Nat} {errorCode : String}
    {claimToken : Option String} (hids : Table.Keyed Job.id db.jobs)
    (h : markSwapBlocked db jobId errorCode claimToken e.now = .ok db') : Change db e db' := by
  unfold markSwapBlocked at h
  replace h := (Transaction.ok_of_check h).2
  obtain ⟨db₁, hupdate, h⟩ := Transaction.ok_of_bind h
  obtain ⟨_, rfl, hunique⟩ := updateJobsOr_ok hupdate
  obtain rfl := Except.ok.inj h
  refine .of_update hids (fun r hr => hr.1) (fun r _ hp => ?_) ?_ hunique ?_ ?_
  · refine .dropped hp.2 (.inr (.inl rfl)) ?_ ⟨rfl, rfl, rfl⟩
    dsimp only
    exact blockReason_ne _
  · split <;> rfl
  · split <;> rfl
  · split <;> exact .of_eq rfl rfl rfl

theorem markSwapFailed_change {db : Db} {e : Event} {jobId : Nat} {errorCode : String}
    {retryable : Bool} {retryLimit : Option Int} {claimToken : Option String} {out : Db × JobState}
    (hids : Table.Keyed Job.id db.jobs)
    (h : markSwapFailed db jobId errorCode retryable retryLimit claimToken e.now = .ok out) :
    Change db e out.1 := by
  unfold markSwapFailed at h
  dsimp only at h
  split at h
  · cases h
  · rename_i job hjob
    obtain ⟨hmem, rfl⟩ := job?_mem hjob
    obtain ⟨hstate, h⟩ := Transaction.ok_of_check h
    replace h := (Transaction.ok_of_check h).2
    obtain ⟨db₁, hupdate, h⟩ := Transaction.ok_of_bind h
    obtain ⟨rfl, hunique⟩ := updateJobs_ok hupdate
    obtain rfl := Except.ok.inj h
    refine .of_update hids (fun r hr => hr) (fun r hr hp => ?_) ?_ hunique ?_ ?_
    · obtain rfl := hids.eq hr hmem hp
      refine .dropped (not_not.mp hstate) ?_ ?_ ⟨rfl, rfl, rfl⟩
      · dsimp only
        split
        · exact .inr (.inl rfl)
        · exact .inl rfl
      · dsimp only
        split
        · exact blockReason_ne _
        · nofun
    · split <;> rfl
    · split <;> rfl
    · split <;> exact .of_eq rfl rfl rfl

theorem cancelSwap_change {db db' : Db} {e : Event} {jobId : Nat}
    (hids : Table.Keyed Job.id db.jobs) (h : cancelSwap db jobId e.now = .ok db') :
    Change db e db' := by
  obtain ⟨_, rfl, hunique⟩ := updateJobsOr_ok h
  refine .of_update hids (fun r hr => hr.1) (fun r _ hp => ?_) rfl hunique rfl (.of_eq rfl rfl rfl)
  exact .dropped hp.2 (.inr (.inr rfl)) nofun ⟨rfl, rfl, rfl⟩

theorem restart_change {db db' : Db} {e : Event} {job : Job} {reason : JobReason}
    (hids : Table.Keyed Job.id db.jobs) (hjob : job ∈ db.jobs)
    (hcall : e.call = .retry job.id ∨ e.call = .requestManual job.id)
    (hstate : job.state ∈ [JobState.pending, .failed, .blocked, .canceled])
    (h : db.updateJobs (fun j => j.id = job.id) (fun j => j.restarted reason e.now) = .ok db') :
    Change db e db' := by
  obtain ⟨rfl, hunique⟩ := updateJobs_ok h
  refine .of_update hids (fun r hr => hr) (fun r hr hp => ?_) rfl hunique rfl (.of_eq rfl rfl rfl)
  obtain rfl := hids.eq hr hjob hp
  exact .restarted reason hcall hstate

theorem retrySwap_change {db db' : Db} {e : Event} {jobId : Nat}
    (hids : Table.Keyed Job.id db.jobs) (hcall : e.call = .retry jobId)
    (h : retrySwap db jobId e.now = .ok db') : Change db e db' := by
  unfold retrySwap at h
  split at h
  · cases h
  · rename_i job hjob
    obtain ⟨hmem, rfl⟩ := job?_mem hjob
    obtain ⟨hstate, h⟩ := Transaction.ok_of_check h
    exact restart_change hids hmem (.inl hcall) (List.mem_cons_of_mem _ (not_not.mp hstate)) h

theorem requestManualSwap_change {db db' : Db} {e : Event} {jobId : Nat}
    (hids : Table.Keyed Job.id db.jobs) (hcall : e.call = .requestManual jobId)
    (h : requestManualSwap db jobId e.now = .ok db') : Change db e db' := by
  unfold requestManualSwap at h
  replace h := (Transaction.ok_of_check h).2
  dsimp only at h
  split at h
  · cases h
  · rename_i job hjob
    obtain ⟨hmem, rfl⟩ := job?_mem hjob
    obtain ⟨hstate, h⟩ := Transaction.ok_of_check h
    obtain ⟨decision, -, h⟩ := Transaction.ok_of_bind h
    replace h := (Transaction.ok_of_check h).2
    exact restart_change hids hmem (.inr hcall) (not_not.mp hstate) h

/-! ## Sweeps -/

theorem closeUnchanged_change {db : Db} {e : Event} {row : Job} {old : Assignment}
    {closed : Option Db} (hids : Table.Keyed Job.id db.jobs)
    (hcall : e.call = .closeUnchanged row old)
    (h : closeUnchanged db row.id row.subscriptionId e.now = .ok closed) :
    Change db e (closed.getD db) := by
  unfold closeUnchanged at h
  split at h
  · obtain ⟨db₁, hupdate, h⟩ := Transaction.ok_of_bind h
    obtain ⟨rfl, hunique⟩ := updateJobs_ok hupdate
    obtain rfl := Except.ok.inj h
    refine .of_update hids (fun r hr => hr.1) (fun r _ hp => ?_) rfl hunique rfl ?_
    · exact .unchanged row old hcall hp.1.symm hp.2
    · refine Inventory.trans ?_ (.updateSubscription _ _ fun _ => ⟨rfl, rfl, rfl, rfl⟩)
      exact .of_eq rfl rfl rfl
  · obtain rfl := Except.ok.inj h
    exact .quiet rfl rfl (.refl db)

theorem recordReplacement_change {db : Db} {e : Event} {row : Job} {newExternal : String}
    {recorded : Option Db} (hids : Table.Keyed Job.id db.jobs)
    (hcall : e.call = .recordReplacement row newExternal)
    (h : recordReplacement db row.id newExternal e.now = .ok recorded) :
    Change db e (recorded.getD db) := by
  unfold recordReplacement at h
  dsimp only at h
  split at h
  · obtain ⟨db₁, hupdate, rfl⟩ := Transaction.ok_of_map h
    obtain ⟨rfl, hunique⟩ := updateJobs_ok hupdate
    refine .of_update hids (fun r hr => hr.1) (fun r _ hp => ?_) rfl hunique rfl
      (.of_eq rfl rfl rfl)
    exact .inferred row newExternal hcall hp.1.symm hp.2.1 hp.2.2
  · obtain rfl := Except.ok.inj h
    exact .quiet rfl rfl (.refl db)

/-! ## Success -/

theorem checkMapping_ok {db : Db} {job : Job} {oldExternal newExternal : String}
    {newAddress : Option (Option Endpoint)} {old : Assignment}
    (h : checkMapping db job oldExternal newExternal newAddress = .ok old) :
    job.frozenOld = oldExternal ∧ old ∈ db.assignments ∧ old.externalId = oldExternal ∧
      old.subscriptionId = job.subscriptionId ∧ ∀ i ∈ job.oldAssignmentId, old.id = i := by
  unfold checkMapping at h
  obtain ⟨hfrozen, h⟩ := Transaction.ok_of_check h
  replace h := (Transaction.ok_of_check h).2
  replace h := (Transaction.ok_of_check h).2
  replace h := (Transaction.ok_of_check h).2
  replace h := (Transaction.ok_of_check h).2
  replace h := (Transaction.ok_of_check h).2
  dsimp only at h
  split at h
  · cases h
  · rename_i found hfound
    obtain ⟨hsub, h⟩ := Transaction.ok_of_check h
    obtain ⟨hid, h⟩ := Transaction.ok_of_check h
    obtain rfl := Except.ok.inj h
    exact ⟨not_not.mp hfrozen, Table.mem_of_lookup hfound, Table.key_of_lookup hfound,
      not_not.mp hsub, by simpa using hid⟩

theorem resolveReplacement_ok {db : Db} {job : Job} {mutationTime : Timestamp}
    {found : Assignment × String} (h : resolveReplacement db job mutationTime = .ok found) :
    found.1 ∈ db.assignments ∧ Text.strip found.1.externalId = found.2 := by
  unfold resolveReplacement at h
  split at h
  · split at h
    · cases h
    · rename_i new hnew
      split at h
      · obtain rfl := Except.ok.inj h
        refine ⟨Table.mem_of_lookup hnew, ?_⟩
        rw [Table.key_of_lookup hnew]
        exact Text.strip_strip _
      · cases h
  · split at h
    · obtain ⟨new, hnew, h⟩ := Transaction.ok_of_bind h
      obtain rfl := Except.ok.inj h
      unfold resolveReplacementByAddress at hnew
      split at hnew
      · rename_i row hrow
        obtain rfl := Except.ok.inj hnew
        have hmem : row ∈ replacementsAt db job _ mutationTime := hrow ▸ List.mem_singleton_self row
        exact ⟨List.mem_of_mem_filter hmem, rfl⟩
      · cases hnew
      · cases hnew
    · cases h

theorem checkEvidence_ok {db : Db} {job : Job} {new : Assignment} {oldExternal newExternal : String}
    {mutationTime current : Timestamp} {profile : Profile}
    (h : checkEvidence db job new oldExternal newExternal mutationTime current profile = .ok ()) :
    (newExternal ≠ "" ∧ newExternal ≠ oldExternal) ∧ new.subscriptionId = job.subscriptionId ∧
      (∃ syncedAt ∈ new.lastSeenAt, mutationTime < syncedAt) ∧
      ∃ observedAt ∈ new.dashboardObservedAt, mutationTime < observedAt := by
  unfold checkEvidence at h
  obtain ⟨hchanged, h⟩ := Transaction.ok_of_check h
  obtain ⟨hsub, h⟩ := Transaction.ok_of_check h
  dsimp only at h
  split at h
  · rename_i syncedAt observedAt hsynced hobserved
    obtain ⟨hsync, h⟩ := Transaction.ok_of_check h
    obtain ⟨hobs, _⟩ := Transaction.ok_of_check h
    exact ⟨not_or.mp hchanged, not_not.mp hsub, ⟨syncedAt, hsynced, not_le.mp hsync⟩,
      observedAt, hobserved, not_le.mp hobs⟩
  · cases h

theorem closeSuccess_ok {db db' : Db} {job : Job} {old new : Assignment}
    {oldExternal newExternal : String} {mutationTime current : Timestamp}
    (h : closeSuccess db job old new oldExternal newExternal mutationTime current = .ok db') :
    (∀ m ∈ db.mappings, m.swapJobId ≠ job.id) ∧
      JobsUnique (Table.update (fun j => j.id = job.id) (fun j => j.succeeded old new current)
        db.jobs) ∧
      ∃ readyAt, db' = { db with
        mappings := db.mappings ++ [{
          swapJobId := job.id, oldAssignmentExternalId := oldExternal
          newAssignmentExternalId := newExternal, successAt := current }]
        assignments := (Table.update (fun a => a.id = new.id) (fun a => a.replacing readyAt current)
          db.assignments).filter fun a => a.id ≠ old.id
        jobs := Table.update (fun j => j.id = job.id) (fun j => j.succeeded old new current) db.jobs
        subscriptions := Table.update (fun s => s.id = job.subscriptionId)
          (fun s => { s with swapUsed := s.swapUsed + 1, updatedAt := current })
          db.subscriptions } := by
  unfold closeSuccess at h
  obtain ⟨hunmapped, h⟩ := Transaction.ok_of_check h
  dsimp only at h
  obtain ⟨db₁, hupdate, h⟩ := Transaction.ok_of_bind h
  obtain ⟨rfl, hunique⟩ := updateJobs_ok hupdate
  obtain rfl := Except.ok.inj h
  refine ⟨fun m hm hid => hunmapped ⟨m, hm, hid⟩, hunique, _, rfl⟩

/-- `mark_swap_success` checks all that `Replaces` says, and closes the job. -/
theorem markSwapSuccess_ok {db db' : Db} {jobId : Nat} {oldExternal : String}
    {newExternal : Option String} {newAddress : Option (Option Endpoint)}
    {claimToken : Option String} {current : Timestamp} {profile : Profile}
    (h : markSwapSuccess db jobId oldExternal newExternal newAddress claimToken current profile =
      .ok db') :
    ∃ job ∈ db.jobs, job.id = jobId ∧ ∃ (old new : Assignment) (newId : String)
      (mutationTime : Timestamp), Replaces db job old new newId mutationTime ∧
      closeSuccess db job old new job.frozenOld newId mutationTime current = .ok db' := by
  unfold markSwapSuccess at h
  replace h := (Transaction.ok_of_check h).2
  dsimp only at h
  split at h
  · cases h
  rename_i job hjob
  obtain ⟨hmem, hid⟩ := job?_mem hjob
  obtain ⟨hstate, h⟩ := Transaction.ok_of_check h
  replace h := (Transaction.ok_of_check h).2
  obtain ⟨old, hmapping, h⟩ := Transaction.ok_of_bind h
  obtain ⟨hfrozen, hold, holdExternal, holdSub, holdId⟩ := checkMapping_ok hmapping
  rw [← hfrozen] at h holdExternal
  split at h
  · cases h
  rename_i mutationTime htime
  obtain ⟨⟨new, newId⟩, hresolve, h⟩ := Transaction.ok_of_bind h
  obtain ⟨hnew, hnewId⟩ := resolveReplacement_ok hresolve
  dsimp only at h
  obtain ⟨_, hevidence, h⟩ := Transaction.ok_of_bind h
  obtain ⟨hchanged, hnewSub, hsynced, hobserved⟩ := checkEvidence_ok hevidence
  refine ⟨job, hmem, hid, old, new, newId, mutationTime, ?_, h⟩
  exact
    { state := by simpa using not_not.mp hstate
      oldRow := ⟨hold, holdExternal, holdSub, holdId⟩
      newRow := ⟨hnew, hnewSub, hnewId⟩
      changed := hchanged
      time := htime
      synced := hsynced
      observed := hobserved
      unmapped := (closeSuccess_ok h).1 }

theorem markSwapSuccess_change {db db' : Db} {e : Event} {jobId : Nat} {oldExternal : String}
    {newExternal : Option String} {newAddress : Option (Option Endpoint)}
    {claimToken : Option String} (hids : Table.Keyed Job.id db.jobs)
    (h : markSwapSuccess db jobId oldExternal newExternal newAddress claimToken e.now e.profile =
      .ok db') : Change db e db' := by
  obtain ⟨job, hmem, -, old, new, newId, mutationTime, hreplaces, h⟩ := markSwapSuccess_ok h
  obtain ⟨-, hunique, readyAt, rfl⟩ := closeSuccess_ok h
  have hone := hids.update_row (p := fun j => j.id = job.id)
    (f := fun j => j.succeeded old new e.now) hmem rfl fun r hr => hr
  exact .succeeded hmem hreplaces hone hunique rfl rfl rfl rfl

/-! ## Inventory, dashboard and qualification -/

theorem upsertSubscription_inventory (db : Db) {raw : RawSubscription} {externalId : String}
    (hraw : raw.externalId? = some externalId) (now : Timestamp) :
    Inventory db (upsertSubscription db raw externalId now).1 := by
  unfold upsertSubscription
  split
  · rename_i hnone
    have hfresh : Subscription.Reported
        { id := Table.nextKey Subscription.id db.subscriptions, externalId
          status := orDefault raw.status "active", expiresAt := raw.expiresAt
          eligibleCount := raw.eligibleCount, lastSeenAt := now, updatedAt := now } := ⟨raw, hraw⟩
    refine ⟨.refl (fun _ => ⟨rfl, rfl⟩) _, le_rfl, ?_, fun h => ?_⟩
    · exact .of_append (fun _ => ⟨rfl, rfl, rfl, rfl⟩) _ fun s hs =>
        List.mem_singleton.mp hs ▸ hfresh
    · exact ⟨h.subscriptionIds.append_fresh fun s hs => (Table.lt_nextKey hs).ne,
        h.subscriptionExternalIds.append_fresh (Table.lookup_eq_none.mp hnone), h.assignmentIds,
        h.assignmentExternalIds, h.assignmentSequence⟩
  · exact .updateSubscription db _ fun _ => ⟨rfl, rfl, rfl, rfl⟩

theorem RawProxy.updated_same (raw : RawProxy) (a : Assignment) (subscriptionId port : Nat)
    (profile : Profile) (now : Timestamp) :
    Assignment.Same a (raw.updated a subscriptionId port profile now) := by
  unfold RawProxy.updated
  dsimp only
  split <;> exact ⟨rfl, rfl⟩

theorem syncProxy_inventory (db : Db) (subscriptionId : Nat) (profile : Profile) (now : Timestamp)
    (raw : RawProxy) : Inventory db (syncProxy subscriptionId profile now db raw) := by
  unfold syncProxy
  split
  · exact .refl db
  · rename_i externalId port hkey
    split
    · rename_i hnone
      have hadded : Assignment.AddedTo db
          (raw.inserted (db.assignmentSequence + 1) subscriptionId externalId port now) :=
        ⟨Nat.lt_succ_self _, RawProxy.key?_stripped hkey⟩
      refine ⟨?_, Nat.le_succ _, .refl (fun _ => ⟨rfl, rfl, rfl, rfl⟩) _, fun h => ?_⟩
      · exact .of_append (fun _ => ⟨rfl, rfl⟩) _ fun a ha => List.mem_singleton.mp ha ▸ hadded
      · refine ⟨h.subscriptionIds, h.subscriptionExternalIds, ?_, ?_, fun a ha => ?_⟩
        · exact h.assignmentIds.append_fresh fun a ha =>
            (Nat.lt_succ_of_le (h.assignmentSequence a ha)).ne
        · exact h.assignmentExternalIds.append_fresh (Table.lookup_eq_none.mp hnone)
        · rcases List.mem_append.mp ha with ha | ha
          · exact (h.assignmentSequence a ha).trans (Nat.le_succ _)
          · rw [List.mem_singleton.mp ha]
            exact le_rfl
    · exact .updateAssignments db fun a => raw.updated_same a _ _ _ _

theorem foldl_inventory {α : Type} {f : Db → α → Db} (hf : ∀ db a, Inventory db (f db a))
    (l : List α) : ∀ db, Inventory db (l.foldl f db) := by
  induction l with
  | nil => exact .refl
  | cons a l ih => exact fun db => (hf db a).trans (ih _)

theorem syncSubscription_inventory (db : Db) (profile : Profile) (now : Timestamp)
    (payload : RawSubscription × List RawProxy) :
    Inventory db (syncSubscription profile now db payload) := by
  unfold syncSubscription
  split
  · exact .refl db
  · rename_i externalId hexternal
    exact (upsertSubscription_inventory db hexternal now).trans
      (foldl_inventory (fun db raw => syncProxy_inventory db _ profile now raw) _ _)

theorem syncMissing_inventory (db : Db) (seen : Seen) (now : Timestamp) :
    Inventory db (syncMissing db seen now) := by
  have hnamed := Inventory.updateSubscriptions db
    (p := fun s => s.missingAt = none ∧ s.externalId ∉ seen.subscriptions)
    (f := fun s => { s with status := "missing", missingAt := some now, updatedAt := now })
    fun _ => ⟨rfl, rfl, rfl, rfl⟩
  refine (hnamed.trans (.updateSubscriptions _ (p := fun s => ∃ j ∈ db.jobs,
      j.subscriptionId = s.id ∧ (j.state = .providerApplied ∨ j.state = .reconciliationRequired))
    (f := fun s => { s with updatedAt := now }) fun _ => ⟨rfl, rfl, rfl, rfl⟩)).trans ?_
  exact .updateAssignments _ fun _ => ⟨rfl, rfl⟩

theorem applyDashboardObservation_inventory {db db' : Db} {snapshot : DashboardAssignment}
    {current : Timestamp} {maxAgeSeconds : Int}
    (h : applyDashboardObservation db snapshot current maxAgeSeconds = .ok db') :
    Inventory db db' ∧ db'.jobs = db.jobs ∧ db'.mappings = db.mappings := by
  obtain ⟨row, _, h⟩ := Transaction.ok_of_bind h
  obtain rfl := Except.ok.inj h
  exact ⟨.updateAssignments db fun _ => ⟨rfl, rfl⟩, rfl, rfl⟩

theorem clearDashboard_inventory (db : Db) (requested : String) (current : Timestamp) :
    Inventory db (clearDashboard db requested current) :=
  .updateAssignments db fun _ => ⟨rfl, rfl⟩

theorem observed_foldl (current : Timestamp) (resolved : List (DashboardAssignment × Nat)) :
    ∀ db : Db, (resolved.foldl
        (fun db r => db.updateAssignment r.2 fun a => a.observed r.1 current) db).jobs = db.jobs ∧
      (resolved.foldl
        (fun db r => db.updateAssignment r.2 fun a => a.observed r.1 current) db).mappings =
          db.mappings := by
  induction resolved with
  | nil => exact fun _ => ⟨rfl, rfl⟩
  | cons r resolved ih => exact fun db => ih _

theorem applyDashboardSnapshot_inventory (db : Db) (subscriptionId : String)
    (snapshots : List DashboardAssignment) (current : Timestamp) (maxAgeSeconds : Int) :
    let db' := (applyDashboardSnapshot db subscriptionId snapshots current maxAgeSeconds).1
    Inventory db db' ∧ db'.jobs = db.jobs ∧ db'.mappings = db.mappings := by
  unfold applyDashboardSnapshot
  split
  · exact ⟨.refl db, rfl, rfl⟩
  · split
    · exact ⟨clearDashboard_inventory db _ current, rfl, rfl⟩
    · split
      · rename_i db' hwrite
        obtain ⟨resolved, _, h⟩ := Transaction.ok_of_bind hwrite
        obtain rfl := Except.ok.inj h
        refine ⟨(clearDashboard_inventory db _ current).trans
          (foldl_inventory (fun db r => ?_) resolved _), observed_foldl current resolved _⟩
        exact .updateAssignments db fun _ => ⟨rfl, rfl⟩
      · exact ⟨.refl db, rfl, rfl⟩

/-! ## Every event -/

theorem syncProxy_jobs (db : Db) (subscriptionId : Nat) (profile : Profile) (now : Timestamp)
    (raws : List RawProxy) :
    (raws.foldl (syncProxy subscriptionId profile now) db).jobs = db.jobs ∧
      (raws.foldl (syncProxy subscriptionId profile now) db).mappings = db.mappings := by
  induction raws generalizing db with
  | nil => exact ⟨rfl, rfl⟩
  | cons raw raws ih =>
    have hone : (syncProxy subscriptionId profile now db raw).jobs = db.jobs ∧
        (syncProxy subscriptionId profile now db raw).mappings = db.mappings := by
      unfold syncProxy
      split
      · exact ⟨rfl, rfl⟩
      · split <;> exact ⟨rfl, rfl⟩
    exact ⟨(ih _).1.trans hone.1, (ih _).2.trans hone.2⟩

theorem syncSubscription_jobs (db : Db) (profile : Profile) (now : Timestamp)
    (payload : RawSubscription × List RawProxy) :
    (syncSubscription profile now db payload).jobs = db.jobs ∧
      (syncSubscription profile now db payload).mappings = db.mappings := by
  unfold syncSubscription
  split
  · exact ⟨rfl, rfl⟩
  · rename_i externalId _
    obtain ⟨subscriptions, hupsert⟩ := upsertSubscription_eq db payload.1 externalId now
    have hproxies := syncProxy_jobs (upsertSubscription db payload.1 externalId now).1
      (upsertSubscription db payload.1 externalId now).2 profile now payload.2
    rw [hupsert] at hproxies
    dsimp only
    rw [hupsert]
    exact hproxies

theorem transact_change {db db' : Db} {e : Event} (hids : Table.Keyed Job.id db.jobs)
    (hunique : JobsUnique db.jobs) (h : db.transact e = .ok db') : Change db e db' := by
  unfold Db.transact at h
  cases hcall : e.call with
  | bootstrap =>
    rw [hcall] at h
    exact Except.ok.inj h ▸ ensureProxiwareSwapSchema_change hunique e.now
  | queue threshold rows =>
    rw [hcall] at h
    exact (queueRows_queues hids hunique h).change e
  | claim claimSeconds jobId token =>
    rw [hcall] at h
    obtain ⟨out, hout, rfl⟩ := Transaction.ok_of_map h
    exact claimNextSwap_change hids hout
  | revalidate jobId allowManual claimToken enter =>
    rw [hcall] at h
    obtain ⟨out, hout, rfl⟩ := Transaction.ok_of_map h
    exact revalidateSwapJob_change hids hcall hout
  | providerApplied jobId oldExternal newExternal newAddress claimToken =>
    rw [hcall] at h
    exact markProviderApplied_change hids h
  | reconciliationRequired jobId errorCode claimToken =>
    rw [hcall] at h
    exact markReconciliationRequired_change hids h
  | succeed jobId oldExternal newExternal newAddress claimToken =>
    rw [hcall] at h
    exact markSwapSuccess_change hids h
  | block jobId errorCode claimToken =>
    rw [hcall] at h
    exact markSwapBlocked_change hids h
  | fail jobId errorCode retryable retryLimit claimToken =>
    rw [hcall] at h
    obtain ⟨out, hout, rfl⟩ := Transaction.ok_of_map h
    exact markSwapFailed_change hids hout
  | cancel jobId =>
    rw [hcall] at h
    exact cancelSwap_change hids h
  | retry jobId =>
    rw [hcall] at h
    exact retrySwap_change hids hcall h
  | requestManual jobId =>
    rw [hcall] at h
    exact requestManualSwap_change hids hcall h
  | closeUnchanged row old =>
    rw [hcall] at h
    obtain ⟨closed, hclosed, rfl⟩ := Transaction.ok_of_map h
    exact closeUnchanged_change hids hcall hclosed
  | recordReplacement row newExternal =>
    rw [hcall] at h
    obtain ⟨recorded, hrecorded, rfl⟩ := Transaction.ok_of_map h
    exact recordReplacement_change hids hcall hrecorded
  | syncSubscription payload =>
    rw [hcall] at h
    obtain ⟨hjobs, hmappings⟩ := syncSubscription_jobs db e.profile e.now payload
    exact Except.ok.inj h ▸ .quiet hjobs hmappings (syncSubscription_inventory db _ _ payload)
  | syncMissing seen =>
    rw [hcall] at h
    exact Except.ok.inj h ▸ .quiet rfl rfl (syncMissing_inventory db seen e.now)
  | observe snapshot maxAgeSeconds =>
    rw [hcall] at h
    obtain ⟨hinventory, hjobs, hmappings⟩ := applyDashboardObservation_inventory h
    exact .quiet hjobs hmappings hinventory
  | snapshot subscriptionId snapshots maxAgeSeconds =>
    rw [hcall] at h
    obtain ⟨hinventory, hjobs, hmappings⟩ :=
      applyDashboardSnapshot_inventory db subscriptionId snapshots e.now maxAgeSeconds
    exact Except.ok.inj h ▸ .quiet hjobs hmappings hinventory
  | qualify row =>
    rw [hcall] at h
    exact Except.ok.inj h ▸ .quiet rfl rfl (.updateAssignments db fun _ => ⟨rfl, rfl⟩)
  | configure settings =>
    rw [hcall] at h
    exact Except.ok.inj h ▸ .quiet rfl rfl (.of_eq rfl rfl rfl)
  | readSwaps limit | proveUnchanged row | inferReplacement row =>
    rw [hcall] at h
    exact Except.ok.inj h ▸ .quiet rfl rfl (.refl db)

theorem Change.constrained {db db' : Db} {e : Event} (hchange : Change db e db')
    (h : db.Constrained) : db'.Constrained := by
  cases hchange with
  | quiet hjobs _ hinventory =>
    exact ⟨hinventory.keyed h.toKeyed, hjobs ▸ h.jobIds, hjobs ▸ h.jobsUnique⟩
  | moved hmem hmove hjobs hunique _ hinventory =>
    refine ⟨hinventory.keyed h.toKeyed, ?_, hunique⟩
    rw [hjobs]
    exact h.jobIds.update_const hmove.same.id
  | claimed hmem _ _ _ hsame hjobs hunique _ hinventory =>
    refine ⟨hinventory.keyed h.toKeyed, ?_, hunique⟩
    rw [hjobs]
    exact (recovered_ids h.jobIds e.now).update_const hsame.id
  | recovered hjobs hunique _ hinventory =>
    exact ⟨hinventory.keyed h.toKeyed, hjobs ▸ recovered_ids h.jobIds e.now, hunique⟩
  | queued _ _ _ hids hunique _ hinventory => exact ⟨hinventory.keyed h.toKeyed, hids, hunique⟩
  | succeeded hmem _ hjobs hunique _ hassignments hsequence hsubscriptions =>
    rename_i new _ _ readyAt _ _
    have hreplaced : ∀ a ∈ Table.update (fun a => a.id = new.id)
        (fun a => a.replacing readyAt e.now) db.assignments, a.id ≤ db.assignmentSequence := by
      intro a ha
      obtain ⟨b, hb, rfl⟩ := Table.mem_update.mp ha
      split <;> exact h.assignmentSequence b hb
    refine ⟨⟨?_, ?_, ?_, ?_, ?_⟩, ?_, hunique⟩
    · rw [hsubscriptions]
      exact h.subscriptionIds.map fun s _ => by split <;> rfl
    · rw [hsubscriptions]
      exact h.subscriptionExternalIds.map fun s _ => by split <;> rfl
    · rw [hassignments]
      exact (h.assignmentIds.map fun a _ => by split <;> rfl).filter _
    · rw [hassignments]
      exact (h.assignmentExternalIds.map fun a _ => by split <;> rfl).filter _
    · rw [hassignments, hsequence]
      exact fun a ha => hreplaced a (List.mem_of_mem_filter ha)
    · rw [hjobs]
      exact h.jobIds.update_const rfl

/-- What an event does to the database. -/
theorem step_change {s s' : State} {e : Event} (h : s.db.Constrained) (hstep : Step s e s') :
    Change s.db e s'.db := by
  unfold Step State.next at hstep
  split at hstep
  · dsimp only at hstep
    split at hstep
    · rename_i db hdb
      obtain rfl := Option.some.inj hstep
      exact transact_change h.jobIds h.jobsUnique hdb
    · obtain rfl := Option.some.inj hstep
      have hread : (s.read e).db = s.db := by
        unfold State.read
        split <;> rfl
      exact .quiet (congrArg Db.jobs hread) (congrArg Db.mappings hread)
        (.of_eq (congrArg Db.assignments hread) (congrArg Db.assignmentSequence hread)
          (congrArg Db.subscriptions hread))
  · cases hstep

theorem step_constrained {s s' : State} {e : Event} (h : s.db.Constrained) (hstep : Step s e s') :
    s'.db.Constrained :=
  (step_change h hstep).constrained h

theorem run_constrained {s₀ s : State} {h : List (Event × State)} (hs₀ : s₀.db.Constrained)
    (hrun : History.Run Step s₀ h s) : s.db.Constrained :=
  hrun.always (P := fun s => s.db.Constrained) hs₀ fun _ _ _ => step_constrained

end EarnProxy.Swap

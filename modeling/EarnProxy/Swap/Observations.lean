import EarnProxy.Swap.Snapshots

/-!
# Calls of the dashboard observer

`apply_dashboard_observation` and `apply_dashboard_snapshot` with the sweep that follows them. The
guard against older observations looks at the rows that a call lists, and a snapshot clears the rows
that it does not list; so an older snapshot of other rows gets past the guard.
-/

namespace EarnProxy.Swap

inductive DashboardCall where
  | observation (snapshot : DashboardAssignment)
  | snapshot (subscriptionId : String) (snapshots : List DashboardAssignment)
  deriving DecidableEq, Repr

/-- A call, with what it reads of the clock and its settings. -/
structure DashboardEvent where
  call : DashboardCall
  wall : Timestamp
  current : Timestamp
  maxAgeSeconds : Int := 900
  profile : Profile := .web
  deriving DecidableEq, Repr

/-- What a call commits before its sweep, from a database with the schema, and whether the sweep
follows. -/
def DashboardEvent.commit (e : DashboardEvent) (db : Db) : Db × Bool :=
  match e.call with
  | .observation snapshot =>
    match applyDashboardObservation db snapshot e.current e.maxAgeSeconds with
    | .ok db => (db, true)
    | .error _ => (db, false)
  | .snapshot subscriptionId snapshots =>
    let left := applyDashboardSnapshot db subscriptionId snapshots e.current e.maxAgeSeconds
    (left.1, left.2.isNone)

/-- What a call leaves in the database. -/
def Db.dashboard (db : Db) (e : DashboardEvent) : Db :=
  let left := e.commit (ensureProxiwareSwapSchema db e.wall)
  if left.2 then (reconcileProviderAppliedSwaps left.1 e.current 20 e.profile).1 else left.1

/-- The observations that a call brings. -/
def DashboardEvent.entries (e : DashboardEvent) : List DashboardAssignment :=
  match e.call with
  | .observation snapshot => [snapshot]
  | .snapshot _ snapshots => snapshots

/-- The call is about the subscription. -/
def DashboardEvent.On (e : DashboardEvent) (requested : String) : Prop :=
  match e.call with
  | .observation snapshot => snapshot.subscriptionId = requested
  | .snapshot subscriptionId _ => requiredText subscriptionId 128 = some requested

/-- An observation of the call is older than the instant. -/
def DashboardEvent.OlderThan (e : DashboardEvent) (t : Timestamp) : Prop :=
  ∃ x ∈ e.entries, x.observedAt < t

/-- The observations are in order: timely and of the subscription, each at the address of exactly
one row, and none repeats an id or a row. -/
structure InOrder (db : Db) (requested : String) (e : DashboardEvent) (rows : List Assignment) :
    Prop
    where
  scope : ∀ x ∈ e.entries, x.subscriptionId = requested
  dashboardIds : (e.entries.map DashboardAssignment.assignmentId).Nodup
  resolved : List.Forall₂ (fun x a => x.Timely e.current e.maxAgeSeconds ∧
    ∃ endpoint, dashboardAddressEndpoint x.address = some endpoint ∧
      observedRows db x.subscriptionId endpoint = [a]) e.entries rows
  distinct : (rows.map Assignment.id).Nodup

/-- When the observations are in order, one of their rows carries a newer one. -/
def DashboardEvent.Guarded (e : DashboardEvent) (db : Db) (requested : String) : Prop :=
  ∀ rows, InOrder db requested e rows →
    ∃ r ∈ e.entries.zip rows, ∃ previous ∈ r.2.dashboardObservedAt, r.1.observedAt < previous

/-- A snapshot of the subscription, observed at the instant, is committed. -/
structure DashboardEvent.Commits (e : DashboardEvent) (db : Db) (requested : String)
    (t : Timestamp) : Prop where
  on : e.On requested
  snapshot : ∃ subscriptionId snapshots, e.call = .snapshot subscriptionId snapshots
  observed : ∀ x ∈ e.entries, x.observedAt = t
  committed : (e.commit (ensureProxiwareSwapSchema db e.wall)).2 = true

/-- No assignment of the subscription carries an observation from before the instant. -/
def ObservedSince (db : Db) (requested : String) (t : Timestamp) : Prop :=
  ∀ a ∈ db.assignments, a.BelongsTo db requested →
    ∀ observedAt ∈ a.dashboardObservedAt, t ≤ observedAt

/-- No replacement waits for its repair. -/
def Repaired (db : Db) : Prop := ∀ a ∈ db.assignments, ¬ a.AwaitsRepair db

variable {db db' : Db} {requested : String} {t : Timestamp} {e : DashboardEvent}

/-! ## Sweeps -/

/-- What a sweep leaves of the inventory: rows of before, with their observations, and no new row to
repair. -/
structure Sweeps (db db' : Db) : Prop where
  unique : JobsUnique db.jobs → JobsUnique db'.jobs
  assignments : ∀ a' ∈ db'.assignments, ∃ a ∈ db.assignments, a'.subscriptionId = a.subscriptionId ∧
    a'.dashboardObservedAt = a.dashboardObservedAt
  subscriptions : ∀ s' ∈ db'.subscriptions, ∃ s ∈ db.subscriptions, s'.id = s.id ∧
    s'.externalId = s.externalId
  repaired : Repaired db → Repaired db'

theorem Sweeps.refl (db : Db) : Sweeps db db where
  unique := id
  assignments a ha := ⟨a, ha, rfl, rfl⟩
  subscriptions s hs := ⟨s, hs, rfl, rfl⟩
  repaired := id

theorem Sweeps.trans {db'' : Db} (h : Sweeps db db') (h' : Sweeps db' db'') : Sweeps db db'' where
  unique := h'.unique ∘ h.unique
  assignments a'' ha'' := by
    obtain ⟨a', ha', hsub', hobserved'⟩ := h'.assignments a'' ha''
    obtain ⟨a, ha, hsub, hobserved⟩ := h.assignments a' ha'
    exact ⟨a, ha, hsub'.trans hsub, hobserved'.trans hobserved⟩
  subscriptions s'' hs'' := by
    obtain ⟨s', hs', hid', hexternal'⟩ := h'.subscriptions s'' hs''
    obtain ⟨s, hs, hid, hexternal⟩ := h.subscriptions s' hs'
    exact ⟨s, hs, hid'.trans hid, hexternal'.trans hexternal⟩
  repaired := h'.repaired ∘ h.repaired

/-- A statement on jobs that lets none succeed. -/
theorem Sweeps.of_jobs {p : Job → Prop} [DecidablePred p] {f : Job → Job}
    (hassignments : db'.assignments = db.assignments) (hjobs : db'.jobs = Table.update p f db.jobs)
    (hsubscriptions : ∀ s' ∈ db'.subscriptions, ∃ s ∈ db.subscriptions, s'.id = s.id ∧
      s'.externalId = s.externalId)
    (hunique : JobsUnique (Table.update p f db.jobs))
    (hf : ∀ j, p j → (f j).state = .success → j.state = .success ∧
      (f j).newAssignmentId = j.newAssignmentId) : Sweeps db db' where
  unique _ := hjobs ▸ hunique
  assignments a ha := ⟨a, hassignments ▸ ha, rfl, rfl⟩
  subscriptions := hsubscriptions
  repaired h a ha hawaits := by
    obtain ⟨hstatus, hqualification, hlive, hready, j', hj', hstate, hnew⟩ := hawaits
    rw [hjobs] at hj'
    obtain ⟨j, hj, rfl⟩ := Table.mem_update.mp hj'
    refine h a (hassignments ▸ ha) ⟨hstatus, hqualification, hlive, hready, j, hj, ?_⟩
    split at hstate
    next hp =>
      obtain ⟨hsuccess, hsame⟩ := hf j hp hstate
      rw [if_pos hp, hsame] at hnew
      exact ⟨hsuccess, hnew⟩
    next hp =>
      rw [if_neg hp] at hnew
      exact ⟨hstate, hnew⟩

theorem subscriptions_of_eq (h : db'.subscriptions = db.subscriptions) : ∀ s' ∈ db'.subscriptions,
    ∃ s ∈ db.subscriptions, s'.id = s.id ∧ s'.externalId = s.externalId :=
  fun s hs => ⟨s, h ▸ hs, rfl, rfl⟩

theorem subscriptions_of_update {p : Subscription → Prop} [DecidablePred p]
    {f : Subscription → Subscription}
    (h : db'.subscriptions = Table.update p f db.subscriptions)
    (hf : ∀ s, (f s).id = s.id ∧ (f s).externalId = s.externalId) : ∀ s' ∈ db'.subscriptions,
    ∃ s ∈ db.subscriptions, s'.id = s.id ∧ s'.externalId = s.externalId := by
  intro s' hs'
  rw [h] at hs'
  obtain ⟨s, hs, rfl⟩ := Table.mem_update.mp hs'
  refine ⟨s, hs, ?_⟩
  split
  · exact hf s
  · exact ⟨rfl, rfl⟩

theorem closeUnchanged_sweeps {jobId subscriptionId : Nat} {now : Timestamp} {closed : Option Db}
    (h : closeUnchanged db jobId subscriptionId now = .ok closed) : Sweeps db (closed.getD db) := by
  unfold closeUnchanged at h
  split at h
  · obtain ⟨db₁, hupdate, h⟩ := Transaction.ok_of_bind h
    obtain ⟨rfl, hunique⟩ := updateJobs_ok hupdate
    obtain rfl := Except.ok.inj h
    exact .of_jobs rfl rfl (subscriptions_of_update rfl fun _ => ⟨rfl, rfl⟩) hunique
      fun _ _ hstate => JobState.noConfusion hstate
  · obtain rfl := Except.ok.inj h
    exact .refl db

theorem recordReplacement_sweeps {jobId : Nat} {newExternal : String} {now : Timestamp}
    {recorded : Option Db} (h : recordReplacement db jobId newExternal now = .ok recorded) :
    Sweeps db (recorded.getD db) := by
  unfold recordReplacement at h
  dsimp only at h
  split at h
  · obtain ⟨db₁, hupdate, rfl⟩ := Transaction.ok_of_map h
    obtain ⟨rfl, hunique⟩ := updateJobs_ok hupdate
    exact .of_jobs rfl rfl (subscriptions_of_eq rfl) hunique fun _ _ hstate => ⟨hstate, rfl⟩
  · obtain rfl := Except.ok.inj h
    exact .refl db

theorem markReconciliationRequired_sweeps {jobId : Nat} {errorCode : String}
    {claimToken : Option String} {current : Timestamp}
    (h : markReconciliationRequired db jobId errorCode claimToken current = .ok db') :
    Sweeps db db' := by
  unfold markReconciliationRequired at h
  replace h := (Transaction.ok_of_check h).2
  dsimp only at h
  split at h
  · cases h
  · replace h := (Transaction.ok_of_check h).2
    replace h := (Transaction.ok_of_check h).2
    obtain ⟨db₁, hupdate, h⟩ := Transaction.ok_of_bind h
    obtain ⟨rfl, hunique⟩ := updateJobs_ok hupdate
    obtain rfl := Except.ok.inj h
    exact .of_jobs rfl rfl (subscriptions_of_eq rfl) hunique
      fun _ _ hstate => JobState.noConfusion hstate

theorem markSwapSuccess_sweeps {jobId : Nat} {oldExternal : String} {newExternal : Option String}
    {newAddress : Option (Option Endpoint)} {claimToken : Option String} {current : Timestamp}
    {profile : Profile}
    (h : markSwapSuccess db jobId oldExternal newExternal newAddress claimToken current profile =
      .ok db') : Sweeps db db' := by
  obtain ⟨job, -, -, old, new, newId, mutationTime, -, h⟩ := markSwapSuccess_ok h
  obtain ⟨-, hunique, readyAt, rfl⟩ := closeSuccess_ok h
  refine ⟨fun _ => hunique, fun a' ha' => ?_, subscriptions_of_update rfl fun _ => ⟨rfl, rfl⟩,
    fun hrepaired a' ha' hawaits => ?_⟩
  · obtain ⟨a, ha, rfl⟩ := Table.mem_update.mp (List.mem_of_mem_filter ha')
    refine ⟨a, ha, ?_⟩
    split <;> exact ⟨rfl, rfl⟩
  · obtain ⟨a, ha, rfl⟩ := Table.mem_update.mp (List.mem_of_mem_filter ha')
    obtain ⟨hstatus, hqualification, hlive, hready, j', hj', hstate, hassignment⟩ := hawaits
    by_cases hnew : a.id = new.id
    · -- The replacement of this swap is active.
      rw [if_pos hnew] at hstatus
      change "active" = "pending" at hstatus
      exact absurd hstatus (by decide)
    · rw [if_neg hnew] at hstatus hqualification hlive hready hassignment
      obtain ⟨j, hj, rfl⟩ := Table.mem_update.mp hj'
      refine hrepaired a ha ⟨hstatus, hqualification, hlive, hready, j, hj, ?_⟩
      split at hstate
      next hp =>
        rw [if_pos hp] at hassignment
        exact absurd (Option.some.inj hassignment).symm hnew
      next hp =>
        rw [if_neg hp] at hassignment
        exact ⟨hstate, hassignment⟩

theorem reconcileNoProviderChange_sweeps {row : Job} {now : Timestamp} {closed : Option Db}
    (h : reconcileNoProviderChange db row now = .ok closed) : Sweeps db (closed.getD db) := by
  unfold reconcileNoProviderChange at h
  split at h
  · obtain rfl := Except.ok.inj h
    exact .refl db
  · exact closeUnchanged_sweeps h

theorem closeOrPending_sweeps (db : Db) (row : Job) (current : Timestamp) :
    Sweeps db (closeOrPending db row current).1 := by
  unfold closeOrPending
  cases h : reconcileNoProviderChange db row current with
  | error e => exact .refl db
  | ok closed =>
    have hsweeps := reconcileNoProviderChange_sweeps h
    cases closed with
    | none => exact .refl db
    | some db' => exact hsweeps

theorem finalizeRow_sweeps (db : Db) (row : Job) (current : Timestamp) (profile : Profile) :
    Sweeps db (finalizeRow db row current profile).1 := by
  unfold finalizeRow
  split
  · exact .refl db
  · split
    next h => exact markSwapSuccess_sweeps h
    next =>
      split
      · exact closeOrPending_sweeps db row current
      · exact .refl db
    next =>
      split
      · exact closeOrPending_sweeps db row current
      · split
        next h => exact markReconciliationRequired_sweeps h
        next => exact .refl db
    next =>
      split
      · exact closeOrPending_sweeps db row current
      · split
        next h => exact markReconciliationRequired_sweeps h
        next => exact .refl db
    next => exact .refl db

theorem reconcileRow_sweeps (db : Db) (row : Job) (current : Timestamp) (profile : Profile) :
    Sweeps db (reconcileRow db row current profile).1 := by
  unfold reconcileRow
  split
  · split
    next => exact .refl db
    next h => exact reconcileNoProviderChange_sweeps h
    next =>
      split
      next => exact .refl db
      next => exact .refl db
      next db' h =>
        have hrecorded : Sweeps db db' := by
          unfold recordInferredReplacement at h
          split at h
          · cases h
          · exact recordReplacement_sweeps h
        exact hrecorded.trans (finalizeRow_sweeps db' row current profile)
  · exact finalizeRow_sweeps db row current profile

theorem reconcileRows_sweeps (current : Timestamp) (profile : Profile) (rows : List Job) :
    ∀ db : Db, Sweeps db (reconcileRows current profile db rows).1 := by
  induction rows with
  | nil => exact fun db => .refl db
  | cons row rows ih =>
    intro db
    have hrow := reconcileRow_sweeps db row current profile
    unfold reconcileRows
    split
    next h =>
      rw [h] at hrow
      exact hrow
    next db' outcome _ h =>
      rw [h] at hrow
      exact hrow.trans (ih db')

/-! ## The schema -/

/-- A statement on assignments after which none waits that did not wait before. -/
theorem Repaired.map {f : Assignment → Assignment} (h : Repaired db)
    (hf : ∀ a, (f a).AwaitsRepair db → a.AwaitsRepair db) :
    Repaired { db with assignments := db.assignments.map f } := by
  intro a' ha' hawaits
  obtain ⟨a, ha, rfl⟩ := List.mem_map.mp ha'
  exact h a ha (hf a hawaits)

theorem repaired_ensured (hunique : JobsUnique db.jobs) (wall : Timestamp) :
    Repaired (ensureProxiwareSwapSchema db wall) := by
  rw [ensureProxiwareSwapSchema_eq hunique]
  intro a' ha' hawaits
  obtain ⟨a, ha, rfl⟩ := Table.mem_update.mp ha'
  by_cases h : a.AwaitsRepair db
  · have hstatus := hawaits.1
    rw [if_pos h] at hstatus
    change "active" = "pending" at hstatus
    exact absurd hstatus (by decide)
  · rw [if_neg h] at hawaits
    exact h hawaits

theorem jobsUnique_ensured (hunique : JobsUnique db.jobs) (wall : Timestamp) :
    JobsUnique (ensureProxiwareSwapSchema db wall).jobs := by
  rw [ensureProxiwareSwapSchema_eq hunique]
  exact hunique

theorem Repaired.ensured (h : Repaired db) (wall : Timestamp) :
    ensureProxiwareSwapSchema db wall = db :=
  if_neg fun ⟨a, ha, hawaits⟩ => h a ha hawaits

/-! ## Commits -/

/-- What the statements of a call make of the rows. -/
structure DashboardEvent.Writes (e : DashboardEvent) (db : Db) (requested : String)
    (f : Assignment → Assignment) : Prop where
  subscriptionId : ∀ a, (f a).subscriptionId = a.subscriptionId
  awaits : ∀ a, (f a).AwaitsRepair db → a.AwaitsRepair db
  observedAt : ∀ a, a.BelongsTo db requested → ∀ observedAt ∈ (f a).dashboardObservedAt,
    (∃ x ∈ e.entries, x.observedAt = observedAt) ∨
      (∃ snapshot, e.call = .observation snapshot) ∧ observedAt ∈ a.dashboardObservedAt

/-- What a call commits: nothing when it is refused, and for an empty snapshot that nothing was
observed. -/
inductive DashboardEvent.Committed (e : DashboardEvent) (db : Db) (requested : String) :
    Db × Bool → Prop where
  | refused : e.Committed db requested (db, false)
  | cleared {f : Assignment → Assignment} (hentries : e.entries = [])
      (hf : e.Writes db requested f) :
      e.Committed db requested ({ db with assignments := db.assignments.map f }, false)
  | accepted {f : Assignment → Assignment} {rows : List Assignment}
      (hrows : InOrder db requested e rows)
      (hprevious : ∀ r ∈ e.entries.zip rows, ∀ previous ∈ r.2.dashboardObservedAt,
        previous ≤ r.1.observedAt)
      (hf : e.Writes db requested f) :
      e.Committed db requested ({ db with assignments := db.assignments.map f }, true)

theorem commit_observation {snapshot : DashboardAssignment} (hcall : e.call = .observation snapshot)
    (on : e.On requested) : e.Committed db requested (e.commit db) := by
  have hentries : e.entries = [snapshot] := by
    unfold DashboardEvent.entries
    rw [hcall]
  have hscope : snapshot.subscriptionId = requested := by
    unfold DashboardEvent.On at on
    rw [hcall] at on
    exact on
  unfold DashboardEvent.commit
  simp only [hcall]
  cases h : applyDashboardObservation db snapshot e.current e.maxAgeSeconds with
  | error _ => exact .refused
  | ok db' =>
    obtain ⟨a, ha, h⟩ := Transaction.ok_of_bind h
    obtain rfl := Except.ok.inj h
    obtain ⟨htimely, hat, hprevious⟩ := resolvedObservation_ok.mp ha
    have hrows : InOrder db requested e [a] := by
      refine ⟨?_, ?_, ?_, List.nodup_singleton _⟩ <;> rw [hentries]
      · exact List.forall_mem_singleton.mpr hscope
      · exact List.nodup_singleton _
      · exact .cons ⟨htimely, hat⟩ .nil
    refine .accepted hrows ?_ ⟨?_, ?_, ?_⟩
    · rw [hentries]
      exact List.forall_mem_singleton.mpr hprevious
    · intro b
      dsimp only
      split <;> rfl
    · intro b hawaits
      split at hawaits <;> exact hawaits
    · intro b _ observedAt hobserved
      split at hobserved
      · rw [hentries]
        exact .inl ⟨snapshot, List.mem_singleton.mpr rfl, Option.some.inj hobserved⟩
      · exact .inr ⟨⟨snapshot, hcall⟩, hobserved⟩

/-- The rows that a snapshot resolves to. -/
theorem Resolves.exists_rows {current : Timestamp} {maxAgeSeconds : Int} :
    ∀ {resolved : List (DashboardAssignment × Nat)},
      (∀ r ∈ resolved, ∃ a, resolvedObservation db r.1 current maxAgeSeconds = .ok a ∧ a.id = r.2) →
      ∃ rows, List.Forall₂ (fun r a => resolvedObservation db r.1 current maxAgeSeconds = .ok a ∧
        a.id = r.2) resolved rows
  | [], _ => ⟨[], .nil⟩
  | r :: resolved, h => by
    obtain ⟨⟨a, ha⟩, hrest⟩ := List.forall_mem_cons.mp h
    obtain ⟨rows, hrows⟩ := exists_rows hrest
    exact ⟨a :: rows, .cons ha hrows⟩

theorem shownRow_cases (resolved : List (DashboardAssignment × Nat)) (current : Timestamp)
    (a : Assignment) :
    shownRow resolved current a = a ∨ ∃ r ∈ resolved, shownRow resolved current a =
      a.observed r.1 current := by
  unfold shownRow
  split
  next r hr => exact .inr ⟨r, List.mem_of_find?_eq_some hr, rfl⟩
  next => exact .inl rfl

theorem commit_snapshot {subscriptionId : String} {snapshots : List DashboardAssignment}
    (hcall : e.call = .snapshot subscriptionId snapshots) (on : e.On requested) :
    e.Committed db requested (e.commit db) := by
  have hentries : e.entries = snapshots := by
    unfold DashboardEvent.entries
    rw [hcall]
  have hrequested : requiredText subscriptionId 128 = some requested := by
    unfold DashboardEvent.On at on
    rw [hcall] at on
    exact on
  unfold DashboardEvent.commit applyDashboardSnapshot
  simp only [hcall, hrequested]
  by_cases hempty : snapshots = []
  · rw [if_pos hempty]
    refine .cleared (hentries.trans hempty) ⟨?_, ?_, ?_⟩
    · intro a
      dsimp only
      split <;> rfl
    · intro a hawaits
      split at hawaits <;> exact hawaits
    · intro a hbelongs observedAt hobserved
      split at hobserved
      next => cases hobserved
      next h => exact absurd hbelongs h
  rw [if_neg hempty]
  cases hwrite : writeSnapshot db requested snapshots e.current e.maxAgeSeconds with
  | error _ => exact .refused
  | ok db' =>
    obtain ⟨resolved, hresolves, rfl⟩ := writeSnapshot_ok.mp hwrite
    obtain ⟨rows, hrows⟩ := Resolves.exists_rows hresolves.rows
    have hresolved : List.Forall₂ (fun x a =>
        resolvedObservation db x e.current e.maxAgeSeconds = .ok a) e.entries rows := by
      rw [hentries, ← hresolves.snapshots, List.forall₂_map_left_iff]
      exact hrows.imp fun _ _ h => h.1
    have hids : rows.map Assignment.id = resolved.map Prod.snd := by
      rw [← List.forall₂_eq_eq_eq, List.forall₂_map_left_iff, List.forall₂_map_right_iff]
      exact hrows.flip.imp fun _ _ h => h.2
    have hinOrder : InOrder db requested e rows := by
      refine ⟨?_, ?_, ?_, ?_⟩
      · rw [hentries, ← hresolves.snapshots]
        exact List.forall_mem_map.mpr hresolves.scope
      · rw [hentries, ← hresolves.snapshots, List.map_map]
        exact hresolves.dashboardIds.1
      · refine hresolved.imp fun x a h => ?_
        obtain ⟨htimely, hat, -⟩ := resolvedObservation_ok.mp h
        exact ⟨htimely, hat⟩
      · rw [hids]
        exact hresolves.assignmentIds.1
    refine .accepted hinOrder ?_ ⟨?_, ?_, ?_⟩
    · rintro ⟨x, a⟩ hmem
      exact (resolvedObservation_ok.mp (List.forall₂_zip hresolved hmem)).2.2
    · intro a
      rcases shownRow_cases resolved e.current
        (if a.BelongsTo db requested then a.unobserved e.current else a) with h | ⟨r, -, h⟩ <;>
      · rw [h]
        split <;> rfl
    · intro a hawaits
      rcases shownRow_cases resolved e.current
        (if a.BelongsTo db requested then a.unobserved e.current else a) with h | ⟨r, -, h⟩ <;>
      · rw [h] at hawaits
        split at hawaits <;> exact hawaits
    · intro a hbelongs observedAt hobserved
      rw [if_pos hbelongs] at hobserved
      rcases shownRow_cases resolved e.current (a.unobserved e.current) with h | ⟨r, hr, h⟩
      · rw [h] at hobserved
        cases hobserved
      · rw [h] at hobserved
        refine .inl ⟨r.1, ?_, Option.some.inj hobserved⟩
        rw [hentries, ← hresolves.snapshots]
        exact List.mem_map.mpr ⟨r, hr, rfl⟩

theorem commit_committed (on : e.On requested) (db : Db) :
    e.Committed db requested (e.commit db) := by
  cases hcall : e.call with
  | observation snapshot => exact commit_observation hcall on
  | snapshot subscriptionId snapshots => exact commit_snapshot hcall on

/-! ## Runs -/

theorem DashboardEvent.Writes.repaired {f : Assignment → Assignment} (hf : e.Writes db requested f)
    (h : Repaired db) : Repaired { db with assignments := db.assignments.map f } :=
  h.map hf.awaits

theorem DashboardEvent.Committed.repaired {left : Db × Bool} (h : e.Committed db requested left)
    (hrepaired : Repaired db) : Repaired left.1 := by
  cases h with
  | refused => exact hrepaired
  | cleared _ hf => exact hf.repaired hrepaired
  | accepted _ _ hf => exact hf.repaired hrepaired

theorem DashboardEvent.Committed.jobs {left : Db × Bool} (h : e.Committed db requested left) :
    left.1.jobs = db.jobs := by
  cases h <;> rfl

/-- A call without older observations, on rows without older evidence or on a listing of all
rows. -/
theorem DashboardEvent.Writes.observedSince {f : Assignment → Assignment}
    (hf : e.Writes db requested f) (hentries : ¬ e.OlderThan t)
    (h : (∃ snapshot, e.call = .observation snapshot) → ObservedSince db requested t) :
    ObservedSince { db with assignments := db.assignments.map f } requested t := by
  intro a' ha' hbelongs' observedAt hobserved
  obtain ⟨a, ha, rfl⟩ := List.mem_map.mp ha'
  have hbelongs : a.BelongsTo db requested := by
    unfold Assignment.BelongsTo at hbelongs' ⊢
    rw [hf.subscriptionId] at hbelongs'
    exact hbelongs'
  rcases hf.observedAt a hbelongs observedAt hobserved with ⟨x, hx, rfl⟩ | ⟨hcall, hbefore⟩
  · exact not_lt.mp fun hlt => hentries ⟨x, hx, hlt⟩
  · exact h hcall a ha hbelongs observedAt hbefore

theorem Sweeps.observedSince (h : Sweeps db db') (hsince : ObservedSince db requested t) :
    ObservedSince db' requested t := by
  rintro a' ha' ⟨s', hs', hid', hexternal'⟩ observedAt hobserved
  obtain ⟨a, ha, hsubscription, hsame⟩ := h.assignments a' ha'
  obtain ⟨s, hs, hid, hexternal⟩ := h.subscriptions s' hs'
  refine hsince a ha ⟨s, hs, ?_, hexternal ▸ hexternal'⟩ observedAt (hsame ▸ hobserved)
  rw [← hid, ← hsubscription]
  exact hid'

/-- What a committed snapshot establishes. -/
structure Settled (db : Db) (requested : String) (t : Timestamp) : Prop where
  unique : JobsUnique db.jobs
  repaired : Repaired db
  since : ObservedSince db requested t

theorem Settled.sweep (h : Settled db requested t) (current : Timestamp) (profile : Profile) :
    Settled (reconcileProviderAppliedSwaps db current 20 profile).1 requested t := by
  have hsweeps : Sweeps db (reconcileProviderAppliedSwaps db current 20 profile).1 :=
    reconcileRows_sweeps current profile _ db
  exact ⟨hsweeps.unique h.unique, hsweeps.repaired h.repaired, hsweeps.observedSince h.since⟩

theorem Settled.dashboard {left : Db × Bool} (h : Settled left.1 requested t) :
    Settled (if left.2 then (reconcileProviderAppliedSwaps left.1 e.current 20 e.profile).1
      else left.1) requested t := by
  split
  · exact h.sweep e.current e.profile
  · exact h

theorem DashboardEvent.Commits.settled {e₀ : DashboardEvent} {db₀ : Db}
    (h : e₀.Commits db₀ requested t) (hunique : JobsUnique db₀.jobs) :
    Settled (db₀.dashboard e₀) requested t := by
  have hcommitted := commit_committed h.on (ensureProxiwareSwapSchema db₀ e₀.wall)
  have haccepted := h.committed
  unfold Db.dashboard
  dsimp only
  refine Settled.dashboard ⟨hcommitted.jobs ▸ jobsUnique_ensured hunique e₀.wall,
    hcommitted.repaired (repaired_ensured hunique e₀.wall), ?_⟩
  generalize e₀.commit (ensureProxiwareSwapSchema db₀ e₀.wall) = left at hcommitted haccepted
  cases hcommitted with
  | refused => cases haccepted
  | cleared => cases haccepted
  | accepted _ _ hf =>
    refine hf.observedSince ?_ ?_
    · rintro ⟨x, hx, hlt⟩
      exact absurd (h.observed x hx) (ne_of_lt hlt)
    · rintro ⟨snapshot, hobservation⟩
      obtain ⟨subscriptionId, snapshots, hsnapshot⟩ := h.snapshot
      cases hobservation.symm.trans hsnapshot

/-- An older call that is guarded is refused. -/
theorem Repaired.guarded (h : Repaired db) (on : e.On requested) (hentries : e.OlderThan t)
    (hguarded : e.Guarded db requested) : db.dashboard e = db := by
  have hcommitted := commit_committed on db
  unfold Db.dashboard
  rw [h.ensured e.wall]
  generalize e.commit db = left at hcommitted ⊢
  cases hcommitted with
  | refused => rfl
  | cleared hempty _ =>
    obtain ⟨x, hx, -⟩ := hentries
    rw [hempty] at hx
    cases hx
  | accepted hrows hprevious _ =>
    obtain ⟨r, hr, previous, hmem, hlt⟩ := hguarded _ hrows
    exact absurd hlt (not_lt.mpr (hprevious r hr previous hmem))

theorem Settled.step (h : Settled db requested t) (on : e.On requested)
    (hguarded : e.OlderThan t → e.Guarded db requested) :
    Settled (db.dashboard e) requested t := by
  by_cases hentries : e.OlderThan t
  · rw [h.repaired.guarded on hentries (hguarded hentries)]
    exact h
  · have hcommitted := commit_committed on db
    unfold Db.dashboard
    rw [h.repaired.ensured e.wall]
    dsimp only
    refine Settled.dashboard ⟨hcommitted.jobs ▸ h.unique, hcommitted.repaired h.repaired, ?_⟩
    generalize e.commit db = left at hcommitted ⊢
    cases hcommitted with
    | refused => exact h.since
    | cleared _ hf => exact hf.observedSince hentries fun _ => h.since
    | accepted _ _ hf => exact hf.observedSince hentries fun _ => h.since

/-- As long as every call with an older observation lists a row that still carries a newer one, the
evidence of a subscription does not go backwards: after a snapshot, no row has an older observation,
and a call with an older observation changes no row. -/
theorem dashboard_never_backwards {db₀ : Db} (hunique : JobsUnique db₀.jobs) {e₀ : DashboardEvent}
    (hcommit : e₀.Commits db₀ requested t) {h : List (DashboardEvent × Db)}
    (run : History.Run (fun db e db' => e.On requested ∧ db.dashboard e = db')
      (db₀.dashboard e₀) h db)
    (hguarded : History.Throughout (fun db e => e.OlderThan t → e.Guarded db requested)
      (db₀.dashboard e₀) h) :
    ObservedSince db requested t ∧ ∀ e : DashboardEvent, e.On requested → e.OlderThan t →
      e.Guarded db requested → (db.dashboard e).assignments = db.assignments := by
  have hsettled : Settled db requested t := by
    refine (run.throughout hguarded).always (P := fun db => Settled db requested t)
      (hcommit.settled hunique) ?_
    rintro db e db' hdb ⟨⟨on, rfl⟩, he⟩
    exact hdb.step on he
  refine ⟨hsettled.since, fun e on hentries he => ?_⟩
  rw [hsettled.repaired.guarded on hentries he]

/-- Two assignments of a subscription, neither of them observed. -/
def twoListed : Db where
  subscriptions := [{ id := 1, externalId := "39277", lastSeenAt := 0, updatedAt := 0 }]
  assignments :=
    [{ id := 1, subscriptionId := 1, externalId := "a", host := "192.0.2.1", port := 8000
       updatedAt := 0 },
      { id := 2, subscriptionId := 1, externalId := "b", host := "192.0.2.2", port := 8000
        updatedAt := 0 }]
  assignmentSequence := 2

/-- A snapshot that lists one address. -/
def listing (address : String) (observedAt : Timestamp) : DashboardEvent where
  call := .snapshot "39277" [{ seenAt "d-1" address with observedAt := observedAt }]
  wall := seconds 25
  current := seconds 25

theorem listing_commits :
    (listing "192.0.2.1:8000" (seconds 20)).Commits twoListed "39277" (seconds 20) where
  on := by
    show requiredText "39277" 128 = some "39277"
    decide
  snapshot := ⟨_, _, rfl⟩
  observed := by decide
  committed := by decide +kernel

/-- The database after the first snapshot. -/
def afterListing : Db := twoListed.dashboard (listing "192.0.2.1:8000" (seconds 20))

theorem listing_guarded :
    (listing "192.0.2.1:8000" (seconds 10)).Guarded afterListing "39277" := by
  intro rows hrows
  have hresolved := hrows.resolved
  unfold DashboardEvent.entries listing at hresolved ⊢
  obtain _ | ⟨⟨-, endpoint, hendpoint, hobserved⟩, hrest⟩ := hresolved
  cases hrest
  rename_i a
  obtain rfl : endpoint = ⟨"192.0.2.1", some 8000⟩ :=
    Option.some.inj (hendpoint.symm.trans (by decide))
  have hnewer : ∀ a ∈ observedRows afterListing "39277" ⟨"192.0.2.1", some 8000⟩,
      ∃ previous ∈ a.dashboardObservedAt, seconds 10 < previous := by
    decide +kernel
  refine ⟨_, List.mem_singleton.mpr rfl, hnewer a ?_⟩
  exact hobserved ▸ List.mem_singleton.mpr rfl

/-- An older snapshot of the same row, twice. -/
theorem dashboard_never_backwards_sameRow :
    (afterListing.dashboard (listing "192.0.2.1:8000" (seconds 10))).assignments =
      afterListing.assignments := by
  have on : (listing "192.0.2.1:8000" (seconds 10)).On "39277" := by
    show requiredText "39277" 128 = some "39277"
    decide
  have holder : (listing "192.0.2.1:8000" (seconds 10)).OlderThan (seconds 20) :=
    ⟨_, List.mem_singleton.mpr rfl, by decide⟩
  have hsame : afterListing.dashboard (listing "192.0.2.1:8000" (seconds 10)) = afterListing := by
    decide +kernel
  have run : History.Run (fun db e db' => DashboardEvent.On e "39277" ∧ db.dashboard e = db')
      afterListing [(listing "192.0.2.1:8000" (seconds 10), afterListing)] afterListing :=
    .snoc .nil ⟨on, hsame⟩
  exact (dashboard_never_backwards (by decide) listing_commits run
    ⟨fun _ => listing_guarded, trivial⟩).2 _ on holder listing_guarded

/-- A later snapshot brings an older observation of the other row, and the first row loses its newer
one. -/
theorem older_snapshot_accepted :
    (listing "192.0.2.1:8000" (seconds 20)).Commits twoListed "39277" (seconds 20) ∧
      (listing "192.0.2.2:8000" (seconds 10)).On "39277" ∧
      (listing "192.0.2.2:8000" (seconds 10)).OlderThan (seconds 20) ∧
      afterListing.assignments.map Assignment.dashboardObservedAt = [some (seconds 20), none] ∧
      (afterListing.dashboard (listing "192.0.2.2:8000" (seconds 10))).assignments.map
        Assignment.dashboardObservedAt = [none, some (seconds 10)] := by
  refine ⟨listing_commits, ?_, ⟨_, List.mem_singleton.mpr rfl, by decide⟩, by decide +kernel,
    by decide +kernel⟩
  show requiredText "39277" 128 = some "39277"
  decide

end EarnProxy.Swap

import EarnProxy.Swap.Lineage

/-!
# Snapshots of the dashboard

`apply_dashboard_snapshot` resolves every observation before it writes one. What it writes is
described row by row: a listed row has its observation, and the other rows of the subscription have
none.
-/

namespace EarnProxy.Swap

/-- `apply_dashboard_snapshot`, from the schema that it ensures to its own transaction. -/
def snapshotCall (db : Db) (wall : Timestamp) (subscriptionId : String)
    (snapshots : List DashboardAssignment) (current : Timestamp) (maxAgeSeconds : Int) :
    Db × Option SwapError :=
  applyDashboardSnapshot (ensureProxiwareSwapSchema db wall) subscriptionId snapshots current
    maxAgeSeconds

/-- The assignment belongs to the subscription that the dashboard calls so. -/
def Assignment.BelongsTo (db : Db) (requested : String) (a : Assignment) : Prop :=
  ∃ s ∈ db.subscriptions, s.id = a.subscriptionId ∧ s.externalId = requested

instance (db : Db) (requested : String) (a : Assignment) : Decidable (a.BelongsTo db requested) :=
  inferInstanceAs (Decidable (∃ s ∈ db.subscriptions, _))

/-- The assignment carries the observation. -/
structure Assignment.Shows (a : Assignment) (snapshot : DashboardAssignment) : Prop where
  assignmentId : a.dashboardAssignmentId = some snapshot.assignmentId
  eligible : a.dashboardEligible = snapshot.eligible
  connections : a.dashboardConnections = snapshot.connections
  observedAt : a.dashboardObservedAt = some snapshot.observedAt
  source : a.dashboardSource = "provider_dashboard"

/-- The assignment carries no observation. -/
structure Assignment.Unseen (a : Assignment) : Prop where
  assignmentId : a.dashboardAssignmentId = none
  eligible : a.dashboardEligible = none
  connections : a.dashboardConnections = none
  observedAt : a.dashboardObservedAt = none
  source : a.dashboardSource = ""

/-- What a snapshot makes of a row, where `resolved` has the observations with the ids that they
resolve to. -/
structure SnapshotRow (db : Db) (requested : String) (resolved : List (DashboardAssignment × Nat))
    (a a' : Assignment) : Prop where
  id : a'.id = a.id
  outside : ¬ a.BelongsTo db requested → a' = a
  undistributed : a.BelongsTo db requested → a'.distributionEnabled = false
  shown : ∀ snapshot, (snapshot, a.id) ∈ resolved → a.BelongsTo db requested ∧ a'.Shows snapshot ∧
    a'.providerEligible = snapshot.eligible.getD a.providerEligible
  unlisted : a.BelongsTo db requested → (∀ snapshot, (snapshot, a.id) ∉ resolved) →
    a'.Unseen ∧ a'.providerEligible = a.providerEligible

/-- A snapshot that is committed as a whole. -/
structure SnapshotApplied (db : Db) (requested : String) (snapshots : List DashboardAssignment)
    (current : Timestamp) (maxAgeSeconds : Int) (db' : Db) : Prop where
  rows : ∃ resolved, resolved.map Prod.fst = snapshots ∧ (resolved.map Prod.snd).Nodup ∧
    (∀ r ∈ resolved, ∃ a ∈ db.assignments, a.id = r.2 ∧
      resolvedObservation db r.1 current maxAgeSeconds = .ok a) ∧
    List.Forall₂ (SnapshotRow db requested resolved) db.assignments db'.assignments
  rest : { db' with assignments := db.assignments } = db

/-! ## Resolution -/

variable {db : Db} {requested : String} {current : Timestamp} {maxAgeSeconds : Int}

theorem observedRows_mem {endpoint : Endpoint} {a : Assignment}
    (h : a ∈ observedRows db requested endpoint) :
    a ∈ db.assignments ∧ a.BelongsTo db requested := by
  obtain ⟨hmem, hrow⟩ := List.mem_filter.mp h
  exact ⟨hmem, (of_decide_eq_true hrow).1⟩

/-- The observation is neither too old nor ahead of time. -/
def DashboardAssignment.Timely (snapshot : DashboardAssignment) (current : Timestamp)
    (maxAgeSeconds : Int) : Prop :=
  seconds (-60) ≤ current - snapshot.observedAt ∧
    current - snapshot.observedAt ≤ seconds (max 1 maxAgeSeconds)

/-- What it takes for an observation to resolve to a row. -/
theorem resolvedObservation_ok {snapshot : DashboardAssignment} {a : Assignment} :
    resolvedObservation db snapshot current maxAgeSeconds = .ok a ↔
      snapshot.Timely current maxAgeSeconds ∧
      (∃ endpoint, dashboardAddressEndpoint snapshot.address = some endpoint ∧
        observedRows db snapshot.subscriptionId endpoint = [a]) ∧
      ∀ previous ∈ a.dashboardObservedAt, previous ≤ snapshot.observedAt := by
  constructor
  · intro h
    unfold resolvedObservation at h
    obtain ⟨hage, h⟩ := Transaction.ok_of_check h
    obtain ⟨hlow, hhigh⟩ := not_or.mp hage
    split at h
    next => cases h
    next endpoint hendpoint =>
      split at h
      next => cases h
      next row hrows =>
        obtain ⟨hnewer, h⟩ := Transaction.ok_of_check h
        obtain rfl := Except.ok.inj h
        refine ⟨⟨not_lt.mp hlow, not_lt.mp hhigh⟩, ⟨endpoint, hendpoint, hrows⟩, ?_⟩
        intro previous hprevious
        exact not_lt.mp fun hlt => hnewer ⟨previous, hprevious, hlt⟩
      next => cases h
  · rintro ⟨⟨hlow, hhigh⟩, ⟨endpoint, hendpoint, hrows⟩, hprevious⟩
    unfold resolvedObservation
    rw [if_neg (not_or.mpr ⟨not_lt.mpr hlow, not_lt.mpr hhigh⟩)]
    simp only [hendpoint, hrows]
    rw [if_neg ?_]
    · rfl
    · rintro ⟨previous, hmem, hlt⟩
      exact not_le.mpr hlt (hprevious previous hmem)

theorem resolvedObservation_mem {snapshot : DashboardAssignment} {a : Assignment}
    (h : resolvedObservation db snapshot current maxAgeSeconds = .ok a) :
    a ∈ db.assignments ∧ a.BelongsTo db snapshot.subscriptionId := by
  obtain ⟨-, ⟨endpoint, -, hrows⟩, -⟩ := resolvedObservation_ok.mp h
  exact observedRows_mem (hrows ▸ List.mem_singleton.mpr rfl)

/-- A list of observations that resolves, after others have been resolved. -/
structure Resolves (db : Db) (requested : String) (current : Timestamp) (maxAgeSeconds : Int)
    (snapshots : List DashboardAssignment) (seenDashboardIds : List String)
    (seenAssignmentIds : List Nat) (resolved : List (DashboardAssignment × Nat)) : Prop where
  snapshots : resolved.map Prod.fst = snapshots
  scope : ∀ r ∈ resolved, r.1.subscriptionId = requested
  rows : ∀ r ∈ resolved, ∃ a, resolvedObservation db r.1 current maxAgeSeconds = .ok a ∧ a.id = r.2
  dashboardIds : (resolved.map fun r => r.1.assignmentId).Nodup ∧
    ∀ r ∈ resolved, r.1.assignmentId ∉ seenDashboardIds
  assignmentIds : (resolved.map Prod.snd).Nodup ∧ ∀ r ∈ resolved, r.2 ∉ seenAssignmentIds

theorem resolveSnapshots_ok (snapshots : List DashboardAssignment) :
    ∀ (seenDashboardIds : List String) (seenAssignmentIds : List Nat)
      (resolved : List (DashboardAssignment × Nat)),
      resolveSnapshots db requested current maxAgeSeconds snapshots seenDashboardIds
          seenAssignmentIds = .ok resolved ↔
        Resolves db requested current maxAgeSeconds snapshots seenDashboardIds seenAssignmentIds
          resolved := by
  induction snapshots with
  | nil =>
    intro seenDashboardIds seenAssignmentIds resolved
    constructor
    · intro h
      obtain rfl := Except.ok.inj h
      exact ⟨rfl, by simp, by simp, by simp, by simp⟩
    · intro h
      rw [List.map_eq_nil_iff.mp h.snapshots]
      rfl
  | cons snapshot snapshots ih =>
    intro seenDashboardIds seenAssignmentIds resolved
    constructor
    · intro h
      unfold resolveSnapshots at h
      obtain ⟨hscope, h⟩ := Transaction.ok_of_check h
      obtain ⟨hdashboard, h⟩ := Transaction.ok_of_check h
      obtain ⟨a, ha, h⟩ := Transaction.ok_of_bind h
      obtain ⟨hassignment, h⟩ := Transaction.ok_of_check h
      obtain ⟨rest, hrest, h⟩ := Transaction.ok_of_bind h
      obtain rfl := Except.ok.inj h
      obtain ⟨hsnapshots, hscopes, hrows, ⟨hids, hfresh⟩, hids', hfresh'⟩ := (ih _ _ _).mp hrest
      have hdashboards : ∀ r ∈ rest, r.1.assignmentId ≠ snapshot.assignmentId ∧
          r.1.assignmentId ∉ seenDashboardIds := fun r hr =>
        not_or.mp fun hmem => hfresh r hr (List.mem_cons.mpr hmem)
      have hassignments : ∀ r ∈ rest, r.2 ≠ a.id ∧ r.2 ∉ seenAssignmentIds := fun r hr =>
        not_or.mp fun hmem => hfresh' r hr (List.mem_cons.mpr hmem)
      refine ⟨congrArg (snapshot :: ·) hsnapshots, ?_, ?_, ⟨?_, ?_⟩, ?_, ?_⟩
      · exact List.forall_mem_cons.mpr ⟨not_not.mp hscope, hscopes⟩
      · exact List.forall_mem_cons.mpr ⟨⟨a, ha, rfl⟩, hrows⟩
      · refine List.nodup_cons.mpr ⟨fun hmem => ?_, hids⟩
        obtain ⟨r, hr, heq⟩ := List.mem_map.mp hmem
        exact (hdashboards r hr).1 heq
      · exact List.forall_mem_cons.mpr ⟨hdashboard, fun r hr => (hdashboards r hr).2⟩
      · refine List.nodup_cons.mpr ⟨fun hmem => ?_, hids'⟩
        obtain ⟨r, hr, heq⟩ := List.mem_map.mp hmem
        exact (hassignments r hr).1 heq
      · exact List.forall_mem_cons.mpr ⟨hassignment, fun r hr => (hassignments r hr).2⟩
    · rintro ⟨hsnapshots, hscopes, hrows, ⟨hids, hfresh⟩, hids', hfresh'⟩
      obtain ⟨r, rest, rfl, rfl, rfl⟩ := List.map_eq_cons_iff.mp hsnapshots
      obtain ⟨hscope, hscopes⟩ := List.forall_mem_cons.mp hscopes
      obtain ⟨⟨a, ha, haid⟩, hrows⟩ := List.forall_mem_cons.mp hrows
      obtain ⟨hid, hids⟩ := List.nodup_cons.mp hids
      obtain ⟨hid', hids'⟩ := List.nodup_cons.mp hids'
      obtain ⟨hdashboard, hfresh⟩ := List.forall_mem_cons.mp hfresh
      obtain ⟨hassignment, hfresh'⟩ := List.forall_mem_cons.mp hfresh'
      rw [← haid] at hid' hassignment
      have hrest : resolveSnapshots db requested current maxAgeSeconds (rest.map Prod.fst)
          (r.1.assignmentId :: seenDashboardIds) (a.id :: seenAssignmentIds) = .ok rest := by
        refine (ih _ _ _).mpr ⟨rfl, hscopes, hrows, ⟨hids, fun r' hr' hmem => ?_⟩, hids',
          fun r' hr' hmem => ?_⟩
        · rcases List.mem_cons.mp hmem with heq | hmem
          · exact hid (List.mem_map.mpr ⟨r', hr', heq⟩)
          · exact hfresh r' hr' hmem
        · rcases List.mem_cons.mp hmem with heq | hmem
          · exact hid' (List.mem_map.mpr ⟨r', hr', heq⟩)
          · exact hfresh' r' hr' hmem
      unfold resolveSnapshots
      rw [if_neg (not_not.mpr hscope), if_neg hdashboard, ha]
      change (if a.id ∈ seenAssignmentIds then _ else _) = _
      rw [if_neg hassignment, hrest, haid]
      rfl

/-! ## Writing -/

/-- What the statements for the resolved observations make of a row. -/
def shownRow (resolved : List (DashboardAssignment × Nat)) (current : Timestamp) (a : Assignment) :
    Assignment :=
  match resolved.find? fun r => r.2 = a.id with
  | some r => a.observed r.1 current
  | none => a

theorem shownRow_of_not_mem {resolved : List (DashboardAssignment × Nat)} {a : Assignment}
    (h : ∀ snapshot, (snapshot, a.id) ∉ resolved) : shownRow resolved current a = a := by
  have hnone : resolved.find? (fun r => r.2 = a.id) = none := by
    rw [List.find?_eq_none]
    intro r hr heq
    have hid : r.2 = a.id := of_decide_eq_true heq
    exact h r.1 (hid ▸ hr)
  unfold shownRow
  rw [hnone]

theorem foldl_observed (resolved : List (DashboardAssignment × Nat)) :
    ∀ db : Db, (resolved.map Prod.snd).Nodup →
      resolved.foldl (fun db r => db.updateAssignment r.2 fun a => a.observed r.1 current) db =
        { db with assignments := db.assignments.map (shownRow resolved current) } := by
  induction resolved with
  | nil =>
    intro db _
    have hsame : shownRow [] current = id := rfl
    simp [hsame]
  | cons r resolved ih =>
    intro db hnodup
    obtain ⟨hfresh, hrest⟩ := List.nodup_cons.mp hnodup
    rw [List.foldl_cons, ih _ hrest]
    unfold Db.updateAssignment Db.updateAssignments Table.update
    simp only [List.map_map]
    congr 1
    apply List.map_congr_left
    intro a _
    rw [Function.comp]
    by_cases hid : a.id = r.2
    · have hdone : shownRow resolved current (a.observed r.1 current) = a.observed r.1 current :=
        shownRow_of_not_mem fun snapshot hmem => hfresh (List.mem_map.mpr ⟨_, hmem, hid⟩)
      rw [if_pos hid, hdone]
      unfold shownRow
      rw [List.find?_cons_of_pos (by simpa using hid.symm)]
    · rw [if_neg hid]
      unfold shownRow
      rw [List.find?_cons_of_neg (by simpa using Ne.symm hid)]

theorem shownRow_of_mem {resolved : List (DashboardAssignment × Nat)}
    {snapshot : DashboardAssignment}
    {a : Assignment} (hnodup : (resolved.map Prod.snd).Nodup) (h : (snapshot, a.id) ∈ resolved) :
    shownRow resolved current a = a.observed snapshot current := by
  obtain ⟨r, hr⟩ := Option.isSome_iff_exists.mp
    (List.find?_isSome.mpr ⟨(snapshot, a.id), h, decide_eq_true rfl⟩ :
      (resolved.find? fun r => r.2 = a.id).isSome = true)
  have hid : r.2 = a.id := by simpa using List.find?_some hr
  have hsame : r = (snapshot, a.id) :=
    List.inj_on_of_nodup_map hnodup (List.mem_of_find?_eq_some hr) h hid
  unfold shownRow
  rw [hr, hsame]

/-- What the transaction of a snapshot leaves. -/
def Db.withSnapshot (db : Db) (requested : String) (resolved : List (DashboardAssignment × Nat))
    (current : Timestamp) : Db :=
  let row (a : Assignment) :=
    shownRow resolved current (if a.BelongsTo db requested then a.unobserved current else a)
  { db with assignments := db.assignments.map row }

theorem writeSnapshot_ok {snapshots : List DashboardAssignment} {db' : Db} :
    writeSnapshot db requested snapshots current maxAgeSeconds = .ok db' ↔
      ∃ resolved, Resolves db requested current maxAgeSeconds snapshots [] [] resolved ∧
        db' = db.withSnapshot requested resolved current := by
  have hwrite : ∀ resolved, (resolved.map Prod.snd).Nodup →
      resolved.foldl (fun db r => db.updateAssignment r.2 fun a => a.observed r.1 current)
          (clearDashboard db requested current) = db.withSnapshot requested resolved current := by
    intro resolved hnodup
    rw [foldl_observed resolved _ hnodup]
    unfold clearDashboard Db.updateAssignments Table.update
    simp only [List.map_map]
    rfl
  constructor
  · intro h
    obtain ⟨resolved, hresolved, h⟩ := Transaction.ok_of_bind h
    obtain rfl := Except.ok.inj h
    have hresolves := (resolveSnapshots_ok snapshots [] [] resolved).mp hresolved
    exact ⟨resolved, hresolves, hwrite resolved hresolves.assignmentIds.1⟩
  · rintro ⟨resolved, hresolves, rfl⟩
    unfold writeSnapshot
    rw [(resolveSnapshots_ok snapshots [] [] resolved).mpr hresolves,
      ← hwrite resolved hresolves.assignmentIds.1]
    rfl

theorem Resolves.snapshotRow {snapshots : List DashboardAssignment}
    {resolved : List (DashboardAssignment × Nat)} (hids : Table.Keyed Assignment.id db.assignments)
    (h : Resolves db requested current maxAgeSeconds snapshots [] [] resolved) {a : Assignment}
    (ha : a ∈ db.assignments) :
    SnapshotRow db requested resolved a
      (shownRow resolved current
        (if a.BelongsTo db requested then a.unobserved current else a)) := by
  have hnodup := h.assignmentIds.1
  have hlisted : ∀ snapshot, (snapshot, a.id) ∈ resolved → a.BelongsTo db requested := by
    intro snapshot hmem
    obtain ⟨row, hrow, hid⟩ := h.rows _ hmem
    obtain ⟨hrowmem, hbelongs⟩ := resolvedObservation_mem hrow
    obtain rfl := hids.eq hrowmem ha hid
    exact h.scope _ hmem ▸ hbelongs
  by_cases hbelongs : a.BelongsTo db requested
  · rw [if_pos hbelongs]
    by_cases hmem : ∃ snapshot, (snapshot, a.id) ∈ resolved
    · obtain ⟨snapshot, hmem⟩ := hmem
      have hshown : shownRow resolved current (a.unobserved current) =
          (a.unobserved current).observed snapshot current := shownRow_of_mem hnodup hmem
      rw [hshown]
      refine ⟨rfl, fun h => absurd hbelongs h, fun _ => rfl, fun other hother => ?_,
        fun _ hnone => ?_⟩
      · have hsame : (other, a.id) = (snapshot, a.id) :=
          List.inj_on_of_nodup_map hnodup hother hmem rfl
        obtain rfl := congrArg Prod.fst hsame
        exact ⟨hbelongs, ⟨rfl, rfl, rfl, rfl, rfl⟩, rfl⟩
      · exact absurd hmem (hnone snapshot)
    · have hnone : ∀ snapshot, (snapshot, a.id) ∉ resolved := fun snapshot h => hmem ⟨snapshot, h⟩
      have hshown : shownRow resolved current (a.unobserved current) = a.unobserved current :=
        shownRow_of_not_mem hnone
      rw [hshown]
      exact ⟨rfl, fun h => absurd hbelongs h, fun _ => rfl,
        fun snapshot h => absurd h (hnone snapshot),
        fun _ _ => ⟨⟨rfl, rfl, rfl, rfl, rfl⟩, rfl⟩⟩
  · have hnone : ∀ snapshot, (snapshot, a.id) ∉ resolved :=
      fun snapshot h => hbelongs (hlisted snapshot h)
    rw [if_neg hbelongs, shownRow_of_not_mem hnone]
    exact ⟨rfl, fun _ => rfl, fun h => absurd h hbelongs,
      fun snapshot h => absurd h (hnone snapshot),
      fun h => absurd h hbelongs⟩

/-- A snapshot is applied as a whole, or leaves the database as the schema was ensured; and that is
how it was before, but for the replacements of earlier swaps that were still marked as pending. -/
theorem snapshot_all_or_nothing (hids : Table.Keyed Assignment.id db.assignments)
    (hunique : JobsUnique db.jobs) (wall : Timestamp) (subscriptionId : String)
    {snapshots : List DashboardAssignment} (hne : snapshots ≠ []) (current : Timestamp)
    (maxAgeSeconds : Int) :
    let ensured := db.updateAssignments (fun a => a.AwaitsRepair db) fun a => a.repaired wall
    let left := snapshotCall db wall subscriptionId snapshots current maxAgeSeconds
    (left.2.isSome → left.1 = ensured) ∧
      (left.2 = none → ∃ requested, requiredText subscriptionId 128 = some requested ∧
        SnapshotApplied ensured requested snapshots current maxAgeSeconds left.1) := by
  dsimp only
  unfold snapshotCall
  rw [ensureProxiwareSwapSchema_eq hunique]
  generalize hensured :
    db.updateAssignments (fun a => a.AwaitsRepair db) (fun a => a.repaired wall) = ensured
  have hids' : Table.Keyed Assignment.id ensured.assignments := by
    subst hensured
    exact hids.map fun a _ => by split <;> rfl
  unfold applyDashboardSnapshot
  cases hrequested : requiredText subscriptionId 128 with
  | none => exact ⟨fun _ => rfl, nofun⟩
  | some requested =>
    simp only [if_neg hne]
    cases hwrite : writeSnapshot ensured requested snapshots current maxAgeSeconds with
    | error e => exact ⟨fun _ => rfl, nofun⟩
    | ok db' =>
      refine ⟨nofun, fun _ => ⟨requested, rfl, ?_⟩⟩
      obtain ⟨resolved, hresolves, rfl⟩ := writeSnapshot_ok.mp hwrite
      refine ⟨⟨resolved, hresolves.snapshots, hresolves.assignmentIds.1, ?_, ?_⟩, rfl⟩
      · intro r hr
        obtain ⟨a, ha, hid⟩ := hresolves.rows r hr
        exact ⟨a, (resolvedObservation_mem ha).1, hid, ha⟩
      · unfold Db.withSnapshot
        rw [List.forall₂_map_right_iff, List.forall₂_same]
        exact fun a ha => hresolves.snapshotRow hids' ha

/-- Two assignments of a subscription. The second is the replacement of an earlier swap, and an
older release has left it behind as pending. -/
def repairPending : Db where
  subscriptions := [{ id := 1, externalId := "39277", lastSeenAt := 0, updatedAt := 0 }]
  assignments :=
    [{ id := 1, subscriptionId := 1, externalId := "a", host := "192.0.2.1", port := 8000
       updatedAt := 0 },
      { id := 2, subscriptionId := 1, externalId := "b", host := "192.0.2.2", port := 8000
        status := "pending", replacementReadyAt := some 0, updatedAt := 0 }]
  assignmentSequence := 2
  jobs :=
    [{ id := 1, subscriptionId := 1, oldAssignmentId := some 3, newAssignmentId := some 2
       state := .success, createdAt := 0, updatedAt := 0 }]

/-- The dashboard shows an address. -/
def seenAt (assignmentId address : String) : DashboardAssignment where
  assignmentId := assignmentId
  subscriptionId := "39277"
  address := address
  eligible := some true
  connections := some 3
  observedAt := seconds 10

def seenBoth : List DashboardAssignment :=
  [seenAt "d-1" "192.0.2.1:8000", seenAt "d-2" "192.0.2.2:8000"]

/-- The call repairs the second row and writes what was seen of both. -/
theorem snapshot_all_or_nothing_repairPending :
    (∃ requested, requiredText "39277" 128 = some requested ∧
      SnapshotApplied (repairPending.updateAssignments (fun a => a.AwaitsRepair repairPending)
          fun a => a.repaired (seconds 20)) requested seenBoth (seconds 20) 900
        (snapshotCall repairPending (seconds 20) "39277" seenBoth (seconds 20) 900).1) ∧
    (snapshotCall repairPending (seconds 20) "39277" seenBoth (seconds 20)
        900).1.assignments.map (fun a => (a.status, a.dashboardAssignmentId)) =
      [("active", some "d-1"), ("active", some "d-2")] := by
  have hids : Table.Keyed Assignment.id repairPending.assignments := by
    unfold Table.Keyed
    decide
  have hunique : JobsUnique repairPending.jobs := by decide
  refine ⟨(snapshot_all_or_nothing hids hunique (seconds 20) "39277" (by decide) (seconds 20)
    900).2 (by decide +kernel), by decide +kernel⟩

/-- No row is at the second address, so the call raises; the repair has been committed before. -/
theorem snapshot_raises_after_repair :
    (snapshotCall repairPending (seconds 20) "39277"
        [seenAt "d-1" "192.0.2.1:8000", seenAt "d-2" "192.0.2.9:8000"] (seconds 20) 900).2 =
        some (.valueError "dashboard assignment not found") ∧
      (snapshotCall repairPending (seconds 20) "39277"
          [seenAt "d-1" "192.0.2.1:8000", seenAt "d-2" "192.0.2.9:8000"] (seconds 20)
          900).1.assignments ≠ repairPending.assignments := by
  decide +kernel

end EarnProxy.Swap

import EarnProxy.Library.Strongest
import EarnProxy.Swap.Moves

/-!
# The migration of `swap_jobs`

What `_ensure_proxiware_swap_schema` does to a table without the two unique indexes: it blocks all
jobs of a group but the strongest, first for each assignment and then for each subscription, and
creates the indexes over what is left.
-/

namespace EarnProxy.Swap

open Strongest

/-! ## The step -/

/-- The loop over the active jobs of each assignment, with the job that it keeps for each of
them. -/
def migrateByAssignment (jobs : List Job) (wall : Timestamp) : List Job × List (Nat × Nat) :=
  (conflictRows JobState.Active Job.oldAssignmentId jobs).foldl (keepStrongest wall) (jobs, [])

/-- The loop over the jobs of each subscription that are in a mutation state. -/
def migrateBySubscription (jobs : List Job) (wall : Timestamp) : List Job × List (Nat × Nat) :=
  (conflictRows JobState.Mutation (fun j => some j.subscriptionId) jobs).foldl (keepStrongest wall)
    (jobs, [])

/-- `CREATE UNIQUE INDEX` for both indexes. -/
def createJobIndexes (jobs : List Job) : Tx (List Job) :=
  if ¬(activeKeys jobs).Nodup then .error .integrityError
  else if ¬(mutationKeys jobs).Nodup then .error .integrityError
  else .ok jobs

def migrationStep (jobs : List Job) (wall : Timestamp) : Tx (List Job) :=
  createJobIndexes (migrateJobs jobs wall)

/-! ## One loop -/

section Pass

variable {key : Job → Option Nat} {states : JobState → Prop} [DecidablePred states]
  {jobs : List Job} {wall : Timestamp} {visits : List (Nat × Job)} {j j' : Job} {k : Nat}

/-- The rows that are visited under a key. -/
def visitedUnder (visits : List (Nat × Job)) (k : Nat) : List Job :=
  (visits.filter fun v => v.1 = k).map Prod.snd

theorem mem_visitedUnder : j ∈ visitedUnder visits k ↔ (k, j) ∈ visits := by
  unfold visitedUnder
  constructor
  · intro h
    obtain ⟨v, hv, rfl⟩ := List.mem_map.mp h
    obtain ⟨hmem, hkey⟩ := List.mem_filter.mp hv
    rw [← of_decide_eq_true hkey]
    exact hmem
  · intro h
    exact List.mem_map.mpr ⟨(k, j), List.mem_filter.mpr ⟨h, decide_eq_true rfl⟩, rfl⟩

theorem visitedUnder_snoc_self (visits : List (Nat × Job)) (k : Nat) (j : Job) :
    visitedUnder (visits ++ [(k, j)]) k = visitedUnder visits k ++ [j] := by
  simp [visitedUnder]

theorem visitedUnder_snoc_other (visits : List (Nat × Job)) {k k' : Nat} (h : k ≠ k') (j : Job) :
    visitedUnder (visits ++ [(k, j)]) k' = visitedUnder visits k' := by
  simp [visitedUnder, h]

/-- The job that the loop keeps for a key. -/
def keeperOf (visits : List (Nat × Job)) (k : Nat) : Option Job :=
  strongest (fun j => j.state.priority) (visitedUnder visits k)

theorem exists_keeperOf (h : (k, j) ∈ visits) : ∃ best, keeperOf visits k = some best := by
  apply Option.ne_none_iff_exists'.mp
  intro hnone
  rw [keeperOf, strongest_eq_none] at hnone
  have hvisited := mem_visitedUnder.mpr h
  rw [hnone] at hvisited
  cases hvisited

theorem keeperOf_snoc_self (visits : List (Nat × Job)) (k : Nat) (j : Job) :
    keeperOf (visits ++ [(k, j)]) k =
      replaced (fun j => j.state.priority) (keeperOf visits k) j := by
  rw [keeperOf, visitedUnder_snoc_self, strongest_append_singleton]
  rfl

theorem keeperOf_snoc_other (visits : List (Nat × Job)) {k k' : Nat} (h : k ≠ k') (j : Job) :
    keeperOf (visits ++ [(k, j)]) k' = keeperOf visits k' := by
  rw [keeperOf, visitedUnder_snoc_other visits h]
  rfl

/-- The job has been visited and is not the one that is kept for its key. -/
def Beaten (key : Job → Option Nat) (visits : List (Nat × Job)) (j : Job) : Prop :=
  ∃ k ∈ key j, (k, j) ∈ visits ∧ keeperOf visits k ≠ some j

instance (key : Job → Option Nat) (visits : List (Nat × Job)) (j : Job) :
    Decidable (Beaten key visits j) := by
  unfold Beaten
  cases key j with
  | none => exact isFalse (by simp)
  | some k =>
    exact decidable_of_iff ((k, j) ∈ visits ∧ keeperOf visits k ≠ some j) (by simp)

/-- The row of a job after the loop. -/
def settled (key : Job → Option Nat) (visits : List (Nat × Job)) (wall : Timestamp) (j : Job) :
    Job :=
  if Beaten key visits j then j.conflicted wall else j

@[simp] theorem settled_id : (settled key visits wall j).id = j.id := by
  unfold settled
  split <;> rfl

theorem settled_keeper (hk : key j = some k) (h : keeperOf visits k = some j) :
    settled key visits wall j = j := by
  apply if_neg
  rintro ⟨k', hk', -, hne⟩
  rw [hk, Option.mem_some_iff] at hk'
  exact hne (hk' ▸ h)

/-- What one more visit means for a job under its key. -/
theorem beaten_snoc_self (hk : key j = some k) (row : Job) :
    Beaten key (visits ++ [(k, row)]) j ↔ ((k, j) ∈ visits ∨ j = row) ∧
      replaced (fun j => j.state.priority) (keeperOf visits k) row ≠ some j := by
  unfold Beaten
  simp [hk, keeperOf_snoc_self]

theorem beaten_snoc_other {k' : Nat} (hk : key j ≠ some k') (row : Job) :
    Beaten key (visits ++ [(k', row)]) j ↔ Beaten key visits j := by
  unfold Beaten
  constructor
  · rintro ⟨k, hkey, hmem, hne⟩
    have hother : k' ≠ k := fun heq => hk (heq ▸ hkey)
    rw [keeperOf_snoc_other visits hother] at hne
    refine ⟨k, hkey, ?_, hne⟩
    simpa [Ne.symm hother] using hmem
  · rintro ⟨k, hkey, hmem, hne⟩
    have hother : k' ≠ k := fun heq => hk (heq ▸ hkey)
    refine ⟨k, hkey, List.mem_append_left _ hmem, ?_⟩
    rwa [keeperOf_snoc_other visits hother]

/-- A later visit says nothing about a job that it is not about, unless that job was the keeper. -/
theorem beaten_snoc_of_ne {row : Job} (hne : j ≠ row)
    (hkeeper : ∀ b ∈ keeperOf visits k, j ≠ b) :
    Beaten key (visits ++ [(k, row)]) j ↔ Beaten key visits j := by
  by_cases hk : key j = some k
  · rw [beaten_snoc_self hk]
    have hreplaced : replaced (fun j => j.state.priority) (keeperOf visits k) row ≠ some j := by
      unfold replaced
      cases hb : keeperOf visits k with
      | none => simpa using Ne.symm hne
      | some b =>
        have hjb := hkeeper b hb
        dsimp only
        split
        · simpa using Ne.symm hne
        · simpa using Ne.symm hjb
    have hkept : keeperOf visits k ≠ some j := fun h => hkeeper j h rfl
    simp [Beaten, hk, hne, hreplaced, hkept]
  · exact beaten_snoc_other hk row

theorem settled_fresh (hk : key j = some k) (h : (k, j) ∉ visits) :
    settled key visits wall j = j := by
  apply if_neg
  rintro ⟨k', hk', hmem, -⟩
  have heq : k = k' := Option.some.inj (hk.symm.trans hk')
  subst heq
  exact h hmem

/-- Blocking the one job that a visit beats. -/
theorem update_settled {visits' : List (Nat × Job)} {loser : Job} (hjobs : Table.Keyed Job.id jobs)
    (hloser : loser ∈ jobs) (hbeaten : Beaten key visits' loser)
    (hbefore : settled key visits wall loser = loser)
    (hothers : ∀ j ∈ jobs, j ≠ loser → settled key visits wall j = settled key visits' wall j) :
    Table.update (fun j : Job => j.id = loser.id) (fun j => j.conflicted wall)
        (jobs.map (settled key visits wall)) = jobs.map (settled key visits' wall) := by
  rw [Table.update, List.map_map]
  refine List.map_congr_left fun j hj => ?_
  rw [Function.comp, settled_id]
  split
  next hid =>
    obtain rfl := hjobs.eq hj hloser hid
    rw [hbefore, settled, if_pos hbeaten]
  next hid => exact hothers j hj fun heq => hid (congrArg Job.id heq)

/-- One visit. The keeper of its key is the heavier of the old one and the row. -/
theorem keepStrongest_settled {kept : List (Nat × Nat)} {row : Job}
    (hjobs : Table.Keyed Job.id jobs) (hrow : row ∈ jobs) (hkey : key row = some k)
    (hnew : (k, row) ∉ visits) (hrows : ∀ v ∈ visits, v.2 ∈ jobs ∧ key v.2 = some v.1)
    (hkept : ∀ k', kept.lookup k' = (keeperOf visits k').map Job.id) :
    (keepStrongest wall (jobs.map (settled key visits wall), kept) (k, row)).1 =
        jobs.map (settled key (visits ++ [(k, row)]) wall) ∧
      ∀ k', (keepStrongest wall (jobs.map (settled key visits wall), kept) (k, row)).2.lookup k' =
        (keeperOf (visits ++ [(k, row)]) k').map Job.id := by
  have hfresh : settled key visits wall row = row := settled_fresh hkey hnew
  have hself := keeperOf_snoc_self visits k row
  have hother : ∀ k' ≠ k, kept.lookup k' = (keeperOf (visits ++ [(k, row)]) k').map Job.id := by
    intro k' hne
    rw [keeperOf_snoc_other visits hne.symm]
    exact hkept k'
  have hlookup (hwinner : keeperOf (visits ++ [(k, row)]) k = some row) (k' : Nat) :
      ((k, row.id) :: kept).lookup k' = (keeperOf (visits ++ [(k, row)]) k').map Job.id := by
    rw [List.lookup_cons]
    by_cases heq : k' = k
    · subst heq
      simp [hwinner]
    · rw [beq_eq_false_iff_ne.mpr heq]
      exact hother k' heq
  cases hb : keeperOf visits k with
  | none =>
    have hnone : kept.lookup k = none := by
      rw [hkept k, hb]
      rfl
    have hwinner : keeperOf (visits ++ [(k, row)]) k = some row := by
      rw [hself, hb]
      rfl
    simp only [keepStrongest, hnone]
    refine ⟨List.map_congr_left fun j _ => ?_, hlookup hwinner⟩
    by_cases hjr : j = row
    · subst hjr
      rw [hfresh, settled_keeper hkey hwinner]
    · have hiff : Beaten key (visits ++ [(k, row)]) j ↔ Beaten key visits j :=
        beaten_snoc_of_ne hjr (by simp [hb])
      simp only [settled, hiff]
  | some b =>
    have hbmem : (k, b) ∈ visits := mem_visitedUnder.mp (strongest_spec hb).1
    obtain ⟨hbjobs, hbkey⟩ := hrows (k, b) hbmem
    have hbrow : b ≠ row := fun heq => hnew (heq ▸ hbmem)
    have hsome : kept.lookup k = some b.id := by
      rw [hkept k, hb]
      rfl
    have hbsettled : settled key visits wall b = b := settled_keeper hbkey hb
    have hcurrent : Table.lookup Job.id b.id (jobs.map (settled key visits wall)) = some b := by
      rw [Table.lookup_map fun r _ => settled_id, hjobs.lookup_eq hbjobs, Option.map_some,
        hbsettled]
    have hrest : ∀ j ≠ row, j ≠ b →
        settled key visits wall j = settled key (visits ++ [(k, row)]) wall j := by
      intro j hjr hjb
      have hiff : Beaten key (visits ++ [(k, row)]) j ↔ Beaten key visits j := by
        refine beaten_snoc_of_ne hjr fun b' hb' heq => ?_
        rw [hb, Option.mem_some_iff] at hb'
        exact hjb (heq.trans hb'.symm)
      simp only [settled, hiff]
    rw [hb] at hself
    simp only [keepStrongest, hsome, hcurrent]
    split
    next hlt =>
      have hwinner : keeperOf (visits ++ [(k, row)]) k = some row := hself.trans (if_pos hlt)
      have hbeaten : Beaten key (visits ++ [(k, row)]) b :=
        ⟨k, hbkey, List.mem_append_left _ hbmem, hwinner ▸ fun h => hbrow (Option.some.inj h).symm⟩
      refine ⟨update_settled hjobs hbjobs hbeaten hbsettled fun j _ hjb => ?_, hlookup hwinner⟩
      by_cases hjr : j = row
      · subst hjr
        rw [hfresh, settled_keeper hkey hwinner]
      · exact hrest j hjr hjb
    next hnlt =>
      have hwinner : keeperOf (visits ++ [(k, row)]) k = some b := hself.trans (if_neg hnlt)
      have hbeaten : Beaten key (visits ++ [(k, row)]) row :=
        ⟨k, hkey, by simp, hwinner ▸ fun h => hbrow (Option.some.inj h)⟩
      refine ⟨update_settled hjobs hrow hbeaten hfresh fun j _ hjr => ?_, fun k' => ?_⟩
      · by_cases hjb : j = b
        · subst hjb
          rw [hbsettled, settled_keeper hbkey hwinner]
        · exact hrest j hjr hjb
      · by_cases heq : k' = k
        · subst heq
          rw [hsome, hwinner]
          rfl
        · exact hother k' heq

/-- The loop blocks the beaten jobs, and has the keepers at hand. -/
theorem foldl_keepStrongest (hjobs : Table.Keyed Job.id jobs) (hnodup : visits.Nodup)
    (hrows : ∀ v ∈ visits, v.2 ∈ jobs ∧ key v.2 = some v.1) :
    (visits.foldl (keepStrongest wall) (jobs, [])).1 = jobs.map (settled key visits wall) ∧
      ∀ k, (visits.foldl (keepStrongest wall) (jobs, [])).2.lookup k =
        (keeperOf visits k).map Job.id := by
  induction visits using List.reverseRecOn with
  | nil =>
    have hsame : settled key [] wall = id := by
      funext j
      simp [settled, Beaten]
    rw [hsame, List.map_id]
    exact ⟨rfl, fun _ => rfl⟩
  | append_singleton visits v ih =>
    obtain ⟨k, row⟩ := v
    obtain ⟨hvisits, -, hfresh⟩ := List.nodup_append.mp hnodup
    have hnew : (k, row) ∉ visits := fun hmem => hfresh _ hmem _ (List.mem_singleton.mpr rfl) rfl
    have hbefore : ∀ v ∈ visits, v.2 ∈ jobs ∧ key v.2 = some v.1 :=
      fun v hv => hrows v (List.mem_append_left _ hv)
    obtain ⟨hmap, hkept⟩ := ih hvisits hbefore
    obtain ⟨hrow, hkey⟩ := hrows (k, row) (by simp)
    rw [List.foldl_append, List.foldl_cons, List.foldl_nil]
    generalize visits.foldl (keepStrongest wall) (jobs, []) = acc at hmap hkept ⊢
    obtain ⟨rows, kept⟩ := acc
    subst hmap
    exact keepStrongest_settled hjobs hrow hkey hnew hbefore hkept

theorem mem_conflictRows :
    (k, j) ∈ conflictRows states key jobs ↔ j ∈ jobs ∧ states j.state ∧ key j = some k := by
  unfold conflictRows
  rw [List.mem_insertionSort, List.mem_filterMap]
  constructor
  · rintro ⟨row, hrow, hvisit⟩
    obtain ⟨k', hk', heq⟩ := Option.map_eq_some_iff.mp hvisit
    cases heq
    obtain ⟨hmem, hstate⟩ := List.mem_filter.mp hrow
    exact ⟨hmem, of_decide_eq_true hstate, hk'⟩
  · rintro ⟨hmem, hstate, hkey⟩
    exact ⟨j, List.mem_filter.mpr ⟨hmem, decide_eq_true hstate⟩, by rw [hkey]; rfl⟩

theorem conflictRows_nodup (hjobs : Table.Keyed Job.id jobs) :
    (conflictRows states key jobs).Nodup := by
  unfold conflictRows
  rw [(List.perm_insertionSort _ _).nodup_iff]
  apply List.Nodup.filterMap
  · intro a a' v hv hv'
    obtain ⟨_, -, rfl⟩ := Option.map_eq_some_iff.mp hv
    obtain ⟨_, -, heq⟩ := Option.map_eq_some_iff.mp hv'
    exact (congrArg Prod.snd heq).symm
  · exact (List.Nodup.of_map _ hjobs).filter _

/-- The job shares its key with another job in these states. -/
def Contested (states : JobState → Prop) (key : Job → Option Nat) (jobs : List Job) (j : Job) :
    Prop :=
  states j.state ∧ ∃ j' ∈ jobs, j' ≠ j ∧ states j'.state ∧ ∃ k, key j = some k ∧ key j' = some k

/-- What a loop does: `after` is the table that it leaves and `keeper` the job that it keeps for
each key. -/
structure KeepsStrongest (states : JobState → Prop) (key : Job → Option Nat) (jobs : List Job)
    (wall : Timestamp) (after : List Job) (keeper : Nat → Option Nat) : Prop where
  ids : after.map Job.id = jobs.map Job.id
  keeps : ∀ k, (∃ j ∈ jobs, states j.state ∧ key j = some k) →
    ∃ best ∈ jobs, states best.state ∧ key best = some k ∧ keeper k = some best.id ∧ best ∈ after ∧
      ∀ j ∈ jobs, states j.state → key j = some k →
        j.state.priority ≤ best.state.priority ∧ (j ≠ best → j.conflicted wall ∈ after)
  uncontested : ∀ j ∈ jobs, ¬ Contested states key jobs j → j ∈ after
  rows : ∀ j ∈ after, j ∈ jobs ∧ (∀ k, states j.state → key j = some k → keeper k = some j.id) ∨
    ∃ j' ∈ jobs, states j'.state ∧ j = j'.conflicted wall

/-- One loop over the rows that it selects. -/
theorem keepsStrongest (hjobs : Table.Keyed Job.id jobs) :
    let acc := (conflictRows states key jobs).foldl (keepStrongest wall) (jobs, [])
    KeepsStrongest states key jobs wall acc.1 fun k => acc.2.lookup k := by
  have hrows : ∀ v ∈ conflictRows states key jobs, v.2 ∈ jobs ∧ key v.2 = some v.1 := fun v hv =>
    have hmem := mem_conflictRows.mp hv
    ⟨hmem.1, hmem.2.2⟩
  have hnodup : (conflictRows states key jobs).Nodup := conflictRows_nodup hjobs
  obtain ⟨hmap, hkept⟩ :
      (_ = jobs.map (settled key (conflictRows states key jobs) wall)) ∧ ∀ k, _ = _ :=
    foldl_keepStrongest hjobs hnodup hrows
  have hbeaten : ∀ {j k}, j ∈ jobs → states j.state → key j = some k →
      keeperOf (conflictRows states key jobs) k ≠ some j →
      Beaten key (conflictRows states key jobs) j := fun hj hstate hk hne =>
    ⟨_, hk, mem_conflictRows.mpr ⟨hj, hstate, hk⟩, hne⟩
  -- The keeper of a group is in it, and none of its members is stronger.
  have hkeeper : ∀ {k best}, keeperOf (conflictRows states key jobs) k = some best →
      (best ∈ jobs ∧ states best.state ∧ key best = some k) ∧ ∀ j ∈ jobs, states j.state →
        key j = some k → j.state.priority ≤ best.state.priority := by
    intro k best h
    obtain ⟨hmem, hle⟩ := strongest_spec h
    refine ⟨mem_conflictRows.mp (mem_visitedUnder.mp hmem), fun j hj hstate hk => ?_⟩
    exact hle j (mem_visitedUnder.mpr (mem_conflictRows.mpr ⟨hj, hstate, hk⟩))
  dsimp only
  rw [hmap]
  refine ⟨?_, ?_, ?_, ?_⟩
  · rw [List.map_map]
    exact List.map_congr_left fun j _ => settled_id
  · rintro k ⟨j, hj, hstate, hk⟩
    obtain ⟨best, hbest⟩ := exists_keeperOf (mem_conflictRows.mpr ⟨hj, hstate, hk⟩)
    obtain ⟨⟨hbjobs, hbstate, hbk⟩, hle⟩ := hkeeper hbest
    refine ⟨best, hbjobs, hbstate, hbk, by rw [hkept, hbest]; rfl, ?_, ?_⟩
    · exact List.mem_map.mpr ⟨best, hbjobs, settled_keeper hbk hbest⟩
    · intro j hj hstate hk
      refine ⟨hle j hj hstate hk, fun hne => List.mem_map.mpr ⟨j, hj, if_pos ?_⟩⟩
      exact hbeaten hj hstate hk fun h => hne (Option.some.inj (h.symm.trans hbest))
  · intro j hj hfree
    refine List.mem_map.mpr ⟨j, hj, if_neg ?_⟩
    rintro ⟨k, hk, hmem, hne⟩
    obtain ⟨-, hstate, -⟩ := mem_conflictRows.mp hmem
    obtain ⟨best, hbest⟩ := exists_keeperOf hmem
    obtain ⟨⟨hbjobs, hbstate, hbk⟩, -⟩ := hkeeper hbest
    exact hfree ⟨hstate, best, hbjobs, fun heq => hne (heq ▸ hbest), hbstate, k, hk, hbk⟩
  · intro j hj
    obtain ⟨row, hrow, rfl⟩ := List.mem_map.mp hj
    by_cases hlost : Beaten key (conflictRows states key jobs) row
    · right
      have ⟨k, _, hmem, _⟩ := hlost
      exact ⟨row, hrow, (mem_conflictRows.mp hmem).2.1, if_pos hlost⟩
    · left
      have hsame : settled key (conflictRows states key jobs) wall row = row := if_neg hlost
      rw [hsame]
      refine ⟨hrow, fun k hstate hk => ?_⟩
      rw [hkept]
      by_contra hne
      refine hlost (hbeaten hrow hstate hk fun h => hne ?_)
      rw [h]
      rfl

end Pass

/-! ## Both loops -/

variable {jobs : List Job} {wall : Timestamp}

theorem conflicted_not_active (j : Job) (wall : Timestamp) :
    ¬ (j.conflicted wall).state.Active := by
  rintro ((h | h) | h | h | h) <;> cases h

/-- Of the jobs that a loop has been over, one for each key is left in its states. -/
theorem KeepsStrongest.unique {states : JobState → Prop} {key : Job → Option Nat} {after : List Job}
    {keeper : Nat → Option Nat} (h : KeepsStrongest states key jobs wall after keeper)
    (hjobs : Table.Keyed Job.id jobs) (hstates : ∀ s, states s → s.Active) {j j' : Job}
    (hj : j ∈ after) (hj' : j' ∈ after) (hstate : states j.state) (hstate' : states j'.state)
    {k : Nat} (hk : key j = some k) (hk' : key j' = some k) : j = j' := by
  have hkept : ∀ {j}, j ∈ after → states j.state → key j = some k →
      j ∈ jobs ∧ keeper k = some j.id := by
    intro j hj hstate hk
    rcases h.rows j hj with ⟨hmem, hkeeper⟩ | ⟨row, -, -, rfl⟩
    · exact ⟨hmem, hkeeper k hstate hk⟩
    · exact absurd (hstates _ hstate) (conflicted_not_active row wall)
  obtain ⟨hmem, hkeeper⟩ := hkept hj hstate hk
  obtain ⟨hmem', hkeeper'⟩ := hkept hj' hstate' hk'
  exact hjobs.eq hmem hmem' (Option.some.inj (hkeeper.symm.trans hkeeper'))

/-- An index accepts rows that have its key once. -/
theorem keys_nodup {states : JobState → Prop} [DecidablePred states] {key : Job → Option Nat}
    (hjobs : Table.Keyed Job.id jobs)
    (hunique : ∀ j ∈ jobs, ∀ j' ∈ jobs, states j.state → states j'.state → ∀ k, key j = some k →
      key j' = some k → j = j') :
    ((jobs.filter fun j => states j.state).filterMap key).Nodup := by
  have hrows : (jobs.filter fun j => states j.state).Nodup := (List.Nodup.of_map _ hjobs).filter _
  rw [List.Nodup, List.pairwise_filterMap]
  refine hrows.imp_of_mem fun {j j'} hj hj' hne k hk k' hk' heq => hne ?_
  subst heq
  obtain ⟨hmem, hstate⟩ := List.mem_filter.mp hj
  obtain ⟨hmem', hstate'⟩ := List.mem_filter.mp hj'
  exact hunique j hmem j' hmem' (of_decide_eq_true hstate) (of_decide_eq_true hstate') k hk hk'

/-- What the migration does to a table. -/
structure Migrates (jobs : List Job) (wall : Timestamp) (after : List Job) : Prop where
  /-- The first loop keeps a strongest active job of each assignment and blocks the others. -/
  assignments : ∀ a, (∃ j ∈ jobs, j.state.Active ∧ j.oldAssignmentId = some a) →
    ∃ best ∈ jobs, best.state.Active ∧ best.oldAssignmentId = some a ∧
      (migrateByAssignment jobs wall).2.lookup a = some best.id ∧
      best ∈ (migrateByAssignment jobs wall).1 ∧
      ∀ j ∈ jobs, j.state.Active → j.oldAssignmentId = some a →
        j.state.priority ≤ best.state.priority ∧ (j ≠ best → j.conflicted wall ∈ after)
  /-- One job of each subscription stays in a mutation state, a strongest of those that have
  survived the first loop; the others are blocked. -/
  subscriptions : ∀ s, (∃ j ∈ (migrateByAssignment jobs wall).1, j.state.Mutation ∧
      j.subscriptionId = s) →
    ∃ best ∈ after, best ∈ jobs ∧ best.state.Mutation ∧ best.subscriptionId = s ∧
      (∀ j ∈ after, j.state.Mutation → j.subscriptionId = s → j = best) ∧
      ∀ j ∈ (migrateByAssignment jobs wall).1, j.state.Mutation → j.subscriptionId = s →
        j.state.priority ≤ best.state.priority ∧ (j ≠ best → j.conflicted wall ∈ after)
  /-- A job that shares neither its assignment with an active one nor its subscription with one in a
  mutation state is left as it is. -/
  uncontested : ∀ j ∈ jobs, ¬ Contested JobState.Active Job.oldAssignmentId jobs j →
    ¬ Contested JobState.Mutation (fun j => some j.subscriptionId)
      (migrateByAssignment jobs wall).1 j →
    j ∈ after
  ids : after.map Job.id = jobs.map Job.id
  again : ∀ later, migrationStep after later = .ok after

/-- The migration creates both indexes over every table, keeps the strongest jobs, and has nothing
to do the second time. -/
theorem migrationStep_ok (hjobs : Table.Keyed Job.id jobs) :
    ∃ after, migrationStep jobs wall = .ok after ∧ Migrates jobs wall after := by
  have hfirst : KeepsStrongest JobState.Active Job.oldAssignmentId jobs wall
      (migrateByAssignment jobs wall).1 fun k => (migrateByAssignment jobs wall).2.lookup k :=
    keepsStrongest hjobs
  have hjobs' : Table.Keyed Job.id (migrateByAssignment jobs wall).1 := by
    rw [Table.Keyed, hfirst.ids]
    exact hjobs
  have hsecond : KeepsStrongest JobState.Mutation (fun j => some j.subscriptionId)
      (migrateByAssignment jobs wall).1 wall (migrateJobs jobs wall) fun k =>
        (migrateBySubscription (migrateByAssignment jobs wall).1 wall).2.lookup k :=
    keepsStrongest hjobs'
  have hids : (migrateJobs jobs wall).map Job.id = jobs.map Job.id := hsecond.ids.trans hfirst.ids
  have hafter : Table.Keyed Job.id (migrateJobs jobs wall) := by
    rw [Table.Keyed, hids]
    exact hjobs
  -- A job that is still active after the second loop has been left alone by it.
  have hactive : ∀ j ∈ migrateJobs jobs wall, j.state.Active →
      j ∈ (migrateByAssignment jobs wall).1 := by
    intro j hj hstate
    rcases hsecond.rows j hj with ⟨hmem, -⟩ | ⟨row, -, -, rfl⟩
    · exact hmem
    · exact absurd hstate (conflicted_not_active row wall)
  have hunique : JobsUnique (migrateJobs jobs wall) := by
    constructor
    · apply keys_nodup hafter
      intro j hj j' hj' hstate hstate' k hk hk'
      exact hfirst.unique hjobs (fun _ h => h) (hactive j hj hstate) (hactive j' hj' hstate') hstate
        hstate' hk hk'
    · rw [mutationKeys, ← List.filterMap_eq_map']
      apply keys_nodup hafter
      intro j hj j' hj' hstate hstate' k hk hk'
      exact hsecond.unique hjobs' (fun _ h => .inr h) hj hj' hstate hstate' hk hk'
  have hcreate : ∀ jobs', JobsUnique jobs' → createJobIndexes jobs' = .ok jobs' := by
    intro jobs' h
    rw [createJobIndexes, if_neg (not_not.mpr h.1), if_neg (not_not.mpr h.2)]
  -- The second loop leaves a job alone that is in no mutation state.
  have hleft : ∀ j ∈ (migrateByAssignment jobs wall).1, ¬ j.state.Mutation →
      j ∈ migrateJobs jobs wall :=
    fun j hj hstate => hsecond.uncontested j hj fun hcontested => hstate hcontested.1
  refine ⟨migrateJobs jobs wall, hcreate _ hunique, ?_, ?_, ?_, hids, ?_⟩
  · intro a ha
    obtain ⟨best, hbest, hstate, hkey, hkeeper, hmem, hle⟩ := hfirst.keeps a ha
    refine ⟨best, hbest, hstate, hkey, hkeeper, hmem, fun j hj hjstate hjkey => ?_⟩
    obtain ⟨hprio, hblocked⟩ := hle j hj hjstate hjkey
    refine ⟨hprio, fun hne => hleft _ (hblocked hne) fun hmut => ?_⟩
    exact conflicted_not_active j wall (.inr hmut)
  · rintro s ⟨j, hj, hstate, hsub⟩
    obtain ⟨best, hbest, hbstate, hbkey, hkeeper, hmem, hle⟩ :=
      hsecond.keeps s ⟨j, hj, hstate, congrArg some hsub⟩
    have hbjobs : best ∈ jobs := by
      rcases hfirst.rows best hbest with ⟨hmem, -⟩ | ⟨row, -, -, rfl⟩
      · exact hmem
      · exact absurd (.inr hbstate) (conflicted_not_active row wall)
    refine ⟨best, hmem, hbjobs, hbstate, Option.some.inj hbkey, ?_, ?_⟩
    · intro j hj hjstate hjsub
      exact hsecond.unique hjobs' (fun _ h => .inr h) hj hmem hjstate hbstate (congrArg some hjsub)
        hbkey
    · intro j hj hjstate hjsub
      exact hle j hj hjstate (congrArg some hjsub)
  · intro j hj hassignment hsubscription
    exact hsecond.uncontested j (hfirst.uncontested j hj hassignment) hsubscription
  · intro later
    rw [migrationStep, migrateJobs_eq hunique]
    exact hcreate _ hunique

/-- Two jobs of one assignment, and a mutation of its sibling. -/
def legacyJobs : List Job :=
  [{ id := 1, subscriptionId := 1, oldAssignmentId := some 1, createdAt := 0, updatedAt := 0 },
    { id := 2, subscriptionId := 1, oldAssignmentId := some 1, state := .mutating, createdAt := 0
      updatedAt := 0 },
    { id := 3, subscriptionId := 1, oldAssignmentId := some 2, state := .reconciliationRequired
      createdAt := 0, updatedAt := 0 }]

theorem migrationStep_ok_legacyJobs :
    ∃ after, migrationStep legacyJobs 5 = .ok after ∧ Migrates legacyJobs 5 after :=
  migrationStep_ok (by unfold Table.Keyed; decide)

end EarnProxy.Swap

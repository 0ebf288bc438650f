import Mathlib.Data.List.MinMax
import EarnProxy.ProbeClaims

/-!
# The loops of `app/check_service.py`

`run_forever` and `run_earnapp_forever` look for due rows, run a batch when a sweep is due, and
sleep until the next instant that the table names. `worker_wakes` says how long: no loop spins, and
none sleeps past a check that comes due.
-/

namespace EarnProxy

/-- What the queries of a loop look at. -/
def Proxy.Awaited (db : Db) (probe : Probe) (r : Proxy) : Prop :=
  r.archivedAt = none ∧ (probe = .earnapp → r.status = .online) ∧ r.OwnerActive db

instance (db : Db) (probe : Probe) (r : Proxy) : Decidable (r.Awaited db probe) :=
  inferInstanceAs (Decidable (_ ∧ _))

/-- The columns that a loop wakes up for. -/
def Proxy.nextProbeAt (r : Proxy) : Probe → Option Timestamp
  | .health => r.nextCheckAt
  | .earnapp => r.earnappNextCheckAt

def Proxy.claimedUntil (r : Proxy) : Probe → Option Timestamp
  | .health => r.checkClaimedUntil
  | .earnapp => r.earnappClaimedUntil

def awaitedRows (db : Db) (probe : Probe) : List Proxy :=
  db.proxies.filter fun r => r.Awaited db probe

/-- `max(1.0, (wake_at - now).total_seconds())`. -/
def secondsUntil (now wakeAt : Int) : Int := max (seconds 1) (wakeAt - now)

/-- `_next_health_wake_seconds` and `_next_earnapp_wake_seconds`. -/
def nextWakeSeconds (probe : Probe) (db : Db) (now : Timestamp) : Option Int :=
  let wakes : List Int := (awaitedRows db probe).flatMap fun r =>
    (r.nextProbeAt probe).toList ++ (r.claimedUntil probe).toList
  wakes.min?.map (secondsUntil now)

/-- `_health_queue_due` and `_earnapp_queue_due`. -/
def queueDue (probe : Probe) (db : Db) (now : Timestamp) : Bool :=
  db.proxies.any fun r =>
    match probe with
    | .health => decide (r.HealthDue db now)
    | .earnapp => decide (r.EarnappDue db now)

/-- The clock of a sweep: its flag, the end of the last one, and the setting of its interval. -/
structure SweepState where
  due : Bool
  lastSweepAt : Option Timestamp
  interval : Int
  deriving DecidableEq, Repr

/-- `interval_seconds`, of minutes, and `earnapp_interval_seconds`, of hours. -/
def SweepState.intervalSeconds (sweep : SweepState) : Probe → Int
  | .health => max 15 (min 1440 sweep.interval) * 60
  | .earnapp => max 24 (min 720 sweep.interval) * 3600

/-- `next_wait_seconds`. -/
def SweepState.nextWaitSeconds (sweep : SweepState) (now : Timestamp) : Int :=
  match sweep.lastSweepAt with
  | none => 0
  | some healthAt => wholeSeconds (healthAt + seconds (sweep.intervalSeconds .health) - now)

/-- `batch_spacing_seconds`. -/
def batchSpacingSeconds (dueCount : Nat) : Int := if 0 < dueCount then 0 else seconds 1

/-- `min(waits) if waits else 1`, of the waits that are positive. -/
def shortestWait (waits : List Int) : Int :=
  ((waits.filter fun wait => 0 < wait).min?).getD (seconds 1)

/-- The wait at the end of a round of `run_forever` that has completed so many checks. -/
def healthWait (db : Db) (sweep : SweepState) (now : Timestamp) (completed : Nat) : Int :=
  let nextChecks : List Int := (awaitedRows db .health).filterMap Proxy.nextCheckAt
  if 0 < completed then
    let dueCount := nextChecks.countP fun t => t ≤ now
    if 0 < dueCount then batchSpacingSeconds dueCount
    else match nextChecks.min? with
      | some nextDue => secondsUntil now nextDue
      | none => seconds (sweep.intervalSeconds .health)
  else
    shortestWait
      ((if sweep.due then 0 else seconds (sweep.nextWaitSeconds now)) ::
        (nextWakeSeconds .health db now).toList)

/-- The wait at the end of a round of `run_earnapp_forever`. -/
def earnappWait (db : Db) (sweep : SweepState) (now : Timestamp) (completed : Nat) : Int :=
  if 0 < completed then seconds 1
  else
    let window := if sweep.due then none else sweep.lastSweepAt.map fun earnAt =>
      secondsUntil now (earnAt + seconds (sweep.intervalSeconds .earnapp))
    shortestWait (window.toList ++ (nextWakeSeconds .earnapp db now).toList)

def workerWait : Probe → Db → SweepState → Timestamp → Nat → Int
  | .health => healthWait
  | .earnapp => earnappWait

/-! ## Waits -/

theorem secondsUntil_spec (now wakeAt : Int) :
    seconds 1 ≤ secondsUntil now wakeAt ∧
      now + secondsUntil now wakeAt ≤ max wakeAt (now + seconds 1) := by
  unfold secondsUntil
  omega

theorem shortestWait_le {waits : List Int} {wait : Int} (hwait : wait ∈ waits) (hpos : 0 < wait) :
    shortestWait waits ≤ wait := by
  have hmem : wait ∈ waits.filter fun wait => 0 < wait := by simp [hwait, hpos]
  unfold shortestWait
  cases hmin : (waits.filter fun wait => 0 < wait).min? with
  | none => simp [List.min?_eq_none_iff.mp hmin] at hmem
  | some least => exact (List.min?_eq_some_iff.mp hmin).2 wait hmem

theorem le_shortestWait {waits : List Int}
    (hwaits : ∀ wait ∈ waits, 0 < wait → seconds 1 ≤ wait) : seconds 1 ≤ shortestWait waits := by
  unfold shortestWait
  cases hmin : (waits.filter fun wait => 0 < wait).min? with
  | none => simp
  | some least =>
    have hleast := (List.min?_eq_some_iff.mp hmin).1
    simp only [List.mem_filter, decide_eq_true_eq] at hleast
    exact hwaits least hleast.1 hleast.2

theorem nextWakeSeconds_spec {probe : Probe} {db : Db} {now : Int} :
    (∀ wait ∈ nextWakeSeconds probe db now, seconds 1 ≤ wait) ∧
      ∀ r ∈ awaitedRows db probe, ∀ t : Int,
        t ∈ r.nextProbeAt probe ∨ t ∈ r.claimedUntil probe →
        ∃ wait ∈ nextWakeSeconds probe db now, now + wait ≤ max t (now + seconds 1) := by
  refine ⟨?_, fun r hr t ht => ?_⟩
  · rintro wait hwait
    obtain ⟨wakeAt, -, rfl⟩ := Option.map_eq_some_iff.mp hwait
    exact (secondsUntil_spec now wakeAt).1
  · have hmem : t ∈ (awaitedRows db probe).flatMap fun r =>
        (r.nextProbeAt probe).toList ++ (r.claimedUntil probe).toList := by
      refine List.mem_flatMap.mpr ⟨r, hr, ?_⟩
      simpa using ht
    unfold nextWakeSeconds
    dsimp only
    generalize ((awaitedRows db probe).flatMap fun r =>
      (r.nextProbeAt probe).toList ++ (r.claimedUntil probe).toList : List Int) = wakes at hmem ⊢
    cases hmin : wakes.min? with
    | none => simp [List.min?_eq_none_iff.mp hmin] at hmem
    | some least =>
      have hle : least ≤ t := (List.min?_eq_some_iff.mp hmin).2 t hmem
      have huntil := (secondsUntil_spec now least).2
      exact ⟨secondsUntil now least, rfl, by omega⟩

/-! ## The law -/

/-- What the wait after a round promises. It is zero only after a round that has completed checks,
and then more rows are due; otherwise it is a second at least. No check that the table names is
slept past by more than a second, and no lease, unless the round of the health loop has completed
checks. -/
structure Wakes (probe : Probe) (db : Db) (now : Int) (completed : Nat) (wait : Int) : Prop where
  spins : wait = 0 ↔ probe = .health ∧ 0 < completed ∧
    ∃ r ∈ awaitedRows db probe, ∃ t : Int, t ∈ r.nextCheckAt ∧ t ≤ now
  sleeps : wait ≠ 0 → seconds 1 ≤ wait
  checks : ∀ r ∈ awaitedRows db probe, ∀ t : Int,
    t ∈ r.nextProbeAt probe → now + wait ≤ max t (now + seconds 1)
  leases : probe = .earnapp ∨ completed = 0 → ∀ r ∈ awaitedRows db probe, ∀ t : Int,
    t ∈ r.claimedUntil probe → now + wait ≤ max t (now + seconds 1)

/-- A round without a check: the shortest of the waits, which are the sweep's and the table's. -/
theorem wakes_of_shortest {probe : Probe} {db : Db} {now : Int} {waits : List Int}
    (hwaits : ∀ wait ∈ waits, 0 < wait → seconds 1 ≤ wait)
    (htable : ∀ wait ∈ nextWakeSeconds probe db now, wait ∈ waits) :
    Wakes probe db now 0 (shortestWait waits) := by
  have hpos : seconds 1 ≤ shortestWait waits := le_shortestWait hwaits
  have hone : (0 : Int) < seconds 1 := by decide
  have hrow : ∀ r ∈ awaitedRows db probe, ∀ t : Int,
      t ∈ r.nextProbeAt probe ∨ t ∈ r.claimedUntil probe →
      now + shortestWait waits ≤ max t (now + seconds 1) := by
    intro r hr t ht
    obtain ⟨wait, hwait, hle⟩ := nextWakeSeconds_spec.2 r hr t ht
    have hleast := shortestWait_le (htable wait hwait) (by
      have := nextWakeSeconds_spec.1 wait hwait
      omega)
    omega
  exact ⟨by constructor <;> intro h <;> omega, fun _ => hpos,
    fun r hr t ht => hrow r hr t (.inl ht), fun _ r hr t ht => hrow r hr t (.inr ht)⟩

theorem healthWait_wakes (db : Db) (sweep : SweepState) (now : Int) (completed : Nat) :
    Wakes .health db now completed (healthWait db sweep now completed) := by
  have hone : (0 : Int) < seconds 1 := by decide
  unfold healthWait
  dsimp only
  by_cases hcompleted : 0 < completed
  · rw [if_pos hcompleted]
    have hchecks (t : Int) : t ∈ ((awaitedRows db .health).filterMap Proxy.nextCheckAt : List Int) ↔
        ∃ r ∈ awaitedRows db .health, t ∈ r.nextCheckAt := by
      simp
    generalize ((awaitedRows db .health).filterMap Proxy.nextCheckAt : List Int) = nextChecks
      at hchecks ⊢
    by_cases hdue : 0 < nextChecks.countP fun t => t ≤ now
    · rw [if_pos hdue, batchSpacingSeconds, if_pos hdue]
      obtain ⟨t, ht, hle⟩ := List.countP_pos_iff.mp hdue
      obtain ⟨r, hr, htr⟩ := (hchecks t).mp ht
      exact ⟨iff_of_true rfl ⟨rfl, hcompleted, r, hr, t, htr, by simpa using hle⟩,
        fun h => absurd rfl h, fun _ _ _ _ => by omega, fun h => by simp at h; omega⟩
    · rw [if_neg hdue]
      have hlater (t : Int) (ht : t ∈ nextChecks) : now < t := by
        by_contra hle
        exact hdue (List.countP_pos_iff.mpr ⟨t, ht, by simpa using hle⟩)
      have hnone : ¬ ∃ r ∈ awaitedRows db .health, ∃ t : Int, t ∈ r.nextCheckAt ∧ t ≤ now := by
        rintro ⟨r, hr, t, ht, hle⟩
        have := hlater t ((hchecks t).mpr ⟨r, hr, ht⟩)
        omega
      cases hmin : nextChecks.min? with
      | none =>
        have hempty (t : Int) : t ∉ nextChecks := by simp [List.min?_eq_none_iff.mp hmin]
        have hinterval : seconds 1 ≤ seconds (sweep.intervalSeconds .health) := by
          simp only [seconds, SweepState.intervalSeconds]
          omega
        refine ⟨iff_of_false ?_ fun h => hnone h.2.2, fun _ => hinterval, fun r hr t ht => ?_,
          fun h => by simp at h; omega⟩
        · dsimp only
          omega
        · exact absurd ((hchecks t).mpr ⟨r, hr, ht⟩) (hempty t)
      | some nextDue =>
        have huntil := secondsUntil_spec now nextDue
        refine ⟨iff_of_false ?_ fun h => hnone h.2.2, fun _ => huntil.1, fun r hr t ht => ?_,
          fun h => by simp at h; omega⟩
        · dsimp only
          omega
        · have hle : nextDue ≤ t :=
            (List.min?_eq_some_iff.mp hmin).2 t ((hchecks t).mpr ⟨r, hr, ht⟩)
          dsimp only
          omega
  · obtain rfl : completed = 0 := by omega
    rw [if_neg hcompleted]
    refine wakes_of_shortest ?_ fun wait hwait => by simp [Option.mem_def.mp hwait]
    intro wait hwait hpos
    rcases List.mem_cons.mp hwait with rfl | hwait
    · by_cases hsweep : sweep.due
      · simp [hsweep] at hpos
      · simp only [hsweep, Bool.false_eq_true, if_false, seconds] at hpos ⊢
        omega
    · exact nextWakeSeconds_spec.1 wait (by simpa using hwait)

theorem earnappWait_wakes (db : Db) (sweep : SweepState) (now : Int) (completed : Nat) :
    Wakes .earnapp db now completed (earnappWait db sweep now completed) := by
  have hone : (0 : Int) < seconds 1 := by decide
  unfold earnappWait
  by_cases hcompleted : 0 < completed
  · rw [if_pos hcompleted]
    exact ⟨by simp; omega, fun _ => le_rfl, fun _ _ _ _ => by omega, fun _ _ _ _ _ => by omega⟩
  · obtain rfl : completed = 0 := by omega
    rw [if_neg hcompleted]
    refine wakes_of_shortest ?_ fun wait hwait => by simp [Option.mem_def.mp hwait]
    intro wait hwait hpos
    rcases List.mem_append.mp hwait with hwait | hwait
    · by_cases hsweep : sweep.due
      · simp [hsweep] at hwait
      · simp only [hsweep, Bool.false_eq_true, if_false, Option.mem_toList,
          Option.map_eq_some_iff] at hwait
        obtain ⟨earnAt, -, rfl⟩ := hwait
        exact (secondsUntil_spec now _).1
    · exact nextWakeSeconds_spec.1 wait (by simpa using hwait)

/-- A batch of at least one row is empty only when no row is due. -/
theorem claimRows_isSome {probe : Probe} {db : Db} {due : List Proxy} {le : Proxy → Proxy → Prop}
    [DecidableRel le] {n : Nat} (hn : 1 ≤ n) (now : Timestamp) (token : String) :
    (claimRows probe db ((due.insertionSort le).take n) now token).isSome ↔ due ≠ [] := by
  have hempty : ((due.insertionSort le).take n).map Proxy.id = [] ↔ due = [] := by
    rw [List.map_eq_nil_iff, List.take_eq_nil_iff, ← List.length_eq_zero_iff,
      List.length_insertionSort, List.length_eq_zero_iff]
    exact ⟨fun h => h.resolve_left (by omega), .inr⟩
  unfold claimRows
  dsimp only
  by_cases hdue : due = []
  · rw [if_pos (hempty.mpr hdue)]
    simp [hdue]
  · rw [if_neg fun h => hdue (hempty.mp h)]
    simp [hdue]

theorem queueDue_health (db : Db) (now : Timestamp) (limit perHostLimit : Option Int)
    (token : String) :
    queueDue .health db now ↔ (claimDueProxies db now limit perHostLimit token).isSome := by
  rw [claimDueProxies, dueProxies, claimRows_isSome (by omega), queueDue, List.any_eq_true, ne_eq,
    List.filter_eq_nil_iff]
  simp

theorem queueDue_earnapp (db : Db) (now : Timestamp) (limit : Int) (token : String) :
    queueDue .earnapp db now ↔ (claimDueEarnapp db now limit token).isSome := by
  rw [claimDueEarnapp, dueEarnapp, claimRows_isSome (by omega), queueDue, List.any_eq_true, ne_eq,
    List.filter_eq_nil_iff]
  simp

/-- The loops of the check service neither spin nor oversleep, whatever the table holds: after every
round the wait keeps its promises, and a round that finds the queue due claims rows, with any
limits, and only then. -/
theorem worker_wakes (probe : Probe) (db : Db) (sweep : SweepState) (now : Int) (completed : Nat) :
    Wakes probe db now completed (workerWait probe db sweep now completed) ∧
      (∀ limit perHostLimit token,
        queueDue .health db now ↔ (claimDueProxies db now limit perHostLimit token).isSome) ∧
      ∀ limit token, queueDue .earnapp db now ↔ (claimDueEarnapp db now limit token).isSome := by
  refine ⟨?_, queueDue_health db now, queueDue_earnapp db now⟩
  cases probe with
  | health => exact healthWait_wakes db sweep now completed
  | earnapp => exact earnappWait_wakes db sweep now completed

end EarnProxy

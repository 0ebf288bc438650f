import EarnProxy.Invariants

/-!
# The health machine

What one event does to the health columns of a row, and the laws that follow over whole runs: three
counted failures in a row make a row offline, and only they do.
-/

namespace EarnProxy

open History Transaction

/-! ## The row that an event leaves -/

/-- Edits that leave the health columns alone, whatever else they do. -/
def Licence.unobserved (now : Timestamp) (staleMinutes : Int) : Licence where
  now := now
  staleMinutes := staleMinutes
  restarts := True
  backpays := True
  grants := fun _ => True
  reprices := fun _ => True
  observes := fun _ _ => False
  unclaims := fun _ => True

theorem Probed.health_eq {lic : Licence} {r r' : Proxy} (h : Probed lic r r')
    (hlic : ∀ i health, ¬ lic.observes i health) : r'.health = r.health :=
  h.health.resolve_right (hlic _ _)

/-- A live result that takes away the EarnApp claim. -/
def LiveObservation.fencesEarnapp (o : LiveObservation) : Bool :=
  o.breaksCycle || o.unobservedRecovery

/-- The results after which an EarnApp verdict that was claimed before them is no longer valid. -/
def HealthResult.FencesEarnapp (result : HealthResult) (row : Proxy) (settings : CheckerSettings)
    (current : Timestamp) : Prop :=
  match result.branch with
  | .live => (observeLive row result settings.healthStaleMinutes current).fencesEarnapp
  | .uncertain | .egressUnconfirmed => False
  | .blocked | .failure => True

/-- The row `r'` as the result leaves it. -/
structure Proxy.Checked (row r' : Proxy) (result : HealthResult) (settings : CheckerSettings)
    (current : Timestamp) : Prop where
  health : r'.health = row.observed result settings current
  unclaimed : r'.checkClaimToken = none
  fenced : result.FencesEarnapp row settings current → r'.earnappClaimToken = none

/-- Later edits of the same transaction keep what the result has written. -/
theorem Proxy.Checked.edited {lic : Licence} {row r r' : Proxy} {result : HealthResult}
    {settings : CheckerSettings} {current : Timestamp} (h : row.Checked r result settings current)
    (hprobed : Probed lic r r') (hlic : ∀ i health, ¬ lic.observes i health) :
    row.Checked r' result settings current where
  health := (hprobed.health_eq hlic).trans h.health
  unclaimed := hprobed.checkClaim.elim (fun hsame => hsame.trans h.unclaimed) fun hnone => hnone
  fenced := fun hf =>
    hprobed.earnappClaim.elim (fun hsame => hsame.trans (h.fenced hf)) fun hnone => hnone

section Checked

variable {db db' : Db} {row r' : Proxy} {result : HealthResult} {now wall : Timestamp}

theorem applyLive_checked (hk : Table.Keyed Proxy.id db.proxies) (hrow : row ∈ db.proxies)
    (hbranch : result.branch = .live) (h : applyLive db row result now wall = .ok db')
    (hr' : r' ∈ db'.proxies) (hid : r'.id = row.id) :
    row.Checked r' result (checkerSettings db) now := by
  set lic := Licence.unobserved now (healthStaleMinutes db) with hlic
  set settings := checkerSettings db with hsettings
  set o := observeLive row result settings.healthStaleMinutes now with ho
  unfold applyLive at h
  simp only at h
  rw [← ho, ← bind_assoc] at h
  obtain ⟨db₁, hdb₁, h⟩ := ok_of_bind h
  replace hdb₁ : closeCycle db row.id now (o.breaksCycle ∧ row.eligibility.Earning) o.breaksCycle =
      .ok db₁ := hdb₁
  have hclose : Does (Phased lic (· = row.id)) Db.Raises db
      (closeCycle db row.id lic.now (o.breaksCycle ∧ row.eligibility.Earning) o.breaksCycle) id :=
    closeCycle_does hk fun _ => trivial
  have hk₁ := (hclose.of_ok hdb₁).keyed hk
  -- the row after its own statement
  have hseen : ∀ r ∈ (db₁.updateProxy row.id fun r => r.seenLive row result o settings now).proxies,
      r.id = row.id → row.Checked r result settings now := by
    intro r hr hid
    obtain ⟨s, hs, rfl⟩ := Table.mem_update.mp hr
    have hsid : s.id = row.id := by
      split at hid <;> exact hid
    rw [closeCycle_rows hk And.left hdb₁] at hs
    have hs' := updated_row hk hrow hs hsid fun s => by split <;> rfl
    rw [if_pos hsid]
    refine ⟨?_, rfl, fun hf => ?_⟩
    · have harchived : s.archivedAt = row.archivedAt := by rw [hs']; split <;> rfl
      simp [Proxy.observed, hbranch, Proxy.seenLive, Proxy.health, harchived, ← ho]
    · simp only [HealthResult.FencesEarnapp, hbranch] at hf
      exact if_pos hf
  cases htrusted : o.trustedExitIp with
  | none =>
    simp only [htrusted] at h
    rw [← Except.ok.inj h] at hr'
    exact hseen r' hr' hid
  | some exitIp =>
    simp only [htrusted] at h
    have hk₂ : Table.Keyed Proxy.id
        (db₁.updateProxy row.id fun r => r.seenLive row result o settings now).proxies :=
      hk₁.map fun r _ => by split <;> rfl
    have hreconciled : Edited lic _ db' :=
      (reconcileExit_does hk₂ (fun _ => trivial) fun _ _ _ _ => .inr trivial).of_ok h
    obtain ⟨r, hr, _, hedit⟩ := hreconciled.origin hr'
    exact (hseen r hr (hedit.id.symm.trans hid)).edited hedit.probed fun _ _ h => h

theorem applyBlocked_checked (hk : Table.Keyed Proxy.id db.proxies) (hrow : row ∈ db.proxies)
    (hbranch : result.branch = .blocked) (h : applyBlocked db row now = .ok db')
    (hr' : r' ∈ db'.proxies) (hid : r'.id = row.id) :
    row.Checked r' result (checkerSettings db) now := by
  have h : (closeCycle db row.id now row.eligibility.Earning True >>= fun db₁ =>
      pure (db₁.updateProxy row.id fun r => r.seenBlocked row (checkerSettings db) now)) =
      .ok db' := by
    rw [← h]
    simp [applyBlocked, closeCycle]
  obtain ⟨db₁, hdb₁, h⟩ := ok_of_bind h
  obtain rfl := Except.ok.inj h
  obtain ⟨s, hs, rfl⟩ := Table.mem_update.mp hr'
  have hsid : s.id = row.id := by
    split at hid <;> exact hid
  rw [closeCycle_rows hk (fun _ => trivial) hdb₁] at hs
  have hs' : s = row.restart now := by
    simpa using updated_row hk hrow hs hsid fun s => by split <;> rfl
  rw [if_pos hsid]
  refine ⟨?_, rfl, fun _ => rfl⟩
  simp [Proxy.observed, hbranch, Proxy.seenBlocked, Proxy.health, hs', Proxy.restart]

theorem applyFailure_checked (hk : Table.Keyed Proxy.id db.proxies) (hrow : row ∈ db.proxies)
    (hbranch : result.branch = .failure) (h : applyFailure db row result now = .ok db')
    (hr' : r' ∈ db'.proxies) (hid : r'.id = row.id) :
    row.Checked r' result (checkerSettings db) now := by
  unfold applyFailure at h
  obtain ⟨db₁, hdb₁, h⟩ := ok_of_bind h
  have haccrual : Does (Visits now (· = row.id)) Db.Raises db
      (if row.strikesOut ∧ row.eligibility.Earning ∧ row.status.up then
        accrueProxyTime db row.id now else pure db) id :=
    Does.ite (fun _ => accrueProxyTime_does hk row.id) fun _ => Does.ok (.refl db)
  have hseen : ∀ r ∈ (db₁.updateProxy row.id fun r =>
      r.seenFailing row result (checkerSettings db) now).proxies, r.id = row.id →
      row.Checked r result (checkerSettings db) now := by
    intro r hr hid
    obtain ⟨s, hs, rfl⟩ := Table.mem_update.mp hr
    have hsid : s.id = row.id := by
      split at hid <;> exact hid
    obtain ⟨s₀, hs₀, hsame⟩ := (haccrual.of_ok hdb₁).moved.origin hs
    obtain rfl := hk.eq hs₀ hrow (hsame.id.symm.trans hsid)
    rw [if_pos hsid]
    have harchived : s.archivedAt = s₀.archivedAt := by rw [hsame]
    have hoffline : s.accumulatedOfflineSeconds = s₀.accumulatedOfflineSeconds := by rw [hsame]
    refine ⟨?_, rfl, fun _ => rfl⟩
    simp [Proxy.observed, hbranch, Proxy.seenFailing, Proxy.health, harchived, hoffline]
  by_cases hstrikes : row.strikesOut
  · simp only [hstrikes, if_true] at h
    rw [resetProbation_ok h] at hr'
    obtain ⟨r, hr, rfl⟩ := Table.mem_update.mp hr'
    have hrid : r.id = row.id := by
      split at hid <;> exact hid
    have hchecked := hseen r hr hrid
    rw [if_pos hrid]
    exact ⟨hchecked.health, hchecked.unclaimed, hchecked.fenced⟩
  · simp only [hstrikes] at h
    obtain rfl := Except.ok.inj h
    exact hseen r' hr' hid

/-- The row that a health result is applied to. -/
theorem applyHealthResult_checked (hk : Table.Keyed Proxy.id db.proxies) {i : Nat}
    (hrow : result.row? db i = some row) (h : applyHealthResult db i result now wall = .ok db')
    (hr' : r' ∈ db'.proxies) (hid : r'.id = i) :
    row.Checked r' result (checkerSettings db) now := by
  obtain ⟨hmem, rfl, _⟩ := HealthResult.row?_mem hrow
  simp only [applyHealthResult, hrow] at h
  have hupdated : ∀ {f : Proxy → Proxy}, (pure (db.updateProxy row.id f) : Tx Db) = .ok db' →
      (∀ r : Proxy, (f r).id = r.id) → r' = f row := by
    intro f heq hf
    obtain rfl := Except.ok.inj heq
    exact updated_row hk hmem hr' hid hf
  cases hbranch : result.branch with
  | live =>
    simp only [hbranch] at h
    exact applyLive_checked hk hmem hbranch h hr' hid
  | uncertain =>
    simp only [hbranch] at h
    rw [hupdated h fun _ => rfl]
    refine ⟨?_, rfl, fun hf => ?_⟩
    · simp only [Proxy.observed, hbranch]
      rfl
    · simp only [HealthResult.FencesEarnapp, hbranch] at hf
  | egressUnconfirmed =>
    simp only [hbranch] at h
    rw [hupdated h fun _ => rfl]
    refine ⟨?_, rfl, fun hf => ?_⟩
    · simp only [Proxy.observed, hbranch]
      rfl
    · simp only [HealthResult.FencesEarnapp, hbranch] at hf
  | blocked =>
    simp only [hbranch] at h
    exact applyBlocked_checked hk hmem hbranch h hr' hid
  | failure =>
    simp only [hbranch] at h
    exact applyFailure_checked hk hmem hbranch h hr' hid

/-- The row that a replacement leaves. -/
theorem replaceProxy_replaced {i userId : Nat} {parsed : ParsedProxy}
    (h : replaceProxy db i userId parsed now wall = .ok db') (hr' : r' ∈ db'.proxies)
    (hid : r'.id = i) : ∃ r : Proxy, r' = r.replaced parsed now := by
  unfold replaceProxy at h
  split at h
  · cases h
  · split at h
    · cases h
    · obtain ⟨db₁, _, h⟩ := ok_of_bind h
      obtain ⟨db₂, _, h⟩ := ok_of_bind h
      obtain rfl := Except.ok.inj h
      obtain ⟨r, _, rfl⟩ := Table.mem_update.mp hr'
      have hrid : r.id = i := by
        split at hid <;> exact hid
      exact ⟨r, if_pos hrid⟩

end Checked

/-- Each row after an event is new or was there before. -/
theorem Effect.row {db db' : Db} {ev : Event} (h : Effect db ev db') {r' : Proxy}
    (hr' : r' ∈ db'.proxies) :
    (∃ r ∈ db.proxies, r'.id = r.id ∧ (r.archivedAt ≠ none → r'.archivedAt ≠ none) ∧
        Probed (ev.licence db) r r') ∨
      ∃ userId parsed, r' = newProxy db userId parsed ev.now := by
  cases h with
  | proxies hphased =>
    obtain ⟨accrued, hvisits, hedits⟩ := hphased
    obtain ⟨s, hs, _, hedit⟩ := hedits.origin hr'
    obtain ⟨r, hr, hsame⟩ := hvisits.moved.origin hs
    rw [hsame] at hedit
    have hprobed := hedit.probed
    exact .inl ⟨r, hr, hedit.id, hedit.archived, hprobed.health, hprobed.checkClaim,
      hprobed.earnappClaim, hprobed.lease⟩
  | @added userId parsed =>
    rcases List.mem_append.mp hr' with hr | hr
    · exact .inl ⟨r', hr, rfl, fun h => h, .refl r'⟩
    · exact .inr ⟨userId, parsed, List.mem_singleton.mp hr⟩
  | others hsame => exact .inl ⟨r', hsame.proxies ▸ hr', rfl, fun h => h, .refl r'⟩

/-- No event removes a row. -/
theorem Effect.persists {db db' : Db} {ev : Event} (h : Effect db ev db') {r : Proxy}
    (hr : r ∈ db.proxies) : ∃ r' ∈ db'.proxies, r'.id = r.id := by
  cases h with
  | proxies hphased =>
    obtain ⟨accrued, hvisits, φ, ids, rfl, hφ⟩ := hphased
    obtain ⟨s, hs, hsame⟩ := hvisits.moved.image hr
    exact ⟨φ s, List.mem_map_of_mem hs, (hφ s hs).id.trans hsame.id⟩
  | added => exact ⟨r, List.mem_append_left _ hr, rfl⟩
  | others hsame => exact ⟨r, hsame.proxies ▸ hr, rfl⟩

/-! ## Uncertain results -/

/-- The row apart from the columns that schedule its next check. -/
def Proxy.SameButSchedule (r r' : Proxy) : Prop :=
  r' = { r with
    healthMode := r'.healthMode, nextCheckAt := r'.nextCheckAt, nextProbeIndex := r'.nextProbeIndex
    checkClaimedUntil := r'.checkClaimedUntil, checkClaimToken := r'.checkClaimToken }

/-- A result that says nothing about the proxy. -/
def HealthBranch.Uncertain (b : HealthBranch) : Prop := b = .uncertain ∨ b = .egressUnconfirmed

instance (b : HealthBranch) : Decidable b.Uncertain := inferInstanceAs (Decidable (_ ∨ _))

/-- An uncertain result reschedules the check of its row and does nothing else. -/
theorem applyHealthResult_uncertain {db db' : Db} {i : Nat} {result : HealthResult}
    {now wall : Timestamp} (hbranch : result.branch.Uncertain)
    (h : applyHealthResult db i result now wall = .ok db') :
    ∃ φ : Proxy → Proxy, db' = { db with proxies := db.proxies.map φ } ∧
      ∀ r, r.SameButSchedule (φ r) ∧ (r.id ≠ i → φ r = r) := by
  unfold applyHealthResult at h
  cases hrow : result.row? db i with
  | none =>
    simp only [hrow] at h
    obtain rfl := Except.ok.inj h
    exact ⟨id, by simp, fun r => ⟨rfl, fun _ => rfl⟩⟩
  | some row =>
    obtain ⟨_, rfl, _⟩ := HealthResult.row?_mem hrow
    simp only [hrow] at h
    have hupdate : ∀ f : Proxy → Proxy, (∀ r : Proxy, r.SameButSchedule (f r)) →
        ∃ φ : Proxy → Proxy, db.updateProxy row.id f = { db with proxies := db.proxies.map φ } ∧
          ∀ r, r.SameButSchedule (φ r) ∧ (r.id ≠ row.id → φ r = r) := by
      intro f hf
      refine ⟨fun r => if r.id = row.id then f r else r, rfl, fun r => ?_⟩
      by_cases hid : r.id = row.id
      · simpa [hid] using hf r
      · simp [hid, Proxy.SameButSchedule]
    rcases hbranch with hbranch | hbranch <;> simp only [hbranch] at h
    · obtain rfl := Except.ok.inj h
      exact hupdate _ fun r => rfl
    · obtain rfl := Except.ok.inj h
      exact hupdate _ fun r => rfl

/-! ## Strikes -/

/-- The branch of a health result that is applied to row `i`. -/
def Event.healthBranch? (db : Db) (ev : Event) (i : Nat) : Option HealthBranch :=
  match ev.op with
  | .applyHealthResult proxyId result =>
    if proxyId = i ∧ (result.row? db i).isSome ∧ (step db ev).isOk then some result.branch else none
  | _ => none

/-- The event replaces the credential of row `i`. -/
def Event.Replaces (db : Db) (ev : Event) (i : Nat) : Prop :=
  match ev.op with
  | .replaceProxy proxyId _ _ => proxyId = i ∧ (step db ev).isOk
  | _ => False

instance (db : Db) (ev : Event) (i : Nat) : Decidable (ev.Replaces db i) := by
  rcases ev with ⟨⟨⟩, now, wall⟩ <;> unfold Event.Replaces <;> infer_instance

/-- The counted failures of row `i` since its last live or blocked result, and since it was added or
replaced. -/
def strikes (db₀ : Db) (i : Nat) : List (Event × Db) → Nat
  | [] => 0
  | (ev, _) :: h =>
    match ev.healthBranch? (current db₀ h) i with
    | some .live | some .blocked => 0
    | some .failure => strikes db₀ i h + 1
    | some .uncertain | some .egressUnconfirmed => strikes db₀ i h
    | none => if ev.Replaces (current db₀ h) i then 0 else strikes db₀ i h

/-- What the health columns of a row that is not archived say about each other. -/
structure Health.Consistent (s : Health) : Prop where
  offline : s.status = .offline ↔ 3 ≤ s.consecutiveFailures
  suspect : s.status = .suspect → s.consecutiveFailures = 2
  early : s.status = .online ∨ s.status = .pending → s.consecutiveFailures ≤ 1
  blocked : s.status = .blocked → s.consecutiveFailures ≤ 2
  up : s.status = .online ∨ s.status = .suspect ∨ s.status = .pending → s.offlineSince = none
  down : s.status = .offline ∨ s.status = .blocked → s.onlineSince = none
  kept : s.status ≠ .archived

/-- The health columns of a row that has just been added or replaced. -/
def Health.initial : Health :=
  { status := .pending, consecutiveFailures := 0, onlineSince := none, offlineSince := none
    accumulatedOnlineSeconds := 0, accumulatedOfflineSeconds := 0, continuousDeadSince := none
    archivedAt := none }

theorem Health.Consistent.initial {s : Health} (h : s = .initial) : s.Consistent := by
  subst h
  constructor <;> simp [Health.initial]

/-- Every result keeps the columns consistent. -/
theorem Health.Consistent.observed {row : Proxy} (h : row.health.Consistent) (result : HealthResult)
    (settings : CheckerSettings) (current : Timestamp) :
    (row.observed result settings current).Consistent := by
  obtain ⟨offline, suspect, early, blocked, up, down, kept⟩ := h
  simp only [Proxy.health] at offline suspect early blocked up down kept
  unfold Proxy.observed
  cases result.branch with
  | live =>
    constructor <;> simp [Proxy.seenLive, Proxy.health]
  | uncertain => exact ⟨offline, suspect, early, blocked, up, down, kept⟩
  | egressUnconfirmed => exact ⟨offline, suspect, early, blocked, up, down, kept⟩
  | blocked =>
    constructor <;> simp [Proxy.seenBlocked, Proxy.health]
  | failure =>
    constructor <;> simp only [Proxy.seenFailing, Proxy.health, Proxy.nextStatus,
      Proxy.strikesOut] <;>
      cases hs : row.status <;> grind

/-- Every way for an event to leave a row. -/
inductive HealthEffect (db : Db) (ev : Event) (r' : Proxy) : Prop where
  | checked {row : Proxy} {result : HealthResult} (op : ev.op = .applyHealthResult r'.id result)
      (found : result.row? db r'.id = some row)
      (branch : ev.healthBranch? db r'.id = some result.branch)
      (row : row.Checked r' result (checkerSettings db) ev.now)
  | replaced {r : Proxy} {parsed : ParsedProxy} (branch : ev.healthBranch? db r'.id = none)
      (replaces : ev.Replaces db r'.id) (row : r' = r.replaced parsed ev.now)
  | kept {r : Proxy} (mem : r ∈ db.proxies) (id : r'.id = r.id)
      (branch : ev.healthBranch? db r'.id = none) (stays : ¬ ev.Replaces db r'.id)
      (health : r'.health = r.health)
  | archived {r : Proxy} (mem : r ∈ db.proxies) (id : r'.id = r.id)
      (branch : ev.healthBranch? db r'.id = none) (stays : ¬ ev.Replaces db r'.id)
      (health : r'.health = (r.archived ev.now).health)
  | added {userId : Nat} {parsed : ParsedProxy} (branch : ev.healthBranch? db r'.id = none)
      (stays : ¬ ev.Replaces db r'.id) (row : r' = newProxy db userId parsed ev.now)

theorem isOk_of_eq {α : Type} {x : Tx α} {a : α} (h : x = .ok a) : x.isOk = true := by
  rw [h]
  rfl

theorem eq_of_isOk {α : Type} {x : Tx α} (h : x.isOk = true) : ∃ a, x = .ok a := by
  cases x with
  | error e => cases h
  | ok a => exact ⟨a, rfl⟩

/-- A row id that no row has is no row of a result. -/
theorem HealthResult.row?_of_new {db : Db} {result : HealthResult} {i : Nat}
    (h : ∀ r ∈ db.proxies, r.id ≠ i) : result.row? db i = none := by
  have hnone : db.proxy? i = none := Table.lookup_eq_none.mpr h
  simp [HealthResult.row?, hnone]

theorem exec_health {db : Db} (hk : Table.Keyed Proxy.id db.proxies) (ev : Event) {r' : Proxy}
    (hr' : r' ∈ (exec db ev).proxies) : HealthEffect db ev r' := by
  cases hstep : step db ev with
  | error e =>
    have hnot : (step db ev).isOk = false := by rw [hstep]; rfl
    rw [exec_of_error hstep] at hr'
    refine .kept hr' rfl ?_ ?_ rfl
    · unfold Event.healthBranch?
      split <;> simp [hnot]
    · unfold Event.Replaces
      split <;> simp [hnot]
  | ok db' =>
    have hisOk := isOk_of_eq hstep
    have heffect := exec_effect hk ev
    rw [exec_of_ok hstep] at hr' heffect
    obtain ⟨op, now, wall⟩ := ev
    by_cases hbranch : Event.healthBranch? db ⟨op, now, wall⟩ r'.id = none
    · by_cases hreplaces : Event.Replaces db ⟨op, now, wall⟩ r'.id
      · cases op with
        | replaceProxy proxyId userId parsed =>
          obtain rfl : proxyId = r'.id := hreplaces.1
          have hreplace : replaceProxy db r'.id userId parsed now wall = .ok db' := hstep
          obtain ⟨r, hr⟩ := replaceProxy_replaced hreplace hr' rfl
          exact .replaced hbranch hreplaces hr
        | _ => exact hreplaces.elim
      · rcases heffect.row hr' with ⟨r, hr, hid, _, hprobed⟩ | ⟨userId, parsed, hnew⟩
        · rcases hprobed.health with hhealth | hobserves
          · exact .kept hr hid hbranch hreplaces hhealth
          -- the event archives the row, or it is left to the other two cases
          · cases op with
            | applyHealthResult proxyId result =>
              exfalso
              obtain ⟨hsame, row, hrow, _⟩ := hobserves
              have hproxy : proxyId = r'.id := hsame.trans hid.symm
              simp only [Event.healthBranch?] at hbranch
              rw [if_pos ⟨hproxy, hproxy ▸ Option.isSome_of_mem hrow, hisOk⟩] at hbranch
              cases hbranch
            | replaceProxy proxyId userId parsed =>
              exact absurd ⟨hobserves.1.trans hid.symm, hisOk⟩ hreplaces
            | archiveProxy proxyId userId =>
              obtain ⟨rfl, row, howned, hhealth⟩ := hobserves
              obtain ⟨hmem, hrow, _⟩ := ownedProxy?_mem howned
              exact .archived hmem (hid.trans hrow.symm) hbranch hreplaces hhealth
            | archiveDueDeadProxies =>
              obtain ⟨s, hs, hsid, _, hhealth⟩ := hobserves
              exact .archived hs (hid.trans hsid.symm) hbranch hreplaces hhealth
            | _ => exact hobserves.elim
        · exact .added hbranch hreplaces hnew
    · cases op with
      | applyHealthResult proxyId result =>
        simp only [Event.healthBranch?] at hbranch
        by_cases hcase : proxyId = r'.id ∧ (result.row? db r'.id).isSome ∧
            (step db ⟨.applyHealthResult proxyId result, now, wall⟩).isOk
        · obtain ⟨rfl, hsome, _⟩ := hcase
          obtain ⟨row, hrow⟩ := Option.isSome_iff_exists.mp hsome
          have happly : applyHealthResult db r'.id result now wall = .ok db' := hstep
          refine .checked rfl hrow ?_ (applyHealthResult_checked hk hrow happly hr' rfl)
          exact if_pos ⟨rfl, hsome, hisOk⟩
        · exact absurd (if_neg hcase) hbranch
      | _ => exact absurd rfl hbranch

theorem HealthEffect.consistent {db : Db} {ev : Event} {r' : Proxy} (h : HealthEffect db ev r')
    (hrows : ∀ r ∈ db.proxies, r.archivedAt = none → r.health.Consistent)
    (hkept : r'.archivedAt = none) : r'.health.Consistent := by
  cases h with
  | @checked row result _ hfound _ hchecked =>
    obtain ⟨hmem, _, harchived, _⟩ := HealthResult.row?_mem hfound
    exact hchecked.health ▸ (hrows row hmem harchived).observed result _ _
  | replaced _ _ hrow =>
    refine .initial ?_
    rw [hrow] at hkept ⊢
    simpa [Proxy.health, Proxy.replaced, Health.initial] using hkept
  | @kept r hmem _ _ _ hhealth =>
    have harchived : r.archivedAt = none := (congrArg Health.archivedAt hhealth).symm.trans hkept
    exact hhealth ▸ hrows r hmem harchived
  | archived _ _ _ _ hhealth =>
    have harchived := hkept.symm.trans (congrArg Health.archivedAt hhealth)
    cases harchived
  | added _ _ hrow => exact .initial (hrow ▸ rfl)

/-- The strikes after an event. -/
theorem strikes_cons {db₀ db db' : Db} {h : List (Event × Db)} {ev : Event} {i : Nat}
    (run : Runs db₀ h db) : strikes db₀ i ((ev, db') :: h) =
      match ev.healthBranch? db i with
      | some .live | some .blocked => 0
      | some .failure => strikes db₀ i h + 1
      | some .uncertain | some .egressUnconfirmed => strikes db₀ i h
      | none => if ev.Replaces db i then 0 else strikes db₀ i h := by
  rw [← run.current_eq]
  rfl

section Runs

variable {db₀ db : Db} {h : List (Event × Db)}

/-- A row that has not been added has no strikes. -/
theorem Runs.no_strikes (hfresh : db₀.Fresh) (run : Runs db₀ h db) {i : Nat}
    (hi : ∀ r ∈ db.proxies, r.id ≠ i) : strikes db₀ i h = 0 := by
  revert hi
  refine run.invariant (I := fun h db => (∀ r ∈ db.proxies, r.id ≠ i) → strikes db₀ i h = 0)
    hfresh (fun _ => rfl) ?_
  intro h s ev s' hrun _ ih _ heffect hi
  have hold : ∀ r ∈ s.proxies, r.id ≠ i := by
    intro r hr hid
    obtain ⟨r', hr', hid'⟩ := heffect.persists hr
    exact hi r' hr' (hid'.trans hid)
  have hbranch : ev.healthBranch? s i = none := by
    unfold Event.healthBranch?
    split
    · simp [HealthResult.row?_of_new hold]
    · rfl
  rw [strikes_cons hrun, hbranch]
  simp [ih hold]

/-- The health columns of every row that is not archived, in every reachable state: the counter
counts the strikes, and the status and the timestamps go with it. -/
theorem Runs.health (hfresh : db₀.Fresh) (run : Runs db₀ h db) :
    ∀ r ∈ db.proxies, r.archivedAt = none →
      r.consecutiveFailures = strikes db₀ r.id h ∧ r.health.Consistent := by
  refine run.invariant (I := fun h db => ∀ r ∈ db.proxies, r.archivedAt = none →
    r.consecutiveFailures = strikes db₀ r.id h ∧ r.health.Consistent) hfresh ?_ ?_
  · simp [hfresh.proxies]
  rintro h s ev s' hrun hwf ih rfl heffect r' hr' hkept
  have hhealth := exec_health hwf.keyed ev hr'
  refine ⟨?_, hhealth.consistent (fun r hr hr₀ => (ih r hr hr₀).2) hkept⟩
  rw [strikes_cons hrun]
  cases hhealth with
  | @checked row result _ hfound hbranch hchecked =>
    obtain ⟨hmem, hid, harchived, _⟩ := HealthResult.row?_mem hfound
    obtain ⟨hcount, _⟩ := ih row hmem harchived
    have hfailures : r'.consecutiveFailures =
        (row.observed result (checkerSettings s) ev.now).consecutiveFailures :=
      congrArg Health.consecutiveFailures hchecked.health
    rw [hbranch, hfailures, ← hid, ← hcount]
    unfold Proxy.observed
    cases result.branch <;> rfl
  | replaced hbranch hreplaces hrow =>
    rw [hbranch, if_pos hreplaces, hrow]
    rfl
  | @kept r hmem hid hbranch hstays hhealth =>
    have harchived : r.archivedAt = none := (congrArg Health.archivedAt hhealth).symm.trans hkept
    obtain ⟨hcount, _⟩ := ih r hmem harchived
    rw [hbranch, if_neg hstays, hid, ← hcount]
    exact congrArg Health.consecutiveFailures hhealth
  | archived _ _ _ _ hhealth =>
    have harchived := hkept.symm.trans (congrArg Health.archivedAt hhealth)
    cases harchived
  | added hbranch hstays hrow =>
    rw [hbranch, if_neg hstays, hrow]
    exact (Runs.no_strikes hfresh hrun fun r hr => newProxy_fresh hr).symm

/-- The three-strike machine. The counter of a row is the number of counted failures since its last
live or blocked result, and since it was added or replaced; the row is offline from three on; and a
result that says nothing about the proxy reschedules its check and changes nothing else. -/
theorem three_strikes (hfresh : db₀.Fresh) (run : Runs db₀ h db) :
    (∀ r ∈ db.proxies, r.archivedAt = none →
      r.consecutiveFailures = strikes db₀ r.id h ∧ r.health.Consistent) ∧
    ∀ ev i result db', ev.op = .applyHealthResult i result → result.branch.Uncertain →
      step db ev = .ok db' → ∃ φ : Proxy → Proxy, db' = { db with proxies := db.proxies.map φ } ∧
        ∀ r, r.SameButSchedule (φ r) ∧ (r.id ≠ i → φ r = r) := by
  refine ⟨Runs.health hfresh run, ?_⟩
  rintro ⟨op, now, wall⟩ i result db' rfl hbranch hstep
  have happly : applyHealthResult db i result now wall = .ok db' := hstep
  exact applyHealthResult_uncertain hbranch happly

end Runs

open Scenario in
/-- Two counted failures, an uncertain result, and a third failure. -/
def strikesAroundTimeout : List Event :=
  [minute 0 (.addProxy 1 (endpoint "192.0.2.1") none),
    minute 1 (.applyHealthResult 1 (liveFrom "198.51.100.7")),
    minute 61 (.applyHealthResult 1 { status := "dead" }),
    minute 66 (.applyHealthResult 1 { status := "needs_confirmation", failureKind := "protocol" }),
    minute 81 (.applyHealthResult 1 { status := "inconclusive" }),
    minute 86 (.applyHealthResult 1 { status := "dead" })]

open Scenario in
theorem three_strikes_strikesAroundTimeout :
    ((after oneUser strikesAroundTimeout).proxies.map fun r => (r.status, r.consecutiveFailures)) =
        [(.offline, 3)] ∧
      ∀ r ∈ (after oneUser strikesAroundTimeout).proxies, r.archivedAt = none →
        r.consecutiveFailures = strikes oneUser r.id (history oneUser strikesAroundTimeout) ∧
          r.health.Consistent :=
  ⟨by decide, (three_strikes oneUser_fresh (runs oneUser strikesAroundTimeout)).1⟩

end EarnProxy

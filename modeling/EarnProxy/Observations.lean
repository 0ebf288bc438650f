import EarnProxy.Operations

/-!
# What a health or EarnApp result does

A result first accrues the last confirmed interval of its row, if it is about to break the cycle,
and then rewrites the row. `Phased` keeps the two apart.
-/

namespace EarnProxy

open Transaction

/-- Visits to rows of `P`, then edits under the licence. -/
def Phased (lic : Licence) (P : Nat → Prop) (db db' : Db) : Prop :=
  ∃ accrued, Visits lic.now P db accrued ∧ Edited lic accrued db'

theorem Phased.of_edited {lic : Licence} {P : Nat → Prop} {db db' : Db} (h : Edited lic db db') :
    Phased lic P db db' := ⟨db, .refl db, h⟩

theorem Phased.of_visits {lic : Licence} {P : Nat → Prop} {db db' : Db}
    (h : Visits lic.now P db db') : Phased lic P db db' := ⟨db', h, .refl db'⟩

theorem Phased.edit {lic : Licence} {P : Nat → Prop} {db db' db'' : Db} (h : Phased lic P db db')
    (h' : Edited lic db' db'') : Phased lic P db db'' := by
  obtain ⟨accrued, hvisits, hedits⟩ := h
  exact ⟨accrued, hvisits, hedits.trans h'⟩

theorem Phased.keyed {lic : Licence} {P : Nat → Prop} {db db' : Db} (h : Phased lic P db db')
    (hk : Table.Keyed Proxy.id db.proxies) : Table.Keyed Proxy.id db'.proxies := by
  obtain ⟨accrued, hvisits, hedits⟩ := h
  exact hedits.keyed (hvisits.moved.keyed hk)

/-- An accrual and what the operation does after it. -/
theorem Phased.does {α : Type} {lic : Licence} {P : Nat → Prop} {db : Db} {x : Tx Db}
    {f : Db → Tx α} {out : α → Db} (hx : Does (Visits lic.now P) Db.Raises db x id)
    (hf : ∀ accrued, x = .ok accrued → Does (Edited lic) Db.Raises accrued (f accrued) out) :
    Does (Phased lic P) Db.Raises db (x >>= f) out :=
  hx.bind hf (fun _ => Phased.of_visits) fun s' _ h h' => ⟨s', h, h'⟩

/-! ## Accrual and reset -/

/-- The accrual and the reset with which an operation closes the cycle of row `i`. -/
def closeCycle (db : Db) (i : Nat) (now : Timestamp) (accrues resets : Prop) [Decidable accrues]
    [Decidable resets] : Tx Db :=
  (if accrues then accrueProxyTime db i now else pure db) >>= fun db =>
    if resets then resetProbation db i now else pure db

section CloseCycle

variable {lic : Licence} {db : Db} {i : Nat} {accrues resets : Prop} [Decidable accrues]
  [Decidable resets]

theorem closeCycle_does (hk : Table.Keyed Proxy.id db.proxies) (hlic : resets → lic.restarts) :
    Does (Phased lic (· = i)) Db.Raises db (closeCycle db i lic.now accrues resets) id := by
  unfold closeCycle
  refine Phased.does (Does.ite (fun _ => accrueProxyTime_does hk i) fun _ => Does.ok (.refl db)) ?_
  intro db₁ _
  refine Does.ite (fun hresets => ?_) fun _ => Does.ok (.refl db₁)
  have hdoes : Does (Edited lic) Db.Raises db₁
      (resetProbation { db₁ with proxies := db₁.proxies.map fun r => r } i lic.now) id := by
    refine resetProbation_does fun r _ => ?_
    by_cases hi : r.id = i
    · rw [if_pos hi, hi]
      exact restart_edit (hlic hresets) (.inl (.inl (List.mem_singleton.mpr rfl)))
    · rw [if_neg hi]
      exact .refl r
  rwa [List.map_id'] at hdoes

/-- The rows that `closeCycle` leaves. -/
theorem closeCycle_rows (hk : Table.Keyed Proxy.id db.proxies) {now : Timestamp} {db' : Db}
    (haccrues : accrues → resets) (h : closeCycle db i now accrues resets = .ok db') :
    db'.proxies =
      Table.update (fun r => r.id = i)
        (fun r => if resets then r.restart now else r) db.proxies := by
  unfold closeCycle at h
  by_cases hresets : resets
  · simp only [hresets, if_true] at h ⊢
    obtain ⟨db₁, φ, hφ, hsame, h₁⟩ : ∃ db₁ φ, db₁.proxies = db.proxies.map φ ∧
        (∀ r : Proxy, r.SameButCursor (φ r) ∧ (¬ r.id = i → φ r = r)) ∧
        resetProbation db₁ i now = .ok db' := by
      by_cases hacc : accrues
      · simp only [hacc, if_true] at h
        cases hdb₁ : accrueProxyTime db i now with
        | error e => rw [hdb₁] at h; cases h
        | ok db₁ =>
          rw [hdb₁] at h
          obtain ⟨φ, hφ, hsame⟩ := ((accrueProxyTime_does hk i).of_ok hdb₁).moved.rows
          exact ⟨db₁, φ, hφ, hsame, h⟩
      · simp only [hacc, if_false] at h
        exact ⟨db, id, by simp, fun r => ⟨.refl r, fun _ => rfl⟩, h⟩
    rw [resetProbation_ok h₁]
    simp only [hφ, Table.update, List.map_map]
    refine List.map_congr_left fun r _ => ?_
    obtain ⟨hcursor, hother⟩ := hsame r
    by_cases hi : r.id = i
    · simp only [Function.comp_apply, hcursor.id, hi, if_true]
      rw [hcursor]
      rfl
    · simp only [Function.comp_apply, hcursor.id, hi, if_false]
      exact hother hi
  · have hacc : ¬ accrues := fun hacc => hresets (haccrues hacc)
    simp only [hacc, hresets, if_false] at h ⊢
    rw [← Except.ok.inj h]
    simp [Table.update]

/-- After a reset the row has no pending entry. -/
theorem closeCycle_settled {now : Timestamp} {db' : Db} (hresets : resets)
    (h : closeCycle db i now accrues resets = .ok db') (ids : List Nat) :
    Settled db'.ledger ids i := by
  unfold closeCycle at h
  simp only [hresets, if_true] at h
  generalize (if accrues then accrueProxyTime db i now else pure db : Tx Db) = accrued at h
  cases accrued with
  | error e => cases h
  | ok db₁ =>
    rw [resetProbation_ok h]
    exact settled_expireIn (List.mem_singleton.mpr rfl) ids

end CloseCycle

/-- An edit of columns that no invariant reads. -/
theorem untouched_edit {lic : Licence} {settled : Prop} {r r' : Proxy} (id : r'.id = r.id)
    (owner : r'.userId = r.userId) (cursor : r'.accrualCursorAt = r.accrualCursorAt)
    (probation : r'.probationStartedAt = r.probationStartedAt)
    (archivedAt : r'.archivedAt = r.archivedAt) (duplicateOf : r'.duplicateOf = r.duplicateOf)
    (status : r'.status = r.status) (success : r'.lastSuccessAt = r.lastSuccessAt)
    (failures : r'.consecutiveFailures = r.consecutiveFailures)
    (eligibility : r'.eligibility = r.eligibility) (country : r'.countryCode = r.countryCode)
    (generation : r'.credentialGeneration = r.credentialGeneration) (probed : Probed lic r r') :
    RowEdit lic settled r r' where
  id := id
  owner := owner
  archived := fun h => archivedAt ▸ h
  clocks := .inl ⟨cursor, probation⟩
  holding := by
    by_cases h : r.Holding
    · exact .inr (.inr ⟨⟨archivedAt ▸ h.kept, duplicateOf ▸ h.canonical, status ▸ h.reachable,
        success ▸ h.observed⟩, probation⟩)
    · exact .inr (.inl h)
  release := fun _ hd hd' _ => absurd (duplicateOf ▸ hd') hd
  earning := fun h => .inl (eligibility ▸ h)
  priced := fun _ => .inr ⟨eligibility, .inl (by simp [Proxy.monthlyRate, eligibility, country])⟩
  generation := .inl generation
  sound := fun h => ⟨by rw [status, failures]; exact h.offline,
    by rw [status, success]; exact h.pending, by rw [status, archivedAt]; exact h.archived⟩
  reopen := fun _ h => .inr ⟨⟨archivedAt ▸ h.kept, status ▸ h.reachable, eligibility ▸ h.earning⟩,
    fun τ _ ho => ⟨cursor ▸ ho.1, success ▸ ho.2⟩⟩
  probed := probed

/-! ## Live results -/

/-- A live result on a row that has not been reset restarts its clocks only when the row holds no
pending entry. -/
theorem LiveObservation.not_holding {row : Proxy} {result : HealthResult} {staleMinutes : Int}
    {current : Timestamp}
    (hbreaks : (observeLive row result staleMinutes current).breaksCycle = false)
    (hreset : (observeLive row result staleMinutes current).continuityReset = true) :
    ¬ row.Holding := by
  intro hold
  rw [LiveObservation.continuityReset, hbreaks, Bool.or_false, Bool.or_eq_true] at hreset
  rcases hreset with hdown | hunobserved
  · exact absurd hold.reachable (by simpa [observeLive] using hdown)
  · simp only [observeLive, Bool.and_eq_true, Option.isNone_iff_eq_none] at hunobserved
    exact hold.observed hunobserved.2

theorem observeLive_not_stale {row : Proxy} {result : HealthResult} {staleMinutes : Int}
    {current success : Timestamp} (hup : row.status.up = true)
    (hsuccess : row.lastSuccessAt = some success)
    (hstale : (observeLive row result staleMinutes current).staleRecovery = false) :
    current ≤ success + minutes staleMinutes := by
  simpa [observeLive, hup, hsuccess] using hstale

/-- A row that is neither down nor archived is up, or has never been observed. -/
theorem Proxy.Sound.up {r : Proxy} (h : r.Sound) (hkept : r.archivedAt = none)
    (hdown : r.status.down = false) {success : Timestamp}
    (hsuccess : r.lastSuccessAt = some success) : r.status.up = true := by
  cases hs : r.status with
  | pending => rw [h.pending hs] at hsuccess; cases hsuccess
  | archived => exact absurd hkept (h.archived hs)
  | online => rfl
  | suspect => rfl
  | offline => rw [hs] at hdown; cases hdown
  | blocked => rw [hs] at hdown; cases hdown

theorem seenLive_edit {lic : Licence} {settled : Prop} {row : Proxy} {result : HealthResult}
    {settings : CheckerSettings} (hlic : lic.restarts)
    (hstale : settings.healthStaleMinutes = lic.staleMinutes)
    (hsettled : (observeLive row result settings.healthStaleMinutes lic.now).breaksCycle → settled)
    (hobserves : lic.observes row.id (row.seenLive row result
      (observeLive row result settings.healthStaleMinutes lic.now) settings lic.now).health)
    (hunclaims : lic.unclaims row.id) :
    let o := observeLive row result settings.healthStaleMinutes lic.now
    let r := if o.breaksCycle then row.restart lic.now else row
    RowEdit lic settled r (r.seenLive row result o settings lic.now) := by
  intro o r
  have hr : r = if o.breaksCycle then row.restart lic.now else row := rfl
  have hbreaks_reset : o.breaksCycle = true → o.continuityReset = true := by
    intro h
    simp [LiveObservation.continuityReset, h]
  have hclocks : o.continuityReset = true →
      (r.seenLive row result o settings lic.now).accrualCursorAt = some lic.now := by
    intro h
    simp [Proxy.seenLive, h]
  have hsame : o.breaksCycle = false → r = row := fun h => by simp [hr, h]
  have heligibility : r.eligibility = row.eligibility := by rw [hr]; split <;> rfl
  have hkept : (r.seenLive row result o settings lic.now).eligibility.Earning →
      (r.seenLive row result o settings lic.now).eligibility = r.eligibility := by
    intro h
    simp only [Proxy.seenLive] at h ⊢
    split at h
    · exact absurd h Eligibility.not_earning_pending
    · rename_i hkeeps
      rw [if_neg hkeeps, heligibility]
  have hearning : (r.seenLive row result o settings lic.now).eligibility.Earning →
      row.eligibility.Earning := fun h => heligibility ▸ hkept h ▸ h
  refine
    { id := rfl
      owner := rfl
      archived := fun h => h
      clocks := ?_
      holding := ?_
      release := fun _ hd hd' _ => absurd hd' hd
      earning := fun h => .inl (heligibility ▸ hearning h)
      priced := fun h => .inr ⟨hkept h, .inl (congrArg (monthlyRateFor · r.countryCode) (hkept h))⟩
      generation := .inl rfl
      sound := fun _ =>
        { offline := fun h => nomatch h
          pending := fun h => nomatch h
          archived := fun h => nomatch h }
      reopen := ?_
      probed := ⟨.inr ?_, .inr rfl, ?_, .inr ?_⟩ }
  · by_cases hreset : o.continuityReset
    · exact .inr ⟨hlic, hclocks hreset, by simp [Proxy.seenLive, hreset]⟩
    · have hrow := hsame (by simpa using mt hbreaks_reset hreset)
      exact .inl ⟨by simp [Proxy.seenLive, hreset, hrow], by simp [Proxy.seenLive, hreset, hrow]⟩
  · cases hbreaks : o.breaksCycle with
    | true => exact .inl (hsettled hbreaks)
    | false =>
      rw [hsame hbreaks]
      cases hreset : o.continuityReset with
      | true => exact .inr (.inl (LiveObservation.not_holding hbreaks hreset))
      | false =>
        by_cases hold : row.Holding
        · refine .inr (.inr ⟨⟨hold.kept, hold.canonical, rfl, fun h => nomatch h⟩, ?_⟩)
          simp [Proxy.seenLive, hreset]
        · exact .inr (.inl hold)
  · intro hsound hin
    cases hreset : o.continuityReset with
    | true => exact .inl (hclocks hreset)
    | false =>
      have hbreaks : o.breaksCycle = false := by
        simpa [hreset] using mt hbreaks_reset
      rw [hsame hbreaks] at hsound ⊢
      simp only [LiveObservation.continuityReset, LiveObservation.breaksCycle,
        Bool.or_eq_false_iff] at hreset
      have hkept : row.archivedAt = none := by
        have := hin.kept
        rwa [hsame hbreaks] at this
      have hdown : row.status.down = false := hreset.1.1
      refine .inr ⟨⟨hkept, hdown, hearning hin.earning⟩, fun τ hτ ho => ⟨?_, fun success hs => ?_⟩⟩
      · have hcursor : o.continuityReset = false := by
          simp [LiveObservation.continuityReset, LiveObservation.breaksCycle, hreset]
        simpa [Proxy.seenLive, hcursor] using ho.1
      · have hnow := observeLive_not_stale (hsound.up hkept hdown hs) hs hreset.1.2.2
        rw [hstale] at hnow
        exact lt_of_lt_of_le hτ hnow
  · have hid : r.id = row.id := by rw [hr]; split <;> rfl
    have harchived : r.archivedAt = row.archivedAt := by rw [hr]; split <;> rfl
    simpa [Proxy.seenLive, Proxy.health, hid, harchived] using hobserves
  · simp only [Proxy.seenLive]
    split
    · exact .inr rfl
    · exact .inl rfl
  · have hid : r.id = row.id := by rw [hr]; split <;> rfl
    exact hid ▸ hunclaims

/-- The election of a live result leaves a duplicate's cursor behind. -/
def LiveBackpays (db : Db) (row : Proxy) (result : HealthResult) (now wall : Timestamp) : Prop :=
  let settings := checkerSettings db
  let o := observeLive row result settings.healthStaleMinutes now
  ∃ exitIp ∈ o.trustedExitIp, ReconcileBackpays now
    (Table.update (fun r => r.id = row.id)
      (fun r => r.seenLive row result o settings now) db.proxies)
    row.id exitIp .httpsQuorum wall

instance (db : Db) (row : Proxy) (result : HealthResult) (now wall : Timestamp) :
    Decidable (LiveBackpays db row result now wall) :=
  inferInstanceAs (Decidable (∃ exitIp ∈ _, _))

/-- The row of a keyed table, as a statement that rewrote only this row left it. -/
theorem updated_row {rows : List Proxy} (hk : Table.Keyed Proxy.id rows) {row r : Proxy}
    (hrow : row ∈ rows) {f : Proxy → Proxy}
    (hr : r ∈ Table.update (fun r => r.id = row.id) f rows) (hid : r.id = row.id)
    (hf : ∀ s : Proxy, (f s).id = s.id) : r = f row := by
  obtain ⟨s, hs, heq⟩ := Table.mem_update.mp hr
  have hsid : s.id = row.id := by
    split at heq
    · rw [← heq, hf] at hid
      exact hid
    · exact heq ▸ hid
  rw [if_pos hsid, hk.eq hs hrow hsid] at heq
  exact heq.symm

theorem applyLive_does {lic : Licence} {db : Db} (hk : Table.Keyed Proxy.id db.proxies)
    {row : Proxy} (hrow : row ∈ db.proxies) {result : HealthResult} {wall : Timestamp}
    (hlic : lic.restarts) (hstale : healthStaleMinutes db = lic.staleMinutes)
    (hback : LiveBackpays db row result lic.now wall → lic.backpays)
    (hobserves : lic.observes row.id (row.seenLive row result
      (observeLive row result (checkerSettings db).healthStaleMinutes lic.now) (checkerSettings db)
      lic.now).health)
    (hunclaims : lic.unclaims row.id) :
    Does (Phased lic (· = row.id)) Db.Raises db (applyLive db row result lic.now wall) id := by
  unfold applyLive
  simp only
  set o := observeLive row result (checkerSettings db).healthStaleMinutes lic.now with ho
  rw [← bind_assoc]
  have hclose : Does (Phased lic (· = row.id)) Db.Raises db
      (closeCycle db row.id lic.now (o.breaksCycle ∧ row.eligibility.Earning) o.breaksCycle) id :=
    closeCycle_does hk fun _ => hlic
  refine Does.bind hclose (fun db₁ hdb₁ => ?_) (fun _ h => h) fun _ _ => Phased.edit
  have hrows := closeCycle_rows hk And.left hdb₁
  have hk₁ : Table.Keyed Proxy.id db₁.proxies := (hclose.of_ok hdb₁).keyed hk
  have hseen : Edited lic db₁
      (db₁.updateProxy row.id fun r => r.seenLive row result o (checkerSettings db) lic.now) := by
    refine Edited.updateProxy fun r hr hid => ?_
    rw [hrows] at hr
    have hr' := updated_row hk hrow hr hid fun s => by split <;> rfl
    rw [hr']
    exact seenLive_edit hlic hstale (fun hbreaks => closeCycle_settled hbreaks hdb₁ _) hobserves
      hunclaims
  cases htrusted : o.trustedExitIp with
  | none => exact Does.ok hseen
  | some exitIp =>
    have hprice : ∀ r ∈ keptProxy? (db₁.updateProxy row.id fun r =>
        r.seenLive row result o (checkerSettings db) lic.now).proxies row.id,
        r.eligibility.Earning → r.Repriced exitIp →
          r.accrualCursorAt = some lic.now ∨ lic.reprices row.id := by
      intro r hr hearning hrepriced
      obtain ⟨hr, hid, _⟩ := keptProxy?_mem hr
      obtain ⟨s, hs, rfl⟩ := Table.mem_update.mp hr
      have hsid : s.id = row.id := by
        split at hid <;> exact hid
      rw [hrows] at hs
      have hs' := updated_row hk hrow hs hsid fun s => by split <;> rfl
      rw [if_pos hsid] at hearning hrepriced
      -- a row that moves to another address loses its eligibility
      have hexit : s.exitIp = row.exitIp := by rw [hs']; split <;> rfl
      have hchanged : o.egressChanged = true := by
        have hmoved : egressChanged s.exitIp (some exitIp) = true := hrepriced.1
        rw [hexit, ← htrusted] at hmoved
        exact hmoved
      simp [Proxy.seenLive, LiveObservation.losesEligibility, hchanged] at hearning
    refine (reconcileExit_does (hseen.keyed hk₁)
      (fun h => hback ⟨exitIp, htrusted, ?_⟩) hprice).after
      fun _ h => hseen.trans h
    convert h using 1
    simp only [Db.updateProxy, Db.updateProxies, hrows, Table.update, List.map_map]
    refine List.map_congr_left fun r _ => ?_
    by_cases hid : r.id = row.id
    · have hid' : (if o.breaksCycle then r.restart lic.now else r).id = row.id := by
        split <;> exact hid
      simp only [Function.comp_apply, hid, hid', if_true]
      split <;> rfl
    · simp only [Function.comp_apply, hid, if_false]

/-! ## Blocked and failing results -/

theorem seenBlocked_edit {lic : Licence} {settled : Prop} {row r : Proxy}
    {settings : CheckerSettings} (hs : settled) (hr : r = row.restart lic.now)
    (hgrants : ¬ row.eligibility.Earning → lic.grants row.id)
    (hobserves : lic.observes row.id (row.seenBlocked row settings lic.now).health)
    (hunclaims : lic.unclaims row.id) :
    RowEdit lic settled r (r.seenBlocked row settings lic.now) where
  id := rfl
  owner := rfl
  archived := fun h => h
  clocks := .inl ⟨rfl, rfl⟩
  holding := .inl hs
  release := fun _ hd hd' _ => absurd hd' hd
  earning := by
    intro _
    subst hr
    by_cases h : row.eligibility.Earning
    · exact .inl h
    · exact .inr ⟨hgrants h, rfl⟩
  priced := fun _ => .inl (hr ▸ rfl)
  generation := .inl rfl
  sound := fun _ =>
    { offline := fun h => nomatch h
      pending := fun h => nomatch h
      archived := fun h => nomatch h }
  reopen := fun _ h => nomatch h.reachable
  probed := by
    subst hr
    exact ⟨.inr hobserves, .inr rfl, .inr rfl, .inr hunclaims⟩

theorem applyBlocked_does {lic : Licence} {db : Db} (hk : Table.Keyed Proxy.id db.proxies)
    {row : Proxy} (hrow : row ∈ db.proxies) (hlic : lic.restarts)
    (hgrants : ¬ row.eligibility.Earning → lic.grants row.id)
    (hobserves : lic.observes row.id (row.seenBlocked row (checkerSettings db) lic.now).health)
    (hunclaims : lic.unclaims row.id) :
    Does (Phased lic (· = row.id)) Db.Raises db (applyBlocked db row lic.now) id := by
  have hclose : Does (Phased lic (· = row.id)) Db.Raises db
      (closeCycle db row.id lic.now row.eligibility.Earning True) id :=
    closeCycle_does hk fun _ => hlic
  have heq : applyBlocked db row lic.now =
      closeCycle db row.id lic.now row.eligibility.Earning True >>= fun db₁ =>
        pure (db₁.updateProxy row.id fun r => r.seenBlocked row (checkerSettings db) lic.now) := by
    simp [applyBlocked, closeCycle]
  rw [heq]
  refine Does.bind hclose (fun db₁ hdb₁ => ?_) (fun _ h => h) fun _ _ => Phased.edit
  refine Does.ok (Edited.updateProxy fun r hr hid => ?_)
  rw [id, closeCycle_rows hk (fun _ => trivial) hdb₁] at hr
  have hr' := updated_row hk hrow hr hid fun s => by split <;> rfl
  simp only [if_true] at hr'
  exact seenBlocked_edit (closeCycle_settled trivial hdb₁ _) hr' hgrants hobserves hunclaims

theorem Proxy.nextStatus_offline {row : Proxy} (hsound : row.Sound) (hstrikes : ¬ row.strikesOut)
    (h : row.nextStatus = .offline) : False := by
  have hlt : row.consecutiveFailures < 2 := by simpa [Proxy.strikesOut] using hstrikes
  have hoffline : row.status = .offline := by
    simp only [Proxy.nextStatus, hstrikes] at h
    split at h
    · cases ‹false = true›
    · split at h
      · cases h
      · split at h
        · cases h
        · exact h
  have := hsound.offline hoffline
  omega

/-- A status that a counted failure leaves is the old one, unless it is `suspect`. -/
theorem Proxy.nextStatus_eq {row : Proxy} (hstrikes : ¬ row.strikesOut)
    (h : row.nextStatus ≠ .suspect) : row.nextStatus = row.status := by
  simp only [Proxy.nextStatus, hstrikes] at h ⊢
  split
  · cases ‹false = true›
  · split
    · exact Eq.symm ‹_›
    · split
      · simp_all
      · rfl

theorem seenFailing_edit {lic : Licence} {settled : Prop} {row : Proxy} {result : HealthResult}
    {settings : CheckerSettings} (hstrikes : ¬ row.strikesOut)
    (hobserves : lic.observes row.id (row.seenFailing row result settings lic.now).health)
    (hunclaims : lic.unclaims row.id) :
    RowEdit lic settled row (row.seenFailing row result settings lic.now) where
  id := rfl
  owner := rfl
  archived := fun h => h
  clocks := .inl ⟨rfl, rfl⟩
  holding := by
    by_cases hold : row.Holding
    · refine .inr (.inr ⟨⟨hold.kept, hold.canonical, ?_, hold.observed⟩, rfl⟩)
      by_cases hsuspect : row.nextStatus = .suspect
      · exact congrArg ProxyStatus.down hsuspect
      · exact (congrArg ProxyStatus.down (Proxy.nextStatus_eq hstrikes hsuspect)).trans
          hold.reachable
    · exact .inr (.inl hold)
  release := fun _ hd hd' _ => absurd hd' hd
  earning := .inl
  priced := fun _ => .inr ⟨rfl, .inl rfl⟩
  generation := .inl rfl
  sound := fun hsound =>
    { offline := fun h => (Proxy.nextStatus_offline hsound hstrikes h).elim
      pending := fun h => hsound.pending ((Proxy.nextStatus_eq hstrikes (by
        rw [show row.nextStatus = .pending from h]; exact fun h => nomatch h)).symm.trans h)
      archived := fun h => hsound.archived ((Proxy.nextStatus_eq hstrikes (by
        rw [show row.nextStatus = .archived from h]; exact fun h => nomatch h)).symm.trans h) }
  reopen := by
    intro hsound hin
    refine .inr ⟨⟨hin.kept, ?_, hin.earning⟩, fun _ _ ho => ho⟩
    have hdown : row.nextStatus.down = false := hin.reachable
    by_cases hsuspect : row.nextStatus = .suspect
    · cases hs : row.status with
      | offline =>
        have := hsound.offline hs
        simp [Proxy.strikesOut] at hstrikes
        omega
      | blocked => simp [Proxy.nextStatus, hstrikes, hs] at hsuspect
      | _ => rfl
    · rwa [Proxy.nextStatus_eq hstrikes hsuspect] at hdown
  probed := ⟨.inr hobserves, .inr rfl, .inr rfl, .inr hunclaims⟩

theorem seenOffline_edit {lic : Licence} {settled : Prop} {row r : Proxy} {result : HealthResult}
    {settings : CheckerSettings} (hlic : lic.restarts) (hs : settled) (hstrikes : row.strikesOut)
    (hobserves : lic.observes r.id (r.seenFailing row result settings lic.now).health)
    (hunclaims : lic.unclaims r.id) :
    RowEdit lic settled r ((r.seenFailing row result settings lic.now).restart lic.now) where
  id := rfl
  owner := rfl
  archived := fun h => h
  clocks := .inr ⟨hlic, rfl, rfl⟩
  holding := .inl hs
  release := fun _ hd hd' _ => absurd hd' hd
  earning := .inl
  priced := fun _ => .inl rfl
  generation := .inl rfl
  sound := by
    have hoffline : row.nextStatus = .offline := by simp [Proxy.nextStatus, hstrikes]
    have hfailures : 3 ≤ row.consecutiveFailures + 1 := by simpa [Proxy.strikesOut] using hstrikes
    intro _
    exact
      { offline := fun _ => hfailures
        pending := fun h => nomatch hoffline.symm.trans h
        archived := fun h => nomatch hoffline.symm.trans h }
  reopen := fun _ _ => .inl rfl
  probed := ⟨.inr hobserves, .inr rfl, .inr rfl, .inr hunclaims⟩

theorem applyFailure_does {lic : Licence} {db : Db} (hk : Table.Keyed Proxy.id db.proxies)
    {row : Proxy} (hrow : row ∈ db.proxies) {result : HealthResult} (hlic : lic.restarts)
    (hobserves : lic.observes row.id
      (row.seenFailing row result (checkerSettings db) lic.now).health)
    (hunclaims : lic.unclaims row.id) :
    Does (Phased lic (· = row.id)) Db.Raises db (applyFailure db row result lic.now) id := by
  unfold applyFailure
  simp only
  have haccrual : Does (Visits lic.now (· = row.id)) Db.Raises db
      (if row.strikesOut ∧ row.eligibility.Earning ∧ row.status.up then
        accrueProxyTime db row.id lic.now else pure db) id :=
    Does.ite (fun _ => accrueProxyTime_does hk row.id) fun _ => Does.ok (.refl db)
  refine Phased.does haccrual fun db₁ hdb₁ => ?_
  by_cases hstrikes : row.strikesOut
  · simp only [hstrikes, if_true, Db.updateProxy, Db.updateProxies, Table.update]
    refine resetProbation_does fun r hr => ?_
    by_cases hid : r.id = row.id
    · have hid' : (r.seenFailing row result (checkerSettings db) lic.now).id = row.id := hid
      simp only [hid, hid', if_true]
      refine seenOffline_edit hlic (.inl (List.mem_singleton.mpr rfl)) hstrikes ?_ (hid ▸ hunclaims)
      -- the accrual has moved nothing but the cursor
      obtain ⟨s, hs, hsame⟩ := (haccrual.of_ok hdb₁).moved.origin hr
      obtain rfl := hk.eq hs hrow (hsame.id.symm.trans hid)
      rw [hsame]
      exact hobserves
    · simp only [hid, if_false]
      exact .refl r
  · simp only [hstrikes] at hdb₁ ⊢
    obtain rfl := Except.ok.inj hdb₁
    refine Does.ok (Edited.updateProxy fun r hr hid => ?_)
    obtain rfl := hk.eq hr hrow hid
    exact seenFailing_edit hstrikes hobserves hunclaims

theorem HealthResult.row?_mem {result : HealthResult} {db : Db} {i : Nat} {row : Proxy}
    (h : result.row? db i = some row) :
    row ∈ db.proxies ∧ row.id = i ∧ row.archivedAt = none ∧ result.Current row := by
  obtain ⟨hlookup, hkeep⟩ := Option.filter_eq_some_iff.mp h
  exact ⟨Table.mem_of_lookup hlookup, Table.key_of_lookup hlookup, of_decide_eq_true hkeep⟩

theorem applyHealthResult_does {lic : Licence} {db : Db} (hk : Table.Keyed Proxy.id db.proxies)
    {i : Nat} {result : HealthResult} {wall : Timestamp} (hlic : lic.restarts)
    (hstale : healthStaleMinutes db = lic.staleMinutes)
    (hback : ∀ row ∈ result.row? db i, result.branch = .live →
      LiveBackpays db row result lic.now wall → lic.backpays)
    (hgrants : ∀ row ∈ result.row? db i, result.branch = .blocked → lic.grants row.id)
    (hobserves : ∀ row ∈ result.row? db i,
      lic.observes i (row.observed result (checkerSettings db) lic.now))
    (hunclaims : result.row? db i ≠ none → lic.unclaims i) :
    Does (Phased lic (· = i)) Db.Raises db (applyHealthResult db i result lic.now wall) id := by
  unfold applyHealthResult
  cases hrow : result.row? db i with
  | none => exact Does.ok (.of_edited (.refl db))
  | some row =>
    obtain ⟨hmem, rfl, _⟩ := HealthResult.row?_mem hrow
    have hobserved := hobserves row hrow
    have hunclaimed := hunclaims (by simp [hrow])
    cases hbranch : result.branch with
    | live =>
      simp only [Proxy.observed, hbranch] at hobserved
      exact applyLive_does hk hmem hlic hstale (hback row hrow hbranch) hobserved hunclaimed
    | uncertain =>
      refine Does.ok (.of_edited (Edited.updateProxy fun r _ hid => ?_))
      exact untouched_edit rfl rfl rfl rfl rfl rfl rfl rfl rfl rfl rfl rfl
        ⟨.inl rfl, .inr rfl, .inl rfl, .inr (hid ▸ hunclaimed)⟩
    | egressUnconfirmed =>
      refine Does.ok (.of_edited (Edited.updateProxy fun r _ hid => ?_))
      exact untouched_edit rfl rfl rfl rfl rfl rfl rfl rfl rfl rfl rfl rfl
        ⟨.inl rfl, .inr rfl, .inl rfl, .inr (hid ▸ hunclaimed)⟩
    | blocked =>
      simp only [Proxy.observed, hbranch] at hobserved
      exact applyBlocked_does hk hmem hlic (fun _ => hgrants row hrow hbranch) hobserved
        hunclaimed
    | failure =>
      simp only [Proxy.observed, hbranch] at hobserved
      exact applyFailure_does hk hmem hlic hobserved hunclaimed

/-! ## EarnApp results -/

/-- The columns of a row that its service rests on are the same. -/
structure Proxy.SameService (r r' : Proxy) : Prop where
  id : r'.id = r.id
  eligibility : r'.eligibility = r.eligibility
  generation : r'.credentialGeneration = r.credentialGeneration
  cursor : r'.accrualCursorAt = r.accrualCursorAt
  probation : r'.probationStartedAt = r.probationStartedAt

theorem mem_canonicalizedRows {rows : List Proxy} {exitIp : IpAddress} {prefer : Bool}
    {excludeId : Option Nat} {wall : Timestamp} {r' : Proxy}
    (h : r' ∈ canonicalizedRows rows exitIp prefer excludeId wall) :
    ∃ r ∈ rows, r.SameService r' := by
  unfold canonicalizedRows at h
  cases hc : electedCanonical rows exitIp prefer excludeId wall with
  | none =>
    rw [hc] at h
    exact ⟨r', h, rfl, rfl, rfl, rfl, rfl⟩
  | some canonical =>
    simp only [hc, rehome_eq_map] at h
    obtain ⟨r, hr, rfl⟩ := List.mem_map.mp h
    refine ⟨r, hr, ?_⟩
    unfold Proxy.rehomed
    split_ifs <;> exact ⟨rfl, rfl, rfl, rfl, rfl⟩

theorem Proxy.SameService.trans {r r' r'' : Proxy} (h : r.SameService r')
    (h' : r'.SameService r'') : r.SameService r'' :=
  ⟨h'.id.trans h.id, h'.eligibility.trans h.eligibility, h'.generation.trans h.generation,
    h'.cursor.trans h.cursor, h'.probation.trans h.probation⟩

theorem mem_reconciledRows {rows : List Proxy} {i : Nat} {exitIp : IpAddress}
    {source : AttestationSource} {wall : Timestamp} {r' : Proxy}
    (h : r' ∈ reconciledRows rows i exitIp source wall) : ∃ r ∈ rows, r.SameService r' := by
  have hself : ∀ {r : Proxy}, r ∈ Table.update (fun r => r.id = i)
      (fun r => r.reconciled exitIp source wall) rows → ∃ r₀ ∈ rows, r₀.SameService r := by
    intro r hr
    obtain ⟨r₀, hr₀, rfl⟩ := Table.mem_update.mp hr
    refine ⟨r₀, hr₀, ?_⟩
    split <;> exact ⟨rfl, rfl, rfl, rfl, rfl⟩
  unfold reconciledRows at h
  cases hprevious : keptProxy? rows i with
  | none =>
    rw [hprevious] at h
    exact ⟨r', h, rfl, rfl, rfl, rfl, rfl⟩
  | some previous =>
    rw [hprevious] at h
    -- one election after the other
    obtain ⟨r₁, hr₁, hsame₁⟩ : ∃ r₁ ∈ canonicalizedRows (Table.update (fun r => r.id = i)
        (fun r => r.reconciled exitIp source wall) rows) exitIp
        previous.egressVerifiedAt.isSome none wall, r₁.SameService r' := by
      cases hexit : previous.exitIp with
      | none =>
        simp only [hexit] at h
        exact ⟨r', h, rfl, rfl, rfl, rfl, rfl⟩
      | some previousExit =>
        simp only [hexit] at h
        split at h
        · exact ⟨r', h, rfl, rfl, rfl, rfl, rfl⟩
        · exact mem_canonicalizedRows h
    obtain ⟨r₂, hr₂, hsame₂⟩ := mem_canonicalizedRows hr₁
    obtain ⟨r₃, hr₃, hsame₃⟩ := hself hr₂
    exact ⟨r₃, hr₃, (hsame₃.trans hsame₂).trans hsame₁⟩

/-- The election of an EarnApp result leaves a duplicate's cursor behind. -/
def EarnappBackpays (db : Db) (previous : Proxy) (result : EarnappResult) (now wall : Timestamp) :
    Prop :=
  ∃ exitIp ∈ result.authenticatedExitIp, ReconcileBackpays now
    (Table.update (fun r => r.id = previous.id)
      (fun r => if result.resets previous then r.restart now else r) db.proxies)
    previous.id exitIp .earnappTls wall

instance (db : Db) (previous : Proxy) (result : EarnappResult) (now wall : Timestamp) :
    Decidable (EarnappBackpays db previous result now wall) :=
  inferInstanceAs (Decidable (∃ exitIp ∈ _, _))

theorem EarnappResult.row?_mem {result : EarnappResult} {db : Db} {i : Nat} {row : Proxy}
    (h : result.row? db i = some row) :
    row ∈ db.proxies ∧ row.id = i ∧ row.archivedAt = none ∧ result.Current row := by
  obtain ⟨hlookup, hkeep⟩ := Option.filter_eq_some_iff.mp h
  exact ⟨Table.mem_of_lookup hlookup, Table.key_of_lookup hlookup, of_decide_eq_true hkeep⟩

/-- The result gives the row a country in which it earns at another rate, and keeps its clocks. -/
def EarnappResult.Reprices (result : EarnappResult) (row : Proxy) : Prop :=
  result.resets row = false ∧ result.verifiedCountryCode row ≠ "" ∧
    monthlyRateFor row.eligibility (result.verifiedCountryCode row) ≠ row.monthlyRate

instance (result : EarnappResult) (row : Proxy) : Decidable (result.Reprices row) :=
  inferInstanceAs (Decidable (_ ∧ _))

theorem qualified_edit {lic : Licence} {settled : Prop} {previous r : Proxy}
    {result : EarnappResult} {refreshHours : Int}
    (heligibility : r.eligibility = previous.eligibility) (hrate : r.eligibility.Earning →
      r.accrualCursorAt = some lic.now ∨ r.monthlyRate = previous.monthlyRate)
    (hprice : result.Reprices previous → lic.reprices r.id)
    (hclocks : result.resets previous →
      r.accrualCursorAt = some lic.now ∧ r.probationStartedAt = some lic.now)
    (hgrants : (result.eligibility previous).Earning → lic.grants r.id) :
    RowEdit lic settled r (r.qualified previous result refreshHours lic.now) := by
  have hcursor : (r.qualified previous result refreshHours lic.now).accrualCursorAt =
      r.accrualCursorAt := by
    cases hresets : result.resets previous with
    | true => simp [Proxy.qualified, hresets, (hclocks hresets).1]
    | false => simp [Proxy.qualified, hresets]
  have hprobation : (r.qualified previous result refreshHours lic.now).probationStartedAt =
      r.probationStartedAt := by
    cases hresets : result.resets previous with
    | true => simp [Proxy.qualified, hresets, (hclocks hresets).2]
    | false => simp [Proxy.qualified, hresets]
  -- an eligibility that changes comes with a reset
  have hkept : result.resets previous = false → result.eligibility previous = r.eligibility := by
    intro hresets
    simp only [EarnappResult.resets, Bool.or_eq_false_iff, bne_eq_false_iff_eq] at hresets
    rw [heligibility, ← hresets.1]
  refine
    { id := rfl
      owner := rfl
      archived := fun h => h
      clocks := .inl ⟨hcursor, hprobation⟩
      holding := ?_
      release := fun _ hd hd' _ => absurd hd' hd
      earning := fun he => ?_
      priced := fun he => ?_
      generation := .inl rfl
      sound := fun h => ⟨h.offline, h.pending, h.archived⟩
      reopen := fun _ hin => ?_
      probed := ⟨.inl rfl, .inl rfl, .inr rfl, .inl ⟨rfl, rfl⟩⟩ }
  · by_cases hold : r.Holding
    · exact .inr (.inr ⟨⟨hold.kept, hold.canonical, hold.reachable, hold.observed⟩, hprobation⟩)
    · exact .inr (.inl hold)
  · have he' : (result.eligibility previous).Earning := he
    cases hresets : result.resets previous with
    | true => exact .inr ⟨hgrants he', hcursor.trans (hclocks hresets).1⟩
    | false => exact .inl (hkept hresets ▸ he')
  · cases hresets : result.resets previous with
    | true => exact .inl (hcursor.trans (hclocks hresets).1)
    | false =>
      have he' : r.eligibility.Earning := hkept hresets ▸ he
      rcases hrate he' with hnow | hrate
      · exact .inl (hcursor.trans hnow)
      refine .inr ⟨hkept hresets, ?_⟩
      by_cases hcountry : result.verifiedCountryCode previous = ""
      · exact .inl (by simp [Proxy.monthlyRate, Proxy.qualified, hcountry, hkept hresets])
      · by_cases hsame : monthlyRateFor previous.eligibility (result.verifiedCountryCode previous) =
            previous.monthlyRate
        · refine .inl (Eq.trans ?_ (hsame.trans hrate.symm))
          simp [Proxy.monthlyRate, Proxy.qualified, hcountry, hkept hresets, heligibility]
        · exact .inr (hprice ⟨hresets, hcountry, hsame⟩)
  · cases hresets : result.resets previous with
    | true => exact .inl (hcursor.trans (hclocks hresets).1)
    | false =>
      have he' : (result.eligibility previous).Earning := hin.earning
      exact .inr ⟨⟨hin.kept, hin.reachable, hkept hresets ▸ he'⟩,
        fun _ _ ho => ⟨hcursor ▸ ho.1, ho.2⟩⟩

section Settle

variable {db : Db} {previous : Proxy} {result : EarnappResult} {now wall : Timestamp}

/-- The clocks are closed, and then the address is reconciled. -/
theorem settle_eq : result.settle db previous.id previous now wall =
    closeCycle db previous.id now (previous.eligibility ≠ result.eligibility previous ∧
      previous.eligibility.Earning) (result.resets previous) >>= fun db =>
        match result.authenticatedExitIp with
        | some exitIp => reconcileExit db previous.id exitIp .earnappTls wall
        | none => pure db :=
  (bind_assoc _ _ _).symm

/-- What `settle` does behind the closed clocks. -/
theorem settle_rest (lic : Licence) {db₁ : Db} (hk : Table.Keyed Proxy.id db.proxies)
    (hmem : previous ∈ db.proxies) (hk₁ : Table.Keyed Proxy.id db₁.proxies)
    (hrows : db₁.proxies = Table.update (fun r => r.id = previous.id)
      (fun r => if result.resets previous then r.restart lic.now else r) db.proxies)
    (hback : EarnappBackpays db previous result lic.now wall → lic.backpays) :
    Does (Edited lic) Db.Raises db₁
      (match result.authenticatedExitIp with
        | some exitIp => reconcileExit db₁ previous.id exitIp .earnappTls wall
        | none => pure db₁) id := by
  cases hexit : result.authenticatedExitIp with
  | none => exact .ok (.refl db₁)
  | some exitIp =>
    -- a row that moves to another address was reset before
    have hreset : ∀ r ∈ keptProxy? db₁.proxies previous.id, r.Repriced exitIp →
        r.accrualCursorAt = some lic.now := by
      intro r hr hrepriced
      obtain ⟨hr, hid, _⟩ := keptProxy?_mem hr
      have hr₀ := updated_row hk hmem (hrows ▸ hr) hid fun s => by split <;> rfl
      have hexit₀ : r.exitIp = previous.exitIp := by rw [hr₀]; split <;> rfl
      have hresets : result.resets previous = true := by
        have hmoved : egressChanged r.exitIp (some exitIp) = true := hrepriced.1
        rw [hexit₀, ← hexit] at hmoved
        simp [EarnappResult.resets, hmoved]
      rw [hr₀, if_pos hresets]
      rfl
    refine reconcileExit_does hk₁ (fun h => hback ⟨exitIp, hexit, ?_⟩)
      fun r hr _ hrepriced => .inl (hreset r hr hrepriced)
    rw [hrows] at h
    exact h

theorem settle_does {lic : Licence} (hk : Table.Keyed Proxy.id db.proxies) (hlic : lic.restarts)
    (hmem : previous ∈ db.proxies)
    (hback : EarnappBackpays db previous result lic.now wall → lic.backpays) :
    Does (Phased lic (· = previous.id)) Db.Raises db
      (result.settle db previous.id previous lic.now wall) id := by
  rw [settle_eq]
  have hclose : Does (Phased lic (· = previous.id)) Db.Raises db
      (closeCycle db previous.id lic.now (previous.eligibility ≠ result.eligibility previous ∧
        previous.eligibility.Earning) (result.resets previous)) id :=
          closeCycle_does hk fun _ => hlic
  refine Does.bind hclose (fun db₁ hdb₁ => ?_) (fun _ h => h) fun _ _ => Phased.edit
  have hrows := closeCycle_rows hk (fun h => by simp [EarnappResult.resets, h.1]) hdb₁
  exact settle_rest lic hk hmem ((hclose.of_ok hdb₁).keyed hk) hrows hback

/-- The row at the closing statement, with or without a reconciliation before it. -/
theorem settle_row {lic : Licence} {db₂ : Db} (hk : Table.Keyed Proxy.id db.proxies)
    (hlic : lic.restarts) (hmem : previous ∈ db.proxies)
    (hback : EarnappBackpays db previous result lic.now wall → lic.backpays)
    (h : result.settle db previous.id previous lic.now wall = .ok db₂) {r : Proxy}
    (hr : r ∈ db₂.proxies) (hid : r.id = previous.id) :
    r.eligibility = previous.eligibility ∧
      (r.eligibility.Earning →
        r.accrualCursorAt = some lic.now ∨ r.monthlyRate = previous.monthlyRate) ∧
      (result.resets previous →
        r.accrualCursorAt = some lic.now ∧ r.probationStartedAt = some lic.now) := by
  rw [settle_eq] at h
  obtain ⟨db₁, hdb₁, h⟩ := ok_of_bind h
  have hrows := closeCycle_rows hk (fun h => by simp [EarnappResult.resets, h.1]) hdb₁
  have hclose : Does (Phased lic (· = previous.id)) Db.Raises db
      (closeCycle db previous.id lic.now (previous.eligibility ≠ result.eligibility previous ∧
        previous.eligibility.Earning) (result.resets previous)) id :=
          closeCycle_does hk fun _ => hlic
  have hunpriced : Edited lic.unpricing db₁ db₂ :=
    (settle_rest lic.unpricing hk hmem ((hclose.of_ok hdb₁).keyed hk) hrows hback).of_ok h
  have horigin : ∃ s ∈ db₁.proxies, s.SameService r := by
    split at h
    · rw [reconcileExit_rows h] at hr
      exact mem_reconciledRows hr
    · obtain rfl := Except.ok.inj h
      exact ⟨r, hr, rfl, rfl, rfl, rfl, rfl⟩
  obtain ⟨s, hs, hsame⟩ := horigin
  rw [hrows] at hs
  have hs₀ := updated_row hk hmem hs (hsame.id.symm.trans hid) fun s => by split <;> rfl
  refine ⟨?_, fun hearning => ?_, fun hresets => ?_⟩
  · rw [hsame.eligibility, hs₀]
    split <;> rfl
  · obtain ⟨t, ht, _, hedit⟩ := hunpriced.origin hr
    have ht₀ := updated_row hk hmem (hrows ▸ ht) (hedit.id.symm.trans hid) fun s => by split <;> rfl
    have hrate : t.monthlyRate = previous.monthlyRate := by rw [ht₀]; split <;> rfl
    exact (hedit.priced hearning).imp_right fun h => (h.2.resolve_right id).trans hrate
  · rw [hsame.cursor, hsame.probation, hs₀, if_pos hresets]
    exact ⟨rfl, rfl⟩

end Settle

theorem applyEarnappResult_does {lic : Licence} {db : Db} (hk : Table.Keyed Proxy.id db.proxies)
    {i : Nat} {result : EarnappResult} {wall : Timestamp} (hlic : lic.restarts)
    (hback : ∀ previous ∈ result.row? db i,
      EarnappBackpays db previous result lic.now wall → lic.backpays)
    (hgrants : ∀ previous ∈ result.row? db i,
      (result.eligibility previous).Earning → lic.grants previous.id)
    (hprice : ∀ previous ∈ result.row? db i, result.Reprices previous → lic.reprices previous.id) :
    Does (Phased lic (· = i)) Db.Raises db (applyEarnappResult db i result lic.now wall) id := by
  unfold applyEarnappResult
  cases hrow : result.row? db i with
  | none => exact Does.ok (.of_edited (.refl db))
  | some previous =>
    obtain ⟨hmem, rfl, _⟩ := EarnappResult.row?_mem hrow
    have hsettle := settle_does hk hlic hmem (hback previous hrow)
    refine Does.bind hsettle (fun db₂ hdb₂ => Does.ok ?_) (fun _ h => h) fun _ _ => Phased.edit
    refine Edited.updateProxy fun r hr hid => ?_
    obtain ⟨heligibility, hrate, hclocks⟩ :=
      settle_row hk hlic hmem (hback previous hrow) hdb₂ hr hid
    exact qualified_edit heligibility hrate (fun h => hid ▸ hprice previous hrow h) hclocks
      fun he => hid ▸ hgrants previous hrow he

end EarnProxy

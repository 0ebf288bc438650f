import EarnProxy.Library.Turns
import EarnProxy.ProbeProtocol

/-!
# Health claims

`claim_due_proxies` with a host limit fills its batch, lets expired leases go first and the hosts
take turns. A row that it has leased is not claimed again before the lease is over, unless the claim
has come to its end.
-/

namespace EarnProxy

open Transaction

/-- `batch_size`. -/
def healthBatchSize (db : Db) (limit : Option Int) : Nat :=
  let concurrency := (checkerSettings db).healthConcurrency
  (max 1 (min (if limit.getD 0 = 0 then concurrency else limit.getD 0) concurrency)).toNat

def dueRows (db : Db) (current : Timestamp) : List Proxy :=
  db.proxies.filter fun r => r.HealthDue db current

/-- The closing `SELECT` of `claim_due_proxies`. -/
def claimedRows (db : Db) (token : String) (ids : List Nat) : List Proxy :=
  (db.proxies.filter fun r => r.checkClaimToken = some token ∧ r.id ∈ ids).insertionSort
    fun r s => r.id ≤ s.id

/-- `claim_due_proxies`, when nothing comes between its commit and its closing `SELECT`: the
database and the rows that it returns. -/
def claimDueProxiesCall (db : Db) (current : Timestamp) (limit perHostLimit : Option Int)
    (token : String) : Db × List Proxy :=
  match claimDueProxies db current limit perHostLimit token with
  | none => (db, [])
  | some (db', ids) => (db', claimedRows db' token ids)

/-- A batch is full, and fair to the hosts. -/
structure FairBatch (db : Db) (current : Timestamp) (limit : Option Int) (batch : List Proxy) : Prop
    where
  due : batch.Subperm (dueRows db current)
  full : batch.length = min (healthBatchSize db limit) (dueRows db current).length
  expiredFirst : ∀ r ∈ dueRows db current, r ∉ batch → r.ClaimExpired current →
    ∀ s ∈ batch, s.ClaimExpired current
  fair : (∀ r ∈ dueRows db current, ¬ r.ClaimExpired current) →
    ∀ r ∈ dueRows db current, r ∉ batch → ∀ host,
      batch.countP (fun s => s.hostKey = host) ≤ batch.countP (fun s => s.hostKey = r.hostKey) + 1
  earliest : (∀ r ∈ dueRows db current, ¬ r.ClaimExpired current) →
    ∀ r ∈ dueRows db current, r ∉ batch → ∀ s ∈ batch, s.hostKey = r.hostKey →
      s.checkOrder ≤ r.checkOrder

/-- The instant of a call of `claim_due_proxies`. -/
def ProbeAction.claimTime : ProbeAction → Option Timestamp
  | .claimDueProxies current .. => some current
  | _ => none

/-- The calls of `claim_due_proxies` are made at nondecreasing times. -/
def ClaimsInOrder (h : List (ProbeAction × ProbeState)) : Prop :=
  (h.filterMap fun x => x.1.claimTime).Pairwise fun later earlier => earlier ≤ later

instance (h : List (ProbeAction × ProbeState)) : Decidable (ClaimsInOrder h) :=
  inferInstanceAs (Decidable (List.Pairwise _ _))

/-- The action ends the health claim of row `i`: its result is applied, it is released, or the
credentials of the row are replaced. -/
inductive ProbeAction.Frees (i : Nat) (token : String) (s : ProbeState) (a : ProbeAction) :
    Prop where
  | applied {c : ProbeClaim} (probe : c.probe = .health) (proxyId : c.proxyId = i)
      (token : c.token = token) (applies : a.Applies c s)
  | released (mem : (i, token) ∈ a.releasedClaims .health)
  | replaced {ev : Event} (event : a.event? = some ev) (replaces : ev.Replaces s.db i)

/-- Of two calls that claim a row, the later one comes after the lease of the earlier one, or after
something has ended the earlier claim. -/
def ExclusiveClaims (s₀ : ProbeState) (h : List (ProbeAction × ProbeState)) : Prop :=
  ∀ (later between earlier : List (ProbeAction × ProbeState)) (t₁ t₂ : Timestamp)
    (limit₁ perHostLimit₁ limit₂ perHostLimit₂ : Option Int) (token₁ token₂ : String)
    (s₁ s₂ : ProbeState),
    h = later ++ (.claimDueProxies t₂ limit₂ perHostLimit₂ token₂, s₂) :: between ++
      (.claimDueProxies t₁ limit₁ perHostLimit₁ token₁, s₁) :: earlier →
    t₂ < t₁ + minutes 10 →
    ∀ i ∈ (ProbeAction.claimDueProxies t₁ limit₁ perHostLimit₁ token₁).claimedIds .health
      (History.current s₀ earlier),
      i ∈ (ProbeAction.claimDueProxies t₂ limit₂ perHostLimit₂ token₂).claimedIds .health
        (History.current s₁ between) →
      History.Sometime (fun s a => a.Frees i token₁ s) s₁ between

/-! ## Batches -/

variable {db : Db} {current : Timestamp} {limit perHostLimit : Option Int}

theorem dueProxies_eq (db : Db) (current : Timestamp) (limit : Option Int) (perHostLimit : Int) :
    dueProxies db current limit (some perHostLimit) =
      Turns.batch (Turns.turnKey Proxy.hostKey Proxy.checkOrder
        (fun r => if r.ClaimExpired current then 0 else 1) (dueRows db current))
        (healthBatchSize db limit) (dueRows db current) :=
  rfl

theorem nodup_checkOrder (hk : Table.Keyed Proxy.id db.proxies) :
    ((dueRows db current).map Proxy.checkOrder).Nodup := by
  have hids : ((dueRows db current).map Proxy.id).Nodup := hk.filter _
  refine List.Nodup.of_map (fun key : Timestamp ×ₗ Nat => (ofLex key).2) ?_
  rwa [List.map_map]

theorem dueProxies_fair (hk : Table.Keyed Proxy.id db.proxies) (current : Timestamp)
    (limit : Option Int) (perHostLimit : Int) :
    FairBatch db current limit (dueProxies db current limit (some perHostLimit)) := by
  rw [dueProxies_eq]
  refine ⟨Turns.batch_subperm, Turns.length_batch, fun r hr hout hexpired s hs => ?_,
    fun hnone r hr hout host => ?_, fun hnone r hr hout s hs hhost => ?_⟩
  · have hle := Turns.batch_priority_le hr hout hs
    rw [if_pos hexpired] at hle
    by_contra hs'
    rw [if_neg hs'] at hle
    exact absurd hle (by decide)
  · refine Turns.batch_fair (nodup_checkOrder hk) (fun s hs s' hs' => ?_) hr hout host
    rw [if_neg (hnone s hs), if_neg (hnone s' hs')]
  · refine Turns.batch_order_le hr hout hs ?_ hhost
    rw [if_neg (hnone r hr), if_neg (hnone s (Turns.mem_of_mem_batch hs))]

/-! ## What a call returns -/

theorem dueProxies_subperm (db : Db) (current : Timestamp) (limit perHostLimit : Option Int) :
    (dueProxies db current limit perHostLimit).Subperm (dueRows db current) :=
  (List.take_sublist _ _).subperm.trans (List.perm_insertionSort _ _).subperm

theorem filter_ids_perm (hk : Table.Keyed Proxy.id db.proxies) {batch : List Proxy}
    (hbatch : batch.Subperm db.proxies) :
    (db.proxies.filter fun r => r.id ∈ batch.map Proxy.id).Perm batch := by
  have hnodup : db.proxies.Nodup := List.Nodup.of_map _ hk
  have hbatch' : batch.Nodup := by
    obtain ⟨rows, hperm, hrows⟩ := hbatch
    exact hperm.nodup_iff.mp (hrows.nodup hnodup)
  rw [List.perm_ext_iff_of_nodup (hnodup.filter _) hbatch']
  intro r
  rw [List.mem_filter, decide_eq_true_iff, List.mem_map]
  constructor
  · rintro ⟨hr, s, hs, hid⟩
    exact hk.eq (hbatch.subset hs) hr hid ▸ hs
  · exact fun hr => ⟨hbatch.subset hr, r, hr, rfl⟩

/-- The rows that a statement has written, when they can be told from the others. -/
theorem filter_update_of_iff {α : Type*} {p q : α → Prop} [DecidablePred p] [DecidablePred q]
    {f : α → α} {rows : List α} (h : ∀ r ∈ rows, q (if p r then f r else r) ↔ p r) :
    (Table.update p f rows).filter q = (rows.filter p).map f := by
  induction rows with
  | nil => rfl
  | cons r rows ih =>
    obtain ⟨hr, hrows⟩ := List.forall_mem_cons.mp h
    have hrest := ih hrows
    unfold Table.update at hrest ⊢
    rw [List.map_cons, List.filter_cons, List.filter_cons, hrest]
    by_cases hp : p r
    · rw [if_pos (decide_eq_true (hr.mpr hp)), if_pos (decide_eq_true hp), if_pos hp, List.map_cons]
    · rw [if_neg (by simpa using mt hr.mp hp), if_neg (by simpa using hp)]

/-- A call returns the rows that it has selected, as it has claimed them. -/
theorem claimDueProxiesCall_perm (hk : Table.Keyed Proxy.id db.proxies) (current : Timestamp)
    (limit perHostLimit : Option Int) (token : String) :
    (claimDueProxiesCall db current limit perHostLimit token).2.Perm
      ((dueProxies db current limit perHostLimit).map
        fun r => r.claimed (checkerSettings db) current token .health) := by
  generalize hbatch : dueProxies db current limit perHostLimit = batch
  have hsub : batch.Subperm db.proxies := by
    rw [← hbatch]
    exact (dueProxies_subperm ..).trans List.filter_sublist.subperm
  unfold claimDueProxiesCall claimDueProxies claimRows
  rw [hbatch]
  by_cases hempty : batch.map Proxy.id = []
  · simp only [if_true, List.map_eq_nil_iff.mp hempty, List.map_nil]
    exact .nil
  · simp only [hempty, if_false, claimedRows]
    refine (List.perm_insertionSort _ _).trans ?_
    have hrows : (db.updateProxies (fun r => r.id ∈ batch.map Proxy.id)
        fun r => r.claimed (checkerSettings db) current token .health).proxies.filter
          (fun r => r.checkClaimToken = some token ∧ r.id ∈ batch.map Proxy.id) =
        (db.proxies.filter fun r => r.id ∈ batch.map Proxy.id).map
          fun r => r.claimed (checkerSettings db) current token .health := by
      refine filter_update_of_iff fun r _ => ⟨fun h => ?_, fun hr => ?_⟩
      · by_contra hr
        rw [if_neg hr] at h
        exact hr h.2
      · rw [if_pos hr]
        exact ⟨rfl, hr⟩
    rw [hrows]
    exact (filter_ids_perm hk hsub).map _

/-! ## Leases -/

/-- The row is leased for the token. -/
def Leased (db : Db) (i : Nat) (token : String) (claimedUntil : Timestamp) : Prop :=
  ∃ r ∈ db.proxies, r.id = i ∧ r.checkClaimToken = some token ∧
    r.checkClaimedUntil = some claimedUntil

variable {s s' : ProbeState} {a : ProbeAction} {i : Nat} {token : String} {claimedUntil : Timestamp}

/-- A statement that writes a row only when it changes no lease, or is allowed to end this one. -/
theorem Leased.update {p : Proxy → Prop} [DecidablePred p] {f : Proxy → Proxy}
    (h : Leased db i token claimedUntil)
    (hf : ∀ r : Proxy, p r → r.id = i → r.checkClaimToken = some token →
      r.checkClaimedUntil = some claimedUntil →
      (f r).id = r.id ∧ (f r).checkClaimToken = r.checkClaimToken ∧
        (f r).checkClaimedUntil = r.checkClaimedUntil) :
    Leased (db.updateProxies p f) i token claimedUntil := by
  obtain ⟨r, hr, hid, htoken, huntil⟩ := h
  refine ⟨_, Table.mem_update.mpr ⟨r, hr, rfl⟩, ?_⟩
  split
  next hp =>
    obtain ⟨hid', htoken', huntil'⟩ := hf r hp hid htoken huntil
    exact ⟨hid'.trans hid, htoken'.trans htoken, huntil'.trans huntil⟩
  next => exact ⟨hid, htoken, huntil⟩

theorem Leased.effect (hk : Table.Keyed Proxy.id db.proxies) {ev : Event} {db' : Db}
    (h : Leased db i token claimedUntil) (heffect : Effect db ev db') :
    Leased db' i token claimedUntil ∨ ev.Unclaims db i := by
  obtain ⟨r, hr, rfl, htoken, huntil⟩ := h
  obtain ⟨r', hr', hid⟩ := heffect.persists hr
  rcases heffect.row hr' with ⟨r₀, hr₀, hid₀, -, hprobed⟩ | ⟨userId, parsed, hnew⟩
  · obtain rfl := hk.eq hr₀ hr (hid₀.symm.trans hid)
    rcases hprobed.lease with ⟨htoken', huntil'⟩ | hunclaims
    · exact .inl ⟨r', hr', hid, htoken'.trans htoken, huntil'.trans huntil⟩
    · exact .inr hunclaims
  · exact absurd (hnew ▸ hid).symm (newProxy_fresh hr)

theorem Leased.service (hk : Table.Keyed Proxy.id s.db.proxies) {ev : Event}
    (h : Leased s.db i token claimedUntil) :
    Leased (exec s.db ev) i token claimedUntil ∨
      (step s.db ev).isOk ∧ ev.Unclaims s.db i := by
  cases hstep : step s.db ev with
  | error e =>
    rw [exec_of_error hstep]
    exact .inl h
  | ok db' => exact (h.effect hk (exec_effect hk ev)).imp_right fun hunclaims => ⟨rfl, hunclaims⟩

/-- A row whose lease is running is not due. -/
theorem Leased.not_claimed (hk : Table.Keyed Proxy.id db.proxies)
    (h : Leased db i token claimedUntil) (hrunning : current < claimedUntil) :
    i ∉ (dueProxies db current limit perHostLimit).map Proxy.id := by
  intro hmem
  obtain ⟨r', hr', hid'⟩ := List.mem_map.mp hmem
  obtain ⟨r, hr, hid, -, huntil⟩ := h
  obtain ⟨hr'mem, hdue⟩ := List.mem_filter.mp ((dueProxies_subperm ..).subset hr')
  obtain rfl := hk.eq hr'mem hr (hid'.trans hid.symm)
  have hdue : r'.HealthDue db current := of_decide_eq_true hdue
  exact absurd (hdue.2.2.2 _ huntil) (not_le.mpr hrunning)

theorem claimedIds_claimDueProxies (s : ProbeState) (current : Timestamp)
    (limit perHostLimit : Option Int) (token : String) :
    (ProbeAction.claimDueProxies current limit perHostLimit token).claimedIds .health s =
      (dueProxies s.db current limit perHostLimit).map Proxy.id := by
  unfold ProbeAction.claimedIds EarnProxy.claimDueProxies claimRows
  by_cases hempty : (dueProxies s.db current limit perHostLimit).map Proxy.id = []
  · simp [hempty]
  · simp [hempty]

theorem claimed_db (s : ProbeState) (probe : Probe) (rows : List Proxy) (current : Timestamp)
    (token : String) :
    (s.claimed probe token (claimRows probe s.db rows current token)).db =
      s.db.updateProxies (fun r => r.id ∈ rows.map Proxy.id)
        fun r => r.claimed (checkerSettings s.db) current token probe := by
  unfold claimRows
  by_cases hempty : rows.map Proxy.id = []
  · simp only [hempty, if_true, ProbeState.claimed]
    unfold Db.updateProxies
    rw [Table.update_eq_self fun _ _ => List.not_mem_nil]
  · simp only [hempty, if_false, ProbeState.claimed]

theorem Leased.released {probe : Probe} {claims : List (Nat × String)}
    (hother : probe = .health → (i, token) ∉ claims) (h : Leased db i token claimedUntil) :
    Leased (releaseClaims probe db claims current) i token claimedUntil := by
  unfold releaseClaims
  induction claims generalizing db with
  | nil => exact h
  | cons claim claims ih =>
    refine ih (fun hprobe hmem => hother hprobe (List.mem_cons_of_mem _ hmem)) (h.update ?_)
    rintro r ⟨hid, htoken⟩ hrid hrtoken -
    cases probe with
    | health =>
      have hclaim : claim = (i, token) :=
        Prod.ext (hid.symm.trans hrid) (Option.some.inj (htoken.symm.trans hrtoken))
      exact absurd (hclaim ▸ List.mem_cons_self) (hother rfl)
    | earnapp => exact ⟨rfl, rfl, rfl⟩

/-- What an action makes of a lease. -/
theorem Leased.next (hk : Table.Keyed Proxy.id s.db.proxies) (h : Leased s.db i token claimedUntil)
    (hnext : s.next a = some s') :
    Leased s'.db i token claimedUntil ∨ a.Frees i token s ∨
      ∃ current ∈ a.claimTime, claimedUntil ≤ current := by
  cases a with
  | service ev =>
    simp only [ProbeState.next] at hnext
    split at hnext
    · cases hnext
    · rename_i hreports
      obtain rfl := Option.some.inj hnext
      rcases h.service hk with hkept | ⟨hok, hunclaims⟩
      · exact .inl hkept
      · refine .inr (.inl (.replaced rfl ?_))
        obtain ⟨op, now, wall⟩ := ev
        cases op with
        | replaceProxy proxyId userId parsed => exact ⟨hunclaims, hok⟩
        | applyHealthResult proxyId result => exact absurd rfl hreports
        | _ => exact hunclaims.elim
  | claimDueProxies current limit perHostLimit fresh =>
    simp only [ProbeState.next] at hnext
    split at hnext
    · cases hnext
    · obtain rfl := Option.some.inj hnext
      by_cases hrunning : current < claimedUntil
      · refine .inl ?_
        rw [claimDueProxies, claimed_db]
        refine h.update fun r hr hid _ _ => absurd (hid ▸ hr) (h.not_claimed hk hrunning)
      · exact .inr (.inr ⟨current, rfl, not_lt.mp hrunning⟩)
  | claimDueEarnapp current limit fresh =>
    simp only [ProbeState.next] at hnext
    split at hnext
    · cases hnext
    · obtain rfl := Option.some.inj hnext
      refine .inl ?_
      rw [EarnProxy.claimDueEarnapp, claimed_db]
      exact h.update fun _ _ _ _ _ => ⟨rfl, rfl, rfl⟩
  | readBack batch =>
    simp only [ProbeState.next] at hnext
    split at hnext
    · obtain rfl := Option.some.inj hnext
      exact .inl h
    · cases hnext
  | releaseHealthClaims claims current =>
    obtain rfl := Option.some.inj hnext
    by_cases hmem : (i, token) ∈ claims
    · exact .inr (.inl (.released hmem))
    · exact .inl (h.released fun _ => hmem)
  | releaseEarnappClaims claims current =>
    obtain rfl := Option.some.inj hnext
    exact .inl (h.released fun hprobe => by cases hprobe)
  | applyHealth c result now wall =>
    obtain ⟨⟨-, hprobe⟩, rfl⟩ := ProbeState.next_applyHealth hnext
    rcases h.service hk with hkept | ⟨hok, hunclaims⟩
    · exact .inl hkept
    · obtain ⟨hid, hfound⟩ := hunclaims
      have haccepted := Option.isSome_iff_ne_none.mpr hfound
      refine .inr (.inl (.applied hprobe hid ?_ ⟨rfl, haccepted, hok⟩))
      obtain ⟨row, hrow⟩ := Option.isSome_iff_exists.mp haccepted
      obtain ⟨hmem, hrowid, -, hcurrent⟩ := HealthResult.row?_mem hrow
      obtain ⟨r, hr, hrid, htoken, -⟩ := h
      obtain rfl := hk.eq hmem hr (hrowid.trans (hid.trans hrid.symm))
      have hsame : row.checkClaimToken.getD "" = c.token := hcurrent.2 _ rfl
      rw [htoken] at hsame
      exact hsame.symm
  | applyEarnapp c result now wall =>
    obtain ⟨-, rfl⟩ := ProbeState.next_applyEarnapp hnext
    have hreported := reported_cases s c (c.earnapp result) now wall
    generalize s.reported c (c.earnapp result) now wall = s' at hreported ⊢
    cases hreported with
    | whole => exact .inl ((h.effect hk (exec_effect hk _)).resolve_right id)
    | opened hrow hsettle =>
      exact .inl ((h.effect hk (settle_effect hk hrow hsettle)).resolve_right id)
    | raised => exact .inl h
  | closeEarnapp x =>
    obtain ⟨-, rfl⟩ := ProbeState.next_closeEarnapp hnext
    exact .inl (h.update fun _ _ _ _ _ => ⟨rfl, rfl, rfl⟩)

/-- A claim leases its rows. -/
theorem leased_of_claimed {limit perHostLimit : Option Int} {t : Timestamp}
    (hnext : s.next (.claimDueProxies t limit perHostLimit token) = some s')
    (hmem : i ∈ (ProbeAction.claimDueProxies t limit perHostLimit token).claimedIds .health s) :
    Leased s'.db i token (t + minutes 10) := by
  rw [claimedIds_claimDueProxies] at hmem
  simp only [ProbeState.next] at hnext
  split at hnext
  · cases hnext
  · obtain rfl := Option.some.inj hnext
    obtain ⟨r, hr, hid⟩ := List.mem_map.mp hmem
    have hrow : r ∈ s.db.proxies := (List.mem_filter.mp ((dueProxies_subperm ..).subset hr)).1
    rw [EarnProxy.claimDueProxies, claimed_db]
    refine ⟨_, Table.mem_update.mpr ⟨r, hrow, rfl⟩, ?_⟩
    rw [if_pos (hid ▸ hmem)]
    exact ⟨hid, rfl, rfl⟩

/-! ## Runs -/

theorem Effect.keyed {db' : Db} {ev : Event} (h : Effect db ev db')
    (hk : Table.Keyed Proxy.id db.proxies) : Table.Keyed Proxy.id db'.proxies := by
  cases h with
  | proxies hphased => exact hphased.keyed hk
  | added => exact hk.append_fresh fun _ hr => newProxy_fresh hr
  | others hsame => exact hsame.proxies ▸ hk

theorem keyed_update {p : Proxy → Prop} [DecidablePred p] {f : Proxy → Proxy}
    (hk : Table.Keyed Proxy.id db.proxies) (hf : ∀ r : Proxy, (f r).id = r.id) :
    Table.Keyed Proxy.id (db.updateProxies p f).proxies := by
  refine hk.map fun r _ => ?_
  split
  · exact hf r
  · rfl

theorem keyed_released (probe : Probe) (claims : List (Nat × String))
    (hk : Table.Keyed Proxy.id db.proxies) :
    Table.Keyed Proxy.id (releaseClaims probe db claims current).proxies := by
  unfold releaseClaims
  induction claims generalizing db with
  | nil => exact hk
  | cons claim claims ih => exact ih (keyed_update hk fun r => by cases probe <;> rfl)

theorem ProbeState.next_keyed (hk : Table.Keyed Proxy.id s.db.proxies)
    (hnext : s.next a = some s') : Table.Keyed Proxy.id s'.db.proxies := by
  have hclaimed : ∀ (r : Proxy) (t : Timestamp) (token : String) (probe : Probe),
      (r.claimed (checkerSettings s.db) t token probe).id = r.id :=
    fun r t token probe => by cases probe <;> rfl
  cases a with
  | applyHealth c result now wall =>
    obtain ⟨-, rfl⟩ := ProbeState.next_applyHealth hnext
    exact (exec_effect hk _).keyed hk
  | applyEarnapp c result now wall =>
    obtain ⟨-, rfl⟩ := ProbeState.next_applyEarnapp hnext
    have hreported := reported_cases s c (c.earnapp result) now wall
    generalize s.reported c (c.earnapp result) now wall = s' at hreported ⊢
    cases hreported with
    | whole => exact (exec_effect hk _).keyed hk
    | opened hrow hsettle => exact (settle_effect hk hrow hsettle).keyed hk
    | raised => exact hk
  | closeEarnapp x =>
    obtain ⟨-, rfl⟩ := ProbeState.next_closeEarnapp hnext
    exact keyed_update hk fun _ => rfl
  | releaseHealthClaims claims current => exact Option.some.inj hnext ▸ keyed_released _ claims hk
  | releaseEarnappClaims claims current => exact Option.some.inj hnext ▸ keyed_released _ claims hk
  | service ev =>
    simp only [ProbeState.next] at hnext
    split at hnext
    · cases hnext
    · exact Option.some.inj hnext ▸ (exec_effect hk ev).keyed hk
  | claimDueProxies t limit perHostLimit token =>
    simp only [ProbeState.next] at hnext
    split at hnext
    · cases hnext
    · obtain rfl := Option.some.inj hnext
      rw [EarnProxy.claimDueProxies, claimed_db]
      exact keyed_update hk fun r => hclaimed r ..
  | claimDueEarnapp t limit token =>
    simp only [ProbeState.next] at hnext
    split at hnext
    · cases hnext
    · obtain rfl := Option.some.inj hnext
      rw [EarnProxy.claimDueEarnapp, claimed_db]
      exact keyed_update hk fun r => hclaimed r ..
  | readBack batch =>
    simp only [ProbeState.next] at hnext
    split at hnext
    · exact Option.some.inj hnext ▸ hk
    · cases hnext

variable {s₀ : ProbeState} {h : List (ProbeAction × ProbeState)}

theorem ProbeRuns.keyed (hk : Table.Keyed Proxy.id s₀.db.proxies) (run : ProbeRuns s₀ h s) :
    Table.Keyed Proxy.id s.db.proxies :=
  run.always (P := fun s => Table.Keyed Proxy.id s.db.proxies) hk
    fun _ _ _ hs hnext => ProbeState.next_keyed hs hnext

/-- A lease stands until a claim after its end, or until something frees the row. -/
theorem Leased.run (hk : Table.Keyed Proxy.id s₀.db.proxies)
    (hleased : Leased s₀.db i token claimedUntil) (run : ProbeRuns s₀ h s)
    (htimes : ∀ x ∈ h, ∀ t ∈ x.1.claimTime, t < claimedUntil) :
    Leased s.db i token claimedUntil ∨ History.Sometime (fun s a => a.Frees i token s) s₀ h := by
  induction run with
  | nil => exact .inl hleased
  | @snoc h s a s' run hnext ih =>
    rcases ih fun x hx => htimes x (List.mem_cons_of_mem _ hx) with hkept | hfreed
    · rcases hkept.next (ProbeRuns.keyed hk run) hnext with hkept' | hfrees | ⟨t, ht, hle⟩
      · exact .inl hkept'
      · exact .inr (.now run hfrees)
      · exact absurd (htimes _ List.mem_cons_self t ht) (not_lt.mpr hle)
    · exact .inr (.inr hfreed)

theorem exclusiveClaims (hk : Table.Keyed Proxy.id s₀.db.proxies) (run : ProbeRuns s₀ h s)
    (horder : ClaimsInOrder h) : ExclusiveClaims s₀ h := by
  intro later between earlier t₁ t₂ limit₁ perHostLimit₁ limit₂ perHostLimit₂ token₁ token₂ s₁ s₂
    hsplit hsoon i hfirst hsecond
  subst hsplit
  have htimes : ∀ x ∈ between, ∀ t ∈ x.1.claimTime, t < t₁ + minutes 10 := by
    intro x hx t ht
    unfold ClaimsInOrder at horder
    rw [List.append_assoc, List.filterMap_append, List.pairwise_append] at horder
    have htail := horder.2.1
    change List.Pairwise _ (t₂ :: List.filterMap _ _) at htail
    refine lt_of_le_of_lt ((List.pairwise_cons.mp htail).1 t ?_) hsoon
    refine List.mem_filterMap.mpr ⟨x, ?_, ht⟩
    exact List.mem_append_left _ hx
  rw [List.append_assoc, List.cons_append] at run
  obtain ⟨_, run, -⟩ := run.split
  cases run with
  | snoc run hnext₂ =>
    obtain ⟨_, run, hbetween⟩ := run.split
    cases run with
    | snoc run hnext₁ =>
      have hk₁ := ProbeRuns.keyed hk run
      rw [run.current_eq] at hfirst
      rw [hbetween.current_eq] at hsecond
      have hleased := leased_of_claimed hnext₁ hfirst
      refine (hleased.run (ProbeState.next_keyed hk₁ hnext₁) hbetween htimes).resolve_left ?_
      intro hstands
      rw [claimedIds_claimDueProxies] at hsecond
      have hk₂ := ProbeRuns.keyed (ProbeState.next_keyed hk₁ hnext₁) hbetween
      exact hstands.not_claimed hk₂ hsoon hsecond

/-- Calls of `claim_due_proxies` with a host limit never claim a row whose lease is running, unless
its claim was ended; and in every state a call fills its batch, lets expired leases go first, and is
fair to the hosts. -/
theorem health_claims_exclusive_full_fair (hk : Table.Keyed Proxy.id s₀.db.proxies)
    (run : ProbeRuns s₀ h s) (horder : ClaimsInOrder h) :
    ExclusiveClaims s₀ h ∧
      ∀ (current : Timestamp) (limit : Option Int) (perHostLimit : Int) (token : String),
        let rows := (claimDueProxiesCall s.db current limit (some perHostLimit) token).2
        rows.length = min (healthBatchSize s.db limit) (dueRows s.db current).length ∧
          ∃ batch, FairBatch s.db current limit batch ∧
            rows.Perm
              (batch.map fun r => r.claimed (checkerSettings s.db) current token .health) := by
  refine ⟨exclusiveClaims hk run horder, fun current limit perHostLimit token => ?_⟩
  have hks := ProbeRuns.keyed hk run
  have hfair := dueProxies_fair hks current limit perHostLimit
  have hperm := claimDueProxiesCall_perm hks current limit (some perHostLimit) token
  refine ⟨?_, _, hfair, hperm⟩
  rw [hperm.length_eq, List.length_map]
  exact hfair.full

namespace Scenario

/-- Three proxies of two hosts, the first of which is claimed, checked and due again. -/
def twoHosts : List ProbeAction :=
  [.service (minute 0 (.addProxy 1 (endpoint "192.0.2.1") none)),
    .claimDueProxies (minutes 1) none (some 2) "health-1", .readBack ⟨.health, [1], "health-1"⟩,
    .applyHealth ⟨.health, 1, 1, "health-1"⟩ (liveFrom "198.51.100.7") (minutes 1) (minutes 1),
    .service (minute 2 (.addProxy 1 { endpoint "192.0.2.1" with port := 8081 } none)),
    .service (minute 3 (.addProxy 1 (endpoint "192.0.2.2") none)),
    .claimDueProxies (minutes 4) (some 1) (some 2) "health-2"]

end Scenario

theorem twoHosts_runs : ProbeRuns { db := Scenario.oneUser }
    (ProbeState.history Scenario.oneUser Scenario.twoHosts)
    (ProbeState.after Scenario.oneUser Scenario.twoHosts) :=
  History.run_replay_accepted (by decide +kernel)

open Scenario in
/-- Three rows of two hosts are due, and a batch of two takes one of each host. -/
theorem health_claims_twoHosts :
    let s := ProbeState.after oneUser twoHosts
    let rows := (claimDueProxiesCall s.db (minutes 120) (some 2) (some 2) "health-3").2
    ExclusiveClaims { db := oneUser } (ProbeState.history oneUser twoHosts) ∧
      (dueRows s.db (minutes 120)).length = 3 ∧ rows.length = 2 ∧
      (rows.map Proxy.hostKey).Perm ["192.0.2.1", "192.0.2.2"] ∧
      ∃ batch, FairBatch s.db (minutes 120) (some 2) batch ∧ rows.Perm (batch.map fun r =>
        r.claimed (checkerSettings s.db) (minutes 120) "health-3" .health) := by
  intro s rows
  have hclaims := health_claims_exclusive_full_fair (by unfold Table.Keyed; decide)
    twoHosts_runs
    (by decide)
  obtain ⟨hfull, hfair⟩ := hclaims.2 (minutes 120) (some 2) 2 "health-3"
  have hbatch : min (healthBatchSize s.db (some 2)) (dueRows s.db (minutes 120)).length = 2 := by
    decide +kernel
  exact ⟨hclaims.1, by decide +kernel, hfull.trans hbatch, by decide +kernel, hfair⟩

end EarnProxy

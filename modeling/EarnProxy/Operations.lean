import EarnProxy.Edits

/-!
# What the operations do

One result for each function of `proxies.py` and `checks.py`: whatever branch it takes, its rows
are edited under its licence, and its errors other than a refusal need a clash in the ledger.
-/

namespace EarnProxy

open Transaction

/-! ## The exit groups -/

/-- The columns that an election reads are the same. -/
structure Proxy.SameVote (r r' : Proxy) : Prop where
  id : r'.id = r.id
  exitIp : r'.exitIp = r.exitIp
  archivedAt : r'.archivedAt = r.archivedAt
  source : r'.egressAttestationSource = r.egressAttestationSource
  status : r'.status = r.status
  offlineSince : r'.offlineSince = r.offlineSince
  egressVerifiedAt : r'.egressVerifiedAt = r.egressVerifiedAt
  createdAt : r'.createdAt = r.createdAt

theorem Proxy.SameVote.inGroup {r r' : Proxy} (h : r.SameVote r') (exitIp : IpAddress) :
    r'.InGroup exitIp ↔ r.InGroup exitIp := by
  simp [Proxy.InGroup, h.exitIp, h.archivedAt, h.source]

theorem electedCanonical_map {φ : Proxy → Proxy} (hφ : ∀ r : Proxy, r.SameVote (φ r))
    (rows : List Proxy) (exitIp : IpAddress) (preferVerifiedOrder : Bool) (excludeId : Option Nat)
    (wall : Timestamp) :
    electedCanonical (rows.map φ) exitIp preferVerifiedOrder excludeId wall =
      (electedCanonical rows exitIp preferVerifiedOrder excludeId wall).map φ := by
  have hgroup : exitGroup (rows.map φ) exitIp excludeId =
      (exitGroup rows exitIp excludeId).map φ := by
    unfold exitGroup
    rw [List.filter_map]
    congr 1
    refine List.filter_congr fun r _ => ?_
    simp [(hφ r).inGroup, (hφ r).id]
  unfold electedCanonical
  rw [hgroup]
  generalize exitGroup rows exitIp excludeId = group
  have hfresh : (group.map φ).filter (fun r => ¬ r.LongOffline (wall - hours 24)) =
      (group.filter fun r => ¬ r.LongOffline (wall - hours 24)).map φ := by
    rw [List.filter_map]
    congr 1
    refine List.filter_congr fun r _ => ?_
    simp [Proxy.LongOffline, (hφ r).status, (hφ r).offlineSince]
  have hall : ((group.map φ).all fun r => r.egressVerifiedAt.isSome) =
      group.all fun r => r.egressVerifiedAt.isSome := by
    rw [List.all_map]
    simp [Function.comp_def, (hφ _).egressVerifiedAt]
  have hkey : ∀ (preverified : Bool) (r : Proxy),
      canonicalKey preverified (φ r) = canonicalKey preverified r := by
    intro preverified r
    simp [canonicalKey, (hφ r).egressVerifiedAt, (hφ r).createdAt, (hφ r).id]
  simp only [hfresh, hall, List.map_eq_nil_iff]
  rw [← Table.argmin_map _ φ (hkey _)]
  congr 1
  split <;> rfl

/-- The row `r` after the pointer updates of `_canonicalize_exit_group`. -/
def Proxy.rehomed (exitIp : IpAddress) (canonical : Nat) (excludeId : Option Nat) (r : Proxy) :
    Proxy :=
  if r.id = canonical then { r with duplicateOf := none }
  else if r.InGroup exitIp ∧ ∀ i ∈ excludeId, r.id ≠ i then { r with duplicateOf := some canonical }
  else r

theorem rehome_eq_map (rows : List Proxy) (exitIp : IpAddress) (canonical : Nat)
    (excludeId : Option Nat) :
    rehome rows exitIp canonical excludeId =
      rows.map (Proxy.rehomed exitIp canonical excludeId) := by
  unfold rehome Table.update
  rw [List.map_map]
  refine List.map_congr_left fun r _ => ?_
  by_cases hid : r.id = canonical
  · simp [Proxy.rehomed, hid]
  · simp [Proxy.rehomed, hid]

theorem Proxy.rehomed_sameVote (exitIp : IpAddress) (canonical : Nat) (excludeId : Option Nat)
    (r : Proxy) : r.SameVote (r.rehomed exitIp canonical excludeId) := by
  unfold Proxy.rehomed
  split_ifs <;> exact ⟨rfl, rfl, rfl, rfl, rfl, rfl, rfl, rfl⟩

/-- The rows that `_canonicalize_exit_group` leaves. -/
def canonicalizedRows (rows : List Proxy) (exitIp : IpAddress) (preferVerifiedOrder : Bool)
    (excludeId : Option Nat) (wall : Timestamp) : List Proxy :=
  match electedCanonical rows exitIp preferVerifiedOrder excludeId wall with
  | none => rows
  | some canonical => rehome rows exitIp canonical.id excludeId

theorem mem_exitGroup {rows : List Proxy} {exitIp : IpAddress} {excludeId : Option Nat}
    {r : Proxy} :
    r ∈ exitGroup rows exitIp excludeId ↔
      r ∈ rows ∧ r.InGroup exitIp ∧ ∀ i ∈ excludeId, r.id ≠ i := by
  simp [exitGroup]

theorem electedCanonical_mem {rows : List Proxy} {exitIp : IpAddress} {prefer : Bool}
    {excludeId : Option Nat} {wall : Timestamp} {c : Proxy}
    (h : electedCanonical rows exitIp prefer excludeId wall = some c) :
    c ∈ exitGroup rows exitIp excludeId := by
  unfold electedCanonical at h
  have hmem := List.argmin_mem h
  split at hmem
  · exact hmem
  · exact (List.mem_filter.mp hmem).1

theorem electedCanonical_isSome {rows : List Proxy} {exitIp : IpAddress} {prefer : Bool}
    {excludeId : Option Nat} {wall : Timestamp} {r : Proxy}
    (hr : r ∈ exitGroup rows exitIp excludeId) :
    ∃ c, electedCanonical rows exitIp prefer excludeId wall = some c := by
  rw [← Option.ne_none_iff_exists']
  unfold electedCanonical
  rw [Ne, List.argmin_eq_none]
  split
  · exact List.ne_nil_of_mem hr
  · assumption

/-- The election makes a duplicate in service canonical, and its cursor does not stand at `now`. -/
def Backpays (now : Timestamp) (rows : List Proxy) (exitIp : IpAddress) (preferVerifiedOrder : Bool)
    (excludeId : Option Nat) (wall : Timestamp) : Prop :=
  ∃ c ∈ electedCanonical rows exitIp preferVerifiedOrder excludeId wall,
    c.duplicateOf ≠ none ∧ c.InService ∧ c.accrualCursorAt ≠ some now

instance (now : Timestamp) (rows : List Proxy) (exitIp : IpAddress) (prefer : Bool)
    (excludeId : Option Nat) (wall : Timestamp) :
    Decidable (Backpays now rows exitIp prefer excludeId wall) :=
  inferInstanceAs (Decidable (∃ c ∈ _, _))

/-- Expiring the entries of several rows one after the other. -/
theorem expireAll_ok {rows : List Proxy} : ∀ {db db' : Db},
    rows.foldlM (fun acc r => expirePendingCycle acc r.id) db = .ok db' →
      db' = { db with ledger := expireIn (rows.map Proxy.id) db.ledger } := by
  induction rows with
  | nil =>
    intro db db' h
    rw [← Except.ok.inj h]
    simp
  | cons r rows ih =>
    intro db db' h
    rw [List.foldlM_cons] at h
    cases h₁ : expirePendingCycle db r.id with
    | error e => rw [h₁] at h; cases h
    | ok db₁ =>
      rw [h₁] at h
      have hids : (r :: rows).map Proxy.id = [r.id] ++ rows.map Proxy.id := rfl
      rw [ih h, expirePendingCycle_ok h₁, hids, expireIn_append]

theorem expireAll_does {lic : Licence} (rows : List Proxy) (db : Db) :
    Does (Edited lic) Db.Raises db
      (rows.foldlM (fun acc r => expirePendingCycle acc r.id) db) id :=
  Does.foldlM (I := fun _ _ => True) Edited.refl (fun _ _ _ => Edited.trans)
    (fun r _ db _ => ⟨expirePendingCycle_does db r.id, fun _ _ => trivial⟩) rows db trivial

theorem canonicalizeExitGroup_rows {db db' : Db} {exitIp : IpAddress} {prefer : Bool}
    {excludeId : Option Nat} {wall : Timestamp}
    (h : canonicalizeExitGroup db exitIp prefer excludeId wall = .ok db') :
    db'.proxies = canonicalizedRows db.proxies exitIp prefer excludeId wall := by
  unfold canonicalizeExitGroup at h
  unfold canonicalizedRows
  cases hc : electedCanonical db.proxies exitIp prefer excludeId wall with
  | none =>
    rw [hc] at h
    rw [← Except.ok.inj h]
  | some c =>
    simp only [hc] at h
    generalize hlosers : (exitGroup db.proxies exitIp excludeId).filter _ = losers at h
    cases hexpired : losers.foldlM (fun acc r => expirePendingCycle acc r.id) db with
    | error e => rw [hexpired] at h; cases h
    | ok expired =>
      rw [hexpired] at h
      rw [← Except.ok.inj h, expireAll_ok hexpired]

/-- Becoming or ceasing to be a duplicate, where becoming one has settled the row. -/
theorem rehomed_edit {lic : Licence} {settled : Prop} {exitIp : IpAddress} {canonical : Nat}
    {excludeId : Option Nat} {r : Proxy}
    (winner : r.id = canonical → r.duplicateOf ≠ none → r.InService →
      lic.backpays ∨ r.accrualCursorAt = some lic.now)
    (loser : r.id ≠ canonical → r.InGroup exitIp → (∀ i ∈ excludeId, r.id ≠ i) → settled) :
    RowEdit lic settled r (r.rehomed exitIp canonical excludeId) := by
  unfold Proxy.rehomed
  split_ifs with hid hgroup
  · exact
      { id := rfl
        owner := rfl
        archived := fun h => h
        clocks := .inl ⟨rfl, rfl⟩
        holding := by
          by_cases h : r.Holding
          · exact .inr (.inr ⟨⟨h.kept, rfl, h.reachable, h.observed⟩, rfl⟩)
          · exact .inr (.inl h)
        release := fun _ hd _ hin => winner hid hd ⟨hin.kept, hin.reachable, hin.earning⟩
        earning := .inl
        priced := fun _ => .inr ⟨rfl, .inl rfl⟩
        generation := .inl rfl
        sound := fun h => ⟨h.offline, h.pending, h.archived⟩
        reopen := fun _ h => .inr ⟨⟨h.kept, h.reachable, h.earning⟩, fun _ _ h => h⟩
        probed := ⟨.inl rfl, .inl rfl, .inl rfl, .inl ⟨rfl, rfl⟩⟩ }
  · exact
      { id := rfl
        owner := rfl
        archived := fun h => h
        clocks := .inl ⟨rfl, rfl⟩
        holding := .inl (loser hid hgroup.1 hgroup.2)
        release := fun _ _ h => nomatch h
        earning := .inl
        priced := fun _ => .inr ⟨rfl, .inl rfl⟩
        generation := .inl rfl
        sound := fun h => ⟨h.offline, h.pending, h.archived⟩
        reopen := fun _ h => .inr ⟨⟨h.kept, h.reachable, h.earning⟩, fun _ _ h => h⟩
        probed := ⟨.inl rfl, .inl rfl, .inl rfl, .inl ⟨rfl, rfl⟩⟩ }
  · exact .refl r

theorem canonicalizeExitGroup_does {lic : Licence} {db : Db}
    (hk : Table.Keyed Proxy.id db.proxies) {exitIp : IpAddress} {prefer : Bool}
    {excludeId : Option Nat} {wall : Timestamp}
    (hback : Backpays lic.now db.proxies exitIp prefer excludeId wall → lic.backpays) :
    Does (Edited lic) Db.Raises db (canonicalizeExitGroup db exitIp prefer excludeId wall) id := by
  unfold canonicalizeExitGroup
  cases hc : electedCanonical db.proxies exitIp prefer excludeId wall with
  | none => exact Does.ok (.refl db)
  | some c =>
    refine (expireAll_does _ db).seq (fun _ _ _ => Edited.trans) fun expired hexpired => ?_
    rw [expireAll_ok hexpired]
    refine Does.ok ?_
    simp only [id, rehome_eq_map]
    refine Edited.map fun r hr => rehomed_edit (fun hid hd hin => ?_) fun hid hgroup hexcl => ?_
    · have hrc : r = c := hk.eq hr (mem_exitGroup.mp (electedCanonical_mem hc)).1 hid
      subst hrc
      by_cases hcursor : r.accrualCursorAt = some lic.now
      · exact .inr hcursor
      · exact .inl (hback ⟨r, hc, hd, hin, hcursor⟩)
    · refine settled_expireIn (List.mem_map.mpr ⟨r, ?_, rfl⟩) []
      exact List.mem_filter.mpr ⟨mem_exitGroup.mpr ⟨hr, hgroup, hexcl⟩, by simpa using hid⟩

/-- An election in one group leaves the election in another group as it was. -/
theorem backpays_canonicalizedRows {now wall : Timestamp} {rows : List Proxy}
    {exitIp otherIp : IpAddress} {prefer prefer' : Bool} (hk : Table.Keyed Proxy.id rows)
    (hne : otherIp ≠ exitIp)
    (h : Backpays now (canonicalizedRows rows exitIp prefer none wall) otherIp prefer' none wall) :
    Backpays now rows otherIp prefer' none wall := by
  unfold canonicalizedRows at h
  cases hc : electedCanonical rows exitIp prefer none wall with
  | none => simpa only [hc] using h
  | some canonical =>
    simp only [hc, rehome_eq_map] at h
    obtain ⟨c', hc', hd, hin, hcursor⟩ := h
    rw [electedCanonical_map (Proxy.rehomed_sameVote _ _ _)] at hc'
    obtain ⟨c, helected, rfl⟩ := Option.map_eq_some_iff.mp hc'
    obtain ⟨hmem, hgroup, _⟩ := mem_exitGroup.mp (electedCanonical_mem helected)
    obtain ⟨hmem', hgroup', _⟩ := mem_exitGroup.mp (electedCanonical_mem hc)
    have hid : c.id ≠ canonical.id := by
      intro hid
      rw [hk.eq hmem hmem' hid] at hgroup
      exact hne (Option.some.inj (hgroup.1.symm.trans hgroup'.1))
    have hout : ¬ c.InGroup exitIp := fun hin => hne (Option.some.inj (hgroup.1.symm.trans hin.1))
    have hsame : c.rehomed exitIp canonical.id none = c := by
      rw [Proxy.rehomed, if_neg hid, if_neg fun h => hout h.1]
    rw [hsame] at hd hin hcursor
    exact ⟨c, helected, hd, hin, hcursor⟩

/-- The row that `reconcile_exit_ip` reads. -/
def keptProxy? (rows : List Proxy) (i : Nat) : Option Proxy :=
  (Table.lookup Proxy.id i rows).filter fun r => r.archivedAt = none

/-- One of the two elections of `reconcile_exit_ip` leaves a duplicate's cursor behind. -/
def ReconcileBackpays (now : Timestamp) (rows : List Proxy) (i : Nat) (exitIp : IpAddress)
    (source : AttestationSource) (wall : Timestamp) : Prop :=
  ∃ previous ∈ keptProxy? rows i,
    let rows := Table.update (fun r => r.id = i) (fun r => r.reconciled exitIp source wall) rows
    Backpays now rows exitIp previous.egressVerifiedAt.isSome none wall ∨
      ∃ previousExit ∈ previous.exitIp, previousExit ≠ exitIp ∧
        Backpays now rows previousExit false none wall

instance (now : Timestamp) (rows : List Proxy) (i : Nat) (exitIp : IpAddress)
    (source : AttestationSource) (wall : Timestamp) :
    Decidable (ReconcileBackpays now rows i exitIp source wall) :=
  inferInstanceAs (Decidable (∃ previous ∈ _, _ ∨ _))

/-- The rows that `reconcile_exit_ip` leaves. -/
def reconciledRows (rows : List Proxy) (i : Nat) (exitIp : IpAddress) (source : AttestationSource)
    (wall : Timestamp) : List Proxy :=
  match keptProxy? rows i with
  | none => rows
  | some previous =>
    let rows := Table.update (fun r => r.id = i) (fun r => r.reconciled exitIp source wall) rows
    let rows := canonicalizedRows rows exitIp previous.egressVerifiedAt.isSome none wall
    match previous.exitIp with
    | some previousExit =>
      if previousExit = exitIp then rows else canonicalizedRows rows previousExit false none wall
    | none => rows

/-- `reconcile_exit_ip` takes the country from a row that it moves to `exitIp`, and the rate of the
row changes. -/
def Proxy.Repriced (r : Proxy) (exitIp : IpAddress) : Prop :=
  egressChanged r.exitIp (some exitIp) ∧ monthlyRateFor r.eligibility "" ≠ r.monthlyRate

instance (r : Proxy) (exitIp : IpAddress) : Decidable (r.Repriced exitIp) :=
  inferInstanceAs (Decidable (_ ∧ _))

theorem Proxy.reconciled_monthlyRate {r : Proxy} {exitIp : IpAddress} (h : ¬ r.Repriced exitIp)
    (source : AttestationSource) (wall : Timestamp) :
    (r.reconciled exitIp source wall).monthlyRate = r.monthlyRate := by
  by_cases hchanged : egressChanged r.exitIp (some exitIp)
  · have hsame : monthlyRateFor r.eligibility "" = r.monthlyRate :=
      not_not.mp fun hne => h ⟨hchanged, hne⟩
    have hmoved : r.exitIp ≠ none ∧ r.exitIp ≠ some exitIp := by
      simpa [egressChanged, Option.isSome_iff_ne_none] using hchanged
    simpa [Proxy.monthlyRate, Proxy.reconciled, hmoved] using hsame
  · have hstays : ¬ (r.exitIp ≠ none ∧ r.exitIp ≠ some exitIp) := by
      simpa [egressChanged, Option.isSome_iff_ne_none] using hchanged
    unfold Proxy.monthlyRate Proxy.reconciled
    simp only [hstays, if_false]

theorem reconciled_edit {lic : Licence} {settled : Prop} {r : Proxy} {exitIp : IpAddress}
    (hprice : r.eligibility.Earning → r.Repriced exitIp →
      r.accrualCursorAt = some lic.now ∨ lic.reprices r.id)
    (source : AttestationSource) (wall : Timestamp) :
    RowEdit lic settled r (r.reconciled exitIp source wall) where
  id := rfl
  owner := rfl
  archived := fun h => h
  clocks := .inl ⟨rfl, rfl⟩
  holding := by
    by_cases h : r.Holding
    · exact .inr (.inr ⟨⟨h.kept, h.canonical, h.reachable, h.observed⟩, rfl⟩)
    · exact .inr (.inl h)
  release := fun _ hd hd' _ => absurd hd' hd
  earning := .inl
  priced := by
    intro hearning
    by_cases hrepriced : r.Repriced exitIp
    · exact (hprice hearning hrepriced).imp_right fun hlic => ⟨rfl, .inr hlic⟩
    · exact .inr ⟨rfl, .inl (Proxy.reconciled_monthlyRate hrepriced source wall)⟩
  generation := .inl rfl
  sound := fun h => ⟨h.offline, h.pending, h.archived⟩
  reopen := fun _ h => .inr ⟨⟨h.kept, h.reachable, h.earning⟩, fun _ _ h => h⟩
  probed := ⟨.inl rfl, .inl rfl, .inl rfl, .inl ⟨rfl, rfl⟩⟩

theorem keptProxy?_mem {rows : List Proxy} {i : Nat} {r : Proxy} (h : keptProxy? rows i = some r) :
    r ∈ rows ∧ r.id = i ∧ r.archivedAt = none := by
  obtain ⟨hlookup, hkept⟩ := Option.filter_eq_some_iff.mp h
  exact ⟨Table.mem_of_lookup hlookup, Table.key_of_lookup hlookup, of_decide_eq_true hkept⟩

theorem reconcileExit_does {lic : Licence} {db : Db} (hk : Table.Keyed Proxy.id db.proxies)
    {i : Nat} {exitIp : IpAddress} {source : AttestationSource} {wall : Timestamp}
    (hback : ReconcileBackpays lic.now db.proxies i exitIp source wall → lic.backpays)
    (hprice : ∀ r ∈ keptProxy? db.proxies i, r.eligibility.Earning → r.Repriced exitIp →
      r.accrualCursorAt = some lic.now ∨ lic.reprices i) :
    Does (Edited lic) Db.Raises db (reconcileExit db i exitIp source wall) id := by
  unfold reconcileExit
  cases hprevious : (db.proxy? i).filter fun r => r.archivedAt = none with
  | none => exact Does.ok (.refl db)
  | some previous =>
    simp only
    set db₁ := db.updateProxy i fun r => r.reconciled exitIp source wall with hdb₁
    have hkept : keptProxy? db.proxies i = some previous := hprevious
    obtain ⟨hmem, hid, _⟩ := keptProxy?_mem hkept
    have hedit : Edited lic db db₁ := by
      refine Edited.updateProxy fun r hr hri => reconciled_edit (fun hearning hrepriced => ?_) _ _
      obtain rfl := hk.eq hr hmem (hri.trans hid.symm)
      exact hri ▸ hprice r hprevious hearning hrepriced
    have hk₁ : Table.Keyed Proxy.id db₁.proxies := hedit.keyed hk
    have hfirst : Does (Edited lic) Db.Raises db₁
        (canonicalizeExitGroup db₁ exitIp previous.egressVerifiedAt.isSome none wall) id :=
      canonicalizeExitGroup_does hk₁ fun h => hback ⟨previous, hprevious, .inl h⟩
    refine Does.after (hfirst.seq (fun _ _ _ => Edited.trans) ?_) fun _ h => hedit.trans h
    intro db₂ hdb₂
    cases hexit : previous.exitIp with
    | none => exact Does.ok (.refl _)
    | some previousExit =>
      refine Does.ite (fun _ => Does.ok (.refl _)) fun hne => ?_
      refine canonicalizeExitGroup_does ((hfirst.of_ok hdb₂).keyed hk₁) fun h => ?_
      rw [id, canonicalizeExitGroup_rows hdb₂] at h
      exact hback ⟨previous, hprevious,
        .inr ⟨previousExit, hexit, hne, backpays_canonicalizedRows hk₁ hne h⟩⟩

theorem reconcileExit_rows {db db' : Db} {i : Nat} {exitIp : IpAddress}
    {source : AttestationSource} {wall : Timestamp}
    (h : reconcileExit db i exitIp source wall = .ok db') :
    db'.proxies = reconciledRows db.proxies i exitIp source wall := by
  unfold reconcileExit at h
  unfold reconciledRows keptProxy?
  cases hprevious : (db.proxy? i).filter fun r => r.archivedAt = none with
  | none =>
    rw [hprevious] at h
    rw [← Except.ok.inj h, show (Table.lookup Proxy.id i db.proxies).filter _ = _ from hprevious]
  | some previous =>
    simp only [hprevious] at h
    rw [show (Table.lookup Proxy.id i db.proxies).filter _ = _ from hprevious]
    generalize hdb₁ : (db.updateProxy i fun r => r.reconciled exitIp source wall) = db₁ at h
    have hrows₁ : db₁.proxies =
        Table.update (fun r => r.id = i) (fun r => r.reconciled exitIp source wall) db.proxies := by
      rw [← hdb₁]
      rfl
    cases h₂ : canonicalizeExitGroup db₁ exitIp previous.egressVerifiedAt.isSome none wall with
    | error e => rw [h₂] at h; cases h
    | ok db₂ =>
      have hrows₂ := canonicalizeExitGroup_rows h₂
      rw [hrows₁] at hrows₂
      simp only [h₂] at h
      cases hexit : previous.exitIp with
      | none =>
        simp only [hexit] at h ⊢
        rw [← Except.ok.inj h, hrows₂]
      | some previousExit =>
        rw [hexit] at h
        by_cases heq : previousExit = exitIp
        · simp only [hexit, heq, if_true] at h ⊢
          rw [← Except.ok.inj h, hrows₂]
        · simp only [hexit, heq, if_false] at h ⊢
          rw [canonicalizeExitGroup_rows h, hrows₂]

/-! ## Replacing and archiving -/

theorem restart_edit {lic : Licence} {settled : Prop} {r : Proxy} (hlic : lic.restarts)
    (hs : settled ∨ ¬ r.Holding) : RowEdit lic settled r (r.restart lic.now) where
  id := rfl
  owner := rfl
  archived := fun h => h
  clocks := .inr ⟨hlic, rfl, rfl⟩
  holding := hs.imp_right .inl
  release := fun _ hd hd' _ => absurd hd' hd
  earning := .inl
  priced := fun _ => .inl rfl
  generation := .inl rfl
  sound := fun h => ⟨h.offline, h.pending, h.archived⟩
  reopen := fun _ _ => .inl rfl
  probed := ⟨.inl rfl, .inl rfl, .inl rfl, .inl ⟨rfl, rfl⟩⟩

theorem replaced_edit {lic : Licence} {settled : Prop} {r : Proxy} (hlic : lic.restarts)
    (hgrants : ∀ i, ¬ lic.grants i) (hs : settled) {parsed : ParsedProxy}
    (hobserves : lic.observes r.id (r.replaced parsed lic.now).health)
    (hunclaims : lic.unclaims r.id) : RowEdit lic settled r (r.replaced parsed lic.now) where
  id := rfl
  owner := rfl
  archived := fun h => h
  clocks := .inr ⟨hlic, rfl, rfl⟩
  holding := .inl hs
  release := fun _ _ _ _ => .inr rfl
  earning := fun h => absurd h Eligibility.not_earning_pending
  priced := fun h => absurd h Eligibility.not_earning_pending
  generation := .inr ⟨Eligibility.not_earning_pending, hgrants⟩
  sound := fun _ =>
    { offline := fun h => nomatch h
      pending := fun _ => rfl
      archived := fun h => nomatch h }
  reopen := fun _ h => absurd h.earning Eligibility.not_earning_pending
  probed := ⟨.inr hobserves, .inr rfl, .inr rfl, .inr hunclaims⟩

theorem archived_edit {lic : Licence} {settled : Prop} {r : Proxy} {current : Timestamp}
    (hs : settled ∨ ¬ r.Holding) (hobserves : lic.observes r.id (r.archived current).health) :
    RowEdit lic settled r (r.archived current) where
  id := rfl
  owner := rfl
  archived := fun _ h => nomatch h
  clocks := .inl ⟨rfl, rfl⟩
  holding := hs.imp_right .inl
  release := fun _ hd hd' _ => absurd hd' hd
  earning := .inl
  priced := fun _ => .inr ⟨rfl, .inl rfl⟩
  generation := .inl rfl
  sound := fun _ =>
    { offline := fun h => nomatch h
      pending := fun h => nomatch h
      archived := fun _ h => nomatch h }
  reopen := fun _ h => nomatch h.kept
  probed := ⟨.inr hobserves, .inl rfl, .inl rfl, .inl ⟨rfl, rfl⟩⟩

/-- The election in the group that `row` leaves makes a duplicate canonical and leaves its cursor
behind. -/
def LeaveBackpays (now : Timestamp) (rows : List Proxy) (row : Proxy) (wall : Timestamp) : Prop :=
  ∃ exitIp ∈ row.exitIp, Backpays now rows exitIp false (some row.id) wall

instance (now : Timestamp) (rows : List Proxy) (row : Proxy) (wall : Timestamp) :
    Decidable (LeaveBackpays now rows row wall) :=
  inferInstanceAs (Decidable (∃ exitIp ∈ _, _))

theorem ownedProxy?_mem {db : Db} {i userId : Nat} {row : Proxy}
    (h : ownedProxy? db i userId = some row) :
    row ∈ db.proxies ∧ row.id = i ∧ row.userId = userId ∧ row.archivedAt = none := by
  obtain ⟨hlookup, hkeep⟩ := Option.filter_eq_some_iff.mp h
  exact ⟨Table.mem_of_lookup hlookup, Table.key_of_lookup hlookup, by simpa using hkeep⟩

/-- A licence that allows no change of the health columns. -/
def Licence.unobserving (lic : Licence) : Licence := { lic with observes := fun _ _ => False }

/-- A licence that allows no change of a rate. -/
def Licence.unpricing (lic : Licence) : Licence := { lic with reprices := fun _ => False }

/-- Each edited row comes from a row. -/
theorem Edited.origin {lic : Licence} {db db' : Db} (h : Edited lic db db') {r' : Proxy}
    (hr' : r' ∈ db'.proxies) : ∃ r ∈ db.proxies, ∃ settled, RowEdit lic settled r r' := by
  obtain ⟨φ, ids, rfl, hφ⟩ := h
  obtain ⟨r, hr, rfl⟩ := List.mem_map.mp hr'
  exact ⟨r, hr, _, hφ r hr⟩

/-- Edits that allow no change of the health columns leave them alone. -/
theorem Edited.unobserved {lic : Licence} {db db' : Db} (h : Edited lic.unobserving db db')
    {r' : Proxy} (hr' : r' ∈ db'.proxies) :
    ∃ r ∈ db.proxies, r'.id = r.id ∧ r'.health = r.health := by
  obtain ⟨r, hr, _, hedit⟩ := h.origin hr'
  exact ⟨r, hr, hedit.id, hedit.probed.health.resolve_right id⟩

/-- The health columns of an archived row depend on the health columns of the row. -/
theorem Proxy.archived_health {r r' : Proxy} (h : r'.health = r.health) (current : Timestamp) :
    (r'.archived current).health = (r.archived current).health := by
  have harchived : ∀ s : Proxy, (s.archived current).health =
      { s.health with status := .archived, archivedAt := some current } := fun _ => rfl
  rw [harchived, harchived, h]

/-- A row leaves its group: the group is re-homed, the entries of the row expire, and `f` rewrites
the row. -/
theorem leaveGroup_does {lic : Licence} {db : Db} (hk : Table.Keyed Proxy.id db.proxies)
    {wall : Timestamp} {row : Proxy} {f : Proxy → Proxy}
    (hback : LeaveBackpays lic.now db.proxies row wall → lic.backpays)
    (hrow : row ∈ db.proxies)
    (hf : ∀ r : Proxy, r.id = row.id → r.health = row.health → RowEdit lic True r (f r)) :
    Does (Edited lic) Db.Raises db
      ((match row.exitIp with
        | some previousExit => canonicalizeExitGroup db previousExit false (some row.id) wall
        | none => pure db) >>= fun db => expirePendingCycle db row.id >>= fun db =>
          pure (db.updateProxy row.id f)) id := by
  have hgroup : ∀ lic' : Licence, (LeaveBackpays lic'.now db.proxies row wall → lic'.backpays) →
      Does (Edited lic') Db.Raises db
        (match row.exitIp with
          | some previousExit => canonicalizeExitGroup db previousExit false (some row.id) wall
          | none => pure db) id := by
    intro lic' hback'
    cases hexit : row.exitIp with
    | none => exact Does.ok (.refl db)
    | some previousExit =>
      exact canonicalizeExitGroup_does hk fun h => hback' ⟨previousExit, hexit, h⟩
  refine (hgroup lic hback).seq (fun _ _ _ => Edited.trans) fun db₁ hdb₁ => ?_
  have hunobserved : Edited lic.unobserving db db₁ := (hgroup lic.unobserving hback).of_ok hdb₁
  refine (expirePendingCycle_does db₁ row.id).seq (fun _ _ _ => Edited.trans) fun db₂ hdb₂ => ?_
  rw [expirePendingCycle_ok hdb₂]
  refine Does.ok (Edited.updateProxy fun r hr hid => ?_)
  -- the re-homing has not touched the health columns of the row
  obtain ⟨r₀, hr₀, hid₀, hhealth⟩ := hunobserved.unobserved hr
  obtain rfl := hk.eq hr₀ hrow (hid₀.symm.trans hid)
  exact (hf r hid hhealth).weaken fun _ => settled_expireIn (List.mem_singleton.mpr rfl) []

theorem replaceProxy_does {lic : Licence} {db : Db} (hk : Table.Keyed Proxy.id db.proxies)
    {i userId : Nat} {parsed : ParsedProxy} {wall : Timestamp} (hlic : lic.restarts)
    (hgrants : ∀ i, ¬ lic.grants i)
    (hback : ¬ CredentialTaken db parsed (some i) → ∀ row ∈ ownedProxy? db i userId,
      LeaveBackpays lic.now db.proxies row wall → lic.backpays)
    (hobserves : ¬ CredentialTaken db parsed (some i) → ownedProxy? db i userId ≠ none →
      ∀ r : Proxy, r.id = i → lic.observes i (r.replaced parsed lic.now).health)
    (hunclaims : ¬ CredentialTaken db parsed (some i) → ownedProxy? db i userId ≠ none →
      lic.unclaims i) :
    Does (Edited lic) Db.Raises db (replaceProxy db i userId parsed lic.now wall) id := by
  unfold replaceProxy
  cases howned : ownedProxy? db i userId with
  | none => exact Does.error (.refl db) fun h => nomatch h
  | some existing =>
    refine Does.ite (fun _ => Does.error (.refl db) fun h => nomatch h) fun htaken => ?_
    obtain ⟨hmem, rfl, _⟩ := ownedProxy?_mem howned
    refine leaveGroup_does hk (hback htaken existing howned) hmem
      fun r hid _ => replaced_edit hlic hgrants trivial ?_ ?_
    · exact hid ▸ hobserves htaken (by simp [howned]) r hid
    · exact hid ▸ hunclaims htaken (by simp [howned])

theorem archiveProxy_does {lic : Licence} {db : Db} (hk : Table.Keyed Proxy.id db.proxies)
    {i userId : Nat} {now wall : Timestamp}
    (hback : ∀ row ∈ ownedProxy? db i userId,
      LeaveBackpays lic.now db.proxies row wall → lic.backpays)
    (hobserves : ∀ row ∈ ownedProxy? db i userId, lic.observes i (row.archived now).health) :
    Does (Edited lic) Db.Raises db (archiveProxy db i userId now wall) id := by
  unfold archiveProxy
  cases howned : ownedProxy? db i userId with
  | none => exact Does.error (.refl db) fun h => nomatch h
  | some existing =>
    obtain ⟨hmem, rfl, _⟩ := ownedProxy?_mem howned
    refine leaveGroup_does hk (hback existing howned) hmem
      fun r hid hhealth => archived_edit (.inl trivial) ?_
    rw [hid, Proxy.archived_health hhealth]
    exact hobserves existing howned

/-! ## Promotion -/

/-- The row `r` after the pointer updates of `promote_duplicate_if_due`. -/
def Proxy.promoted (canonicalId promotedId : Nat) (r : Proxy) : Proxy :=
  if r.id = promotedId then { r with duplicateOf := none }
  else if r.id = canonicalId ∨ r.duplicateOf = some canonicalId then
    { r with duplicateOf := some promotedId }
  else r

theorem promoteRows_eq_map {canonicalId promotedId : Nat} (hne : promotedId ≠ canonicalId)
    (rows : List Proxy) :
    promoteRows rows canonicalId promotedId = rows.map (Proxy.promoted canonicalId promotedId) := by
  unfold promoteRows Table.update
  rw [List.map_map, List.map_map]
  refine List.map_congr_left fun r _ => ?_
  by_cases hcanonical : r.id = canonicalId
  · simp [Proxy.promoted, hcanonical, hne.symm, hne]
  · by_cases hpromoted : r.id = promotedId
    · simp [Proxy.promoted, hpromoted, hne]
    · simp [Proxy.promoted, hcanonical, hpromoted]

theorem promotionCandidate_mem {rows : List Proxy} {canonicalId : Nat} {candidate : Proxy}
    (h : promotionCandidate rows canonicalId = some candidate) :
    candidate ∈ rows ∧ candidate.Promotable canonicalId := by
  simpa using List.mem_filter.mp (List.argmin_mem h)

/-- A promoted duplicate is another row than the canonical one, which is not online. -/
theorem promotionCandidate_ne {rows : List Proxy} (hk : Table.Keyed Proxy.id rows)
    {now : Timestamp} {canonical candidate : Proxy} (hcanonical : canonical ∈ rows)
    (hdue : canonical.PromotionDue now)
    (h : promotionCandidate rows canonical.id = some candidate) : candidate.id ≠ canonical.id := by
  obtain ⟨hmem, _, honline, _⟩ := promotionCandidate_mem h
  intro hid
  rw [hk.eq hmem hcanonical hid] at honline
  rcases hdue.1 with hs | hs <;> rw [honline] at hs <;> cases hs

theorem promoted_edit {lic : Licence} {settled : Prop} {canonicalId promotedId : Nat} {r : Proxy}
    (hlic : lic.restarts) (hs : r.id = promotedId ∨ r.id = canonicalId → settled) :
    RowEdit lic settled r
      (if (r.promoted canonicalId promotedId).id = promotedId then
        (r.promoted canonicalId promotedId).restart lic.now
      else r.promoted canonicalId promotedId) := by
  unfold Proxy.promoted
  by_cases hpromoted : r.id = promotedId
  · simp only [hpromoted, if_true]
    exact
      { id := hpromoted ▸ rfl
        owner := rfl
        archived := fun h => h
        clocks := .inr ⟨hlic, rfl, rfl⟩
        holding := .inl (hs (.inl hpromoted))
        release := fun _ _ _ _ => .inr rfl
        earning := .inl
        priced := fun _ => .inl rfl
        generation := .inl rfl
        sound := fun h => ⟨h.offline, h.pending, h.archived⟩
        reopen := fun _ _ => .inl rfl
        probed := ⟨.inl rfl, .inl rfl, .inl rfl, .inl ⟨rfl, rfl⟩⟩ }
  · by_cases hcanonical : r.id = canonicalId ∨ r.duplicateOf = some canonicalId
    · simp only [hpromoted, hcanonical, if_false, if_true]
      exact
        { id := rfl
          owner := rfl
          archived := fun h => h
          clocks := .inl ⟨rfl, rfl⟩
          holding := hcanonical.elim (fun h => .inl (hs (.inr h)))
            fun h => .inr (.inl fun hold => by rw [hold.canonical] at h; cases h)
          release := fun _ _ h => nomatch h
          earning := .inl
          priced := fun _ => .inr ⟨rfl, .inl rfl⟩
          generation := .inl rfl
          sound := fun h => ⟨h.offline, h.pending, h.archived⟩
          reopen := fun _ h => .inr ⟨⟨h.kept, h.reachable, h.earning⟩, fun _ _ h => h⟩
          probed := ⟨.inl rfl, .inl rfl, .inl rfl, .inl ⟨rfl, rfl⟩⟩ }
    · simp only [hpromoted, hcanonical, if_false]
      exact .refl r

theorem promoteDuplicateIfDue_does {lic : Licence} {db : Db}
    (hk : Table.Keyed Proxy.id db.proxies) (hlic : lic.restarts) (canonicalId : Nat) :
    Does (Edited lic) Db.Raises db (promoteDuplicateIfDue db canonicalId lic.now) Prod.fst := by
  unfold promoteDuplicateIfDue
  cases hcanonical : db.proxy? canonicalId with
  | none => exact Does.ok (.refl db)
  | some canonical =>
    refine Does.ite (fun _ => Does.ok (.refl db)) fun hdue => ?_
    cases hcandidate : promotionCandidate db.proxies canonicalId with
    | none => exact Does.ok (.refl db)
    | some candidate =>
      obtain rfl : canonical.id = canonicalId := Table.key_of_lookup hcanonical
      have hne : candidate.id ≠ canonical.id :=
        promotionCandidate_ne hk (Table.mem_of_lookup hcanonical) (not_not.mp hdue) hcandidate
      refine (expirePendingCycle_does db canonical.id).seq (fun _ _ _ => Edited.trans) ?_
      intro db₁ hdb₁
      simp only [id, promoteRows_eq_map hne]
      refine Does.seq (resetProbation_does fun r _ => promoted_edit hlic fun hr => ?_)
        (fun _ _ _ => Edited.trans) fun db₂ _ => Does.ok (.refl db₂)
      rcases hr with hr | hr
      · exact .inl (List.mem_singleton.mpr hr)
      · rw [expirePendingCycle_ok hdb₁]
        exact settled_expireIn (List.mem_singleton.mpr hr) _

/-- The promotions that precede the maintenance archive. -/
theorem promoteAll_does {lic : Licence} (hlic : lic.restarts) (rows : List Proxy) {db : Db}
    (hk : Table.Keyed Proxy.id db.proxies) :
    Does (Edited lic) Db.Raises db
      (rows.foldlM (fun acc r => Prod.fst <$> promoteDuplicateIfDue acc r.id lic.now) db) id := by
  refine Does.foldlM (I := fun _ db => Table.Keyed Proxy.id db.proxies) Edited.refl
    (fun _ _ _ => Edited.trans) (fun r _ db hk => ?_) rows db hk
  have hdoes : Does (Edited lic) Db.Raises db
      (Prod.fst <$> promoteDuplicateIfDue db r.id lic.now) id :=
    Does.map (promoteDuplicateIfDue_does hk hlic r.id)
  exact ⟨hdoes, fun _ h => (hdoes.of_ok h).keyed hk⟩

theorem archiveDueDeadProxies_does {lic : Licence} {db : Db}
    (hk : Table.Keyed Proxy.id db.proxies) (hlic : lic.restarts)
    (hobserves : ∀ r ∈ db.proxies, r.DeadSince (lic.now - hours 24) →
      lic.observes r.id (r.archived lic.now).health) :
    Does (Edited lic) Db.Raises db (archiveDueDeadProxies db lic.now) Prod.fst := by
  unfold archiveDueDeadProxies
  refine Does.seq (promoteAll_does hlic _ hk) (fun _ _ _ => Edited.trans) fun db₁ hdb₁ => ?_
  have hpromoted : Edited lic.unobserving db db₁ :=
    (@promoteAll_does lic.unobserving hlic _ _ hk).of_ok hdb₁
  refine Does.ok (Edited.map fun r hr => ?_)
  split
  · rename_i hdead
    refine archived_edit (.inr fun hold => ?_) ?_
    · have := hold.reachable
      rw [hdead.2.1] at this
      cases this
    · -- the promotions have not touched the columns that make the row due
      obtain ⟨r₀, hr₀, hid, hhealth⟩ := hpromoted.unobserved hr
      rw [hid, Proxy.archived_health hhealth]
      refine hobserves r₀ hr₀ ?_
      simp only [Proxy.health, Health.mk.injEq] at hhealth
      obtain ⟨hstatus, _, _, _, _, _, hdeadsince, harchived⟩ := hhealth
      exact ⟨harchived ▸ hdead.1, hstatus ▸ hdead.2.1, hdeadsince ▸ hdead.2.2⟩
  · exact .refl r

end EarnProxy

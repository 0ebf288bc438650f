import EarnProxy.Checks
import EarnProxy.Accrual

/-!
# What the other statements do to a row

After its accrual an operation rewrites rows and expires pending entries. `RowEdit` lists what the
services rely on when a row is rewritten, `Edited` lifts it to a database. Both compose, so a
statement is judged on its own and an operation by the statements it is made of.
-/

namespace EarnProxy

open Transaction

/-- What an operation is allowed to do, besides what every operation may. -/
structure Licence where
  now : Timestamp
  staleMinutes : Int
  /-- The operation may set both clocks of a row to `now`. -/
  restarts : Prop
  /-- The operation may make a duplicate canonical and leave its cursor behind. -/
  backpays : Prop
  /-- The rows that may gain an earning eligibility. -/
  grants : Nat → Prop
  /-- The rows whose rate may change while their cursors stay. -/
  reprices : Nat → Prop
  /-- The health columns that rows may be given. -/
  observes : Nat → Health → Prop
  /-- The rows whose health claims may be taken away. -/
  unclaims : Nat → Prop

/-- Only such rows hold pending entries. -/
structure Proxy.Holding (r : Proxy) : Prop where
  kept : r.archivedAt = none
  canonical : r.duplicateOf = none
  reachable : r.status.down = false
  observed : r.lastSuccessAt ≠ none

/-- The row would be credited if its owner may be paid and its egress is known. -/
structure Proxy.InService (r : Proxy) : Prop where
  kept : r.archivedAt = none
  reachable : r.status.down = false
  earning : r.eligibility.Earning

instance (r : Proxy) : Decidable r.InService :=
  decidable_of_iff (r.archivedAt = none ∧ r.status.down = false ∧ r.eligibility.Earning)
    ⟨fun h => ⟨h.1, h.2.1, h.2.2⟩, fun h => ⟨h.kept, h.reachable, h.earning⟩⟩

/-- An accrual may still reach the instant `τ` of the row. -/
def Proxy.Open (staleMinutes : Int) (r : Proxy) (τ : Timestamp) : Prop :=
  (∀ c ∈ r.accrualCursorAt, c ≤ τ) ∧ ∀ success ∈ r.lastSuccessAt, τ < success + minutes staleMinutes

/-- What the status column says about the counters and the timestamps. -/
structure Proxy.Sound (r : Proxy) : Prop where
  offline : r.status = .offline → 3 ≤ r.consecutiveFailures
  pending : r.status = .pending → r.lastSuccessAt = none
  archived : r.status = .archived → r.archivedAt ≠ none

/-- What happens to the columns of the two probes: the health columns change as the licence says,
and a claim may be taken away. -/
structure Probed (lic : Licence) (r r' : Proxy) : Prop where
  health : r'.health = r.health ∨ lic.observes r.id r'.health
  checkClaim : r'.checkClaimToken = r.checkClaimToken ∨ r'.checkClaimToken = none
  earnappClaim : r'.earnappClaimToken = r.earnappClaimToken ∨ r'.earnappClaimToken = none
  lease : (r'.checkClaimToken = r.checkClaimToken ∧ r'.checkClaimedUntil = r.checkClaimedUntil) ∨
    lic.unclaims r.id

theorem Probed.refl {lic : Licence} (r : Proxy) : Probed lic r r :=
  ⟨.inl rfl, .inl rfl, .inl rfl, .inl ⟨rfl, rfl⟩⟩

theorem Probed.trans {lic : Licence} {r r' r'' : Proxy} (hid : r'.id = r.id) (h : Probed lic r r')
    (h' : Probed lic r' r'') : Probed lic r r'' := by
  obtain ⟨health, check, earnapp, lease⟩ := h
  obtain ⟨health', check', earnapp', lease'⟩ := h'
  refine ⟨?_, ?_, ?_, ?_⟩
  · rcases health' with hsame | hobserves
    · rwa [hsame]
    · exact .inr (hid ▸ hobserves)
  · exact check'.elim (fun hsame => by rwa [hsame]) .inr
  · exact earnapp'.elim (fun hsame => by rwa [hsame]) .inr
  · rcases lease' with ⟨htoken, huntil⟩ | hunclaims
    · rwa [htoken, huntil]
    · exact .inr (hid ▸ hunclaims)

/-- What happens to a row under the licence `lic`; `settled` says that the row is left without
pending entries. -/
structure RowEdit (lic : Licence) (settled : Prop) (r r' : Proxy) : Prop where
  id : r'.id = r.id
  owner : r'.userId = r.userId
  archived : r.archivedAt ≠ none → r'.archivedAt ≠ none
  clocks : (r'.accrualCursorAt = r.accrualCursorAt ∧ r'.probationStartedAt = r.probationStartedAt) ∨
    (lic.restarts ∧ r'.accrualCursorAt = some lic.now ∧ r'.probationStartedAt = some lic.now)
  holding : settled ∨ ¬ r.Holding ∨
    (r'.Holding ∧ r'.probationStartedAt = r.probationStartedAt)
  release : r.Sound → r.duplicateOf ≠ none → r'.duplicateOf = none → r'.InService →
    lic.backpays ∨ r'.accrualCursorAt = some lic.now
  earning : r'.eligibility.Earning →
    r.eligibility.Earning ∨ (lic.grants r.id ∧ r'.accrualCursorAt = some lic.now)
  priced : r'.eligibility.Earning → r'.accrualCursorAt = some lic.now ∨
    (r'.eligibility = r.eligibility ∧ (r'.monthlyRate = r.monthlyRate ∨ lic.reprices r.id))
  generation : r'.credentialGeneration = r.credentialGeneration ∨
    (¬ r'.eligibility.Earning ∧ ∀ i, ¬ lic.grants i)
  sound : r.Sound → r'.Sound
  reopen : r.Sound → r'.InService → r'.accrualCursorAt = some lic.now ∨
    (r.InService ∧ ∀ τ < lic.now, r'.Open lic.staleMinutes τ → r.Open lic.staleMinutes τ)
  probed : Probed lic r r'

theorem RowEdit.refl {lic : Licence} {settled : Prop} (r : Proxy) : RowEdit lic settled r r where
  id := rfl
  owner := rfl
  archived := fun h => h
  clocks := .inl ⟨rfl, rfl⟩
  holding := by
    by_cases h : r.Holding
    · exact .inr (.inr ⟨h, rfl⟩)
    · exact .inr (.inl h)
  release := fun _ h h' _ => absurd h' h
  earning := .inl
  priced := fun _ => .inr ⟨rfl, .inl rfl⟩
  generation := .inl rfl
  sound := fun h => h
  reopen := fun _ h => .inr ⟨h, fun _ _ h => h⟩
  probed := .refl r

section RowEdit

variable {lic : Licence} {settled settled' : Prop} {r r' r'' : Proxy}

theorem RowEdit.weaken (h : RowEdit lic settled r r') (hs : settled → settled') :
    RowEdit lic settled' r r' :=
  { h with holding := h.holding.imp_left hs }

/-- A cursor that stands at `now` stays there. -/
theorem RowEdit.cursor_now (h : RowEdit lic settled r r')
    (hr : r.accrualCursorAt = some lic.now) : r'.accrualCursorAt = some lic.now := by
  rcases h.clocks with ⟨hc, _⟩ | ⟨_, hc, _⟩
  · exact hc.trans hr
  · exact hc

theorem RowEdit.trans (h : RowEdit lic settled r r') (h' : RowEdit lic settled' r' r'') :
    RowEdit lic (settled ∨ settled') r r'' where
  id := h'.id.trans h.id
  owner := h'.owner.trans h.owner
  archived := fun hr => h'.archived (h.archived hr)
  clocks := by
    rcases h'.clocks with ⟨hc', hp'⟩ | hnow
    · rcases h.clocks with ⟨hc, hp⟩ | ⟨hlic, hc, hp⟩
      · exact .inl ⟨hc'.trans hc, hp'.trans hp⟩
      · exact .inr ⟨hlic, hc'.trans hc, hp'.trans hp⟩
    · exact .inr hnow
  holding := by
    rcases h.holding with hs | hr | ⟨hr', hp⟩
    · exact .inl (.inl hs)
    · exact .inr (.inl hr)
    · rcases h'.holding with hs | hn | ⟨hr'', hp'⟩
      · exact .inl (.inr hs)
      · exact absurd hr' hn
      · exact .inr (.inr ⟨hr'', hp'.trans hp⟩)
  release := by
    intro hs hd hd'' hin''
    rcases h'.reopen (h.sound hs) hin'' with hc | ⟨hin', _⟩
    · exact .inr hc
    · by_cases hd' : r'.duplicateOf = none
      · exact (h.release hs hd hd' hin').imp_right h'.cursor_now
      · exact h'.release (h.sound hs) hd' hd'' hin''
  earning := by
    intro he''
    rcases h'.earning he'' with he' | ⟨hgrant, hc⟩
    · exact (h.earning he').imp_right fun ⟨hg, hc⟩ => ⟨hg, h'.cursor_now hc⟩
    · exact .inr ⟨h.id ▸ hgrant, hc⟩
  priced := by
    intro he''
    rcases h'.priced he'' with hc | ⟨heligibility', hrate'⟩
    · exact .inl hc
    · rcases h.priced (heligibility' ▸ he'') with hc | ⟨heligibility, hrate⟩
      · exact .inl (h'.cursor_now hc)
      · refine .inr ⟨heligibility'.trans heligibility, ?_⟩
        rcases hrate' with hrate' | hreprices
        · exact hrate.imp_left hrate'.trans
        · exact .inr (h.id ▸ hreprices)
  generation := by
    rcases h'.generation with hg' | hno
    · refine h.generation.imp hg'.trans fun ⟨hno, hgrants⟩ => ⟨fun he'' => ?_, hgrants⟩
      exact (h'.earning he'').elim hno fun hgrant => hgrants _ hgrant.1
    · exact .inr hno
  sound := fun hs => h'.sound (h.sound hs)
  reopen := by
    intro hs hin''
    rcases h'.reopen (h.sound hs) hin'' with hc | ⟨hin', hopen'⟩
    · exact .inl hc
    · rcases h.reopen hs hin' with hc | ⟨hin, hopen⟩
      · exact .inl (h'.cursor_now hc)
      · exact .inr ⟨hin, fun τ hτ ho => hopen τ hτ (hopen' τ hτ ho)⟩
  probed := h.probed.trans h.id h'.probed

end RowEdit

/-- The pending entries of the rows `ids` expire. -/
def expireIn (ids : List Nat) (ledger : List LedgerEntry) : List LedgerEntry :=
  Table.update (fun e => e.proxyId ∈ ids ∧ e.bucket = .pending)
    (fun e => { e with bucket := .expired }) ledger

theorem mem_expireIn {ids : List Nat} {ledger : List LedgerEntry} {e' : LedgerEntry}
    (h : e' ∈ expireIn ids ledger) :
    (e' ∈ ledger ∧ ¬ (e'.proxyId ∈ ids ∧ e'.bucket = .pending)) ∨ ∃ e ∈ ledger,
      e.proxyId ∈ ids ∧ e.bucket = .pending ∧ e' = { e with bucket := .expired } := by
  obtain ⟨e, he, heq⟩ := Table.mem_update.mp h
  split at heq
  · rename_i hmoved
    exact .inr ⟨e, he, hmoved.1, hmoved.2, heq.symm⟩
  · rename_i hkept
    subst heq
    exact .inl ⟨he, hkept⟩

@[simp] theorem expireIn_nil (ledger : List LedgerEntry) : expireIn [] ledger = ledger :=
  Table.update_eq_self (by simp)

theorem expireIn_append (ids ids' : List Nat) (ledger : List LedgerEntry) :
    expireIn (ids ++ ids') ledger = expireIn ids' (expireIn ids ledger) := by
  unfold expireIn Table.update
  rw [List.map_map]
  refine List.map_congr_left fun e _ => ?_
  by_cases hids : e.proxyId ∈ ids ∧ e.bucket = .pending
  · simp [hids]
  · by_cases hpending : e.bucket = .pending
    · simp [hpending] at hids
      simp [hids, hpending]
    · simp [hpending]

/-- Row `i` has no pending entry, or it is among the rows whose entries expire. -/
def Settled (ledger : List LedgerEntry) (ids : List Nat) (i : Nat) : Prop :=
  i ∈ ids ∨ ∀ e ∈ ledger, e.proxyId = i → e.bucket ≠ .pending

/-- What is settled after an expiry is settled by both expiries together. -/
theorem Settled.append {ledger : List LedgerEntry} {ids ids' : List Nat} {i : Nat}
    (h : Settled (expireIn ids ledger) ids' i) : Settled ledger (ids ++ ids') i := by
  rcases h with hi | hnone
  · exact .inl (List.mem_append_right _ hi)
  · by_cases hi : i ∈ ids
    · exact .inl (List.mem_append_left _ hi)
    · refine .inr fun e he hid => hnone e ?_ hid
      refine Table.mem_update.mpr ⟨e, he, if_neg ?_⟩
      rw [hid]
      exact fun h => hi h.1

theorem settled_expireIn {ledger : List LedgerEntry} {ids : List Nat} {i : Nat} (hi : i ∈ ids)
    (ids' : List Nat) : Settled (expireIn ids ledger) ids' i := by
  refine .inr fun e he hid hpending => ?_
  rcases mem_expireIn he with ⟨_, hkept⟩ | ⟨_, _, _, _, rfl⟩
  · exact hkept ⟨hid ▸ hi, hpending⟩
  · cases hpending

/-- An operation without accrual: every row is edited under the licence, and the pending entries
of some rows expire. -/
def Edited (lic : Licence) (db db' : Db) : Prop :=
  ∃ φ ids, db' = { db with proxies := db.proxies.map φ, ledger := expireIn ids db.ledger } ∧
    ∀ r ∈ db.proxies, RowEdit lic (Settled db.ledger ids r.id) r (φ r)

section Edited

variable {lic : Licence} {db db' db'' : Db}

theorem Edited.refl (db : Db) : Edited lic db db :=
  ⟨id, [], by simp, fun r _ => .refl r⟩

theorem Edited.trans (h : Edited lic db db') (h' : Edited lic db' db'') : Edited lic db db'' := by
  obtain ⟨φ, ids, rfl, hφ⟩ := h
  obtain ⟨φ', ids', rfl, hφ'⟩ := h'
  refine ⟨φ' ∘ φ, ids ++ ids', by simp [expireIn_append], fun r hr => ?_⟩
  have hfirst := hφ r hr
  have hsecond := hφ' (φ r) (List.mem_map_of_mem hr)
  refine (hfirst.trans hsecond).weaken fun hs => hs.elim (fun h => ?_) fun h => ?_
  · exact h.imp_left (List.mem_append_left _)
  · rw [hfirst.id] at h
    exact h.append

theorem Edited.keyed (h : Edited lic db db') (hk : Table.Keyed Proxy.id db.proxies) :
    Table.Keyed Proxy.id db'.proxies := by
  obtain ⟨φ, _, rfl, hφ⟩ := h
  exact hk.map fun r hr => (hφ r hr).id

/-- Rows are rewritten and the ledger stays. -/
theorem Edited.map {φ : Proxy → Proxy}
    (h : ∀ r ∈ db.proxies, RowEdit lic (Settled db.ledger [] r.id) r (φ r)) :
    Edited lic db { db with proxies := db.proxies.map φ } :=
  ⟨φ, [], by simp, h⟩

theorem Edited.updateProxy {i : Nat} {f : Proxy → Proxy}
    (h : ∀ r ∈ db.proxies, r.id = i → RowEdit lic (Settled db.ledger [] i) r (f r)) :
    Edited lic db (db.updateProxy i f) := by
  refine Edited.map fun r hr => ?_
  by_cases hi : r.id = i
  · rw [if_pos hi, hi]
    exact h r hr hi
  · rw [if_neg hi]
    exact .refl r

end Edited

theorem expirePendingCycle_ok {db db' : Db} {i : Nat} (h : expirePendingCycle db i = .ok db') :
    db' = { db with ledger := expireIn [i] db.ledger } := by
  rw [Db.moveEntries_ok h, expireIn]
  congr 1
  exact Table.update_congr (by simp) db.ledger

theorem expirePendingCycle_error {db : Db} {i : Nat} {error : DbError}
    (h : expirePendingCycle db i = .error error) : db.Raises error :=
  Db.moveEntries_error h

theorem expirePendingCycle_does {lic : Licence} (db : Db) (i : Nat) :
    Does (Edited lic) Db.Raises db (expirePendingCycle db i) id := by
  cases h : expirePendingCycle db i with
  | error e => exact .error (.refl db) (expirePendingCycle_error h)
  | ok db' =>
    exact .ok ⟨id, [i], by rw [id, expirePendingCycle_ok h, List.map_id], fun r _ => .refl r⟩

/-- A reset that closes a rewriting of rows. -/
theorem resetProbation_does {lic : Licence} {db : Db} {φ : Proxy → Proxy} {i : Nat}
    (h : ∀ r ∈ db.proxies, RowEdit lic (Settled db.ledger [i] r.id) r
      (if (φ r).id = i then (φ r).restart lic.now else φ r)) :
    Does (Edited lic) Db.Raises db
      (resetProbation { db with proxies := db.proxies.map φ } i lic.now) id := by
  unfold resetProbation
  refine Does.bind_whole (fun e he => ?_) fun db₁ h₁ => ?_
  · have hraises := expirePendingCycle_error he
    exact ⟨db, .refl db, hraises⟩
  rw [expirePendingCycle_ok h₁]
  refine Does.ok ⟨fun r => if (φ r).id = i then (φ r).restart lic.now else φ r, [i], ?_, h⟩
  simp [Db.updateProxy, Db.updateProxies, Table.update]

/-- The effect of a reset of row `i` on the rows. -/
theorem resetProbation_ok {db db' : Db} {i : Nat} {at_ : Timestamp}
    (h : resetProbation db i at_ = .ok db') :
    db' = { db with
      proxies := Table.update (fun r => r.id = i) (fun r => r.restart at_) db.proxies
      ledger := expireIn [i] db.ledger } := by
  unfold resetProbation at h
  cases h₁ : expirePendingCycle db i with
  | error e => rw [h₁] at h; cases h
  | ok db₁ =>
    rw [h₁, expirePendingCycle_ok h₁] at h
    exact (Except.ok.inj h).symm

end EarnProxy

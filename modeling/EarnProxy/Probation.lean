import EarnProxy.Coverage

/-!
# Probation

Pending entries belong to the running probation cycle of a row that still holds them. They become
available once the confirmed time of the row reaches the end of the cycle, and expire whenever the
cycle is broken; nothing else ever happens to an entry.
-/

namespace EarnProxy

/-! ## Pending entries -/

/-- Every pending entry lies in the current cycle of a row that may hold it. -/
def Db.Probated (db : Db) : Prop :=
  ∀ e ∈ db.ledger, e.bucket = .pending →
    ∃ r ∈ db.proxies, r.id = e.proxyId ∧ r.Holding ∧ ∃ p ∈ r.probationStartedAt, p ≤ e.startedAt

/-- A row that an accrual credits may hold pending entries. -/
theorem Span.holding {now : Timestamp} {db : Db} {row : Proxy} {user : User}
    {cursor until_ : Timestamp} (span : Span now db row user cursor until_) : row.Holding := by
  obtain ⟨success, hsuccess, _⟩ := span.confirmed
  refine ⟨span.accruable.1, span.accruable.2.2.2.1, span.accruable.inService.reachable, ?_⟩
  rw [Option.mem_def.mp hsuccess]
  exact Option.some_ne_none success

theorem Visit.probated {now : Timestamp} {i : Nat} {db db' : Db} (h : Visit now i db db')
    (hwf : db.WellFormed) (hprobated : db.Probated) : db'.Probated := by
  have hmoved : CursorsMoved (fun _ => True) db db' := h.moved trivial
  -- the row of an entry is still there, with its cycle
  have himage : ∀ r ∈ db.proxies, r.Holding → ∀ p ∈ r.probationStartedAt, ∀ e : LedgerEntry,
      r.id = e.proxyId → p ≤ e.startedAt → ∃ r' ∈ db'.proxies,
        r'.id = e.proxyId ∧ r'.Holding ∧ ∃ p ∈ r'.probationStartedAt, p ≤ e.startedAt := by
    intro r hr hold p hp e hid hle
    obtain ⟨r', hr', hsame⟩ := hmoved.image hr
    refine ⟨r', hr', hsame.id.trans hid, ?_, p, ?_, hle⟩
    · rw [hsame]
      exact ⟨hold.kept, hold.canonical, hold.reachable, hold.observed⟩
    · rw [hsame]
      exact hp
  intro e he hpending
  cases h with
  | skip =>
    obtain ⟨r, hr, hid, hold, p, hp, hle⟩ := hprobated e he hpending
    exact himage r hr hold p hp e hid hle
  | @credit row user cursor until_ news ignored hi span payable credits hignored =>
    rcases List.mem_append.mp he with he | he
    · rcases mem_unlockCycle he with he | ⟨_, e₀, _, _, _, _, rfl⟩
      · obtain ⟨r, hr, hid, hold, p, hp, hle⟩ := hprobated e he hpending
        exact himage r hr hold p hp e hid hle
      · cases hpending
    · obtain ⟨p, c, hp, hc, hle⟩ := hwf.clocked row span.mem
      obtain rfl := Option.some.inj (span.start.symm.trans hc)
      exact himage row span.mem span.holding p hp e (credits.own e he).1.symm
        (hle.trans (credits.within e he).1)

theorem Visits.probated {now : Timestamp} {P : Nat → Prop} {db db' : Db} (h : Visits now P db db')
    (hwf : db.WellFormed) (hprobated : db.Probated) : db'.Probated := by
  have hkeep : db'.WellFormed ∧ db'.Probated := by
    refine h.keeps (I := fun s => s.WellFormed ∧ s.Probated) ?_ ⟨hwf, hprobated⟩
    rintro i s s' _ ⟨hwf, hprobated⟩ hvisit
    exact ⟨hvisit.wellFormed hwf, hvisit.probated hwf hprobated⟩
  exact hkeep.2

/-- A row that stops holding entries, or whose cycle restarts, is settled. -/
theorem Edited.probated {lic : Licence} {db db' : Db} (h : Edited lic db db')
    (hprobated : db.Probated) : db'.Probated := by
  obtain ⟨φ, ids, rfl, hφ⟩ := h
  intro e he hpending
  rcases mem_expireIn he with ⟨he, hkept⟩ | ⟨_, _, _, _, rfl⟩
  · obtain ⟨r, hr, hid, hold, p, hp, hle⟩ := hprobated e he hpending
    have hunsettled : ¬ Settled db.ledger ids r.id := by
      rintro (hi | hnone)
      · exact hkept ⟨hid ▸ hi, hpending⟩
      · exact hnone e he hid.symm hpending
    rcases (hφ r hr).holding with hs | hnot | ⟨hold', hsame⟩
    · exact absurd hs hunsettled
    · exact absurd hold hnot
    · refine ⟨φ r, List.mem_map_of_mem hr, (hφ r hr).id.trans hid, hold', p, ?_, hle⟩
      rw [hsame]
      exact hp
  · cases hpending

theorem Effect.probated {db db' : Db} {ev : Event} (h : Effect db ev db') (hwf : db.WellFormed)
    (hprobated : db.Probated) : db'.Probated := by
  cases h with
  | proxies hphased =>
    obtain ⟨accrued, hvisits, hedits⟩ := hphased
    exact hedits.probated (hvisits.probated hwf hprobated)
  | added =>
    intro e he hpending
    obtain ⟨r, hr, hid, hrest⟩ := hprobated e he hpending
    exact ⟨r, List.mem_append_left _ hr, hid, hrest⟩
  | others hsame =>
    unfold Db.Probated
    rw [hsame.ledger, hsame.proxies]
    exact hprobated

/-! ## Entries that become available -/

/-- The confirmed time of the entry's row reaches the end of the probation cycle the entry is in. -/
def Db.Seasoned (now : Timestamp) (db : Db) (e : LedgerEntry) : Prop :=
  ∃ r ∈ db.proxies, r.id = e.proxyId ∧ ∃ p ∈ r.probationStartedAt, ∃ success ∈ r.lastSuccessAt,
    p + hours probationHours ≤ min now (success + minutes (healthStaleMinutes db)) ∧
    p ≤ e.startedAt

theorem CursorsMoved.seasoned {P : Nat → Prop} {db db' : Db} (h : CursorsMoved P db db')
    {now : Timestamp} {e : LedgerEntry} (hs : db'.Seasoned now e) : db.Seasoned now e := by
  obtain ⟨r', hr', hid, p, hp, success, hsuccess, hreach, hle⟩ := hs
  obtain ⟨r, hr, hsame⟩ := h.origin hr'
  rw [h.stale] at hreach
  rw [hsame] at hid hp hsuccess
  exact ⟨r, hr, hid, p, hp, success, hsuccess, hreach, hle⟩

/-- What happens to the bucket of an entry; `seasoned` admits the ones that become available. -/
inductive BucketMove (seasoned : LedgerEntry → Prop) (e : LedgerEntry) : LedgerEntry → Prop where
  | stays : BucketMove seasoned e e
  | expires : e.bucket = .pending → BucketMove seasoned e { e with bucket := .expired }
  | unlocks : e.bucket = .pending → seasoned { e with bucket := .available } →
      BucketMove seasoned e { e with bucket := .available }

theorem BucketMove.trans {seasoned : LedgerEntry → Prop} {e e' e'' : LedgerEntry}
    (h : BucketMove seasoned e e') (h' : BucketMove seasoned e' e'') :
    BucketMove seasoned e e'' := by
  cases h with
  | stays => exact h'
  | expires hpending =>
    cases h' with
    | stays => exact .expires hpending
    | expires hpending' => cases hpending'
    | unlocks hpending' => cases hpending'
  | unlocks hpending hseasoned =>
    cases h' with
    | stays => exact .unlocks hpending hseasoned
    | expires hpending' => cases hpending'
    | unlocks hpending' => cases hpending'

/-- The ledger keeps its entries, up to the moves of their buckets, and an entry is available only
if it is seasoned, be it new or moved. -/
def LedgerGrows (seasoned : LedgerEntry → Prop) : List LedgerEntry → List LedgerEntry → Prop :=
  Table.Grows (BucketMove seasoned) fun e => e.bucket = .available → seasoned e

section LedgerGrows

variable {seasoned : LedgerEntry → Prop} {ledger ledger' ledger'' : List LedgerEntry}

theorem LedgerGrows.refl (ledger : List LedgerEntry) : LedgerGrows seasoned ledger ledger :=
  Table.Grows.refl (fun _ => .stays) ledger

theorem LedgerGrows.trans (h : LedgerGrows seasoned ledger ledger')
    (h' : LedgerGrows seasoned ledger' ledger'') : LedgerGrows seasoned ledger ledger'' := by
  refine Table.Grows.trans (fun _ _ _ => BucketMove.trans) (fun e e' hfresh hmove => ?_) h h'
  cases hmove with
  | stays => exact hfresh
  | expires => exact nofun
  | unlocks _ hseasoned => exact fun _ => hseasoned

theorem LedgerGrows.mono {seasoned' : LedgerEntry → Prop} (h : LedgerGrows seasoned ledger ledger')
    (himp : ∀ e, seasoned e → seasoned' e) : LedgerGrows seasoned' ledger ledger' := by
  refine Table.Grows.mono h (fun e e' hmove => ?_) fun e hfresh hbucket => himp e (hfresh hbucket)
  cases hmove with
  | stays => exact .stays
  | expires hpending => exact .expires hpending
  | unlocks hpending hseasoned => exact .unlocks hpending (himp _ hseasoned)

end LedgerGrows

theorem Visit.ledgerGrows {now : Timestamp} {i : Nat} {db db' : Db} (h : Visit now i db db')
    (hwf : db.WellFormed) : LedgerGrows (db.Seasoned now) db.ledger db'.ledger := by
  cases h with
  | skip => exact .refl db.ledger
  | @credit row user cursor until_ news ignored hi span payable credits hignored =>
    obtain ⟨p, c, hp, hc, hle⟩ := hwf.clocked row span.mem
    obtain rfl := Option.some.inj (span.start.symm.trans hc)
    obtain ⟨success, hsuccess, huntil⟩ := span.confirmed
    -- an entry of the row is seasoned once the span reaches the end of the cycle
    have hseasoned : p + hours probationHours ≤ until_ → ∀ e : LedgerEntry, e.proxyId = row.id →
        p ≤ e.startedAt → db.Seasoned now e :=
      fun hreach e hid hstart =>
        ⟨row, span.mem, hid.symm, p, hp, success, hsuccess, huntil ▸ hreach, hstart⟩
    simp only [hp, Option.getD_some] at credits ⊢
    have hunlock : LedgerGrows (db.Seasoned now) db.ledger (unlockCycle db.ledger i p until_) := by
      unfold unlockCycle
      split
      · rename_i hreach
        refine Table.Grows.of_update (fun _ => .stays) (fun e he => ?_) db.ledger
        exact .unlocks he.2.1 (hseasoned hreach _ (he.1.trans hi.symm) he.2.2)
      · exact .refl db.ledger
    refine hunlock.trans (Table.Grows.of_append (fun _ => .stays) _ fun e he hbucket => ?_)
    have hcycle := (credits.own e he).2.2
    rw [hbucket] at hcycle
    unfold cycleBucket at hcycle
    split at hcycle
    · exact hseasoned ‹_› e (credits.own e he).1 (hle.trans (credits.within e he).1)
    · cases hcycle

theorem Visits.ledgerGrows {now : Timestamp} {P : Nat → Prop} {db db' : Db}
    (h : Visits now P db db') (hwf : db.WellFormed) :
    LedgerGrows (db.Seasoned now) db.ledger db'.ledger := by
  have hkeep : CursorsMoved P db db' ∧ db'.WellFormed ∧
      LedgerGrows (db.Seasoned now) db.ledger db'.ledger := by
    refine h.keeps (I := fun s => CursorsMoved P db s ∧ s.WellFormed ∧
      LedgerGrows (db.Seasoned now) db.ledger s.ledger) ?_ ⟨.refl db, hwf, .refl db.ledger⟩
    rintro i s s' hi ⟨hmoved, hwf, hgrows⟩ hvisit
    refine ⟨hmoved.trans (hvisit.moved hi), hvisit.wellFormed hwf, hgrows.trans ?_⟩
    exact (hvisit.ledgerGrows hwf).mono fun e => hmoved.seasoned
  exact hkeep.2.2

theorem Effect.ledgerGrows {db db' : Db} {ev : Event} (h : Effect db ev db') (hwf : db.WellFormed) :
    LedgerGrows (db.Seasoned ev.now) db.ledger db'.ledger := by
  cases h with
  | proxies hphased =>
    obtain ⟨accrued, hvisits, φ, ids, rfl, _⟩ := hphased
    refine LedgerGrows.trans (hvisits.ledgerGrows hwf) ?_
    exact Table.Grows.of_update (fun _ => .stays) (fun e he => .expires he.2) accrued.ledger
  | added => exact .refl db.ledger
  | others hsame =>
    rw [hsame.ledger]
    exact .refl db.ledger

/-! ## Runs -/

/-- A probation cycle either goes on or starts with the event. -/
theorem Effect.cycle_origin {db db' : Db} {ev : Event} (h : Effect db ev db') {r' : Proxy}
    (hr' : r' ∈ db'.proxies) {p : Timestamp} (hp : r'.probationStartedAt = some p) :
    p = ev.now ∨ ∃ r ∈ db.proxies, r.id = r'.id ∧ r.probationStartedAt = some p := by
  cases h with
  | proxies hphased =>
    obtain ⟨accrued, hvisits, φ, ids, rfl, hφ⟩ := hphased
    obtain ⟨r₁, hr₁, rfl⟩ := List.mem_map.mp hr'
    obtain ⟨r, hr, hsame⟩ := hvisits.moved.origin hr₁
    rcases (hφ r₁ hr₁).clocks with ⟨_, hkept⟩ | ⟨_, _, hnow⟩
    · refine .inr ⟨r, hr, hsame.id.symm.trans (hφ r₁ hr₁).id.symm, ?_⟩
      rw [hkept, hsame] at hp
      exact hp
    · exact .inl (Option.some.inj (hp.symm.trans hnow))
  | added =>
    rcases List.mem_append.mp hr' with hr | hr
    · exact .inr ⟨r', hr, rfl, hp⟩
    · rw [List.mem_singleton.mp hr] at hp
      exact .inl (Option.some.inj hp).symm
  | others hsame => exact .inr ⟨r', hsame.proxies ▸ hr', rfl, hp⟩

section Runs

variable {db₀ db : Db} {h : List (Event × Db)}

/-- Since its start, the current cycle of a row was its cycle in every state. -/
theorem Runs.cycle_unbroken (hfresh : db₀.Fresh) (run : Runs db₀ h db) (htimely : Timely h) :
    ∀ r ∈ db.proxies, ∀ p ∈ r.probationStartedAt, ∀ x ∈ h, p < x.1.now →
      ∃ r' ∈ x.2.proxies, r'.id = r.id ∧ r'.probationStartedAt = some p := by
  refine run.invariant (I := fun h db => Timely h → ∀ r ∈ db.proxies, ∀ p ∈ r.probationStartedAt,
    ∀ x ∈ h, p < x.1.now → ∃ r' ∈ x.2.proxies, r'.id = r.id ∧ r'.probationStartedAt = some p)
    hfresh (by simp) ?_ htimely
  intro h s ev s' _ _ hI _ heffect htimely r' hr' p hp x hx hlt
  rcases List.mem_cons.mp hx with rfl | hx
  · exact ⟨r', hr', rfl, hp⟩
  · rcases heffect.cycle_origin hr' hp with rfl | ⟨r, hr, hid, hp⟩
    · exact absurd (htimely.le hx) (not_le.mpr hlt)
    · rw [← hid]
      exact hI htimely.tail r hr p hp x hx hlt

theorem Runs.probated (hfresh : db₀.Fresh) (run : Runs db₀ h db) : db.Probated := by
  refine run.invariant (I := fun _ db => db.Probated) hfresh ?_ ?_
  · intro e he
    rw [hfresh.ledger] at he
    cases he
  · intro h s ev s' _ hwf hprobated _ heffect
    exact heffect.probated hwf hprobated

/-- The entry's row has served the probation cycle the entry is in: its confirmed time reaches the
end of the cycle, and no event since the entry began has restarted it. -/
def Served (h : List (Event × Db)) (db : Db) (now : Timestamp) (e : LedgerEntry) : Prop :=
  ∃ r ∈ db.proxies, r.id = e.proxyId ∧ ∃ p ∈ r.probationStartedAt, ∃ success ∈ r.lastSuccessAt,
    p + hours probationHours ≤ min now (success + minutes (healthStaleMinutes db)) ∧
    p ≤ e.startedAt ∧ ∀ x ∈ h, e.startedAt < x.1.now →
      ∃ r' ∈ x.2.proxies, r'.id = e.proxyId ∧ r'.probationStartedAt = some p

/-- In every timely run the pending entries lie in the current cycle of a kept canonical row, and
each further event only moves entries out of `pending`, into `available` when the cycle is
served. -/
theorem probation_sound (hfresh : db₀.Fresh) (run : Runs db₀ h db) (htimely : Timely h) :
    (∀ e ∈ db.ledger, e.bucket = .pending → ∃ r ∈ db.proxies, r.id = e.proxyId ∧
      r.archivedAt = none ∧ r.duplicateOf = none ∧ ∃ p ∈ r.probationStartedAt, p ≤ e.startedAt) ∧
    ∀ ev, LedgerGrows (Served h db ev.now) db.ledger (exec db ev).ledger := by
  have hwf := run.wellFormed hfresh
  constructor
  · intro e he hpending
    obtain ⟨r, hr, hid, hold, hp⟩ := run.probated hfresh e he hpending
    exact ⟨r, hr, hid, hold.kept, hold.canonical, hp⟩
  · intro ev
    refine ((exec_effect hwf.keyed ev).ledgerGrows hwf).mono fun e hseasoned => ?_
    obtain ⟨r, hr, hid, p, hp, success, hsuccess, hreach, hle⟩ := hseasoned
    refine ⟨r, hr, hid, p, hp, success, hsuccess, hreach, hle, fun x hx hlt => ?_⟩
    rw [← hid]
    exact run.cycle_unbroken hfresh htimely r hr p hp x hx (lt_of_le_of_lt hle hlt)

end Runs

open Scenario in
/-- A user whose health results stay fresh for a day. -/
def patientUser : Db := { oneUser with settings := { healthStaleMinutes := some 1440 } }

open Scenario in
/-- A proxy earns for six days and then reaches the end of its probation. -/
def sevenDays : List Event :=
  [minute 0 (.addProxy 1 (endpoint "192.0.2.1") none),
    minute 1 (.applyEarnappResult 1 (allowedFrom "198.51.100.7")),
    minute 8640 (.applyHealthResult 1 (liveFrom "198.51.100.7")),
    minute 8650 .accrueEligibleTime,
    minute 10080 (.applyHealthResult 1 (liveFrom "198.51.100.7"))]

open Scenario in
theorem probation_sound_sevenDays :
    ((after patientUser sevenDays).ledger.map LedgerEntry.bucket) = [.pending] ∧
      ((exec (after patientUser sevenDays) (minute 10090 .accrueEligibleTime)).ledger.map
        LedgerEntry.bucket) = [.available, .available, .available] ∧
      (∀ e ∈ (after patientUser sevenDays).ledger, e.bucket = .pending →
        ∃ r ∈ (after patientUser sevenDays).proxies, r.id = e.proxyId ∧ r.archivedAt = none ∧
          r.duplicateOf = none ∧ ∃ p ∈ r.probationStartedAt, p ≤ e.startedAt) ∧
      ∀ ev, LedgerGrows
        (Served (history patientUser sevenDays) (after patientUser sevenDays) ev.now)
        (after patientUser sevenDays).ledger (exec (after patientUser sevenDays) ev).ledger :=
  ⟨by decide, by decide, probation_sound ⟨rfl, rfl, rfl, rfl⟩ (runs patientUser sevenDays)
    (by decide)⟩

end EarnProxy

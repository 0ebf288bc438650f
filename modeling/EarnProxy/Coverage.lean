import EarnProxy.Invariants

/-!
# Which instants are credited

An interval in the ledger ends by the time of the event that recorded it. To show that no interval
covers an instant of some kind, it is enough to keep the instants that an accrual may still reach
away from that kind; `Clear` is this invariant, for any kind of instants and any notion of reach.
-/

namespace EarnProxy

/-- The interval of the entry contains the instant `τ`. -/
def LedgerEntry.Covers (e : LedgerEntry) (τ : Timestamp) : Prop := e.startedAt ≤ τ ∧ τ < e.endedAt

instance (e : LedgerEntry) (τ : Timestamp) : Decidable (e.Covers τ) :=
  inferInstanceAs (Decidable (_ ∧ _))

/-- An entry ends by the time of an event, or it was there before with the same end. -/
theorem Effect.endsBy {db db' : Db} {ev : Event} (h : Effect db ev db') {e' : LedgerEntry}
    (he' : e' ∈ db'.ledger) : e'.endedAt ≤ ev.now ∨ ∃ e ∈ db.ledger, e.endedAt = e'.endedAt := by
  cases h with
  | proxies hphased =>
    obtain ⟨accrued, hvisits, φ, ids, rfl, _⟩ := hphased
    -- the accrual adds entries that end by `now`, the expiry only relabels
    have haccrued : ∀ e' ∈ accrued.ledger,
        e'.endedAt ≤ ev.now ∨ ∃ e ∈ db.ledger, e.endedAt = e'.endedAt := by
      refine hvisits.keeps (I := fun s => ∀ e' ∈ s.ledger,
        e'.endedAt ≤ ev.now ∨ ∃ e ∈ db.ledger, e.endedAt = e'.endedAt) ?_
        fun e he => .inr ⟨e, he, rfl⟩
      intro i s s' _ hs hvisit e' he'
      cases hvisit with
      | skip => exact hs e' he'
      | @credit row user cursor until_ news ignored hi span payable credits hignored =>
        rcases List.mem_append.mp he' with he' | he'
        · rcases mem_unlockCycle he' with he' | ⟨_, e, he, _, _, _, rfl⟩
          · exact hs e' he'
          · exact hs e he
        · exact .inl ((credits.within e' he').2.2.trans span.until_le)
    rcases mem_expireIn he' with ⟨he, _⟩ | ⟨e, he, _, _, rfl⟩
    · exact haccrued e' he
    · exact haccrued e he
  | added => exact .inr ⟨e', he', rfl⟩
  | others hsame => exact .inr ⟨e', hsame.ledger ▸ he', rfl⟩

section Runs

variable {db₀ db : Db} {h : List (Event × Db)}

/-- Every recorded interval ends by the time of some event of the run. -/
theorem Runs.ended (hfresh : db₀.Fresh) (run : Runs db₀ h db) :
    ∀ e ∈ db.ledger, ∃ x ∈ h, e.endedAt ≤ x.1.now := by
  refine run.invariant (I := fun h db => ∀ e ∈ db.ledger, ∃ x ∈ h, e.endedAt ≤ x.1.now) hfresh
    (by simp [hfresh.ledger]) ?_
  intro h s ev s' _ _ hI _ heffect e' he'
  rcases heffect.endsBy he' with hle | ⟨e, he, heq⟩
  · exact ⟨(ev, s'), by simp, hle⟩
  · obtain ⟨x, hx, hle⟩ := hI e he
    exact ⟨x, List.mem_cons_of_mem _ hx, heq ▸ hle⟩

/-- When times do not decrease, every interval ends by the latest event. -/
theorem Runs.ended_timely {ev : Event} (hfresh : db₀.Fresh) (run : Runs db₀ ((ev, db) :: h) db)
    (htimely : Timely ((ev, db) :: h)) : ∀ e ∈ db.ledger, e.endedAt ≤ ev.now := by
  intro e he
  obtain ⟨x, hx, hle⟩ := run.ended hfresh e he
  rcases List.mem_cons.mp hx with rfl | hx
  · exact hle
  · exact hle.trans (htimely.le hx)

end Runs

/-! ## Instants out of reach -/

/-- No accrual can reach an instant of `past`: `reach r τ` says that an accrual may still credit the
row `r` for `τ`, and `past i u τ` is about the row `i` of the user `u`. -/
def Unreached (past : Nat → Nat → Timestamp → Prop) (reach : Proxy → Timestamp → Prop) (db : Db) :
    Prop :=
  ∀ r ∈ db.proxies, ∀ τ, reach r τ → ¬ past r.id r.userId τ

/-- No entry covers an instant of `past`, and no accrual can reach one. -/
structure Clear (past : Nat → Nat → Timestamp → Prop) (reach : Proxy → Timestamp → Prop) (db : Db) :
    Prop where
  entries : ∀ e ∈ db.ledger, ∀ τ, e.Covers τ → ¬ past e.proxyId e.userId τ
  rows : Unreached past reach db

/-- What a visit credits is in reach, and a cursor that moves on reaches no more than before. -/
structure Reaches (now : Timestamp) (db : Db) (reach : Proxy → Timestamp → Prop) : Prop where
  credited : ∀ {s : Db} {row : Proxy} {user : User} {cursor until_ τ : Timestamp},
    s.users = db.users → s.settings = db.settings → Span now s row user cursor until_ →
    user.Payable → cursor ≤ τ → τ < until_ → reach row τ
  forward : ∀ {r : Proxy} {c c' τ : Timestamp}, r.accrualCursorAt = some c → c ≤ c' →
    reach { r with accrualCursorAt := some c' } τ → reach r τ

/-- A row that the accrual query selects is in service. -/
theorem Proxy.Accruable.inService {r : Proxy} {includeSuspect : Bool}
    (h : r.Accruable includeSuspect) : r.InService := by
  obtain ⟨hkept, hstatus, hearning, _⟩ := h
  refine ⟨hkept, ?_, hearning⟩
  rcases hstatus with hs | ⟨_, hs⟩ <;> rw [hs] <;> rfl

section Unreached

variable {past past' : Nat → Nat → Timestamp → Prop} {reach reach' : Proxy → Timestamp → Prop}
  {db db' : Db}

theorem Visit.unreached {now : Timestamp} {i : Nat} {s s' : Db} (hvisit : Visit now i s s')
    (hk : Table.Keyed Proxy.id s.proxies) (hreach : Reaches now db reach)
    (h : Unreached past reach s) : Unreached past reach s' := by
  intro r' hr' τ hτ
  rcases hvisit.origin hk hr' with hr | ⟨r, user, cursor, until_, span, rfl⟩
  · exact h r' hr τ hτ
  · exact h r span.mem τ (hreach.forward span.start span.nonempty.le hτ)

theorem Visits.unreached {now : Timestamp} {P : Nat → Prop} (hvisits : Visits now P db db')
    (hk : Table.Keyed Proxy.id db.proxies) (hreach : Reaches now db reach)
    (h : Unreached past reach db) : Unreached past reach db' := by
  have hkeep : CursorsMoved P db db' ∧ Unreached past reach db' := by
    refine hvisits.keeps (I := fun s => CursorsMoved P db s ∧ Unreached past reach s) ?_
      ⟨.refl db, h⟩
    rintro i s s' hi ⟨hmoved, hrows⟩ hvisit
    exact ⟨hmoved.trans (hvisit.moved hi), hvisit.unreached (hmoved.keyed hk) hreach hrows⟩
  exact hkeep.2

theorem Edited.unreached {lic : Licence} (hedited : Edited lic db db') (h : Unreached past reach db)
    (hrows : ∀ r ∈ db.proxies, ∀ r', r'.id = r.id → ∀ settled, RowEdit lic settled r r' →
      ∀ τ, reach' r' τ → past r.id r.userId τ → reach r τ) : Unreached past reach' db' := by
  obtain ⟨φ, ids, rfl, hφ⟩ := hedited
  intro r' hr' τ hτ hpast
  obtain ⟨r, hr, rfl⟩ := List.mem_map.mp hr'
  have hid := (hφ r hr).id
  rw [hid, (hφ r hr).owner] at hpast
  exact h r hr τ (hrows r hr _ hid _ (hφ r hr) τ hτ hpast) hpast

end Unreached

section Clear

variable {past past' : Nat → Nat → Timestamp → Prop} {reach reach' : Proxy → Timestamp → Prop}
  {db db' : Db}

theorem Clear.mono (h : Clear past reach db) (hpast : ∀ i u τ, past' i u τ → past i u τ) :
    Clear past' reach db :=
  ⟨fun e he τ hτ hp => h.entries e he τ hτ (hpast _ _ τ hp),
    fun r hr τ hτ hp => h.rows r hr τ hτ (hpast _ _ τ hp)⟩

/-- The bucket column says nothing about the interval or the owner. -/
theorem uncovered_relabel {p : LedgerEntry → Prop} [DecidablePred p] {bucket : Bucket}
    {ledger : List LedgerEntry} (h : ∀ e ∈ ledger, ∀ τ, e.Covers τ → ¬ past e.proxyId e.userId τ) :
    ∀ e ∈ Table.update p (fun e => { e with bucket := bucket }) ledger, ∀ τ, e.Covers τ →
      ¬ past e.proxyId e.userId τ := by
  intro e' he'
  obtain ⟨e, he, rfl⟩ := Table.mem_update.mp he'
  split <;> exact h e he

theorem Visit.clear {now : Timestamp} {i : Nat} {s s' : Db} (hvisit : Visit now i s s')
    (hk : Table.Keyed Proxy.id s.proxies) (hreach : Reaches now db reach)
    (husers : s.users = db.users) (hsettings : s.settings = db.settings)
    (h : Clear past reach s) : Clear past reach s' := by
  refine ⟨?_, hvisit.unreached hk hreach h.rows⟩
  cases hvisit with
  | skip => exact h.entries
  | @credit row user cursor until_ news ignored hi span payable credits hignored =>
    intro e he τ hτ
    rcases List.mem_append.mp he with he | he
    · obtain ⟨p, _, hunlock⟩ :=
        unlockCycle_eq_update s.ledger i (row.probationStartedAt.getD cursor) until_
      rw [hunlock] at he
      exact uncovered_relabel h.entries e he τ hτ
    · obtain ⟨hstart, _, hend⟩ := credits.within e he
      obtain ⟨hid, howner, _⟩ := credits.own e he
      rw [hid, howner]
      exact h.rows row span.mem τ (hreach.credited husers hsettings span payable
        (hstart.trans hτ.1) (hτ.2.trans_le hend))

theorem Visits.clear {now : Timestamp} {P : Nat → Prop} (hvisits : Visits now P db db')
    (hk : Table.Keyed Proxy.id db.proxies) (hreach : Reaches now db reach)
    (h : Clear past reach db) : Clear past reach db' := by
  have hkeep : CursorsMoved P db db' ∧ Clear past reach db' := by
    refine hvisits.keeps (I := fun s => CursorsMoved P db s ∧ Clear past reach s) ?_ ⟨.refl db, h⟩
    rintro i s s' hi ⟨hmoved, hclear⟩ hvisit
    exact ⟨hmoved.trans (hvisit.moved hi),
      hvisit.clear (hmoved.keyed hk) hreach hmoved.users hmoved.settings hclear⟩
  exact hkeep.2

theorem Edited.clear {lic : Licence} (hedited : Edited lic db db') (h : Clear past reach db)
    (hrows : ∀ r ∈ db.proxies, ∀ r', r'.id = r.id → ∀ settled, RowEdit lic settled r r' →
      ∀ τ, reach' r' τ → past r.id r.userId τ → reach r τ) : Clear past reach' db' := by
  refine ⟨?_, hedited.unreached h.rows hrows⟩
  obtain ⟨φ, ids, rfl, hφ⟩ := hedited
  exact uncovered_relabel h.entries

/-- An event closes the time before it: what was out of reach until then stays so, and the state it
leaves decides about the time from then on. -/
theorem Clear.advance {bad : Nat → Nat → Db → Prop} {h : List (Event × Db)} {ev : Event}
    (hclear : Clear (fun i u τ => τ < ev.now ∧ History.Held Event.now (bad i u) h τ) reach db)
    (hends : ∀ e ∈ db.ledger, e.endedAt ≤ ev.now)
    (hrows : ∀ r ∈ db.proxies, ∀ τ, reach r τ → ¬ bad r.id r.userId db) :
    Clear (fun i u τ => History.Held Event.now (bad i u) ((ev, db) :: h) τ) reach db where
  entries := by
    intro e he τ hτ hheld
    have hlt : τ < ev.now := hτ.2.trans_le (hends e he)
    rcases hheld with ⟨hle, _⟩ | ⟨_, hheld⟩
    · exact absurd hle (not_le.mpr hlt)
    · exact hclear.entries e he τ hτ ⟨hlt, hheld⟩
  rows := by
    intro r hr τ hτ hheld
    rcases hheld with ⟨_, hbad⟩ | hheld
    · exact hrows r hr τ hτ hbad
    · exact hclear.rows r hr τ hτ hheld

end Clear

end EarnProxy

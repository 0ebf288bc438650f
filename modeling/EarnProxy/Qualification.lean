import EarnProxy.Coverage

/-!
# No payment before EarnApp qualification

A row earns while its eligibility is allow or risk, and a new credential starts at pending. EarnApp
results lead out of pending, and so does a blocked health result, which writes risk over it: the row
then earns as soon as it is live again. Without such a result every entry of a row comes after a
qualifying EarnApp result for the credential it was earned with.
-/

namespace EarnProxy

/-! ## Backed rows -/

/-- The bucket aside, an entry of the same interval. -/
def LedgerEntry.SameInterval (e e' : LedgerEntry) : Prop :=
  e.proxyId = e'.proxyId ∧ e.startedAt = e'.startedAt ∧ e.endedAt = e'.endedAt

instance (e e' : LedgerEntry) : Decidable (e.SameInterval e') :=
  inferInstanceAs (Decidable (_ ∧ _))

theorem LedgerEntry.SameInterval.refl (e : LedgerEntry) : e.SameInterval e := ⟨rfl, rfl, rfl⟩

theorem LedgerEntry.SameInterval.symm {e e' : LedgerEntry} (h : e.SameInterval e') :
    e'.SameInterval e := ⟨h.1.symm, h.2.1.symm, h.2.2.symm⟩

theorem LedgerEntry.SameInterval.trans {e e' e'' : LedgerEntry} (h : e.SameInterval e')
    (h' : e'.SameInterval e'') : e.SameInterval e'' :=
  ⟨h.1.trans h'.1, h.2.1.trans h'.2.1, h.2.2.trans h'.2.2⟩

/-- `backed i g τ` covers the row `i` with credential generation `g` from `τ` on: it holds of every
row that earns, at its cursor. -/
def Db.Backed (backed : Nat → Nat → Timestamp → Prop) (db : Db) : Prop :=
  ∀ r ∈ db.proxies, r.eligibility.Earning → ∀ c ∈ r.accrualCursorAt,
    backed r.id r.credentialGeneration c

/-- The entry is about a row of `db` that is covered when the interval starts. -/
def LedgerEntry.BackedIn (backed : Nat → Nat → Timestamp → Prop) (db : Db) (e : LedgerEntry) :
    Prop :=
  ∃ r ∈ db.proxies, r.id = e.proxyId ∧ backed r.id r.credentialGeneration e.startedAt

section Backed

variable {backed : Nat → Nat → Timestamp → Prop} {db db' : Db} {now : Timestamp}

theorem Visit.rows_backed {i : Nat} (hmono : ∀ i g, Monotone (backed i g)) (h : Visit now i db db')
    (hk : Table.Keyed Proxy.id db.proxies) (hbacked : db.Backed backed) : db'.Backed backed := by
  -- the cursor moves forward, and a later instant is covered too
  intro r' hr' hearning c hc
  rcases h.origin hk hr' with hr | ⟨r, user, cursor, until_, span, rfl⟩
  · exact hbacked r' hr hearning c hc
  · obtain rfl : until_ = c := Option.some.inj hc
    exact hmono _ _ span.nonempty.le (hbacked r span.mem hearning cursor span.start)

/-- An entry after a visit was there before, or its row was covered from the start of the entry. -/
theorem Visit.entries {i : Nat} (hmono : ∀ i g, Monotone (backed i g)) (h : Visit now i db db')
    (hbacked : db.Backed backed) {e : LedgerEntry} (he : e ∈ db'.ledger) :
    (∃ e₀ ∈ db.ledger, e₀.SameInterval e) ∨ e.BackedIn backed db := by
  cases h with
  | skip => exact .inl ⟨e, he, .refl e⟩
  | @credit row user cursor until_ news ignored hi span payable credits hignored =>
    rcases List.mem_append.mp he with he | he
    · rcases mem_unlockCycle he with he | ⟨_, e₀, he₀, _, _, _, rfl⟩
      · exact .inl ⟨e, he, .refl e⟩
      · exact .inl ⟨e₀, he₀, rfl, rfl, rfl⟩
    · have hrow := hbacked row span.mem span.accruable.inService.earning cursor span.start
      exact .inr ⟨row, span.mem, (credits.own e he).1.symm, hmono _ _ (credits.within e he).1 hrow⟩

theorem CursorsMoved.backedIn {P : Nat → Prop} (h : CursorsMoved P db db') {e : LedgerEntry}
    (he : e.BackedIn backed db') : e.BackedIn backed db := by
  obtain ⟨r', hr', hid, hb⟩ := he
  obtain ⟨r, hr, hsame⟩ := h.origin hr'
  rw [hsame] at hid hb
  exact ⟨r, hr, hid, hb⟩

theorem Visits.rows_backed {P : Nat → Prop} (hmono : ∀ i g, Monotone (backed i g))
    (h : Visits now P db db') (hk : Table.Keyed Proxy.id db.proxies) (hbacked : db.Backed backed) :
    db'.Backed backed ∧ ∀ e ∈ db'.ledger,
      (∃ e₀ ∈ db.ledger, e₀.SameInterval e) ∨ e.BackedIn backed db := by
  have hkeep : CursorsMoved P db db' ∧ db'.Backed backed ∧ ∀ e ∈ db'.ledger,
      (∃ e₀ ∈ db.ledger, e₀.SameInterval e) ∨ e.BackedIn backed db := by
    refine h.keeps (I := fun s => CursorsMoved P db s ∧ s.Backed backed ∧ ∀ e ∈ s.ledger,
      (∃ e₀ ∈ db.ledger, e₀.SameInterval e) ∨ e.BackedIn backed db) ?_
      ⟨.refl db, hbacked, fun e he => .inl ⟨e, he, .refl e⟩⟩
    rintro i s s' hi ⟨hmoved, hb, hentries⟩ hvisit
    refine ⟨hmoved.trans (hvisit.moved hi), hvisit.rows_backed hmono (hmoved.keyed hk) hb,
      fun e he => ?_⟩
    rcases hvisit.entries hmono hb he with ⟨e₁, he₁, hsame⟩ | hnew
    · rcases hentries e₁ he₁ with ⟨e₀, he₀, hsame₀⟩ | ⟨r, hr, hid, hback⟩
      · exact .inl ⟨e₀, he₀, hsame₀.trans hsame⟩
      · exact .inr ⟨r, hr, hid.trans hsame.1, hsame.2.1 ▸ hback⟩
    · exact .inr (hmoved.backedIn hnew)
  exact hkeep.2

/-- What was covered stays covered, a restart is covered from `now` on, and a licence to earn covers
its row from `now` on. -/
theorem Edited.rows_backed {lic : Licence} {backed' : Nat → Nat → Timestamp → Prop}
    (h : Edited lic db db') (hwf : db.WellFormed) (hbacked : db.Backed backed)
    (hlater : ∀ i g τ, backed i g τ → backed' i g τ)
    (hnow : ∀ i g τ, backed i g τ → backed' i g lic.now)
    (hgrant : ∀ r ∈ db.proxies, lic.grants r.id → backed' r.id r.credentialGeneration lic.now) :
    db'.Backed backed' := by
  obtain ⟨φ, ids, rfl, hφ⟩ := h
  intro r' hr' hearning c hc
  obtain ⟨r, hr, rfl⟩ := List.mem_map.mp hr'
  have hedit := hφ r hr
  have hgeneration : (φ r).credentialGeneration = r.credentialGeneration :=
    hedit.generation.resolve_right fun h => h.1 hearning
  rw [hedit.id, hgeneration]
  rcases hedit.earning hearning with hrow | ⟨hlic, hcursor⟩
  · obtain ⟨_, cursor, _, hcursor, _⟩ := hwf.clocked r hr
    have hb := hbacked r hr hrow cursor hcursor
    rcases hedit.clocks with ⟨hsame, _⟩ | ⟨_, hrestart, _⟩
    · obtain rfl : cursor = c := Option.some.inj (hcursor.symm.trans (hsame.symm.trans hc))
      exact hlater _ _ _ hb
    · obtain rfl : lic.now = c := Option.some.inj (hrestart.symm.trans hc)
      exact hnow _ _ _ hb
  · obtain rfl : lic.now = c := Option.some.inj (hcursor.symm.trans hc)
    exact hgrant r hr hlic

end Backed

/-! ## Qualified rows -/

/-- The event makes row `i` eligible to earn while its credential generation is `g`. -/
def Event.QualifiesIn (i g : Nat) (db : Db) (ev : Event) : Prop :=
  ev.Qualifies db i ∧ ∃ r ∈ db.proxies, r.id = i ∧ r.credentialGeneration = g

/-- An EarnApp result made row `i` eligible in its credential generation `g`, and by `τ` if the
times of the history are in order. -/
def QualifiedBy (db₀ : Db) (h : List (Event × Db)) (i g : Nat) (τ : Timestamp) : Prop :=
  History.Sometime (fun db ev => ev.QualifiesIn i g db ∧ (Timely h → ev.now ≤ τ)) db₀ h

/-- A blocked health result is accepted only by rows that an EarnApp result has made eligible in
their credential generation. -/
def BlockedAfterQualified (db₀ : Db) (h : List (Event × Db)) : Prop :=
  History.Abides (fun h db ev => ∀ r ∈ db.proxies, ev.Blocks db r.id →
    History.Sometime (fun db ev => ev.QualifiesIn r.id r.credentialGeneration db) db₀ h) db₀ h

instance (db : Db) (ev : Event) (i : Nat) : Decidable (ev.Qualifies db i) := by
  rcases ev with ⟨⟨⟩, now, wall⟩ <;> unfold Event.Qualifies <;> infer_instance

instance (db : Db) (ev : Event) (i : Nat) : Decidable (ev.Blocks db i) := by
  rcases ev with ⟨⟨⟩, now, wall⟩ <;> unfold Event.Blocks <;> infer_instance

instance (i g : Nat) (db : Db) (ev : Event) : Decidable (ev.QualifiesIn i g db) :=
  inferInstanceAs (Decidable (_ ∧ ∃ r ∈ _, _))

instance (db₀ : Db) (h : List (Event × Db)) : Decidable (BlockedAfterQualified db₀ h) :=
  inferInstanceAs (Decidable (History.Abides _ _ _))

section Runs

variable {db₀ db : Db} {h : List (Event × Db)}

theorem qualifiedBy_mono (i g : Nat) : Monotone (QualifiedBy db₀ h i g) :=
  fun _ _ hle hq => hq.imp fun _ _ _ hC => ⟨hC.1, fun htimely => (hC.2 htimely).trans hle⟩

theorem QualifiedBy.later {i g : Nat} {τ : Timestamp} (hq : QualifiedBy db₀ h i g τ)
    (x : Event × Db) : QualifiedBy db₀ (x :: h) i g τ :=
  .inr (hq.imp fun _ _ _ hC => ⟨hC.1, fun htimely => hC.2 htimely.tail⟩)

/-- What has happened has happened by the next event. -/
theorem qualifiedBy_now {i g : Nat} {x : Event × Db}
    (hq : History.Sometime (fun db ev => ev.QualifiesIn i g db) db₀ h) :
    QualifiedBy db₀ (x :: h) i g x.1.now :=
  .inr (hq.imp fun _ hx _ hC => ⟨hC, fun htimely => htimely.le hx⟩)

/-- Rows that earn are qualified, and the next event records an interval only for such rows. -/
theorem Effect.rows_backed {ev : Event} {s s' : Db} (heffect : Effect s ev s') (hrun : Runs db₀ h s)
    (hwf : s.WellFormed)
    (hblocked : BlockedAfterQualified db₀ ((ev, s') :: h))
    (hbacked : s.Backed (QualifiedBy db₀ h)) :
    s'.Backed (QualifiedBy db₀ ((ev, s') :: h)) ∧ ∀ e ∈ s'.ledger,
      (∃ e₀ ∈ s.ledger, e₀.SameInterval e) ∨ e.BackedIn (QualifiedBy db₀ h) s := by
  have hlater : ∀ i g τ, QualifiedBy db₀ h i g τ → QualifiedBy db₀ ((ev, s') :: h) i g τ :=
    fun _ _ _ hq => hq.later _
  cases heffect with
  | proxies hphased =>
    obtain ⟨accrued, hvisits, hedits⟩ := hphased
    obtain ⟨hrows, hentries⟩ := hvisits.rows_backed qualifiedBy_mono hwf.keyed hbacked
    constructor
    · refine hedits.rows_backed (hvisits.wellFormed hwf) hrows hlater ?_ ?_
      · exact fun i g τ hq => qualifiedBy_now (hq.imp fun _ _ _ hC => hC.1)
      · intro r hr hgrant
        obtain ⟨r₀, hr₀, hsame⟩ := hvisits.moved.origin hr
        have hid : r₀.id = r.id := hsame.id.symm
        have hgeneration : r₀.credentialGeneration = r.credentialGeneration := by rw [hsame]
        rcases hgrant with hq | hblocks
        · exact History.Sometime.now hrun ⟨⟨hq, r₀, hr₀, hid, hgeneration⟩, fun _ => le_rfl⟩
        · have hqualified := History.Abides.head hblocked hrun r₀ hr₀ (hid.symm ▸ hblocks)
          rw [hid, hgeneration] at hqualified
          exact qualifiedBy_now hqualified
    · obtain ⟨φ, ids, rfl, _⟩ := hedits
      intro e he
      rcases mem_expireIn he with ⟨he, _⟩ | ⟨e₀, he₀, _, _, rfl⟩
      · exact hentries e he
      · exact hentries e₀ he₀
  | added =>
    refine ⟨fun r hr hearning c hc => ?_, fun e he => .inl ⟨e, he, .refl e⟩⟩
    rcases List.mem_append.mp hr with hr | hr
    · exact hlater _ _ _ (hbacked r hr hearning c hc)
    · rw [List.mem_singleton.mp hr] at hearning
      exact absurd hearning Eligibility.not_earning_pending
  | others hsame =>
    refine ⟨fun r hr hearning c hc => ?_, fun e he => .inl ⟨e, hsame.ledger ▸ he, rfl, rfl, rfl⟩⟩
    exact hlater _ _ _ (hbacked r (hsame.proxies ▸ hr) hearning c hc)

theorem Runs.backed (hfresh : db₀.Fresh) (run : Runs db₀ h db)
    (hblocked : BlockedAfterQualified db₀ h) : db.Backed (QualifiedBy db₀ h) := by
  refine run.invariant
    (I := fun h db => BlockedAfterQualified db₀ h → db.Backed (QualifiedBy db₀ h))
    hfresh ?_ ?_ hblocked
  · intro _ r hr
    rw [hfresh.proxies] at hr
    cases hr
  · intro h s ev s' hrun hwf hI _ heffect hblocked
    exact (heffect.rows_backed hrun hwf hblocked (hI hblocked.2)).1

/-- The interval of the entry is in `db'` and not in `db`. -/
def LedgerEntry.Recorded (db db' : Db) (e : LedgerEntry) : Prop :=
  (∀ e₀ ∈ db.ledger, ¬ e₀.SameInterval e) ∧ ∃ e₁ ∈ db'.ledger, e₁.SameInterval e

/-- In every run whose blocked results come after the qualification of their rows, each entry was
recorded for a row that an EarnApp result had made eligible before, in the credential generation
that the row then had, and no later than the interval starts if times are in order. -/
theorem earnings_qualified (hfresh : db₀.Fresh) (run : Runs db₀ h db)
    (hblocked : BlockedAfterQualified db₀ h) :
    ∀ e ∈ db.ledger, ∃ ev s' older, ((ev, s') :: older) <:+ h ∧
      e.Recorded (History.current db₀ older) s' ∧
      e.BackedIn (QualifiedBy db₀ older) (History.current db₀ older) := by
  refine run.invariant (I := fun h db => BlockedAfterQualified db₀ h → ∀ e ∈ db.ledger,
    ∃ ev s' older, ((ev, s') :: older) <:+ h ∧ e.Recorded (History.current db₀ older) s' ∧
      e.BackedIn (QualifiedBy db₀ older) (History.current db₀ older)) hfresh ?_ ?_ hblocked
  · simp [hfresh.ledger]
  · intro h s ev s' hrun hwf hI _ heffect hblocked e he
    by_cases hold : ∃ e₀ ∈ s.ledger, e₀.SameInterval e
    · -- the entry was there before, possibly in another bucket
      obtain ⟨e₀, he₀, hsame⟩ := hold
      obtain ⟨ev', s'', older, hsuffix, ⟨hnew, e₁, he₁, hsame₁⟩, r, hr, hid, hb⟩ :=
        hI hblocked.2 e₀ he₀
      refine ⟨ev', s'', older, hsuffix.trans (List.suffix_cons _ _), ⟨fun e₂ he₂ hsame₂ => ?_, ?_⟩,
        ?_⟩
      · exact hnew e₂ he₂ (hsame₂.trans hsame.symm)
      · exact ⟨e₁, he₁, hsame₁.trans hsame⟩
      · exact ⟨r, hr, hid.trans hsame.1, hsame.2.1 ▸ hb⟩
    · refine ⟨ev, s', h, List.suffix_rfl, ?_, ?_⟩
      · rw [hrun.current_eq]
        exact ⟨fun e₀ he₀ hsame => hold ⟨e₀, he₀, hsame⟩, e, he, .refl e⟩
      · have hbacked := hrun.backed hfresh hblocked.2
        rw [hrun.current_eq]
        exact ((heffect.rows_backed hrun hwf hblocked hbacked).2 e he).resolve_left hold

end Runs

/-! ## Two runs -/

open Scenario in
/-- EarnApp finds the proxy risky; a captive portal blocks it for a while, and it earns again. -/
def blockedWhileRisk : List Event :=
  [minute 0 (.addProxy 1 (endpoint "192.0.2.1") none),
    minute 1 (.applyHealthResult 1 (liveFrom "198.51.100.7")),
    minute 2 (.applyEarnappResult 1
      { verdict := "BLACKLIST", egressTrusted := some true, exitIp := "198.51.100.7" }),
    minute 60 (.applyHealthResult 1 { status := "blocked" }),
    minute 120 (.applyHealthResult 1 (liveFrom "198.51.100.7")),
    minute 150 .accrueEligibleTime]

open Scenario in
theorem earnings_qualified_blockedWhileRisk :
    ((after oneUser blockedWhileRisk).ledger.map fun e => (e.startedAt, e.endedAt)) =
        [(minutes 2, minutes 60), (minutes 120, minutes 150)] ∧
      ∀ e ∈ (after oneUser blockedWhileRisk).ledger, ∃ ev s' older,
        ((ev, s') :: older) <:+ history oneUser blockedWhileRisk ∧
        e.Recorded (History.current oneUser older) s' ∧
        e.BackedIn (QualifiedBy oneUser older) (History.current oneUser older) :=
  ⟨by decide, earnings_qualified oneUser_fresh (runs oneUser blockedWhileRisk) (by decide)⟩

open Scenario in
/-- A captive portal blocks the proxy before EarnApp has seen it, and then it is live. -/
def blockedWhilePending : List Event :=
  [minute 0 (.addProxy 1 (endpoint "192.0.2.1") none),
    minute 1 (.applyHealthResult 1 { status := "blocked" }),
    minute 60 (.applyHealthResult 1 (liveFrom "198.51.100.7")),
    minute 90 .accrueEligibleTime]

open Scenario in
/-- The proxy earns, and no EarnApp result was ever applied. -/
theorem earnings_unqualified_blockedWhilePending :
    oneUser.Fresh ∧
      Runs oneUser (history oneUser blockedWhilePending) (after oneUser blockedWhilePending) ∧
      Timely (history oneUser blockedWhilePending) ∧
      ((after oneUser blockedWhilePending).ledger.map fun e =>
        (e.proxyId, e.startedAt, e.endedAt)) = [(1, minutes 60, minutes 90)] ∧
      ¬ History.Sometime (fun db ev => ev.Qualifies db 1) oneUser
        (history oneUser blockedWhilePending) :=
  ⟨oneUser_fresh, runs oneUser blockedWhilePending, by decide, by decide, by decide⟩

end EarnProxy

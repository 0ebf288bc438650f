import EarnProxy.Coverage

/-!
# No instant of a row is credited twice

The intervals of one row never overlap. What keeps them apart is its cursor: every recorded interval
ends at or before it, an accrual credits from the cursor on and moves it to the end of what it
credited, and only an operation whose `now` is the latest so far sets it anew.
-/

namespace EarnProxy

/-- Entries of one row cover different instants. -/
def LedgerEntry.Apart (e e' : LedgerEntry) : Prop :=
  e.proxyId = e'.proxyId → e.endedAt ≤ e'.startedAt ∨ e'.endedAt ≤ e.startedAt

/-- The bucket column says nothing about the interval. -/
theorem apart_relabel {p : LedgerEntry → Prop} [DecidablePred p] {bucket : Bucket}
    {ledger : List LedgerEntry} (h : ledger.Pairwise LedgerEntry.Apart) :
    (Table.update p (fun e => { e with bucket := bucket }) ledger).Pairwise LedgerEntry.Apart := by
  refine List.pairwise_map.mpr (h.imp fun {e e'} hapart => ?_)
  split <;> split <;> exact hapart

/-- The intervals are positive, apart, and behind the cursors of their rows. -/
structure Db.Tiled (db : Db) : Prop where
  positive : ∀ e ∈ db.ledger, e.startedAt < e.endedAt
  apart : db.ledger.Pairwise LedgerEntry.Apart
  behind : ∀ e ∈ db.ledger, ∀ r ∈ db.proxies, r.id = e.proxyId →
    ∀ cursor ∈ r.accrualCursorAt, e.endedAt ≤ cursor
  noneIgnored : db.insertsIgnored = 0

/-- Intervals that are positive and apart differ in the columns of the unique key. -/
theorem Db.Tiled.not_clash {db : Db} (h : db.Tiled) : ¬ db.Clash := by
  rintro ⟨p, _, bucket, hclash⟩
  refine hclash (List.pairwise_map.mpr ?_)
  have hpositive : ∀ e ∈ Table.update p (fun e => { e with bucket := bucket }) db.ledger,
      e.startedAt < e.endedAt := forall_mem_relabel (Q := fun _ s e => s < e) h.positive
  refine (apart_relabel h.apart).imp_of_mem fun {e e'} he _ hapart hkey => ?_
  simp only [LedgerEntry.key, Prod.mk.injEq] at hkey
  have := hpositive e he
  rcases hapart hkey.1 with hle | hle
  · exact absurd (hkey.2.1 ▸ hle) (not_le.mpr this)
  · exact absurd (hkey.2.2.1 ▸ hle) (not_le.mpr this)

theorem Visit.tiled {now : Timestamp} {i : Nat} {db db' : Db} (h : Visit now i db db')
    (hk : Table.Keyed Proxy.id db.proxies) (htiled : db.Tiled) : db'.Tiled := by
  -- the cursor of row `i` moves forward, the other cursors stay
  have hforward : ∀ e ∈ db.ledger, ∀ r' ∈ db'.proxies, r'.id = e.proxyId →
      ∀ c ∈ r'.accrualCursorAt, e.endedAt ≤ c := by
    intro e he r' hr' hid c hc
    rcases h.origin hk hr' with hr | ⟨r, user, cursor, until_, span, rfl⟩
    · exact htiled.behind e he r' hr hid c hc
    · obtain rfl : until_ = c := Option.some.inj hc
      exact (htiled.behind e he r span.mem hid cursor span.start).trans span.nonempty.le
  cases h with
  | skip hi span unpaid =>
    exact ⟨htiled.positive, htiled.apart, hforward, htiled.noneIgnored⟩
  | @credit row user cursor until_ news ignored hi span payable credits hignored =>
    obtain ⟨p, _, hunlock⟩ :=
      unlockCycle_eq_update db.ledger i (row.probationStartedAt.getD cursor) until_
    have hold : ∀ e ∈ db.ledger, e.proxyId = row.id → e.endedAt ≤ cursor :=
      fun e he hid => htiled.behind e he row span.mem hid.symm cursor span.start
    refine ⟨fun e he => ?_, ?_, fun e he => ?_, ?_⟩
    · rcases List.mem_append.mp he with he | he
      · rw [hunlock] at he
        exact forall_mem_relabel (Q := fun _ s e => s < e) htiled.positive e he
      · exact (credits.within e he).2.1
    · refine List.pairwise_append.mpr ⟨?_, ?_, fun e he e' he' hid => ?_⟩
      · rw [hunlock]
        exact apart_relabel htiled.apart
      · exact credits.apart.imp fun hle _ => .inl hle
      · rw [hunlock] at he
        have hstart := (credits.within e' he').1
        have hend :=
          forall_mem_relabel (Q := fun i _ ended => i = row.id → ended ≤ cursor) hold e he
          (hid.trans (credits.own e' he').1)
        exact .inl (hend.trans hstart)
    · intro r' hr' hid c hc
      rcases List.mem_append.mp he with he | he
      · rw [hunlock] at he
        exact forall_mem_relabel (Q := fun k _ ended => ∀ r' ∈ (setCursor db i until_).proxies,
          r'.id = k → ∀ c ∈ r'.accrualCursorAt, ended ≤ c) hforward e he r' hr' hid c hc
      · obtain ⟨r, hr, rfl⟩ := mem_setCursor.mp hr'
        have hri : r.id = i := by
          rw [(credits.own e he).1] at hid
          split at hid <;> exact hid.trans hi
        rw [if_pos hri] at hc
        obtain rfl : until_ = c := Option.some.inj hc
        exact (credits.within e he).2.2
    · rcases hignored with hignored | ⟨e, he, hid, hstart⟩
      · exact hignored.trans htiled.noneIgnored
      · have hlt := (htiled.positive e he).trans_le (hold e he hid)
        exact absurd hlt (not_lt.mpr hstart)

/-- Every interval ends by `bound`, if the bound matters. -/
def Db.EndsBy (db : Db) (bound : Timestamp) : Prop := ∀ e ∈ db.ledger, e.endedAt ≤ bound

theorem Visit.endsBy {now : Timestamp} {i : Nat} {db db' : Db} (h : Visit now i db db')
    (hends : db.EndsBy now) : db'.EndsBy now := by
  cases h with
  | skip => exact hends
  | @credit row user cursor until_ news ignored hi span payable credits hignored =>
    intro e he
    rcases List.mem_append.mp he with he | he
    · obtain ⟨p, _, hunlock⟩ :=
        unlockCycle_eq_update db.ledger i (row.probationStartedAt.getD cursor) until_
      rw [hunlock] at he
      exact forall_mem_relabel (Q := fun _ _ ended => ended ≤ now) hends e he
    · exact (credits.within e he).2.2.trans span.until_le

theorem Edited.tiled {lic : Licence} {db db' : Db} (h : Edited lic db db') (htiled : db.Tiled)
    (hends : lic.restarts → db.EndsBy lic.now) : db'.Tiled := by
  obtain ⟨φ, ids, rfl, hφ⟩ := h
  refine ⟨forall_mem_relabel (Q := fun _ s e => s < e) htiled.positive, apart_relabel htiled.apart,
    ?_, htiled.noneIgnored⟩
  refine forall_mem_relabel (Q := fun i _ ended => ∀ r ∈ db.proxies.map φ, r.id = i →
    ∀ cursor ∈ r.accrualCursorAt, ended ≤ cursor) fun e he r' hr' hid cursor hcursor => ?_
  obtain ⟨r, hr, rfl⟩ := List.mem_map.mp hr'
  rcases (hφ r hr).clocks with ⟨hsame, _⟩ | ⟨hlic, hnow, _⟩
  · exact htiled.behind e he r hr ((hφ r hr).id.symm.trans hid) cursor (hsame ▸ hcursor)
  · obtain rfl := Option.some.inj (hnow.symm.trans hcursor)
    exact hends hlic e he

/-- The phases of an event: intervals stay tiled when a restart comes after all of them. -/
theorem Phased.tiled {lic : Licence} {P : Nat → Prop} {db db' : Db} (h : Phased lic P db db')
    (hwf : db.WellFormed) (htiled : db.Tiled) (hends : lic.restarts → db.EndsBy lic.now) :
    db'.Tiled := by
  obtain ⟨accrued, hvisits, hedits⟩ := h
  have haccrued : accrued.WellFormed ∧ accrued.Tiled ∧ (lic.restarts → accrued.EndsBy lic.now) := by
    refine hvisits.keeps (I := fun db => db.WellFormed ∧ db.Tiled ∧
      (lic.restarts → db.EndsBy lic.now)) ?_ ⟨hwf, htiled, hends⟩
    rintro i s s' _ ⟨hwf, htiled, hends⟩ hvisit
    exact ⟨hvisit.wellFormed hwf, hvisit.tiled hwf.keyed htiled,
      fun hlic => hvisit.endsBy (hends hlic)⟩
  exact hedits.tiled haccrued.2.1 haccrued.2.2

/-- Each operation that sets clocks comes no earlier than any operation before it; accruals may
come with any `now`. -/
def ResetsInOrder (h : List (Event × Db)) : Prop :=
  h.Pairwise fun later earlier => later.1.op.restarts → earlier.1.now ≤ later.1.now

instance (h : List (Event × Db)) : Decidable (ResetsInOrder h) :=
  inferInstanceAs (Decidable (h.Pairwise _))

section Runs

variable {db₀ db : Db} {h : List (Event × Db)}

theorem Runs.endsBy_restart (hfresh : db₀.Fresh) (run : Runs db₀ h db) {ev : Event} {s' : Db}
    (horder : ResetsInOrder ((ev, s') :: h)) (hrestarts : ev.op.restarts) : db.EndsBy ev.now := by
  intro e he
  obtain ⟨x, hx, hle⟩ := Runs.ended hfresh run e he
  exact hle.trans ((List.pairwise_cons.mp horder).1 x hx hrestarts)

theorem Runs.tiled (hfresh : db₀.Fresh) (run : Runs db₀ h db) (horder : ResetsInOrder h) :
    db.Tiled := by
  refine run.invariant (I := fun h db => ResetsInOrder h → db.Tiled) hfresh ?_ ?_ horder
  · intro _
    refine ⟨by simp [hfresh.ledger], ?_, by simp [hfresh.ledger], hfresh.insertsIgnored⟩
    rw [hfresh.ledger]
    exact .nil
  · intro h s ev s' hrun hwf hI _ heffect horder
    have htiled := hI (List.pairwise_cons.mp horder).2
    cases heffect with
    | proxies hphased =>
      exact hphased.tiled hwf htiled fun hlic => hrun.endsBy_restart hfresh horder hlic
    | added =>
      refine ⟨htiled.positive, htiled.apart, fun e he r hr hid c hc => ?_, htiled.noneIgnored⟩
      rcases List.mem_append.mp hr with hr | hr
      · exact htiled.behind e he r hr hid c hc
      · -- a new row has a new id, and every entry belongs to a row
        obtain ⟨r₀, hr₀, hid₀, _⟩ := hwf.owned e he
        obtain rfl := List.mem_singleton.mp hr
        exact absurd (hid₀.trans hid.symm) (newProxy_fresh hr₀)
    | others hsame =>
      exact ⟨hsame.ledger ▸ htiled.positive, hsame.ledger ▸ htiled.apart,
        by rw [hsame.ledger, hsame.proxies]; exact htiled.behind,
        hsame.insertsIgnored.trans htiled.noneIgnored⟩

/-- In every run whose resets come in order, the intervals of one row are positive and disjoint,
no insert was ignored, and no next event fails on the unique key of the ledger. -/
theorem ledger_intervals_disjoint (hfresh : db₀.Fresh) (run : Runs db₀ h db)
    (horder : ResetsInOrder h) :
    (∀ e ∈ db.ledger, e.startedAt < e.endedAt) ∧
      (db.ledger.Pairwise fun e e' => e.proxyId = e'.proxyId →
        e.endedAt ≤ e'.startedAt ∨ e'.endedAt ≤ e.startedAt) ∧
      db.insertsIgnored = 0 ∧
      ∀ ev, ResetsInOrder ((ev, exec db ev) :: h) → step db ev ≠ .error .ledgerUnique := by
  have htiled := run.tiled hfresh horder
  have hwf := run.wellFormed hfresh
  refine ⟨htiled.positive, htiled.apart, htiled.noneIgnored, fun ev horder' herror => ?_⟩
  obtain ⟨db', hphased, hclash⟩ := step_clash hwf.keyed herror
  exact (hphased.tiled hwf htiled
    fun hlic => run.endsBy_restart hfresh horder' hlic).not_clash hclash

end Runs

open Scenario in
/-- A proxy earns while its accruals come late and out of order. -/
def lateAccruals : List Event :=
  [minute 0 (.addProxy 1 (endpoint "192.0.2.1") none),
    minute 1 (.applyHealthResult 1 (liveFrom "198.51.100.7")),
    minute 2 (.applyEarnappResult 1 (allowedFrom "198.51.100.7")),
    minute 60 (.applyHealthResult 1 (liveFrom "198.51.100.7")),
    minute 50 .accrueEligibleTime,
    minute 20 (.accrueProxyTime 1),
    minute 61 .accrueEligibleTime]

open Scenario in
theorem ledger_intervals_disjoint_lateAccruals :
    ((after oneUser lateAccruals).ledger.map fun e => (e.startedAt, e.endedAt)) =
        [(minutes 2, minutes 50), (minutes 50, minutes 61)] ∧
      (∀ e ∈ (after oneUser lateAccruals).ledger, e.startedAt < e.endedAt) ∧
      ((after oneUser lateAccruals).ledger.Pairwise fun e e' => e.proxyId = e'.proxyId →
        e.endedAt ≤ e'.startedAt ∨ e'.endedAt ≤ e.startedAt) ∧
      (after oneUser lateAccruals).insertsIgnored = 0 ∧
      ∀ ev, ResetsInOrder
        ((ev, exec (after oneUser lateAccruals) ev) :: history oneUser lateAccruals) →
        step (after oneUser lateAccruals) ev ≠ .error .ledgerUnique :=
  ⟨by decide, ledger_intervals_disjoint oneUser_fresh (runs oneUser lateAccruals) (by decide)⟩

end EarnProxy

import EarnProxy.Coverage

/-!
# Every interval is paid at the rate in force

An accrual reads eligibility and country once and pays the whole time since the cursor. A change of
eligibility comes with a restart of the cursor, and most changes of the country do. An EarnApp
result that confirms the eligibility and brings another country does not, nor does a call of
`reconcile_exit_ip` on its own: what is still owed for the time before is then paid at the new rate.
-/

namespace EarnProxy

open History

/-- Row `i` has this eligibility and this rate. -/
def Db.Rated (i : Nat) (eligibility : Eligibility) (rate : Nat) (db : Db) : Prop :=
  ∃ r ∈ db.proxies, r.id = i ∧ r.eligibility = eligibility ∧ r.monthlyRate = rate

instance (i : Nat) (eligibility : Eligibility) (rate : Nat) :
    DecidablePred (Db.Rated i eligibility rate) :=
  fun _ => inferInstanceAs (Decidable (∃ r ∈ _, _))

/-- An accrual may still credit the row for time before `now`. -/
def Proxy.Unsettled (staleMinutes : Int) (now : Timestamp) (r : Proxy) : Prop :=
  r.InService ∧ ∃ c ∈ r.accrualCursorAt, c < now ∧
    ∀ success ∈ r.lastSuccessAt, c < success + minutes staleMinutes

instance (staleMinutes : Int) (now : Timestamp) (r : Proxy) :
    Decidable (r.Unsettled staleMinutes now) :=
  inferInstanceAs (Decidable (_ ∧ ∃ c ∈ _, _))

/-- The event changes the rate of a row that has not been settled. -/
def Event.PaysBack (db : Db) (ev : Event) : Prop :=
  ∃ r ∈ db.proxies, ev.Reprices db r.id ∧ r.Unsettled (healthStaleMinutes db) ev.now

instance (db : Db) (ev : Event) : Decidable (ev.PaysBack db) :=
  inferInstanceAs (Decidable (∃ r ∈ _, _))

theorem Proxy.Open.unsettled {r : Proxy} {staleMinutes : Int} {now τ : Timestamp}
    (h : r.Open staleMinutes τ) (hclocked : r.Clocked) (hin : r.InService) (hτ : τ < now) :
    r.Unsettled staleMinutes now := by
  obtain ⟨_, c, _, hc, _⟩ := hclocked
  have hle : c ≤ τ := h.1 c hc
  exact ⟨hin, c, hc, hle.trans_lt hτ, fun success hs => hle.trans_lt (h.2 success hs)⟩

/-! ## Steady rows -/

/-- `held i eligibility rate τ` confirms what row `i` held at `τ`: it holds of every instant that an
accrual may still credit, at the rate that it would credit. -/
def Db.Steady (held : Nat → Eligibility → Nat → Timestamp → Prop) (db : Db) : Prop :=
  ∀ r ∈ db.proxies, r.InService → ∀ τ, r.Open (healthStaleMinutes db) τ →
    held r.id r.eligibility r.monthlyRate τ

/-- The entry was paid at a rate that its row held throughout its interval. -/
def LedgerEntry.Fair (held : Nat → Eligibility → Nat → Timestamp → Prop) (e : LedgerEntry) : Prop :=
  ∃ eligibility rate, e.PaidAt rate ∧ ∀ τ, e.Covers τ → held e.proxyId eligibility rate τ

section Steady

variable {held held' : Nat → Eligibility → Nat → Timestamp → Prop} {db db' : Db} {now : Timestamp}

theorem Db.Steady.mono (h : db.Steady held)
    (himp : ∀ i eligibility rate τ, held i eligibility rate τ → held' i eligibility rate τ) :
    db.Steady held' :=
  fun r hr hin τ ho => himp _ _ _ τ (h r hr hin τ ho)

theorem Visit.steady {i : Nat} (h : Visit now i db db') (hk : Table.Keyed Proxy.id db.proxies)
    (hsteady : db.Steady held) : db'.Steady held := by
  -- the cursor moves forward, and what it has passed is no longer owed
  intro r' hr' hin τ ho
  rw [(h.moved (P := (· = i)) rfl).stale] at ho
  rcases h.origin hk hr' with hr | ⟨r, user, cursor, until_, span, rfl⟩
  · exact hsteady r' hr hin τ ho
  · refine hsteady r span.mem ⟨hin.kept, hin.reachable, hin.earning⟩ τ ⟨fun c hc => ?_, ho.2⟩
    obtain rfl := Option.some.inj (span.start.symm.trans hc)
    exact span.nonempty.le.trans (ho.1 until_ rfl)

/-- What a visit credits was owed, at the rate at which it credits it. -/
theorem Visit.fair {i : Nat} (h : Visit now i db db') (hsteady : db.Steady held)
    (hfair : ∀ e ∈ db.ledger, e.Fair held) : ∀ e ∈ db'.ledger, e.Fair held := by
  cases h with
  | skip => exact hfair
  | @credit row user cursor until_ news ignored hi span payable credits hignored =>
    intro e he
    rcases List.mem_append.mp he with he | he
    · rcases mem_unlockCycle he with he | ⟨_, e₀, he₀, _, _, _, rfl⟩
      · exact hfair e he
      · exact hfair e₀ he₀
    · refine ⟨row.eligibility, row.monthlyRate, credits.paid e he, fun τ hτ => ?_⟩
      obtain ⟨hstart, _, hend⟩ := credits.within e he
      rw [(credits.own e he).1]
      refine hsteady row span.mem span.accruable.inService τ ⟨fun c hc => ?_, fun success hs => ?_⟩
      · obtain rfl := Option.some.inj (span.start.symm.trans hc)
        exact hstart.trans hτ.1
      · obtain ⟨success', hs', huntil⟩ := span.confirmed
        obtain rfl := Option.some.inj (hs'.symm.trans hs)
        have hlt : τ < until_ := hτ.2.trans_le hend
        exact hlt.trans_le (huntil ▸ min_le_right _ _)

theorem Visits.steady {P : Nat → Prop} (h : Visits now P db db')
    (hk : Table.Keyed Proxy.id db.proxies) (hsteady : db.Steady held) : db'.Steady held := by
  have hkeep : CursorsMoved P db db' ∧ db'.Steady held := by
    refine h.keeps (I := fun s => CursorsMoved P db s ∧ s.Steady held) ?_ ⟨.refl db, hsteady⟩
    rintro i s s' hi ⟨hmoved, hs⟩ hvisit
    exact ⟨hmoved.trans (hvisit.moved hi), hvisit.steady (hmoved.keyed hk) hs⟩
  exact hkeep.2

theorem Visits.fair {P : Nat → Prop} (h : Visits now P db db')
    (hk : Table.Keyed Proxy.id db.proxies) (hsteady : db.Steady held)
    (hfair : ∀ e ∈ db.ledger, e.Fair held) : ∀ e ∈ db'.ledger, e.Fair held := by
  have hkeep : CursorsMoved P db db' ∧ db'.Steady held ∧ ∀ e ∈ db'.ledger, e.Fair held := by
    refine h.keeps (I := fun s => CursorsMoved P db s ∧ s.Steady held ∧ ∀ e ∈ s.ledger, e.Fair held)
      ?_ ⟨.refl db, hsteady, hfair⟩
    rintro i s s' hi ⟨hmoved, hs, hentries⟩ hvisit
    exact ⟨hmoved.trans (hvisit.moved hi), hvisit.steady (hmoved.keyed hk) hs,
      hvisit.fair hs hentries⟩
  exact hkeep.2.2

/-- An edit that leaves the rates of unsettled rows alone keeps them steady up to `now`. -/
theorem Edited.steady {lic : Licence} (h : Edited lic db db') (hwf : db.WellFormed)
    (hstale : lic.staleMinutes = healthStaleMinutes db)
    (hsteady : db.Steady fun i eligibility rate τ =>
      τ < lic.now → ¬ lic.reprices i ∧ held i eligibility rate τ) :
    db'.Steady fun i eligibility rate τ => τ < lic.now → held i eligibility rate τ := by
  obtain ⟨φ, ids, rfl, hφ⟩ := h
  intro r' hr' hin τ ho hτ
  obtain ⟨r, hr, rfl⟩ := List.mem_map.mp hr'
  have hedit := hφ r hr
  have hnow : (φ r).accrualCursorAt ≠ some lic.now :=
    fun hc => absurd (ho.1 lic.now hc) (not_le.mpr hτ)
  obtain ⟨hin₀, hopen⟩ := (hedit.reopen (hwf.sound r hr) hin).resolve_left hnow
  have ho₀ : r.Open (healthStaleMinutes db) τ := hstale ▸ hopen τ hτ (hstale ▸ ho)
  obtain ⟨hspared, hheld⟩ := hsteady r hr hin₀ τ ho₀ hτ
  obtain ⟨heligibility, hrate⟩ := (hedit.priced hin.earning).resolve_left hnow
  rw [hedit.id, heligibility, hrate.resolve_right hspared]
  exact hheld

/-- The next event credits only what was owed before it, and leaves the rows steady up to its
time. -/
theorem Effect.fair {ev : Event} (heffect : Effect db ev db') (hwf : db.WellFormed)
    (hspares : ¬ ev.PaysBack db) (hsteady : db.Steady held) (hfair : ∀ e ∈ db.ledger, e.Fair held) :
    db'.Steady (fun i eligibility rate τ => τ < ev.now → held i eligibility rate τ) ∧
      ∀ e ∈ db'.ledger, e.Fair held := by
  cases heffect with
  | proxies hphased =>
    obtain ⟨accrued, hvisits, hedits⟩ := hphased
    constructor
    · have hspared : db.Steady fun i eligibility rate τ =>
          τ < ev.now → ¬ ev.Reprices db i ∧ held i eligibility rate τ := by
        refine fun r hr hin τ ho hτ => ⟨fun hreprices => ?_, hsteady r hr hin τ ho⟩
        exact hspares ⟨r, hr, hreprices, ho.unsettled (hwf.clocked r hr) hin hτ⟩
      have hstale : healthStaleMinutes db = healthStaleMinutes accrued := hvisits.moved.stale.symm
      exact hedits.steady (hvisits.wellFormed hwf) hstale (hvisits.steady hwf.keyed hspared)
    · obtain ⟨φ, ids, rfl, _⟩ := hedits
      intro e he
      have haccrued := hvisits.fair hwf.keyed hsteady hfair
      rcases mem_expireIn he with ⟨he, _⟩ | ⟨e₀, he₀, _, _, rfl⟩
      · exact haccrued e he
      · exact haccrued e₀ he₀
  | added =>
    refine ⟨fun r hr hin τ ho _ => ?_, hfair⟩
    rcases List.mem_append.mp hr with hr | hr
    · exact hsteady r hr hin τ ho
    · have hearning := hin.earning
      rw [List.mem_singleton.mp hr] at hearning
      exact absurd hearning Eligibility.not_earning_pending
  | others hsame =>
    refine ⟨fun r hr hin τ ho _ => ?_, hsame.ledger ▸ hfair⟩
    have hstale : healthStaleMinutes db' = healthStaleMinutes db := by
      unfold healthStaleMinutes
      rw [hsame.settings]
    exact hsteady r (hsame.proxies ▸ hr) hin τ (hstale ▸ ho)

end Steady

/-! ## Runs -/

section Runs

variable {db₀ db : Db} {h : List (Event × Db)}

/-- What the history says row `i` held at `τ`. -/
def HeldAt (h : List (Event × Db)) (i : Nat) (eligibility : Eligibility) (rate : Nat)
    (τ : Timestamp) : Prop :=
  Held Event.now (Db.Rated i eligibility rate) h τ

/-- The state that an event leaves decides about the time from then on. -/
theorem Db.Steady.advance {ev : Event}
    (h₀ : db.Steady fun i eligibility rate τ => τ < ev.now → HeldAt h i eligibility rate τ) :
    db.Steady (HeldAt ((ev, db) :: h)) := by
  intro r hr hin τ ho
  rcases le_or_gt ev.now τ with hle | hlt
  · exact .inl ⟨hle, r, hr, rfl, rfl, rfl⟩
  · exact .inr ⟨hlt, h₀ r hr hin τ ho hlt⟩

theorem LedgerEntry.Fair.advance {ev : Event} {e : LedgerEntry} (hfair : e.Fair (HeldAt h))
    (hends : e.endedAt ≤ ev.now) : e.Fair (HeldAt ((ev, db) :: h)) := by
  obtain ⟨eligibility, rate, hpaid, hheld⟩ := hfair
  exact ⟨eligibility, rate, hpaid, fun τ hτ => .inr ⟨hτ.2.trans_le hends, hheld τ hτ⟩⟩

theorem Runs.fair (hfresh : db₀.Fresh) (run : Runs db₀ h db) (htimely : Timely h)
    (hspares : Throughout (fun db ev => ¬ ev.PaysBack db) db₀ h) :
    db.Steady (HeldAt h) ∧ ∀ e ∈ db.ledger, e.Fair (HeldAt h) := by
  refine run.invariant (I := fun h db => Timely h →
    Throughout (fun db ev => ¬ ev.PaysBack db) db₀ h →
    db.Steady (HeldAt h) ∧ ∀ e ∈ db.ledger, e.Fair (HeldAt h)) hfresh ?_ ?_ htimely hspares
  · intro _ _
    exact ⟨by simp [Db.Steady, hfresh.proxies], by simp [hfresh.ledger]⟩
  intro h s ev s' hrun hwf ih hexec heffect htimely hspares
  have hends := Runs.ended_timely hfresh (hrun.snoc hexec) htimely
  obtain ⟨hsteady, hfair⟩ := ih htimely.tail hspares.2
  obtain ⟨hsteady', hfair'⟩ := heffect.fair hwf (hspares.head hrun) hsteady hfair
  exact ⟨hsteady'.advance, fun e he => (hfair' e he).advance (hends e he)⟩

/-- In every timely run in which no event changes the rate of an unsettled row, each entry pays the
rate that eligibility and country gave its row at every instant of its interval. -/
theorem paid_at_rate_in_force (hfresh : db₀.Fresh) (run : Runs db₀ h db) (htimely : Timely h)
    (hspares : Throughout (fun db ev => ¬ ev.PaysBack db) db₀ h) :
    ∀ e ∈ db.ledger, ∃ eligibility rate, e.PaidAt rate ∧ ∀ τ, e.Covers τ →
      Held Event.now (Db.Rated e.proxyId eligibility rate) h τ :=
  (run.fair hfresh htimely hspares).2

end Runs

/-! ## Two runs -/

open Scenario in
/-- EarnApp accepted the address `exitIp` in the country `countryCode`. -/
def allowedIn (countryCode exitIp : String) : EarnappResult :=
  { allowedFrom exitIp with countryCode }

open Scenario in
/-- The proxy earns in the US, and is accrued in the minute in which EarnApp finds it in Germany.
Then EarnApp finds it risky. -/
def settledMoves : List Event :=
  [minute 0 (.addProxy 1 (endpoint "192.0.2.1") none),
    minute 1 (.applyHealthResult 1 (liveFrom "198.51.100.7")),
    minute 2 (.applyEarnappResult 1 (allowedIn "US" "198.51.100.7")),
    minute 60 (.applyHealthResult 1 (liveFrom "198.51.100.7")),
    minute 62 .accrueEligibleTime,
    minute 62 (.applyEarnappResult 1 (allowedIn "DE" "198.51.100.7")),
    minute 92 .accrueEligibleTime,
    minute 122 (.applyEarnappResult 1
      { verdict := "BLACKLIST", egressTrusted := some true, exitIp := "198.51.100.7" })]

open Scenario in
theorem paid_at_rate_in_force_settledMoves :
    ((after oneUser settledMoves).ledger.map fun e => (e.startedAt, e.endedAt, e.microUsd)) =
        [(minutes 2, minutes 62, 1388), (minutes 62, minutes 92, 347),
          (minutes 92, minutes 122, 347)] ∧
      ∀ e ∈ (after oneUser settledMoves).ledger, ∃ eligibility rate, e.PaidAt rate ∧
        ∀ τ, e.Covers τ → Held Event.now (Db.Rated e.proxyId eligibility rate)
          (history oneUser settledMoves) τ :=
  ⟨by decide, paid_at_rate_in_force oneUser_fresh (runs oneUser settledMoves) (by decide)
    (by decide)⟩

open Scenario in
/-- The proxy earns without a known country, and an hour later EarnApp finds it in the US. -/
def unsettledMove : List Event :=
  [minute 0 (.addProxy 1 (endpoint "192.0.2.1") none),
    minute 1 (.applyHealthResult 1 (liveFrom "198.51.100.7")),
    minute 2 (.applyEarnappResult 1 (allowedFrom "198.51.100.7")),
    minute 60 (.applyHealthResult 1 (liveFrom "198.51.100.7")),
    minute 62 (.applyEarnappResult 1 (allowedIn "US" "198.51.100.7")),
    minute 63 .accrueEligibleTime]

open Scenario in
/-- The whole hour is paid at the rate of the US. -/
theorem paid_at_later_rate_unsettledMove :
    oneUser.Fresh ∧ Runs oneUser (history oneUser unsettledMove) (after oneUser unsettledMove) ∧
      Timely (history oneUser unsettledMove) ∧
      ((after oneUser unsettledMove).ledger.map fun e => (e.startedAt, e.endedAt, e.microUsd)) =
        [(minutes 2, minutes 63, 1412)] ∧
      Held Event.now (Db.Rated 1 .allow nonUsMonthlyMicroUsd) (history oneUser unsettledMove)
        (minutes 30) ∧
      ¬ ∀ e ∈ (after oneUser unsettledMove).ledger, ∃ eligibility rate, e.PaidAt rate ∧
        ∀ τ, e.Covers τ → Held Event.now (Db.Rated e.proxyId eligibility rate)
          (history oneUser unsettledMove) τ := by
  refine ⟨oneUser_fresh, runs oneUser unsettledMove, by decide, by decide, by decide,
    fun hfair => ?_⟩
  have hentry : ∃ e ∈ (after oneUser unsettledMove).ledger, e.Covers (minutes 30) ∧
      ¬ e.PaidAt nonUsMonthlyMicroUsd := by decide
  obtain ⟨e, he, hcovers, hpaid⟩ := hentry
  obtain ⟨eligibility, rate, hrate, hheld⟩ := hfair e he
  -- at the instant of the entry every row had the lower rate
  have hlower : Held Event.now
      (fun db : Db => ∀ r ∈ db.proxies, r.monthlyRate = nonUsMonthlyMicroUsd)
      (history oneUser unsettledMove) (minutes 30) := by decide
  obtain ⟨x, _, _, ⟨r, hr, _, _, hr'⟩, hall⟩ :=
    (held_and.mpr ⟨hheld _ hcovers, hlower⟩).exists_mem
  exact hpaid (hall r hr ▸ hr' ▸ hrate)

end EarnProxy

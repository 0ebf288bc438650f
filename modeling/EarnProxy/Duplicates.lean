import EarnProxy.Canonical
import EarnProxy.Coverage

/-!
# No payment for time as a duplicate

A duplicate earns nothing, and when it becomes canonical its accrual starts anew. A promotion
restarts its cursor; an election does not, so a duplicate that is elected is paid back to its last
restart. Without such an election no entry covers time as a duplicate.
-/

namespace EarnProxy

/-- Row `i` is a duplicate. -/
def Db.Duplicate (i : Nat) (db : Db) : Prop := ∃ r ∈ db.proxies, r.id = i ∧ r.duplicateOf ≠ none

instance (i : Nat) : DecidablePred (Db.Duplicate i) :=
  fun _ => inferInstanceAs (Decidable (∃ r ∈ _, _))

/-- Row `i` is a duplicate or archived. -/
def Db.Sidelined (i : Nat) (db : Db) : Prop :=
  ∃ r ∈ db.proxies, r.id = i ∧ (r.duplicateOf ≠ none ∨ r.archivedAt ≠ none)

theorem Db.Duplicate.sidelined {i : Nat} {db : Db} (h : db.Duplicate i) : db.Sidelined i := by
  obtain ⟨r, hr, hid, hdup⟩ := h
  exact ⟨r, hr, hid, .inl hdup⟩

/-- The rows `i` and `j` have one trusted exit address. -/
def Db.ShareExit (i j : Nat) (db : Db) : Prop :=
  ∃ r ∈ db.proxies, ∃ r' ∈ db.proxies, r.id = i ∧ r'.id = j ∧ r.exitIp = r'.exitIp ∧
    r.egressAttestationSource ≠ none ∧ r'.egressAttestationSource ≠ none

instance (i j : Nat) : DecidablePred (Db.ShareExit i j) :=
  fun _ => inferInstanceAs (Decidable (∃ r ∈ _, ∃ r' ∈ _, _))

/-- A canonical row in service whose cursor has not passed `τ`. -/
def Proxy.Credible (r : Proxy) (τ : Timestamp) : Prop :=
  r.InService ∧ r.duplicateOf = none ∧ ∀ c ∈ r.accrualCursorAt, c ≤ τ

theorem credible_reaches (now : Timestamp) (db : Db) : Reaches now db Proxy.Credible where
  credited := by
    intro s row user cursor until_ τ _ _ span _ hle _
    refine ⟨span.accruable.inService, span.accruable.2.2.2.1, fun c hc => ?_⟩
    obtain rfl := Option.some.inj (span.start.symm.trans hc)
    exact hle
  forward := by
    rintro r c c' τ hc hle ⟨hin, hsingle, hcursor⟩
    refine ⟨⟨hin.kept, hin.reachable, hin.earning⟩, hsingle, fun d hd => ?_⟩
    obtain rfl := Option.some.inj (hc.symm.trans hd)
    exact hle.trans (hcursor c' rfl)

/-- Without an election that leaves a cursor behind, an edit lets no accrual reach further back. -/
theorem RowEdit.credible {lic : Licence} {settled : Prop} {r r' : Proxy}
    (h : RowEdit lic settled r r') (hsound : r.Sound) (hback : ¬ lic.backpays) {τ : Timestamp}
    (hτ : τ < lic.now) (hcredible : r'.Credible τ) : r.Credible τ := by
  obtain ⟨hin, hsingle, hcursor⟩ := hcredible
  have hnow : r'.accrualCursorAt ≠ some lic.now :=
    fun hc => absurd (hcursor lic.now hc) (not_le.mpr hτ)
  refine ⟨((h.reopen hsound hin).resolve_left hnow).1, ?_, fun c hc => ?_⟩
  · by_contra hdup
    exact (h.release hsound hdup hsingle hin).elim hback hnow
  · rcases h.clocks with ⟨hsame, _⟩ | ⟨_, hc', _⟩
    · exact hcursor c (hsame.trans hc)
    · exact absurd hc' hnow

section Runs

variable {db₀ db : Db} {h : List (Event × Db)}

theorem Runs.clear_sidelined (hfresh : db₀.Fresh) (run : Runs db₀ h db) (htimely : Timely h)
    (hback : History.Throughout (fun db ev => ¬ ev.Backpays db) db₀ h) :
    Clear (fun i _ τ => History.Held Event.now (Db.Sidelined i) h τ) Proxy.Credible db := by
  refine run.invariant (I := fun h db => Timely h →
    History.Throughout (fun db ev => ¬ ev.Backpays db) db₀ h →
    Clear (fun i _ τ => History.Held Event.now (Db.Sidelined i) h τ) Proxy.Credible db)
    hfresh ?_ ?_ htimely hback
  · intro _ _
    exact ⟨by simp [hfresh.ledger], by simp [Unreached, hfresh.proxies]⟩
  · intro h s ev s' hrun hwf hI hexec heffect htimely hback
    have hends := Runs.ended_timely hfresh (hrun.snoc hexec) htimely
    have hwf' : s'.WellFormed := heffect.wellFormed hwf
    have hpast : Clear (fun i _ τ => τ < ev.now ∧ History.Held Event.now (Db.Sidelined i) h τ)
        Proxy.Credible s := (hI htimely.tail hback.2).mono fun _ _ _ h => h.2
    refine Clear.advance ?_ hends ?_
    · cases heffect with
      | proxies hphased =>
        obtain ⟨accrued, hvisits, hedits⟩ := hphased
        refine hedits.clear (hvisits.clear hwf.keyed (credible_reaches _ s) hpast) ?_
        intro r hr r' _ _ hedit τ hτ hpast
        exact hedit.credible ((hvisits.wellFormed hwf).sound r hr) (hback.head hrun) hpast.1 hτ
      | added =>
        refine ⟨hpast.entries, fun r hr τ hτ hheld => ?_⟩
        rcases List.mem_append.mp hr with hr | hr
        · exact hpast.rows r hr τ hτ hheld
        · rw [List.mem_singleton.mp hr] at hτ
          exact absurd (hτ.2.2 ev.now rfl) (not_le.mpr hheld.1)
      | others hsame =>
        exact ⟨hsame.ledger ▸ hpast.entries, fun r hr => hpast.rows r (hsame.proxies ▸ hr)⟩
    · rintro r hr τ ⟨hin, hsingle, _⟩ ⟨r', hr', hid, hsidelined⟩
      rw [hwf'.keyed.eq hr' hr hid] at hsidelined
      exact hsidelined.elim (· hsingle) (· hin.kept)

/-- Where two rows share a trusted address, one of them is sidelined. -/
theorem Runs.shareExit_sidelined (hfresh : db₀.Fresh) (run : Runs db₀ h db) {i j : Nat}
    (hne : i ≠ j) (hshare : db.ShareExit i j) : db.Sidelined i ∨ db.Sidelined j := by
  have hgrouped : Grouped False ∅ db.proxies := run.grouped hfresh nofun
  obtain ⟨r, hr, r', hr', rfl, rfl, hexit, hsource, hsource'⟩ := hshare
  by_contra hnone
  rw [not_or] at hnone
  have hcanonical : ∀ s ∈ db.proxies, s.egressAttestationSource ≠ none → ¬ db.Sidelined s.id →
      s.Canonical := by
    intro s hs hsource hside
    exact ⟨by_contra fun hk => hside ⟨s, hs, rfl, .inr hk⟩, hsource,
      by_contra fun hd => hside ⟨s, hs, rfl, .inl hd⟩⟩
  have heq := hgrouped.canonical_eq hr hr' (hcanonical r hr hsource hnone.1)
    (hcanonical r' hr' hsource' hnone.2) hexit
  exact hne (congrArg Proxy.id heq)

/-- In every timely run without an election that leaves a duplicate's cursor behind, no entry
covers an instant at which its row was a duplicate, and two rows are not credited for an instant at
which they shared a trusted address. -/
theorem duplicate_time_unpaid (hfresh : db₀.Fresh) (run : Runs db₀ h db) (htimely : Timely h)
    (hback : History.Throughout (fun db ev => ¬ ev.Backpays db) db₀ h) :
    (∀ e ∈ db.ledger, ∀ τ, e.Covers τ →
      ¬ History.Held Event.now (Db.Duplicate e.proxyId) h τ) ∧
    ∀ e ∈ db.ledger, ∀ e' ∈ db.ledger, e.proxyId ≠ e'.proxyId → ∀ τ, e.Covers τ → e'.Covers τ →
      ¬ History.Held Event.now (Db.ShareExit e.proxyId e'.proxyId) h τ := by
  have hclear := run.clear_sidelined hfresh htimely hback
  constructor
  · intro e he τ hτ hheld
    exact hclear.entries e he τ hτ (hheld.imp fun _ _ => Db.Duplicate.sidelined)
  · intro e he e' he' hne τ hτ hτ' hheld
    have hside : History.Held Event.now
        (fun db => db.Sidelined e.proxyId ∨ db.Sidelined e'.proxyId) h τ := by
      refine hheld.imp fun x hx hshare => ?_
      obtain ⟨h', run'⟩ := History.Run.recorded run hx
      exact Runs.shareExit_sidelined hfresh run' hne hshare
    rcases History.held_or.mp hside with hside | hside
    · exact hclear.entries e he τ hτ hside
    · exact hclear.entries e' he' τ hτ' hside

end Runs

/-! ## Two runs -/

open Scenario in
/-- Two qualified proxies at one address; the first one earns for an hour. -/
def sharedEarnings : List Event :=
  [minute 0 (.addProxy 1 (endpoint "192.0.2.1") none),
    minute 0 (.addProxy 1 (endpoint "192.0.2.2") none),
    minute 1 (.applyHealthResult 1 (liveFrom "198.51.100.7")),
    minute 2 (.applyEarnappResult 1 (allowedFrom "198.51.100.7")),
    minute 3 (.applyHealthResult 2 (liveFrom "198.51.100.7")),
    minute 4 (.applyEarnappResult 2 (allowedFrom "198.51.100.7")),
    minute 60 (.applyHealthResult 1 (liveFrom "198.51.100.7")),
    minute 61 (.applyHealthResult 2 (liveFrom "198.51.100.7")),
    minute 62 .accrueEligibleTime]

open Scenario in
/-- The canonical proxy dies, and its duplicate is promoted a day later. -/
def promotedEarnings : List Event :=
  sharedEarnings ++
    [minute 70 (.applyHealthResult 1 { status := "dead" }),
      minute 71 (.applyHealthResult 1 { status := "dead" }),
      minute 72 (.applyHealthResult 1 { status := "dead" }),
      minute 1512 (.promoteDuplicateIfDue 1),
      minute 1513 (.applyHealthResult 2 (liveFrom "198.51.100.7")),
      minute 1560 .accrueEligibleTime]

open Scenario in
theorem duplicate_time_unpaid_promotedEarnings :
    ((after oneUser promotedEarnings).ledger.map fun e => (e.proxyId, e.startedAt, e.endedAt)) =
        [(1, minutes 2, minutes 62), (1, minutes 62, minutes 72),
          (2, minutes 1513, minutes 1560)] ∧
      (∀ e ∈ (after oneUser promotedEarnings).ledger, ∀ τ, e.Covers τ →
        ¬ History.Held Event.now (Db.Duplicate e.proxyId) (history oneUser promotedEarnings) τ) ∧
      ∀ e ∈ (after oneUser promotedEarnings).ledger,
        ∀ e' ∈ (after oneUser promotedEarnings).ledger, e.proxyId ≠ e'.proxyId → ∀ τ,
        e.Covers τ → e'.Covers τ → ¬ History.Held Event.now (Db.ShareExit e.proxyId e'.proxyId)
          (history oneUser promotedEarnings) τ :=
  ⟨by decide, duplicate_time_unpaid oneUser_fresh (runs oneUser promotedEarnings) (by decide)
    (by decide)⟩

open Scenario in
/-- The owner archives the canonical proxy, and the election makes its duplicate canonical. -/
def electedEarnings : List Event :=
  sharedEarnings ++ [minute 63 (.archiveProxy 1 1), minute 64 .accrueEligibleTime]

open Scenario in
/-- The elected duplicate is paid for the hour it was a duplicate, and so was the canonical row. -/
theorem duplicate_time_paid_electedEarnings :
    oneUser.Fresh ∧ Runs oneUser (history oneUser electedEarnings) (after oneUser electedEarnings) ∧
      Timely (history oneUser electedEarnings) ∧
      ((after oneUser electedEarnings).ledger.map fun e => (e.proxyId, e.startedAt, e.endedAt)) =
        [(1, minutes 2, minutes 62), (2, minutes 4, minutes 64)] ∧
      (∃ e ∈ (after oneUser electedEarnings).ledger, e.Covers (minutes 30) ∧
        History.Held Event.now (Db.Duplicate e.proxyId) (history oneUser electedEarnings)
          (minutes 30)) ∧
      ∃ e ∈ (after oneUser electedEarnings).ledger, ∃ e' ∈ (after oneUser electedEarnings).ledger,
        e.proxyId ≠ e'.proxyId ∧ e.Covers (minutes 30) ∧ e'.Covers (minutes 30) ∧
        History.Held Event.now (Db.ShareExit e.proxyId e'.proxyId)
          (history oneUser electedEarnings) (minutes 30) :=
  ⟨oneUser_fresh, runs oneUser electedEarnings, by decide, by decide, by decide, by decide⟩

end EarnProxy

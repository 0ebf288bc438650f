import EarnProxy.HealthMachine

/-!
# The maintenance archive

`archive_due_dead_proxies` goes by `continuous_dead_since`. A counted failure sets the clock and a
live result clears it, but a blocked result leaves it running, so a row that went from offline to
blocked resumes the old clock when it fails again.
-/

namespace EarnProxy

open History

/-- Row `i` is offline. -/
def Db.OfflineRow (i : Nat) (db : Db) : Prop := ∃ r ∈ db.proxies, r.id = i ∧ r.status = .offline

instance (i : Nat) : DecidablePred (Db.OfflineRow i) :=
  fun _ => inferInstanceAs (Decidable (∃ r ∈ _, _))

/-- A counted failure that takes a row offline whose dead clock is still running from before. -/
def Event.ResumesDeadClock (db : Db) (ev : Event) : Prop :=
  match ev.op with
  | .applyHealthResult proxyId result => result.branch = .failure ∧
      ∃ row ∈ result.row? db proxyId,
        row.strikesOut = true ∧ row.status ≠ .offline ∧ row.continuousDeadSince ≠ none
  | _ => False

instance (db : Db) (ev : Event) : Decidable (ev.ResumesDeadClock db) := by
  rcases ev with ⟨⟨⟩, now, wall⟩ <;> unfold Event.ResumesDeadClock <;> infer_instance

/-- The clocks of the offline rows: from the instant a clock shows, its row has been offline. -/
def DeadClocks (h : List (Event × Db)) (db : Db) : Prop :=
  ∀ r ∈ db.proxies, r.archivedAt = none → r.status = .offline → ∀ since ∈ r.continuousDeadSince,
    ∀ τ, since ≤ τ → Held Event.now (Db.OfflineRow r.id) h τ

section Runs

variable {db₀ db : Db} {h : List (Event × Db)}

/-- An offline row that was offline before keeps its clock. -/
theorem DeadClocks.kept {ev : Event} {s s' : Db} (hclocks : DeadClocks h s) {r r' : Proxy}
    (hr : r ∈ s.proxies) (hid : r'.id = r.id) (hkept : r.archivedAt = none)
    (hoffline : r.status = .offline) (hr' : r' ∈ s'.proxies) (hoffline' : r'.status = .offline)
    {since τ : Timestamp} (hsince : since ∈ r.continuousDeadSince) (hτ : since ≤ τ) :
    Held Event.now (Db.OfflineRow r'.id) ((ev, s') :: h) τ := by
  rw [held_cons]
  rcases le_or_gt ev.now τ with hle | hlt
  · exact .inl ⟨hle, r', hr', rfl, hoffline'⟩
  · exact .inr ⟨hlt, hid ▸ hclocks r hr hkept hoffline since hsince τ hτ⟩

theorem Runs.dead_clocks (hfresh : db₀.Fresh) (run : Runs db₀ h db)
    (hresumes : Throughout (fun db ev => ¬ ev.ResumesDeadClock db) db₀ h) : DeadClocks h db := by
  revert hresumes
  refine run.invariant (I := fun h db =>
    Throughout (fun db ev => ¬ ev.ResumesDeadClock db) db₀ h → DeadClocks h db) hfresh ?_ ?_
  · intro _ r hr
    simp [hfresh.proxies] at hr
  rintro h s ev s' hrun hwf ih rfl _ hresumes r' hr' hkept hoffline since hsince τ hτ
  have hclocks := ih hresumes.2
  have hnow : ¬ ev.ResumesDeadClock s := hresumes.head hrun
  cases exec_health hwf.keyed ev hr' with
  | @checked row result hop hfound _ hchecked =>
    obtain ⟨hmem, hid, harchived, _⟩ := HealthResult.row?_mem hfound
    have hstatus : (row.observed result (checkerSettings s) ev.now).status = .offline :=
      (congrArg Health.status hchecked.health).symm.trans hoffline
    have hclock : r'.continuousDeadSince =
        (row.observed result (checkerSettings s) ev.now).continuousDeadSince :=
      congrArg Health.continuousDeadSince hchecked.health
    rw [hclock] at hsince
    have hbefore : row.status = .offline → since ∈ row.continuousDeadSince →
        Held Event.now (Db.OfflineRow r'.id) ((ev, exec s ev) :: h) τ := fun hdown hold =>
      hclocks.kept hmem hid.symm harchived hdown hr' hoffline hold hτ
    unfold Proxy.observed at hstatus hsince
    cases hbranch : result.branch with
    | live =>
      rw [hbranch] at hstatus
      cases hstatus
    | blocked =>
      rw [hbranch] at hstatus
      cases hstatus
    | uncertain =>
      rw [hbranch] at hstatus hsince
      exact hbefore hstatus hsince
    | egressUnconfirmed =>
      rw [hbranch] at hstatus hsince
      exact hbefore hstatus hsince
    | failure =>
      simp only [hbranch, Proxy.seenFailing, Proxy.health] at hstatus hsince
      have hsound := hwf.sound row hmem
      by_cases hstrikes : row.strikesOut
      · by_cases hset : row.continuousDeadSince = none
        -- the clock starts with this event
        · obtain rfl : ev.now = since := by simpa [hstrikes, hset] using hsince
          exact .inl ⟨hτ, r', hr', rfl, hoffline⟩
        · refine hbefore ?_ ?_
          · by_contra hnot
            refine hnow ?_
            rw [Event.ResumesDeadClock, hop]
            exact ⟨hbranch, row, hfound, hstrikes, hnot, hset⟩
          · obtain ⟨old, hold⟩ := Option.ne_none_iff_exists'.mp hset
            simpa [hstrikes, hold] using hsince
      · exact (Proxy.nextStatus_offline hsound hstrikes hstatus).elim
  | replaced _ _ hrow =>
    rw [hrow] at hoffline
    cases hoffline
  | @kept r hmem hid _ _ hhealth =>
    have harchived : r.archivedAt = none := (congrArg Health.archivedAt hhealth).symm.trans hkept
    have hstatus : r.status = .offline := (congrArg Health.status hhealth).symm.trans hoffline
    have hclock : r'.continuousDeadSince = r.continuousDeadSince :=
      congrArg Health.continuousDeadSince hhealth
    exact hclocks.kept hmem hid harchived hstatus hr' hoffline (hclock ▸ hsince) hτ
  | archived _ _ _ _ hhealth =>
    have harchived := hkept.symm.trans (congrArg Health.archivedAt hhealth)
    cases harchived
  | added _ _ hrow =>
    rw [hrow] at hoffline
    cases hoffline

/-- In every run in which no counted failure resumes an old dead clock, a row that
`archive_due_dead_proxies` archives has been offline at every instant of the last 24 hours. -/
theorem archived_only_dead (hfresh : db₀.Fresh) (run : Runs db₀ h db)
    (hresumes : Throughout (fun db ev => ¬ ev.ResumesDeadClock db) db₀ h) {ev : Event}
    (hop : ev.op = .archiveDueDeadProxies) {r r' : Proxy} (hr : r ∈ db.proxies)
    (hr' : r' ∈ (exec db ev).proxies) (hid : r'.id = r.id) (hkept : r.archivedAt = none)
    (harchived : r'.archivedAt ≠ none) :
    ∀ τ, ev.now - hours 24 ≤ τ → τ ≤ ev.now → Held Event.now (Db.OfflineRow r.id) h τ := by
  intro τ hτ _
  have hwf : db.WellFormed := Runs.wellFormed hfresh run
  have hdead : r.DeadSince (ev.now - hours 24) := by
    rcases (exec_effect hwf.keyed ev).row hr' with
        ⟨s, hs, hsid, _, hprobed⟩ | ⟨userId, parsed, hnew⟩
    · obtain rfl := hwf.keyed.eq hs hr (hsid.symm.trans hid)
      rcases hprobed.health with hhealth | hobserves
      · exact absurd ((congrArg Health.archivedAt hhealth).trans hkept) harchived
      · have hobserves : ev.Observes db s.id r'.health := hobserves
        rw [Event.Observes, hop] at hobserves
        obtain ⟨d, hd, hdid, hdead, _⟩ := hobserves
        exact hwf.keyed.eq hd hr hdid ▸ hdead
    · exact absurd (hnew ▸ rfl) harchived
  obtain ⟨_, hoffline, since, hsince, hle⟩ := hdead
  exact Runs.dead_clocks hfresh run hresumes r hr hkept hoffline since hsince τ (hle.trans hτ)

end Runs

/-! ## Two runs -/

open Scenario in
/-- Three counted failures, the first at minute `n`. -/
def threeFailures (n : Int) : List Event :=
  [minute n (.applyHealthResult 1 { status := "dead" }),
    minute (n + 5) (.applyHealthResult 1 { status := "dead" }),
    minute (n + 20) (.applyHealthResult 1 { status := "dead" })]

open Scenario in
/-- A proxy dies and stays dead. -/
def deadForADay : List Event :=
  [minute 0 (.addProxy 1 (endpoint "192.0.2.1") none)] ++ threeFailures 1 ++
    [minute 700 (.applyHealthResult 1 { status := "dead" })]

open Scenario in
theorem archived_only_dead_deadForADay :
    let db := after oneUser deadForADay
    let ev := minute 1461 .archiveDueDeadProxies
    ((exec db ev).proxies.map fun r => r.status) = [.archived] ∧
      ∀ r ∈ db.proxies, ∀ τ, minutes 1461 - hours 24 ≤ τ → τ ≤ minutes 1461 →
        Held Event.now (Db.OfflineRow r.id) (history oneUser deadForADay) τ := by
  intro db ev
  refine ⟨by decide, fun r hr τ hτ hτ' => ?_⟩
  have hall : ∀ r ∈ db.proxies, r.archivedAt = none ∧
      ∃ r' ∈ (exec db ev).proxies, r'.id = r.id ∧ r'.archivedAt ≠ none := by decide
  obtain ⟨hkept, r', hr', hid, harchived⟩ := hall r hr
  exact archived_only_dead oneUser_fresh (runs oneUser deadForADay) (by decide) rfl hr hr' hid hkept
    harchived τ hτ hτ'

open Scenario in
/-- A proxy is dead for minutes, then blocked for most of a day, then dead again. -/
def deadThenBlocked : List Event :=
  [minute 0 (.addProxy 1 (endpoint "192.0.2.1") none)] ++ threeFailures 1 ++
    [minute 36 (.applyHealthResult 1 { status := "blocked" })] ++ threeFailures 1430

open Scenario in
/-- The row is archived although it was blocked for more than 23 of the last 24 hours. -/
theorem archived_deadThenBlocked :
    let db := after oneUser deadThenBlocked
    let ev := minute 1461 .archiveDueDeadProxies
    oneUser.Fresh ∧ Runs oneUser (history oneUser deadThenBlocked) db ∧
      Timely (history oneUser deadThenBlocked) ∧
      (db.proxies.map fun r => r.archivedAt.isSome) = [false] ∧
      ((exec db ev).proxies.map fun r => r.archivedAt.isSome) = [true] ∧
      ¬ Held Event.now (Db.OfflineRow 1) (history oneUser deadThenBlocked) (minutes 100) ∧
      minutes 1461 - hours 24 ≤ minutes 100 ∧ minutes 100 ≤ minutes 1461 :=
  ⟨oneUser_fresh, runs oneUser deadThenBlocked, by decide, by decide, by decide, by decide,
    by decide, by decide⟩

end EarnProxy

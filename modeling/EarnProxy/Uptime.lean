import EarnProxy.HealthMachine

/-!
# Uptime

`app/services/uptime.py`, and the law that it rests on: the online and the offline seconds of a row
never add up to more than the time since the row was added or replaced. The checker closes an online
interval in three branches, up to the limit of staleness, and an offline interval on recovery; what
keeps the intervals apart is that a row is never in both, and that a new one opens at the instant of
the result that closed the old one, or later.
-/

namespace EarnProxy

open History

/-! ## What the dashboard shows -/

def monthSeconds : Nat := 30 * 24 * 60 * 60

/-- `_unit`. -/
def durationUnit (value : Nat) (singular plural : String) : String :=
  toString value ++ " " ++ if value = 1 then singular else plural

/-- `format_duration`. -/
def formatDuration (seconds : Nat) : String :=
  if seconds = 0 then "0 hours"
  else
    let months := seconds / monthSeconds
    let days := seconds % monthSeconds / (24 * 60 * 60)
    let hours := seconds % monthSeconds % (24 * 60 * 60) / (60 * 60)
    let minutes := seconds % monthSeconds % (24 * 60 * 60) % (60 * 60) / 60
    let parts :=
      (if months ≠ 0 then [durationUnit months "month" "months"] else []) ++
      (if days ≠ 0 then [durationUnit days "day" "days"] else []) ++
      (if hours ≠ 0 then [durationUnit hours "hour" "hours"] else []) ++
      (if minutes ≠ 0 then [durationUnit minutes "minute" "minutes"] else [])
    if parts = [] then "less than 1 minute" else " ".intercalate parts

/-- The two durations of `UptimeHours` in seconds, before they are divided by 3600 and rounded, and
their labels. -/
structure UptimeHours where
  online : Nat
  offline : Nat
  onlineLabel : String
  offlineLabel : String
  deriving DecidableEq, Repr

/-- Up to when the open online interval is observed. -/
def Proxy.observedUntil (row : Proxy) (onlineSince current : Timestamp)
    (healthStaleMinutes : Option Int) : Timestamp :=
  match healthStaleMinutes, row.lastSuccessAt with
  | none, _ => current
  | some _, none => onlineSince
  | some stale, some success => min current (success + minutes (max 0 stale))

/-- The online and the offline seconds of the interval in progress, as `uptime_hours` adds them. -/
def Proxy.inProgress (row : Proxy) (current : Timestamp) (earningEnabled : Bool)
    (healthStaleMinutes earningOnlineSeconds : Option Int) : Nat × Nat :=
  match row.onlineSince.filter fun _ => earningOnlineSeconds.isNone && row.status.up,
    row.offlineSince.filter fun _ => row.status.down with
  | some since, _ =>
    (if earningEnabled then
      wholeSeconds (row.observedUntil since current healthStaleMinutes - since) else 0, 0)
  | none, some since => (0, wholeSeconds (current - since))
  | none, none => (0, 0)

/-- `uptime_hours`. -/
def uptimeHours (row : Proxy) (current : Timestamp) (earningEnabled : Bool)
    (healthStaleMinutes earningOnlineSeconds : Option Int) : UptimeHours :=
  let recorded := match earningOnlineSeconds with
    | some seconds => seconds.toNat
    | none => row.accumulatedOnlineSeconds
  let added := row.inProgress current earningEnabled healthStaleMinutes earningOnlineSeconds
  let online := (if earningEnabled then recorded else 0) + added.1
  let offline := row.accumulatedOfflineSeconds + added.2
  { online, offline, onlineLabel := formatDuration online
    offlineLabel := formatDuration offline }

/-! ## The meter -/

/-- When a row was added or replaced, and when a health result last reached it. -/
structure Service where
  since : Timestamp
  last : Timestamp
  deriving DecidableEq, Repr

/-- The accumulated seconds of both kinds. -/
def Health.metered (s : Health) : Nat := s.accumulatedOnlineSeconds + s.accumulatedOfflineSeconds

/-- The accumulated seconds fit in front of the interval that is open, and in the time of
service. -/
structure Health.Conserved (s : Health) (l : Service) : Prop where
  total : seconds s.metered ≤ l.last - l.since
  online : ∀ since ∈ s.onlineSince, since ≤ l.last ∧ seconds s.metered ≤ since - l.since
  offline : ∀ since ∈ s.offlineSince, since ≤ l.last ∧ seconds s.metered ≤ since - l.since

/-- A closed interval fits between its ends. -/
theorem seconds_closed {n : Nat} {born since until_ current : Int}
    (hn : seconds n ≤ since - born) (hsince : since ≤ current) (huntil : until_ ≤ current) :
    seconds (n + wholeSeconds (until_ - since) : Nat) ≤ current - born := by
  unfold seconds wholeSeconds at *
  omega

/-- Seconds that fit in the time of service still fit in it later. -/
theorem Health.Conserved.later {s : Health} {l : Service} (h : s.Conserved l) {current : Timestamp}
    (hcurrent : l.last ≤ current) : s.Conserved { l with last := current } where
  total := h.total.trans (Int.sub_le_sub_right hcurrent l.since)
  online := fun since hsince => (h.online since hsince).imp_left fun hle => hle.trans hcurrent
  offline := fun since hsince => (h.offline since hsince).imp_left fun hle => hle.trans hcurrent

theorem Health.Conserved.initial {s : Health} {at_ : Timestamp} (hcounters : s.metered = 0)
    (honline : s.onlineSince = none) (hoffline : s.offlineSince = none) :
    s.Conserved ⟨at_, at_⟩ where
  total := by simp [hcounters, seconds]
  online := by simp [honline]
  offline := by simp [hoffline]

/-! ## What a result does to the meter -/

section Result

variable {row : Proxy} {l : Service} {current : Timestamp}

theorem ProxyStatus.not_down_of_up {s : ProxyStatus} (h : s.up) : s.down = false := by
  cases s <;> first | rfl | cases h

theorem Health.Consistent.offlineSince {row : Proxy} (h : row.health.Consistent)
    (hup : row.status.up) : row.offlineSince = none := by
  refine h.up ?_
  cases hs : row.status <;> simp_all [ProxyStatus.up, Proxy.health]

theorem Health.Consistent.onlineSince {row : Proxy} (h : row.health.Consistent)
    (hdown : row.status.down) : row.onlineSince = none := by
  refine h.down ?_
  cases hs : row.status <;> simp_all [ProxyStatus.down, Proxy.health]

/-- An online interval that is closed at a result ends by then. -/
theorem Health.Conserved.closeOnlineInterval (h : row.health.Conserved l)
    (hcurrent : l.last ≤ current) (staleMinutes : Int) :
    seconds (closeOnlineInterval row staleMinutes current + row.accumulatedOfflineSeconds : Nat) ≤
      current - l.since := by
  have htotal := (h.later hcurrent).total
  unfold EarnProxy.closeOnlineInterval
  split
  · rename_i since success hsince hsuccess
    obtain ⟨hlast, hmetered⟩ := h.online since hsince
    rw [Nat.add_right_comm]
    exact seconds_closed hmetered (hlast.trans hcurrent) (Int.min_le_left _ _)
  · exact htotal

/-- A live result closes the interval that was open, if it closes any. -/
theorem Health.Conserved.seenLive (h : row.health.Conserved l) (hconsistent : row.health.Consistent)
    (hcurrent : l.last ≤ current) (result : HealthResult) (settings : CheckerSettings) :
    (row.seenLive row result (observeLive row result settings.healthStaleMinutes current) settings
      current).health.Conserved { l with last := current } := by
  set o := observeLive row result settings.healthStaleMinutes current with ho
  have hlater := h.later hcurrent
  have hrecovered : o.recoveredFromOffline = row.status.down := rfl
  have hstale : o.staleRecovery → row.status.up := fun hs => (Bool.and_eq_true_iff.mp hs).1
  set s := (row.seenLive row result o settings current).health with hs
  have htotal : seconds s.metered ≤ current - l.since := by
    by_cases hs : o.staleRecovery
    · have hnot : row.status.down = false := ProxyStatus.not_down_of_up (hstale hs)
      simpa [s, Health.metered, Proxy.seenLive, Proxy.health, hs, hrecovered, hnot] using
        h.closeOnlineInterval hcurrent settings.healthStaleMinutes
    · by_cases hdown : row.status.down
      · cases hsince : row.offlineSince with
        | none =>
          simpa [s, Health.metered, Proxy.seenLive, Proxy.health, hs, hrecovered, hdown,
            hsince] using hlater.total
        | some since =>
          obtain ⟨hlast, hmetered⟩ := h.offline since hsince
          have hclosed := seconds_closed hmetered (hlast.trans hcurrent) (le_refl current)
          simpa [s, Health.metered, Proxy.seenLive, Proxy.health, hs, hrecovered, hdown, hsince,
            Nat.add_assoc] using hclosed
      · simpa [s, Health.metered, Proxy.seenLive, Proxy.health, hs, hrecovered, hdown] using
          hlater.total
  refine ⟨htotal, fun since hsince => ?_, by simp [s, Proxy.seenLive, Proxy.health]⟩
  cases hrestart : o.staleRecovery || o.unobservedRecovery with
  | true =>
    obtain rfl : current = since := by
      simpa [s, Proxy.seenLive, Proxy.health, hrestart] using hsince
    exact ⟨le_refl _, htotal⟩
  | false =>
    cases honline : row.onlineSince with
    | none =>
      obtain rfl : current = since := by
        simpa [s, Proxy.seenLive, Proxy.health, hrestart, honline] using hsince
      exact ⟨le_refl _, htotal⟩
    | some opened =>
      -- the interval that was open stays open, so the row was not down and nothing is closed
      obtain rfl : opened = since := by
        simpa [s, Proxy.seenLive, Proxy.health, hrestart, honline] using hsince
      have hnot : row.status.down = false := by
        by_contra hdown
        simp [hconsistent.onlineSince (by simpa using hdown)] at honline
      have hfresh : o.staleRecovery = false := (Bool.or_eq_false_iff.mp hrestart).1
      simpa [s, Health.metered, Proxy.seenLive, Proxy.health, hfresh, hrecovered, hnot] using
        hlater.online opened honline

/-- A blocked result closes the online interval of a row that was up. -/
theorem Health.Conserved.seenBlocked (h : row.health.Conserved l)
    (hconsistent : row.health.Consistent) (hcurrent : l.last ≤ current)
    (settings : CheckerSettings) :
    (row.seenBlocked row settings current).health.Conserved { l with last := current } := by
  have hlater := h.later hcurrent
  set s := (row.seenBlocked row settings current).health with hs
  have htotal : seconds s.metered ≤ current - l.since := by
    by_cases hup : row.status.up
    · simpa [s, Health.metered, Proxy.seenBlocked, Proxy.health, hup] using
        h.closeOnlineInterval hcurrent settings.healthStaleMinutes
    · simpa [s, Health.metered, Proxy.seenBlocked, Proxy.health, hup] using hlater.total
  refine ⟨htotal, by simp [s, Proxy.seenBlocked, Proxy.health], fun since hsince => ?_⟩
  cases hoffline : row.offlineSince with
  | none =>
    obtain rfl : current = since := by
      simpa [s, Proxy.seenBlocked, Proxy.health, hoffline] using hsince
    exact ⟨le_refl _, htotal⟩
  | some opened =>
    -- the row was down already: it keeps the older interval
    obtain rfl : opened = since := by
      simpa [s, Proxy.seenBlocked, Proxy.health, hoffline] using hsince
    have hnot : row.status.up = false := by
      by_contra hup
      simp [hconsistent.offlineSince (by simpa using hup)] at hoffline
    simpa [s, Health.metered, Proxy.seenBlocked, Proxy.health, hnot] using
      hlater.offline opened hoffline

/-- A counted failure closes the online interval of a row that was up at the third strike. -/
theorem Health.Conserved.seenFailing (h : row.health.Conserved l)
    (hconsistent : row.health.Consistent) (hcurrent : l.last ≤ current) (result : HealthResult)
    (settings : CheckerSettings) :
    (row.seenFailing row result settings current).health.Conserved { l with last := current } := by
  have hlater := h.later hcurrent
  set s := (row.seenFailing row result settings current).health with hs
  have htotal : seconds s.metered ≤ current - l.since := by
    by_cases hcloses : row.strikesOut && row.status.up
    · simpa [s, Health.metered, Proxy.seenFailing, Proxy.health, hcloses] using
        h.closeOnlineInterval hcurrent settings.healthStaleMinutes
    · simpa [s, Health.metered, Proxy.seenFailing, Proxy.health, hcloses] using hlater.total
  refine ⟨htotal, fun since hsince => ?_, fun since hsince => ?_⟩
  · cases hdown : row.strikesOut || row.status == .blocked with
    | true => simp [s, Proxy.seenFailing, Proxy.health, hdown] at hsince
    | false =>
      have hstrikes : row.strikesOut = false := (Bool.or_eq_false_iff.mp hdown).1
      have honline : row.onlineSince = some since := by
        simpa [s, Proxy.seenFailing, Proxy.health, hdown] using hsince
      simpa [s, Health.metered, Proxy.seenFailing, Proxy.health, hstrikes] using
        hlater.online since honline
  · cases hoffline : row.offlineSince with
    | none =>
      obtain rfl : current = since := by
        have hsince' := hsince
        simp only [s, Proxy.seenFailing, Proxy.health, hoffline] at hsince'
        grind
      exact ⟨le_refl _, htotal⟩
    | some opened =>
      obtain rfl : opened = since := by
        have hsince' := hsince
        simp only [s, Proxy.seenFailing, Proxy.health, hoffline] at hsince'
        grind
      have hnot : row.status.up = false := by
        by_contra hup
        simp [hconsistent.offlineSince (by simpa using hup)] at hoffline
      simpa [s, Health.metered, Proxy.seenFailing, Proxy.health, hnot] using
        hlater.offline opened hoffline

/-- Every result keeps the meter within the time of service. -/
theorem Health.Conserved.observed (h : row.health.Conserved l) (hconsistent : row.health.Consistent)
    (hcurrent : l.last ≤ current) (result : HealthResult) (settings : CheckerSettings) :
    (row.observed result settings current).Conserved { l with last := current } := by
  unfold Proxy.observed
  cases result.branch with
  | live => exact h.seenLive hconsistent hcurrent result settings
  | uncertain => exact h.later hcurrent
  | egressUnconfirmed => exact h.later hcurrent
  | blocked => exact h.seenBlocked hconsistent hcurrent settings
  | failure => exact h.seenFailing hconsistent hcurrent result settings

/-- An archived row keeps its meter. -/
theorem Health.Conserved.archived (h : row.health.Conserved l) (at_ : Timestamp) :
    (row.archived at_).health.Conserved l :=
  ⟨h.total, h.online, h.offline⟩

/-- What the dashboard adds for the interval in progress fits in, too. -/
theorem Health.Conserved.inProgress (h : row.health.Conserved l) {now : Timestamp}
    (hnow : l.last ≤ now) (earningEnabled : Bool)
    (healthStaleMinutes earningOnlineSeconds : Option Int) :
    let added := row.inProgress now earningEnabled healthStaleMinutes earningOnlineSeconds
    seconds (row.accumulatedOnlineSeconds + row.accumulatedOfflineSeconds + (added.1 + added.2) :
      Nat) ≤ now - l.since := by
  have htotal : seconds (row.accumulatedOnlineSeconds + row.accumulatedOfflineSeconds : Nat) ≤
      now - l.since := (h.later hnow).total
  unfold Proxy.inProgress
  split
  · rename_i since hopen
    obtain ⟨honline, _⟩ := Option.filter_eq_some_iff.mp hopen
    obtain ⟨hlast, hmetered⟩ := h.online since honline
    cases earningEnabled with
    | false => simpa using htotal
    | true =>
      have huntil : row.observedUntil since now healthStaleMinutes ≤ now := by
        unfold Proxy.observedUntil
        split
        · exact le_refl now
        · exact hlast.trans hnow
        · exact Int.min_le_left _ _
      exact seconds_closed hmetered (hlast.trans hnow) huntil
  · rename_i since _ hopen
    obtain ⟨hoffline, _⟩ := Option.filter_eq_some_iff.mp hopen
    obtain ⟨hlast, hmetered⟩ := h.offline since hoffline
    simpa [Health.metered, Proxy.health] using
      seconds_closed hmetered (hlast.trans hnow) (le_refl now)
  · simpa using htotal

end Result

/-! ## Runs in which the settings change -/

/-- A call of a service, or new settings from an admin. -/
inductive Turn where
  | call (ev : Event)
  | configure (settings : Settings)
  deriving DecidableEq, Repr

def Db.turn (db : Db) : Turn → Db
  | .call ev => exec db ev
  | .configure settings => { db with settings }

/-- The turns of `h`, newest first, lead from `db₀` to `db`. -/
def Turns (db₀ : Db) (h : List (Turn × Db)) (db : Db) : Prop :=
  History.Run (fun db turn db' => db.turn turn = db') db₀ h db

/-- Row `i` is there after the event and was not there before it. -/
def Event.Adds (db : Db) (ev : Event) (i : Nat) : Prop :=
  db.proxy? i = none ∧ (exec db ev).proxy? i ≠ none

instance (db : Db) (ev : Event) (i : Nat) : Decidable (ev.Adds db i) :=
  inferInstanceAs (Decidable (_ ∧ _))

/-- The service of row `i`: it begins when the row is added or replaced. -/
def service? (db₀ : Db) (i : Nat) : List (Turn × Db) → Option Service
  | [] => none
  | (.configure _, _) :: h => service? db₀ i h
  | (.call ev, _) :: h =>
    let db := current db₀ h
    if ev.Adds db i ∨ ev.Replaces db i then some ⟨ev.now, ev.now⟩
    else if (ev.healthBranch? db i).isSome then
      (service? db₀ i h).map fun l => { l with last := ev.now }
    else service? db₀ i h

/-- A health result that is applied to row `i` comes no earlier than the last one, and no earlier
than the beginning of its service. -/
def Turn.InOrder (db₀ : Db) (i : Nat) (h : List (Turn × Db)) (db : Db) : Turn → Prop
  | .call ev => (ev.healthBranch? db i).isSome → ∀ l ∈ service? db₀ i h, l.last ≤ ev.now
  | .configure _ => True

instance (db₀ : Db) (i : Nat) (h : List (Turn × Db)) (db : Db) (turn : Turn) :
    Decidable (turn.InOrder db₀ i h db) := by
  rcases turn with ⟨⟩ <;> unfold Turn.InOrder <;> infer_instance

/-- The health results of row `i` come at nondecreasing times. -/
def ResultsInOrder (db₀ : Db) (i : Nat) (h : List (Turn × Db)) : Prop :=
  Abides (fun h db turn => turn.InOrder db₀ i h db) db₀ h

instance (db₀ : Db) (i : Nat) (h : List (Turn × Db)) : Decidable (ResultsInOrder db₀ i h) :=
  inferInstanceAs (Decidable (Abides _ _ _))

/-- The service of row `i` after a call. -/
theorem service?_call {db₀ db db' : Db} {h : List (Turn × Db)} {ev : Event} {i : Nat}
    (turns : Turns db₀ h db) : service? db₀ i ((.call ev, db') :: h) =
      if ev.Adds db i ∨ ev.Replaces db i then some ⟨ev.now, ev.now⟩
      else if (ev.healthBranch? db i).isSome then
        (service? db₀ i h).map fun l => { l with last := ev.now }
      else service? db₀ i h := by
  rw [← turns.current_eq]
  rfl

/-- A row that was there is not added. -/
theorem Event.not_adds {db : Db} {ev : Event} {r : Proxy} (hr : r ∈ db.proxies) :
    ¬ ev.Adds db r.id :=
  fun h => Table.lookup_eq_none.mp h.1 r hr rfl

section Turns

variable {db₀ db : Db} {h : List (Turn × Db)}

/-- The rows of a database whose health columns go together. -/
structure Db.Monitored (db : Db) : Prop extends db.WellFormed where
  consistent : ∀ r ∈ db.proxies, r.archivedAt = none → r.health.Consistent

theorem Turns.monitored (hfresh : db₀.Fresh) (turns : Turns db₀ h db) : db.Monitored := by
  refine turns.always (P := Db.Monitored) ⟨hfresh.wellFormed, by simp [hfresh.proxies]⟩ ?_
  rintro s turn s' hs rfl
  cases turn with
  | configure settings => exact ⟨⟨hs.keyed, hs.sound, hs.clocked, hs.owned⟩, hs.consistent⟩
  | call ev =>
    refine ⟨(exec_effect hs.keyed ev).wellFormed hs.toWellFormed, fun r' hr' hkept => ?_⟩
    exact (exec_health hs.keyed ev hr').consistent hs.consistent hkept

/-- A call keeps the meter of every row within its time of service. -/
theorem Turns.call_conserved (hfresh : db₀.Fresh) (turns : Turns db₀ h db) {ev : Event}
    (hrows : ∀ r ∈ db.proxies, ResultsInOrder db₀ r.id h →
      ∃ l, service? db₀ r.id h = some l ∧ r.health.Conserved l) {r' : Proxy}
    (hr' : r' ∈ (exec db ev).proxies)
    (horder : ResultsInOrder db₀ r'.id ((.call ev, exec db ev) :: h)) :
    ∃ l, service? db₀ r'.id ((.call ev, exec db ev) :: h) = some l ∧ r'.health.Conserved l := by
  have hmonitored := turns.monitored hfresh
  rw [service?_call turns]
  cases exec_health hmonitored.keyed ev hr' with
  | @checked row result hop hfound hbranch hchecked =>
    obtain ⟨hmem, hid, harchived, _⟩ := HealthResult.row?_mem hfound
    have hstays : ¬ ev.Replaces db r'.id := by simp [Event.Replaces, hop]
    obtain ⟨l, hl, hconserved⟩ := hrows row hmem (hid ▸ horder.2)
    have hcurrent : l.last ≤ ev.now :=
      Abides.head horder turns (by simp [hbranch]) l (hid ▸ hl)
    rw [if_neg (not_or.mpr ⟨hid ▸ Event.not_adds hmem, hstays⟩), if_pos (by simp [hbranch]),
      ← hid, hl]
    refine ⟨_, rfl, hchecked.health ▸ ?_⟩
    exact hconserved.observed (hmonitored.consistent row hmem harchived) hcurrent result _
  | replaced _ hreplaces hrow =>
    rw [if_pos (.inr hreplaces), hrow]
    exact ⟨_, rfl, .initial rfl rfl rfl⟩
  | @kept r hmem hid hbranch hstays hhealth =>
    rw [if_neg (not_or.mpr ⟨hid ▸ Event.not_adds hmem, hstays⟩), if_neg (by simp [hbranch]), hid,
      hhealth]
    exact hrows r hmem (hid ▸ horder.2)
  | @archived r hmem hid hbranch hstays hhealth =>
    rw [if_neg (not_or.mpr ⟨hid ▸ Event.not_adds hmem, hstays⟩), if_neg (by simp [hbranch]), hid,
      hhealth]
    obtain ⟨l, hl, hconserved⟩ := hrows r hmem (hid ▸ horder.2)
    exact ⟨l, hl, hconserved.archived ev.now⟩
  | @added userId parsed _ _ hrow =>
    have hadds : ev.Adds db r'.id := by
      refine ⟨Table.lookup_eq_none.mpr fun r hr => ?_, fun hnone => ?_⟩
      · rw [hrow]
        exact newProxy_fresh hr
      · exact Table.lookup_eq_none.mp hnone r' hr' rfl
    rw [if_pos (.inl hadds), hrow]
    exact ⟨_, rfl, .initial rfl rfl rfl⟩

theorem Turns.conserved (hfresh : db₀.Fresh) (turns : Turns db₀ h db) :
    ∀ r ∈ db.proxies, ResultsInOrder db₀ r.id h →
      ∃ l, service? db₀ r.id h = some l ∧ r.health.Conserved l := by
  refine turns.invariant (I := fun h db => ∀ r ∈ db.proxies, ResultsInOrder db₀ r.id h →
    ∃ l, service? db₀ r.id h = some l ∧ r.health.Conserved l) (by simp [hfresh.proxies]) ?_
  rintro h s turn s' hturns ih rfl r' hr' horder
  cases turn with
  | configure settings => exact ih r' hr' horder.2
  | call ev => exact Turns.call_conserved hfresh hturns ih hr' horder

/-- Uptime is conserved. In every run, whatever the settings along the way, the accumulated online
and offline seconds of a row and the seconds that `uptime_hours` adds for the interval in progress
fit between the addition or replacement of the row and `now`. -/
theorem uptime_conserved (hfresh : db₀.Fresh) (turns : Turns db₀ h db) {r : Proxy}
    (hr : r ∈ db.proxies) (horder : ResultsInOrder db₀ r.id h) :
    ∃ l, service? db₀ r.id h = some l ∧ ∀ now, l.last ≤ now →
      ∀ (earningEnabled : Bool) (healthStaleMinutes : Option Int),
        (∀ earningOnlineSeconds : Option Int,
          let added := r.inProgress now earningEnabled healthStaleMinutes earningOnlineSeconds
          seconds (r.accumulatedOnlineSeconds + r.accumulatedOfflineSeconds +
            (added.1 + added.2) : Nat) ≤ now - l.since) ∧
        let uptime := uptimeHours r now earningEnabled healthStaleMinutes none
        seconds (uptime.online + uptime.offline : Nat) ≤ now - l.since := by
  obtain ⟨l, hl, hconserved⟩ := turns.conserved hfresh r hr horder
  refine ⟨l, hl,
    fun now hnow earningEnabled healthStaleMinutes => ⟨fun earningOnlineSeconds => ?_, ?_⟩⟩
  · exact hconserved.inProgress hnow earningEnabled healthStaleMinutes earningOnlineSeconds
  · have hadded := hconserved.inProgress hnow earningEnabled healthStaleMinutes none
    unfold uptimeHours seconds at *
    cases earningEnabled <;> simp only [Bool.false_eq_true, if_true, if_false] at hadded ⊢ <;> omega

open Scenario in
/-- Online, stale, live again, blocked, failing until it is offline, and live. The limit of
staleness changes while the row is online. -/
def uptimeOfMixedRun : List Turn :=
  [.call (minute 0 (.addProxy 1 (endpoint "192.0.2.1") none)),
    .call (minute 1 (.applyHealthResult 1 (liveFrom "198.51.100.7"))),
    .configure { healthStaleMinutes := some 90 },
    .call (minute 101 (.applyHealthResult 1 (liveFrom "198.51.100.7"))),
    .call (minute 161 (.applyHealthResult 1 { status := "blocked" })),
    .call (minute 221 (.applyHealthResult 1 { status := "dead" })),
    .call (minute 226 (.applyHealthResult 1 { status := "dead" })),
    .call (minute 241 (.applyHealthResult 1 { status := "dead" })),
    .call (minute 301 (.applyHealthResult 1 (liveFrom "198.51.100.7")))]

open Scenario in
theorem uptime_conserved_uptimeOfMixedRun :
    let h := replay Db.turn oneUser uptimeOfMixedRun
    let db := current oneUser h
    (db.proxies.map fun r => (r.id, r.accumulatedOnlineSeconds, r.accumulatedOfflineSeconds,
        r.inProgress (minutes 331) true (some 120) none)) = [(1, 9000, 8400, 1800, 0)] ∧
      service? oneUser 1 h = some ⟨minutes 0, minutes 301⟩ ∧
      ∀ r ∈ db.proxies, ∃ l, service? oneUser r.id h = some l ∧ ∀ now, l.last ≤ now →
        ∀ (earningEnabled : Bool) (healthStaleMinutes : Option Int),
          (∀ earningOnlineSeconds : Option Int,
            let added := r.inProgress now earningEnabled healthStaleMinutes earningOnlineSeconds
            seconds (r.accumulatedOnlineSeconds + r.accumulatedOfflineSeconds +
              (added.1 + added.2) : Nat) ≤ now - l.since) ∧
          let uptime := uptimeHours r now earningEnabled healthStaleMinutes none
          seconds (uptime.online + uptime.offline : Nat) ≤ now - l.since := by
  refine ⟨by decide, by decide, fun r hr => ?_⟩
  have hid :
      ∀ r ∈ (current oneUser (replay Db.turn oneUser uptimeOfMixedRun)).proxies, r.id = 1 := by
    decide
  have horder : ResultsInOrder oneUser 1 (replay Db.turn oneUser uptimeOfMixedRun) := by decide
  exact uptime_conserved oneUser_fresh (run_replay _ _ _) hr (hid r hr ▸ horder)

end Turns

end EarnProxy

import EarnProxy.Canonical
import EarnProxy.Swap.Moves
import EarnProxy.Swap.Qualify

/-!
# `_raw_rows` of `app/routes/internal_api.py`

The list of the distribution API: contributor rows, then rows of the provider. The contributor rows
are canonical, so their addresses differ; a row of the provider is the first live one at its
address, and there is no canonical contributor row at it. The triggers by which the proxies reach
the provider tables write columns of the qualification runner, whose writes are arbitrary in a run.
-/

namespace EarnProxy

/-- The settings of the list; a toggle is on when its text is `1`. -/
structure ApiSettings where
  includeAllow : Bool := true
  includeRisk : Bool := true
  distributionEnabled : Bool := false
  deriving DecidableEq, Repr

def ApiSettings.enabled (api : ApiSettings) : List Eligibility :=
  (if api.includeAllow then [.allow] else []) ++ (if api.includeRisk then [.risk] else [])

/-- `value BETWEEN cutoff AND future_cutoff`. -/
def recorded (value : Option Timestamp) (cutoff now : Timestamp) : Prop :=
  ∃ t ∈ value, cutoff ≤ t ∧ t ≤ now + seconds 60

instance (value : Option Timestamp) (cutoff now : Timestamp) :
    Decidable (recorded value cutoff now) :=
  inferInstanceAs (Decidable (∃ t ∈ value, _))

/-- `stale_cutoff`. -/
def staleCutoff (db : Db) (now : Timestamp) : Timestamp :=
  now - minutes (checkerSettings db).healthStaleMinutes

/-- `dashboard_cutoff`. -/
def dashboardCutoff (provider : Swap.Db) (now : Timestamp) : Timestamp :=
  now - seconds (max 60 (provider.settings.dashboardMaxAgeSeconds.read 900))

/-- The text is there, and `trim` leaves something of it. -/
def filled (text : Option String) : Prop := ∃ t ∈ text, Text.trimBlanks t ≠ ""

instance (text : Option String) : Decidable (filled text) :=
  inferInstanceAs (Decidable (∃ t ∈ text, _))

/-- The `WHERE` clause of the first query. -/
def Proxy.Distributable (db : Db) (enabled : List Eligibility) (now : Timestamp) (r : Proxy) :
    Prop :=
  r.archivedAt = none ∧ r.status = .online ∧ r.duplicateOf = none ∧ r.eligibility ∈ enabled ∧
  (∃ u ∈ db.users, u.id = r.userId ∧ u.status = .active) ∧ filled r.exitText ∧
  r.egressAttestationSource ≠ none ∧ recorded r.lastSuccessAt (staleCutoff db now) now

instance (db : Db) (enabled : List Eligibility) (now : Timestamp) (r : Proxy) :
    Decidable (r.Distributable db enabled now) := inferInstanceAs (Decidable (_ ∧ _))

namespace Swap

/-- The joined row of the subscription. -/
def Subscription.Serves (s : Subscription) : Prop :=
  s.missingAt = none ∧ (s.status = "active" ∨ s.status = "ready")

instance (s : Subscription) : Decidable s.Serves := inferInstanceAs (Decidable (_ ∧ _))

/-- The columns of the dashboard. -/
def Assignment.Attested (a : Assignment) (cutoff now : Timestamp) : Prop :=
  filled a.dashboardAssignmentId ∧ a.dashboardSource = "provider_dashboard" ∧
  a.dashboardEligible = some true ∧ (∃ n ∈ a.dashboardConnections, 0 ≤ n ∧ n < 1000) ∧
  recorded a.dashboardObservedAt cutoff now

instance (a : Assignment) (cutoff now : Timestamp) : Decidable (a.Attested cutoff now) :=
  inferInstanceAs (Decidable (_ ∧ _))

/-- The row may speak for its address: no contributor does. -/
def Assignment.Unclaimed (proxies : List Proxy) (a : Assignment) : Prop :=
  ¬ ∃ r ∈ proxies, r.archivedAt = none ∧ r.exitText = a.exitIp ∧ r.duplicateOf = none ∧
    r.egressAttestationSource ≠ none

instance (proxies : List Proxy) (a : Assignment) : Decidable (a.Unclaimed proxies) :=
  inferInstanceAs (Decidable (¬ ∃ r ∈ proxies, _))

/-- `SELECT MIN(pa2.id)`: the first live row that was verified at the address. -/
def Db.firstLive (provider : Db) (exitIp : Option String) : Option Nat :=
  ((provider.assignments.filter fun b => decide (b.missingAt = none ∧ b.exitIp = exitIp ∧
    b.exitIp ≠ none ∧ b.liveStatus = "live" ∧ b.egressVerifiedAt ≠ none)).map Assignment.id).min?

/-- The `WHERE` clause of the second query. -/
def Assignment.Distributable (proxies : List Proxy) (provider : Db) (enabled : List Eligibility)
    (stale dashboard now : Timestamp) (a : Assignment) : Prop :=
  (a.missingAt = none ∧ a.liveStatus = "live" ∧ filled a.exitIp ∧
    recorded a.egressVerifiedAt stale now ∧ a.Unclaimed proxies ∧
    a.id = (provider.firstLive a.exitIp).getD a.id) ∧
  (∃ s ∈ provider.subscription? a.subscriptionId, s.Serves) ∧ a.InUse ∧
  a.qualification ∈ enabled.map Eligibility.text ∧ a.providerEligible = true ∧
  (a.protocol = "http" ∨ a.protocol = "socks5") ∧ a.distributionEnabled = true ∧
  a.duplicateEgress = false ∧ a.Attested dashboard now ∧ recorded a.lastCheckedAt stale now ∧
  (∀ t ∈ a.replacementReadyAt, t ≤ now) ∧
  ¬ ∃ j ∈ provider.jobs, j.oldAssignmentId = some a.id ∧ j.state.Active

instance (proxies : List Proxy) (provider : Db) (enabled : List Eligibility)
    (stale dashboard now : Timestamp) (a : Assignment) :
    Decidable (a.Distributable proxies provider enabled stale dashboard now) :=
  inferInstanceAs (Decidable (_ ∧ _))

end Swap

/-- An entry of the list. -/
inductive RawRow where
  | contributor (row : Proxy)
  | provider (row : Swap.Assignment)
  deriving DecidableEq, Repr

/-- The stored `exit_ip`. -/
def RawRow.exitIp : RawRow → Option String
  | .contributor r => r.exitText
  | .provider a => a.exitIp

/-- What the loop over the rows of the provider keeps. An expiry that raises ends the request; here
its row is left out. -/
def Swap.Assignment.Usable (isGlobal : IpAddress → Bool) (provider : Swap.Db) (now : Timestamp)
    (a : Swap.Assignment) : Prop :=
  (∀ s ∈ provider.subscription? a.subscriptionId, Swap.expiryIsPast s.expiresAt now = .ok false) ∧
    normalizeExitIp isGlobal (a.exitIp.getD "") ≠ "" ∧ a.username.global ≠ none ∧
    a.password.global ≠ none

instance (isGlobal : IpAddress → Bool) (provider : Swap.Db) (now : Timestamp)
    (a : Swap.Assignment) : Decidable (a.Usable isGlobal provider now) :=
  inferInstanceAs (Decidable (_ ∧ _))

/-- `ORDER BY id`. -/
def orderById {α : Type} (id : α → Nat) (rows : List α) : List α :=
  rows.insertionSort fun r r' => id r ≤ id r'

/-- `_raw_rows`. Whether the credentials of a contributor row can be decrypted is left open. -/
def rawRows (db : Db) (provider : Swap.Db) (api : ApiSettings) (isGlobal : IpAddress → Bool)
    (reveals : Proxy → Bool) (now : Timestamp) : List RawRow :=
  let enabled := api.enabled
  if enabled = [] then []
  else
    let contributors := (orderById Proxy.id db.proxies).filter fun r =>
      decide (r.Distributable db enabled now) && reveals r
    let providers := (orderById Swap.Assignment.id provider.assignments).filter fun a =>
      decide (a.Distributable db.proxies provider enabled (staleCutoff db now)
        (dashboardCutoff provider now) now) && decide (a.Usable isGlobal provider now)
    contributors.map .contributor ++
      (if api.distributionEnabled then providers.map .provider else [])

section Distinct

variable {db : Db} {provider : Swap.Db} {enabled : List Eligibility}

theorem filled_ne_none {text : Option String} (h : filled text) : text ≠ none := by
  obtain ⟨t, ht, -⟩ := h
  rw [ht]
  exact Option.some_ne_none t

/-- Two contributor rows at one address are one row. -/
theorem contributor_eq {heads : Prop} (hgrouped : Grouped heads ∅ db.proxies) {now : Timestamp}
    {r r' : Proxy} (hr : r ∈ db.proxies) (hr' : r' ∈ db.proxies)
    (hd : r.Distributable db enabled now) (hd' : r'.Distributable db enabled now)
    (hexit : r.exitText = r'.exitText) : r = r' := by
  obtain ⟨hkept, -, hsingle, -, -, -, hsource, -⟩ := hd
  obtain ⟨hkept', -, hsingle', -, -, -, hsource', -⟩ := hd'
  refine hgrouped.canonical_eq hr hr' ⟨hkept, hsource, hsingle⟩ ⟨hkept', hsource', hsingle'⟩ ?_
  exact Option.map_injective IpAddress.compressed_injective hexit

/-- A distributable row of the provider is the first live one at its address. -/
theorem provider_first {stale dashboard now : Timestamp} {a : Swap.Assignment}
    (ha : a ∈ provider.assignments)
    (hd : a.Distributable db.proxies provider enabled stale dashboard now) :
    provider.firstLive a.exitIp = some a.id := by
  obtain ⟨⟨hmissing, hlive, hexit, ⟨t, hverified, -⟩, -, hfirst⟩, -⟩ := hd
  have hmem : a.id ∈ (provider.assignments.filter fun b => decide (b.missingAt = none ∧
      b.exitIp = a.exitIp ∧ b.exitIp ≠ none ∧ b.liveStatus = "live" ∧
      b.egressVerifiedAt ≠ none)).map Swap.Assignment.id := by
    refine List.mem_map_of_mem (List.mem_filter.mpr ⟨ha, decide_eq_true ?_⟩)
    exact ⟨hmissing, rfl, filled_ne_none hexit, hlive,
      by rw [hverified]; exact Option.some_ne_none t⟩
  unfold Swap.Db.firstLive at hfirst ⊢
  obtain ⟨i, hi⟩ := Option.isSome_iff_exists.mp (List.isSome_min?_of_mem hmem)
  rw [hi, Option.getD_some] at hfirst
  rw [hi, hfirst]

theorem orderById_perm {α : Type} (id : α → Nat) (rows : List α) : (orderById id rows).Perm rows :=
  List.perm_insertionSort _ _

/-- The rows that a query returns in the order of their ids differ in the ids. -/
theorem orderById_pairwise {α : Type} {id : α → Nat} {rows : List α} (h : Table.Keyed id rows)
    (p : α → Bool) : ((orderById id rows).filter p).Pairwise fun r r' => id r ≠ id r' := by
  have hsorted : Table.Keyed id (orderById id rows) :=
    ((orderById_perm id rows).map id).nodup_iff.mpr h
  exact List.pairwise_map.mp (hsorted.filter p)

end Distinct

/-- In every reachable state of the proxies and of the provider tables, no two entries of the list
have one exit address. -/
theorem exit_distributed_once {db₀ db : Db} {h : List (Event × Db)} (hfresh : db₀.Fresh)
    (run : Runs db₀ h db) {provider₀ : Swap.Db} {h' : List (Swap.Event × Swap.State)}
    {s : Swap.State} (hprovider : provider₀.Fresh)
    (run' : History.Run Swap.Step { db := provider₀ } h' s)
    (api : ApiSettings) (isGlobal : IpAddress → Bool) (reveals : Proxy → Bool) (now : Timestamp) :
    (rawRows db s.db api isGlobal reveals now).Pairwise fun x y => x.exitIp ≠ y.exitIp := by
  have hgrouped : Grouped False ∅ db.proxies := run.grouped hfresh nofun
  have hkeyed : s.db.Constrained := Swap.run_constrained hprovider.toConstrained run'
  unfold rawRows
  dsimp only
  split
  · exact .nil
  have hcontributors := orderById_pairwise hgrouped.keyed fun r =>
    decide (r.Distributable db api.enabled now) && reveals r
  have hproviders := orderById_pairwise hkeyed.assignmentIds fun a =>
    decide (a.Distributable db.proxies s.db api.enabled (staleCutoff db now)
      (dashboardCutoff s.db now) now) && decide (a.Usable isGlobal s.db now)
  have hstored {r : Proxy} (hr : r ∈ (orderById Proxy.id db.proxies).filter fun r =>
      decide (r.Distributable db api.enabled now) && reveals r) :
      r ∈ db.proxies ∧ r.Distributable db api.enabled now := by
    obtain ⟨hmem, hp⟩ := List.mem_filter.mp hr
    exact ⟨(orderById_perm _ _).mem_iff.mp hmem, of_decide_eq_true (Bool.and_eq_true_iff.mp hp).1⟩
  have hoffered {a : Swap.Assignment}
      (ha : a ∈ (orderById Swap.Assignment.id s.db.assignments).filter
      fun a => decide (a.Distributable db.proxies s.db api.enabled (staleCutoff db now)
        (dashboardCutoff s.db now) now) && decide (a.Usable isGlobal s.db now)) :
      a ∈ s.db.assignments ∧ a.Distributable db.proxies s.db api.enabled (staleCutoff db now)
        (dashboardCutoff s.db now) now := by
    obtain ⟨hmem, hp⟩ := List.mem_filter.mp ha
    exact ⟨(orderById_perm _ _).mem_iff.mp hmem, of_decide_eq_true (Bool.and_eq_true_iff.mp hp).1⟩
  refine List.pairwise_append.mpr ⟨?_, ?_, ?_⟩
  · refine List.pairwise_map.mpr (hcontributors.imp_of_mem fun {r r'} hr hr' hne hexit => hne ?_)
    obtain ⟨hmem, hd⟩ := hstored hr
    obtain ⟨hmem', hd'⟩ := hstored hr'
    rw [contributor_eq hgrouped hmem hmem' hd hd' hexit]
  · split
    · refine List.pairwise_map.mpr (hproviders.imp_of_mem fun {a a'} ha ha' hne hexit => hne ?_)
      obtain ⟨hmem, hd⟩ := hoffered ha
      obtain ⟨hmem', hd'⟩ := hoffered ha'
      -- both are the first one at the address
      have hfirst := provider_first hmem hd
      have hsame : a.exitIp = a'.exitIp := hexit
      rw [hsame, provider_first hmem' hd'] at hfirst
      exact (Option.some.inj hfirst).symm
    · exact .nil
  · intro x hx y hy hexit
    obtain ⟨r, hr, rfl⟩ := List.mem_map.mp hx
    split at hy
    · obtain ⟨a, ha, rfl⟩ := List.mem_map.mp hy
      obtain ⟨hmem, hkept, -, hsingle, -, -, -, hsource, -⟩ := hstored hr
      obtain ⟨-, ⟨-, -, -, -, hunclaimed, -⟩, -⟩ := hoffered ha
      exact hunclaimed ⟨r, hmem, hkept, hexit, hsingle, hsource⟩
    · cases hy

namespace Scenario

/-- An assignment of the provider that passes every filter. -/
def offered (id : Nat) (exitIp : String) : Swap.Assignment :=
  { id, subscriptionId := 1, externalId := toString id, host := "proxy.example", port := 1080
    qualification := "allow", providerEligible := true, liveStatus := "live", protocol := "socks5"
    exitIp := some exitIp, egressVerifiedAt := some 0, lastCheckedAt := some 0
    distributionEnabled := true, dashboardAssignmentId := some "d", dashboardEligible := some true
    dashboardConnections := some 0, dashboardObservedAt := some 0
    dashboardSource := "provider_dashboard", updatedAt := 0 }

/-- Two assignments share one address, a third one has that of a contributor. -/
def inventory : Swap.Db :=
  { subscriptions := [{ id := 1, externalId := "1", lastSeenAt := 0, updatedAt := 0 }]
    assignments := [offered 1 "8.8.4.4", offered 2 "8.8.4.4", offered 3 "8.8.8.8"]
    assignmentSequence := 3 }

theorem inventory_fresh : inventory.Fresh where
  subscriptionIds := by simp [Table.Keyed, inventory]
  subscriptionExternalIds := by simp [Table.Keyed, inventory]
  assignmentIds := by simp [Table.Keyed, inventory, offered]
  assignmentExternalIds := by unfold Table.Keyed; decide
  assignmentSequence := by decide
  jobIds := List.nodup_nil
  jobsUnique := ⟨List.nodup_nil, List.nodup_nil⟩
  jobs := rfl
  mappings := rfl

/-- A contributor is online and allowed. -/
def contributor : Db :=
  after oneUser [minute 0 (.addProxy 1 (endpoint "192.0.2.1") none),
    minute 1 (.applyHealthResult 1 (liveFrom "8.8.8.8")),
    minute 2 (.applyEarnappResult 1 (allowedFrom "8.8.8.8"))]

def listed : List RawRow :=
  rawRows contributor inventory { distributionEnabled := true } (fun _ => true) (fun _ => true)
    (minutes 3)

end Scenario

theorem exit_distributed_once_sharedExits :
    Scenario.listed.map RawRow.exitIp = [some "8.8.8.8", some "8.8.4.4"] ∧
      Scenario.listed.Pairwise fun x y => x.exitIp ≠ y.exitIp :=
  ⟨by decide +kernel, exit_distributed_once Scenario.oneUser_fresh (Scenario.runs _ _)
    Scenario.inventory_fresh .nil _ _ _ _⟩

end EarnProxy

import EarnProxy.Library.History
import EarnProxy.Observations
import EarnProxy.Payouts
import EarnProxy.Users

/-!
# The system

The services take turns on one database. A turn is a whole call, and one that raises leaves the
database as it was: most operations run in one transaction, but `apply_earnapp_result` commits on
its way through the provider tables, and `archive_due_dead_proxies` after each promotion.
`exec_effect` says once what a turn can do; the invariants of later modules are derived from it.
-/

namespace EarnProxy

open Transaction

/-- A call of a service with its arguments, without the clock. The settings stay as they are. -/
inductive Op where
  | addProxy (userId : Nat) (parsed : ParsedProxy) (maxActiveProxies : Option Int)
  | replaceProxy (proxyId userId : Nat) (parsed : ParsedProxy)
  | archiveProxy (proxyId userId : Nat)
  | promoteDuplicateIfDue (canonicalId : Nat)
  | archiveDueDeadProxies
  | reconcileExitIp (proxyId : Nat) (exitIp source : String)
  | applyHealthResult (proxyId : Nat) (result : HealthResult)
  | applyEarnappResult (proxyId : Nat) (result : EarnappResult)
  | accrueEligibleTime
  | accrueProxyTime (proxyId : Nat)
  | expirePendingCycle (proxyId : Nat)
  | createUser (status : UserStatus) (role : Role)
  | approveUser (userId : Nat)
  | pauseEarn (userId : Nat)
  | resumeEarn (userId : Nat)
  | blockUser (userId : Nat)
  | deleteUser (userId : Nat)
  | setWallet (userId : Nat) (address : String)
  | requestPayout (userId : Nat) (amountMicroUsd : Int) (maxOutstanding : Option Int)
  | approvePayout (payoutId : Nat)
  | submitPayoutTransaction (payoutId : Nat) (txHash : String)
  | applyPayoutVerification (payoutId : Nat) (result : VerificationResult)
      (claimToken : Option String)
  deriving DecidableEq, Repr

/-- A call at a time. `wall` is what `datetime.now(UTC)` reads inside a service whose caller passes
`now`; one call reads it at one instant. -/
structure Event where
  op : Op
  now : Timestamp
  wall : Timestamp
  deriving DecidableEq, Repr

/-- The call of an event. -/
def step (db : Db) (ev : Event) : Tx Db :=
  match ev.op with
  | .addProxy userId parsed quota => Prod.fst <$> addProxy db userId parsed quota ev.now
  | .replaceProxy proxyId userId parsed => replaceProxy db proxyId userId parsed ev.now ev.wall
  | .archiveProxy proxyId userId => archiveProxy db proxyId userId ev.now ev.wall
  | .promoteDuplicateIfDue canonicalId => Prod.fst <$> promoteDuplicateIfDue db canonicalId ev.now
  | .archiveDueDeadProxies => Prod.fst <$> archiveDueDeadProxies db ev.now
  | .reconcileExitIp proxyId exitIp source => reconcileExitIp db proxyId exitIp source ev.wall
  | .applyHealthResult proxyId result => applyHealthResult db proxyId result ev.now ev.wall
  | .applyEarnappResult proxyId result => applyEarnappResult db proxyId result ev.now ev.wall
  | .accrueEligibleTime => accrueEligibleTime db ev.now
  | .accrueProxyTime proxyId => accrueProxyTime db proxyId ev.now
  | .expirePendingCycle proxyId => expirePendingCycle db proxyId
  | .createUser status role => .ok (createUser db status role)
  | .approveUser userId => approveUser db userId
  | .pauseEarn userId => pauseEarn db userId
  | .resumeEarn userId => resumeEarn db userId
  | .blockUser userId => blockUser db userId
  | .deleteUser userId => deleteUser db userId
  | .setWallet userId address => setWallet db userId address ev.now
  | .requestPayout userId amount limit => Prod.fst <$> requestPayout db userId amount limit ev.now
  | .approvePayout payoutId => approvePayout db payoutId
  | .submitPayoutTransaction payoutId txHash => submitPayoutTransaction db payoutId txHash ev.now
  | .applyPayoutVerification payoutId result token =>
    applyPayoutVerification db payoutId result token ev.now

/-- The database after an event; an error rolls the call back. -/
def exec (db : Db) (ev : Event) : Db :=
  match step db ev with
  | .ok db' => db'
  | .error _ => db

/-- A database before any proxy was added. Users, wallets and settings are arbitrary. -/
structure Db.Fresh (db : Db) : Prop where
  proxies : db.proxies = []
  ledger : db.ledger = []
  payouts : db.payouts = []
  insertsIgnored : db.insertsIgnored = 0

/-- The events of `h`, newest first, lead from `db₀` to `db`. -/
def Runs (db₀ : Db) (h : List (Event × Db)) (db : Db) : Prop :=
  History.Run (fun db ev db' => exec db ev = db') db₀ h db

/-- Event times never decrease. -/
def Timely (h : List (Event × Db)) : Prop := History.Chronological Event.now h

instance (h : List (Event × Db)) : Decidable (Timely h) :=
  inferInstanceAs (Decidable (History.Chronological _ _))

/-! ## A small database

The runs that show a theorem at work, or a statement false, start here. -/

namespace Scenario

/-- One active user. -/
def oneUser : Db := { users := [{ id := 1, status := .active }] }

def endpoint (host : String) : ParsedProxy :=
  { protocol := "http", host, port := 8080, username := "user", password := "secret" }

/-- A quorum of endpoints saw the proxy at `exitIp`. -/
def liveFrom (exitIp : String) : HealthResult := { status := "live", exitIp }

/-- EarnApp accepted the address `exitIp`. -/
def allowedFrom (exitIp : String) : EarnappResult :=
  { verdict := "CID_SET", egressTrusted := some true, exitIp }

/-- A call `n` minutes after the start. -/
def minute (n : Int) (op : Op) : Event := { op, now := minutes n, wall := minutes n }

/-- The history of the calls, oldest first, from `db`. -/
def history (db : Db) (events : List Event) : List (Event × Db) := History.replay exec db events

/-- The database after the calls. -/
def after (db : Db) (events : List Event) : Db := History.current db (history db events)

theorem runs (db : Db) (events : List Event) : Runs db (history db events) (after db events) :=
  History.run_replay exec db events

theorem oneUser_fresh : oneUser.Fresh := ⟨rfl, rfl, rfl, rfl⟩

end Scenario

/-! ## Licences -/

/-- The operations that may set the clocks of a row to `now`. -/
def Op.restarts : Op → Bool
  | .replaceProxy .. | .promoteDuplicateIfDue .. | .archiveDueDeadProxies
  | .applyHealthResult .. | .applyEarnappResult .. => true
  | _ => false

/-- The event makes a duplicate canonical by an election and leaves its cursor where it was. -/
def Event.Backpays (db : Db) (ev : Event) : Prop :=
  match ev.op with
  | .replaceProxy proxyId userId parsed => ¬ CredentialTaken db parsed (some proxyId) ∧
      ∃ row ∈ ownedProxy? db proxyId userId, LeaveBackpays ev.now db.proxies row ev.wall
  | .archiveProxy proxyId userId =>
      ∃ row ∈ ownedProxy? db proxyId userId, LeaveBackpays ev.now db.proxies row ev.wall
  | .reconcileExitIp proxyId exitIp source => ∃ ip ∈ normalizedExitIp exitIp,
      ∃ s ∈ attestationSource source, ReconcileBackpays ev.now db.proxies proxyId ip s ev.wall
  | .applyHealthResult proxyId result => result.branch = .live ∧
      ∃ row ∈ result.row? db proxyId, LiveBackpays db row result ev.now ev.wall
  | .applyEarnappResult proxyId result =>
      ∃ previous ∈ result.row? db proxyId, EarnappBackpays db previous result ev.now ev.wall
  | _ => False

instance (db : Db) (ev : Event) : Decidable (ev.Backpays db) := by
  rcases ev with ⟨⟨⟩, now, wall⟩ <;> unfold Event.Backpays <;> infer_instance

/-- The event is an EarnApp result that row `i` accepts and that makes it eligible to earn. -/
def Event.Qualifies (db : Db) (ev : Event) (i : Nat) : Prop :=
  match ev.op with
  | .applyEarnappResult proxyId result =>
      ∃ previous ∈ result.row? db proxyId, previous.id = i ∧ (result.eligibility previous).Earning
  | _ => False

/-- The event is a blocked health result that row `i` accepts. -/
def Event.Blocks (db : Db) (ev : Event) (i : Nat) : Prop :=
  match ev.op with
  | .applyHealthResult proxyId result =>
      result.branch = .blocked ∧ ∃ row ∈ result.row? db proxyId, row.id = i
  | _ => False

/-- The event changes the rate of row `i` and keeps its cursor. -/
def Event.Reprices (db : Db) (ev : Event) (i : Nat) : Prop :=
  match ev.op with
  | .reconcileExitIp proxyId exitIp source => proxyId = i ∧ attestationSource source ≠ none ∧
      ∃ ip ∈ normalizedExitIp exitIp, ∃ row ∈ keptProxy? db.proxies i, row.Repriced ip
  | .applyEarnappResult proxyId result => proxyId = i ∧
      ∃ previous ∈ result.row? db i, result.Reprices previous
  | _ => False

instance (db : Db) (ev : Event) (i : Nat) : Decidable (ev.Reprices db i) := by
  rcases ev with ⟨⟨⟩, now, wall⟩ <;> unfold Event.Reprices <;> infer_instance

/-- What the event may write into the health columns of row `i`. -/
def Event.Observes (db : Db) (ev : Event) (i : Nat) (health : Health) : Prop :=
  match ev.op with
  | .applyHealthResult proxyId result => proxyId = i ∧
      ∃ row ∈ result.row? db proxyId, health = row.observed result (checkerSettings db) ev.now
  | .replaceProxy proxyId userId parsed => proxyId = i ∧
      ¬ CredentialTaken db parsed (some proxyId) ∧
      ownedProxy? db proxyId userId ≠ none ∧ ∃ r, health = (Proxy.replaced r parsed ev.now).health
  | .archiveProxy proxyId userId => proxyId = i ∧
      ∃ row ∈ ownedProxy? db proxyId userId, health = (row.archived ev.now).health
  | .archiveDueDeadProxies =>
      ∃ r ∈ db.proxies, r.id = i ∧ r.DeadSince (ev.now - hours 24) ∧
        health = (r.archived ev.now).health
  | _ => False

/-- The event may take the health claim of row `i` away. -/
def Event.Unclaims (db : Db) (ev : Event) (i : Nat) : Prop :=
  match ev.op with
  | .applyHealthResult proxyId result => proxyId = i ∧ result.row? db proxyId ≠ none
  | .replaceProxy proxyId _ _ => proxyId = i
  | _ => False

def Event.licence (db : Db) (ev : Event) : Licence where
  now := ev.now
  staleMinutes := healthStaleMinutes db
  restarts := ev.op.restarts
  backpays := ev.Backpays db
  grants i := ev.Qualifies db i ∨ ev.Blocks db i
  reprices := ev.Reprices db
  observes := ev.Observes db
  unclaims := ev.Unclaims db

/-- The tables of accounting are the same. -/
structure SameEarnings (db db' : Db) : Prop where
  proxies : db'.proxies = db.proxies
  ledger : db'.ledger = db.ledger
  settings : db'.settings = db.settings
  insertsIgnored : db'.insertsIgnored = db.insertsIgnored

theorem SameEarnings.refl (db : Db) : SameEarnings db db := ⟨rfl, rfl, rfl, rfl⟩

/-- The users are the same, too. -/
structure SameAccounts (db db' : Db) : Prop extends SameEarnings db db' where
  users : db'.users = db.users

theorem SameAccounts.refl (db : Db) : SameAccounts db db := ⟨.refl db, rfl⟩

/-- What an event does. -/
inductive Effect (db : Db) (ev : Event) : Db → Prop where
  | proxies {db' : Db} : Phased (ev.licence db) (fun _ => True) db db' → Effect db ev db'
  | added {userId : Nat} {parsed : ParsedProxy} :
      Effect db ev { db with proxies := db.proxies ++ [newProxy db userId parsed ev.now] }
  | others {db' : Db} : SameEarnings db db' → Effect db ev db'

theorem Phased.mono {lic : Licence} {P Q : Nat → Prop} (hPQ : ∀ i, P i → Q i) {db db' : Db}
    (h : Phased lic P db db') : Phased lic Q db db' := by
  obtain ⟨accrued, hvisits, hedits⟩ := h
  exact ⟨accrued, hvisits.mono hPQ, hedits⟩

theorem reconcileExitIp_does {lic : Licence} {db : Db} (hk : Table.Keyed Proxy.id db.proxies)
    {i : Nat} {exitIp source : String} {wall : Timestamp}
    (hback : ∀ ip ∈ normalizedExitIp exitIp, ∀ s ∈ attestationSource source,
      ReconcileBackpays lic.now db.proxies i ip s wall → lic.backpays)
    (hprice : attestationSource source ≠ none → ∀ ip ∈ normalizedExitIp exitIp,
      ∀ row ∈ keptProxy? db.proxies i, row.Repriced ip → lic.reprices i) :
    Does (Edited lic) Db.Raises db (reconcileExitIp db i exitIp source wall) id := by
  unfold reconcileExitIp
  split
  · rename_i ip s hip hs
    exact reconcileExit_does hk (hback ip hip s hs) fun r hr _ hrepriced =>
      .inr (hprice (by simp [hs]) ip hip r hr hrepriced)
  · exact Does.ok (.refl db)

/-- The operations on proxies. -/
def Op.OnProxies : Op → Prop
  | .replaceProxy .. | .archiveProxy .. | .promoteDuplicateIfDue .. | .archiveDueDeadProxies
  | .reconcileExitIp .. | .applyHealthResult .. | .applyEarnappResult .. | .accrueEligibleTime
  | .accrueProxyTime .. | .expirePendingCycle .. => True
  | _ => False

theorem step_does {db : Db} (hk : Table.Keyed Proxy.id db.proxies) {ev : Event}
    (hop : ev.op.OnProxies) :
    Does (Phased (ev.licence db) fun _ => True) Db.Raises db (step db ev) id := by
  obtain ⟨op, now, wall⟩ := ev
  set lic := Event.licence db ⟨op, now, wall⟩ with hlic
  have hnow : lic.now = now := rfl
  have edits : ∀ {x : Tx Db}, Does (Edited lic) Db.Raises db x id →
      Does (Phased lic fun _ => True) Db.Raises db x id :=
    fun h => h.mono fun _ => Phased.of_edited
  have phases : ∀ {x : Tx Db} {P : Nat → Prop}, Does (Phased lic P) Db.Raises db x id →
      Does (Phased lic fun _ => True) Db.Raises db x id :=
    fun h => h.mono fun _ h => h.mono fun _ _ => trivial
  cases op with
  | replaceProxy proxyId userId parsed =>
    have hdoes : Does (Edited lic) Db.Raises db
        (replaceProxy db proxyId userId parsed lic.now wall) id := by
      refine replaceProxy_does hk rfl (fun _ h => h.elim id id) ?_ ?_ fun _ _ => rfl
      · exact fun htaken row hrow hback => ⟨htaken, row, hrow, hback⟩
      · exact fun htaken howned r _ => ⟨rfl, htaken, howned, r, rfl⟩
    exact edits hdoes
  | archiveProxy proxyId userId =>
    have hdoes : Does (Edited lic) Db.Raises db (archiveProxy db proxyId userId now wall) id :=
      archiveProxy_does hk (fun row hrow hback => ⟨row, hrow, hback⟩)
        fun row hrow => ⟨rfl, row, hrow, rfl⟩
    exact edits hdoes
  | promoteDuplicateIfDue canonicalId =>
    have hdoes : Does (Edited lic) Db.Raises db
        (promoteDuplicateIfDue db canonicalId lic.now) Prod.fst :=
      promoteDuplicateIfDue_does hk rfl canonicalId
    exact edits (Does.map hdoes)
  | archiveDueDeadProxies =>
    have hdoes : Does (Edited lic) Db.Raises db (archiveDueDeadProxies db lic.now) Prod.fst :=
      archiveDueDeadProxies_does hk rfl fun r hr hdead => ⟨r, hr, rfl, hdead, rfl⟩
    exact edits (Does.map hdoes)
  | reconcileExitIp proxyId exitIp source =>
    have hdoes : Does (Edited lic) Db.Raises db
        (reconcileExitIp db proxyId exitIp source wall) id :=
      reconcileExitIp_does hk (fun ip hip s hs hback => ⟨ip, hip, s, hs, hback⟩)
        fun hsource ip hip row hrow hrepriced => ⟨rfl, hsource, ip, hip, row, hrow, hrepriced⟩
    exact edits hdoes
  | applyHealthResult proxyId result =>
    have hdoes : Does (Phased lic (· = proxyId)) Db.Raises db
        (applyHealthResult db proxyId result lic.now wall) id := by
      refine applyHealthResult_does hk rfl rfl ?_ ?_ ?_ fun hrow => ⟨rfl, hrow⟩
      · exact fun row hrow hlive hback => ⟨hlive, row, hrow, hback⟩
      · exact fun row hrow hblocked => .inr ⟨hblocked, row, hrow, rfl⟩
      · exact fun row hrow => ⟨rfl, row, hrow, rfl⟩
    exact phases hdoes
  | applyEarnappResult proxyId result =>
    have hdoes : Does (Phased lic (· = proxyId)) Db.Raises db
        (applyEarnappResult db proxyId result lic.now wall) id := by
      refine applyEarnappResult_does hk rfl ?_ ?_ ?_
      · exact fun previous hprevious hback => ⟨previous, hprevious, hback⟩
      · exact fun previous hprevious he => .inl ⟨previous, hprevious, rfl, he⟩
      · intro previous hprevious hreprices
        obtain ⟨_, rfl, _⟩ := EarnappResult.row?_mem hprevious
        exact ⟨rfl, previous, hprevious, hreprices⟩
    exact phases hdoes
  | accrueEligibleTime =>
    have hdoes :
        Does (Visits lic.now fun _ => True) Db.Raises db (accrueEligibleTime db lic.now) id :=
      accrueEligibleTime_does hk
    exact hdoes.mono fun _ => Phased.of_visits
  | accrueProxyTime proxyId =>
    have hdoes : Does (Visits lic.now (· = proxyId)) Db.Raises db
        (accrueProxyTime db proxyId lic.now) id := accrueProxyTime_does hk proxyId
    exact phases (hdoes.mono fun _ => Phased.of_visits)
  | expirePendingCycle proxyId =>
    have hdoes : Does (Edited lic) Db.Raises db (expirePendingCycle db proxyId) id :=
      expirePendingCycle_does db proxyId
    exact edits hdoes
  | _ => exact hop.elim

/-! ## The other operations -/

theorem addProxy_does (db : Db) (userId : Nat) (parsed : ParsedProxy) (quota : Option Int)
    (now : Timestamp) :
    Does (fun db db' => db' = db ∨
        db' = { db with proxies := db.proxies ++ [newProxy db userId parsed now] })
      Db.Raises db (addProxy db userId parsed quota now) Prod.fst := by
  unfold addProxy
  refine Does.ite (fun _ => .error (.inl rfl) nofun) fun _ => ?_
  refine Does.ite (fun _ => .error (.inl rfl) nofun) fun _ => ?_
  exact Does.ite (fun _ => .error (.inl rfl) nofun) fun _ => .ok (.inr rfl)

theorem step_addProxy_does {db : Db} {ev : Event} {userId : Nat} {parsed : ParsedProxy}
    {quota : Option Int} (hop : ev.op = .addProxy userId parsed quota) :
    Does (fun db db' => db' = db ∨
        db' = { db with proxies := db.proxies ++ [newProxy db userId parsed ev.now] })
      Db.Raises db (step db ev) id := by
  obtain ⟨op, now, wall⟩ := ev
  subst hop
  exact Does.map (addProxy_does db userId parsed quota now)

theorem changeUser_does (db : Db) (userId : Nat) (status : Option UserStatus)
    (earnPaused : Option Bool) :
    Does SameEarnings Db.Raises db (changeUser db userId status earnPaused) id := by
  unfold changeUser
  cases managedUser? db userId with
  | none => exact .error (.refl db) nofun
  | some row => exact .ok ⟨rfl, rfl, rfl, rfl⟩

theorem deleteUser_does (db : Db) (userId : Nat) :
    Does SameEarnings Db.Raises db (deleteUser db userId) id := by
  unfold deleteUser
  cases managedUser? db userId with
  | none => exact .error (.refl db) nofun
  | some row => exact .ok ⟨rfl, rfl, rfl, rfl⟩

theorem setWallet_does (db : Db) (userId : Nat) (address : String) (now : Timestamp) :
    Does SameAccounts Db.Raises db (setWallet db userId address now) id := by
  unfold setWallet
  refine Does.ite (fun _ => .error (.refl db) nofun) fun _ => ?_
  refine Does.ite (fun _ => .error (.refl db) nofun) fun _ => ?_
  refine Does.ite (fun _ => .error (.refl db) nofun) fun _ => ?_
  refine Does.ite (fun _ => .error (.refl db) nofun) fun _ => ?_
  exact Does.ite (fun _ => .ok ⟨⟨rfl, rfl, rfl, rfl⟩, rfl⟩) fun _ => .ok ⟨⟨rfl, rfl, rfl, rfl⟩, rfl⟩

theorem quotePayout_error {amount : Int} {e : DbError} (h : quotePayout amount = .error e) :
    e ≠ .ledgerUnique := by
  unfold quotePayout at h
  split at h
  · rintro rfl
    cases h
  · split at h
    · rintro rfl
      cases h
    · cases h

theorem requestPayout_does (db : Db) (userId : Nat) (amount : Int) (limit : Option Int)
    (now : Timestamp) :
    Does SameAccounts Db.Raises db (requestPayout db userId amount limit now) Prod.fst := by
  unfold requestPayout
  refine Does.bind_whole (fun e he => ⟨db, .refl db, fun h => absurd h (quotePayout_error he)⟩) ?_
  intro quote _
  cases db.wallet? userId with
  | none => exact .error (.refl db) nofun
  | some wallet =>
    refine Does.ite (fun _ => .error (.refl db) nofun) fun _ => ?_
    refine Does.ite (fun _ => .error (.refl db) nofun) fun _ => ?_
    exact Does.ite (fun _ => .error (.refl db) nofun) fun _ => .ok ⟨⟨rfl, rfl, rfl, rfl⟩, rfl⟩

theorem approvePayout_does (db : Db) (payoutId : Nat) :
    Does SameAccounts Db.Raises db (approvePayout db payoutId) id :=
  Does.ite (fun _ => .ok ⟨⟨rfl, rfl, rfl, rfl⟩, rfl⟩) fun _ => .error (.refl db) nofun

theorem normalizeTxHash_error {value : String} {e : DbError}
    (h : normalizeTxHash value = .error e) : e ≠ .ledgerUnique := by
  simp only [normalizeTxHash] at h
  rintro rfl
  split at h <;> cases h

theorem submitPayoutTransaction_does (db : Db) (payoutId : Nat) (txHash : String)
    (now : Timestamp) :
    Does SameAccounts Db.Raises db (submitPayoutTransaction db payoutId txHash now) id := by
  unfold submitPayoutTransaction
  refine Does.bind_whole
    (fun e he => ⟨db, .refl db, fun h => absurd h (normalizeTxHash_error he)⟩) ?_
  intro value _
  cases db.payout? payoutId with
  | none => exact .error (.refl db) nofun
  | some payout =>
    refine Does.ite (fun _ => .error (.refl db) nofun) fun _ => ?_
    refine Does.ite (fun _ => .error (.refl db) nofun) fun _ => ?_
    exact Does.ite (fun _ => .ok ⟨⟨rfl, rfl, rfl, rfl⟩, rfl⟩) fun _ => .error (.refl db) nofun

theorem applyPayoutVerification_does (db : Db) (payoutId : Nat) (result : VerificationResult)
    (token : Option String) (now : Timestamp) :
    Does SameAccounts Db.Raises db (applyPayoutVerification db payoutId result token now) id :=
  Does.ite (fun _ => .ok ⟨⟨rfl, rfl, rfl, rfl⟩, rfl⟩) fun _ => .error (.refl db) nofun

/-- The operations on users. -/
def Op.OnUsers : Op → Prop
  | .createUser .. | .approveUser .. | .pauseEarn .. | .resumeEarn .. | .blockUser ..
  | .deleteUser .. => True
  | _ => False

theorem step_users {db db' : Db} {ev : Event} (hop : ev.op.OnUsers) (h : step db ev = .ok db') :
    ∃ users, db' = { db with users := users } := by
  obtain ⟨op, now, wall⟩ := ev
  cases op with
  | createUser status role => exact ⟨_, (Except.ok.inj h).symm⟩
  | approveUser userId => exact changeUser_ok h
  | pauseEarn userId => exact changeUser_ok h
  | resumeEarn userId => exact changeUser_ok h
  | blockUser userId => exact changeUser_ok h
  | deleteUser userId => exact deleteUser_ok h
  | _ => exact hop.elim

/-- The operations on wallets and payouts. -/
theorem step_accounts {db : Db} {ev : Event} (hop : ¬ ev.op.OnProxies) (husers : ¬ ev.op.OnUsers)
    (hadd : ∀ userId parsed quota, ev.op ≠ .addProxy userId parsed quota) :
    Does SameAccounts Db.Raises db (step db ev) id := by
  obtain ⟨op, now, wall⟩ := ev
  cases op with
  | addProxy userId parsed quota => exact absurd rfl (hadd userId parsed quota)
  | setWallet userId address => exact setWallet_does db userId address now
  | requestPayout userId amount limit =>
    exact Does.map (requestPayout_does db userId amount limit now)
  | approvePayout payoutId => exact approvePayout_does db payoutId
  | submitPayoutTransaction payoutId txHash =>
    exact submitPayoutTransaction_does db payoutId txHash now
  | applyPayoutVerification payoutId result token =>
    exact applyPayoutVerification_does db payoutId result token now
  | createUser | approveUser | pauseEarn | resumeEarn | blockUser | deleteUser =>
    exact absurd trivial husers
  | _ => exact absurd trivial hop

/-- The operations on users, wallets and payouts. -/
theorem step_others {db : Db} {ev : Event} (hop : ¬ ev.op.OnProxies)
    (hadd : ∀ userId parsed quota, ev.op ≠ .addProxy userId parsed quota) :
    Does SameEarnings Db.Raises db (step db ev) id := by
  by_cases husers : ev.op.OnUsers
  · obtain ⟨op, now, wall⟩ := ev
    cases op with
    | createUser status role => exact .ok ⟨rfl, rfl, rfl, rfl⟩
    | approveUser userId => exact changeUser_does db userId _ _
    | pauseEarn userId => exact changeUser_does db userId _ _
    | resumeEarn userId => exact changeUser_does db userId _ _
    | blockUser userId => exact changeUser_does db userId _ _
    | deleteUser userId => exact deleteUser_does db userId
    | _ => exact absurd husers id
  · exact (step_accounts hop husers hadd).mono fun _ h => h.toSameEarnings

theorem exec_of_ok {db db' : Db} {ev : Event} (h : step db ev = .ok db') : exec db ev = db' := by
  unfold exec
  rw [h]

theorem exec_of_error {db : Db} {ev : Event} {e : DbError} (h : step db ev = .error e) :
    exec db ev = db := by
  unfold exec
  rw [h]

/-- An event that succeeds is an operation on proxies, adds a row, or leaves proxies alone. -/
theorem step_ok_cases {db db' : Db} {ev : Event} (h : step db ev = .ok db') :
    ev.op.OnProxies ∨
      (∃ userId parsed,
        db' = { db with proxies := db.proxies ++ [newProxy db userId parsed ev.now] }) ∨
      SameEarnings db db' := by
  by_cases hop : ev.op.OnProxies
  · exact .inl hop
  · by_cases hadd : ∃ userId parsed quota, ev.op = .addProxy userId parsed quota
    · obtain ⟨userId, parsed, quota, hev⟩ := hadd
      have hadded : db' = db ∨ db' = _ := (step_addProxy_does hev).of_ok h
      rcases hadded with rfl | hadded
      · exact .inr (.inr (.refl db'))
      · exact .inr (.inl ⟨userId, parsed, hadded⟩)
    · refine .inr (.inr ((step_others hop fun userId parsed quota h => hadd ?_).of_ok h))
      exact ⟨userId, parsed, quota, h⟩

/-- What a turn can do. -/
theorem exec_effect {db : Db} (hk : Table.Keyed Proxy.id db.proxies) (ev : Event) :
    Effect db ev (exec db ev) := by
  cases hstep : step db ev with
  | error e =>
    rw [exec_of_error hstep]
    exact .others (.refl db)
  | ok db' =>
    rw [exec_of_ok hstep]
    rcases step_ok_cases hstep with hop | ⟨userId, parsed, rfl⟩ | hsame
    · exact .proxies ((step_does hk hop).of_ok hstep)
    · exact .added
    · exact .others hsame

/-- A violated unique key of the ledger needs a clash in a state that the event reaches. -/
theorem step_clash {db : Db} (hk : Table.Keyed Proxy.id db.proxies) {ev : Event}
    (h : step db ev = .error .ledgerUnique) :
    ∃ db', Phased (ev.licence db) (fun _ => True) db db' ∧ db'.Clash := by
  have hself : ∀ {R : Db → Db → Prop}, (∀ db', R db db' → db'.ledger = db.ledger) →
      Does R Db.Raises db (step db ev) id →
      ∃ db', Phased (ev.licence db) (fun _ => True) db db' ∧ db'.Clash := by
    intro R hledger hdoes
    obtain ⟨db', hR, hraises⟩ := hdoes.of_error h
    refine ⟨db, .of_edited (.refl db), ?_⟩
    have hclash := hraises rfl
    unfold Db.Clash at hclash ⊢
    rwa [hledger db' hR] at hclash
  by_cases hop : ev.op.OnProxies
  · obtain ⟨db', hphased, hraises⟩ := (step_does hk hop).of_error h
    exact ⟨db', hphased, hraises rfl⟩
  · by_cases hadd : ∃ userId parsed quota, ev.op = .addProxy userId parsed quota
    · obtain ⟨userId, parsed, quota, hev⟩ := hadd
      refine hself (R := fun db db' => db' = db ∨
        db' = { db with proxies := db.proxies ++ [newProxy db userId parsed ev.now] }) ?_ ?_
      · rintro _ (rfl | rfl) <;> rfl
      · exact step_addProxy_does hev
    · exact hself (fun _ h => h.ledger)
        (step_others hop fun userId parsed quota h => hadd ⟨userId, parsed, quota, h⟩)

end EarnProxy

import EarnProxy.Swap.Reconcile

/-!
# `sync_proxiware_inventory` of `app/services/proxiware.py`

The official inventory is written one subscription at a time, and what it no longer names is marked
as missing at the end. The lease of the sync run is the subject of `SyncRuns`. Ids of a payload that
are neither numbers nor texts are not modelled. Other numbers are given as `_int_or_none` reads
them.
-/

namespace EarnProxy.Swap

/-- An id in a payload. -/
inductive RawId where
  | number (n : Int)
  | text (s : String)
  deriving DecidableEq, Repr

def RawId.str : RawId → String
  | .number n => toString n
  | .text s => s

/-- `int` of a text. -/
def intText (s : String) : Option Int :=
  let digits (cs : List Char) : Option Int :=
    let groups := cs.splitOn '_'
    if groups.all isDigits then some (decimalValue groups.flatten) else none
  match Text.stripChars s.toList with
  | '-' :: cs => (digits cs).map fun n => -n
  | '+' :: cs => digits cs
  | cs => digits cs

def RawId.int? : RawId → Option Int
  | .number n => some n
  | .text s => intText s

/-- `_required_id`. -/
def requiredId (id : Option RawId) : Option String :=
  (id.map fun i => Text.strip i.str).filter (· ≠ "")

theorem requiredId_stripped {id : Option RawId} {text : String} (h : requiredId id = some text) :
    Text.strip text = text ∧ text ≠ "" := by
  obtain ⟨hmap, hne⟩ := Option.filter_eq_some_iff.mp h
  obtain ⟨i, _, rfl⟩ := Option.map_eq_some_iff.mp hmap
  exact ⟨Text.strip_strip _, of_decide_eq_true hne⟩

/-- A subscription of the payload. -/
structure RawSubscription where
  id : Option RawId
  status : String := ""
  expiresAt : Option Int := none
  eligibleCount : Option Int := none
  deriving DecidableEq, Repr

/-- A proxy of the payload; `none` is a key that is not there. `id` is the value at `id` or
`external_id`, and `providerEligible` that at `provider_eligible` or `eligible`. -/
structure RawProxy where
  id : Option RawId
  host : String
  port : Option Int
  status : Option String := none
  qualification : Option String := none
  providerEligible : Option Bool := none
  liveStatus : Option String := none
  protocol : String := ""
  exitIp : Option String := none
  username : Option String := none
  password : Option String := none
  deriving DecidableEq, Repr

/-- `value or default`. -/
def orDefault (value default : String) : String := if value = "" then default else value

/-- The id of a subscription that the sync accepts. -/
def RawSubscription.externalId? (raw : RawSubscription) : Option String :=
  if ∃ n ∈ raw.id.bind RawId.int?, 0 < n then requiredId raw.id else none

/-- The id and the port of a proxy that the sync accepts. -/
def RawProxy.key? (raw : RawProxy) : Option (String × Nat) := do
  let id ← requiredId raw.id
  let port ← raw.port
  if Text.strip raw.host ≠ "" ∧ 1 ≤ port ∧ port ≤ 65535 then some (id, port.toNat) else none

theorem RawProxy.key?_stripped {raw : RawProxy} {externalId : String} {port : Nat}
    (h : raw.key? = some (externalId, port)) :
    Text.strip externalId = externalId ∧ externalId ≠ "" := by
  obtain ⟨id, hid, h⟩ := Option.bind_eq_some_iff.mp h
  obtain ⟨n, _, h⟩ := Option.bind_eq_some_iff.mp h
  split at h
  · obtain ⟨rfl, _⟩ := Prod.mk.inj (Option.some.inj h)
    exact requiredId_stripped hid
  · cases h

/-- `_decrypted_assignment_secret`. -/
def Secret.decrypted (secret : Secret) (profile : Profile) : String :=
  (secret.decrypt profile).getD ""

/-- `assignment_identity`. -/
def assignmentIdentity (host : String) (port : Nat) (username password : String) :
    String × Nat × String × String :=
  (normalized host, port, username, password)

/-- `assignment_identity_from_row`. -/
def Assignment.identity (a : Assignment) (profile : Profile) : String × Nat × String × String :=
  assignmentIdentity a.host a.port (a.username.decrypted profile) (a.password.decrypted profile)

/-- The protocol of the row that is written. -/
def RawProxy.protocolOr (raw : RawProxy) (existing : String) : String :=
  let known := ["http", "socks5"]
  let protocol := normalized (orDefault raw.protocol "unknown")
  if protocol ∈ known then protocol else if existing ∈ known then existing else "unknown"

/-- What a row may not keep once it stands for another proxy. -/
def Assignment.replaced (a : Assignment) : Assignment :=
  { a with
    identityGeneration := a.identityGeneration + 1
    qualification := "pending", liveStatus := "pending", exitIp := none, egressVerifiedAt := none
    lastCheckedAt := none, duplicateEgress := false, distributionEnabled := false
    qualificationNextCheckAt := none, qualificationClaimedUntil := none
    qualificationClaimToken := none, dashboardAssignmentId := none, dashboardEligible := none
    dashboardConnections := none, dashboardObservedAt := none, dashboardSource := "" }

/-- The row that a sync inserts. -/
def RawProxy.inserted (raw : RawProxy) (id subscriptionId : Nat) (externalId : String) (port : Nat)
    (now : Timestamp) : Assignment :=
  { id, subscriptionId, externalId, host := Text.strip raw.host, port
    username := (raw.username.map Secret.encrypt).getD {}
    password := (raw.password.map Secret.encrypt).getD {}
    status := orDefault (raw.status.getD "") "active"
    qualification := orDefault (raw.qualification.getD "") "pending"
    providerEligible := raw.providerEligible.getD false
    liveStatus := orDefault (raw.liveStatus.getD "") "pending"
    protocol := raw.protocolOr "unknown", exitIp := raw.exitIp.filter (· ≠ "")
    lastSeenAt := some now, updatedAt := now }

/-- The row that a sync updates. -/
def RawProxy.updated (raw : RawProxy) (a : Assignment) (subscriptionId port : Nat)
    (profile : Profile) (now : Timestamp) : Assignment :=
  let identity := assignmentIdentity (Text.strip raw.host) port
    (raw.username.getD (a.username.decrypted profile))
    (raw.password.getD (a.password.decrypted profile))
  let row : Assignment :=
    { a with
      subscriptionId, host := Text.strip raw.host, port
      username := (raw.username.map Secret.encrypt).getD a.username
      password := (raw.password.map Secret.encrypt).getD a.password
      status := (raw.status.map fun s => orDefault s "active").getD a.status
      qualification := (raw.qualification.map fun s => orDefault s "pending").getD a.qualification
      providerEligible := raw.providerEligible.getD a.providerEligible
      liveStatus := (raw.liveStatus.map fun s => orDefault s "pending").getD a.liveStatus
      protocol := raw.protocolOr a.protocol, lastSeenAt := some now, missingAt := none
      updatedAt := now }
  if a.identity profile = identity then row else row.replaced

/-- One round of the loop over the proxies of a subscription. -/
def syncProxy (subscriptionId : Nat) (profile : Profile) (now : Timestamp) (db : Db)
    (raw : RawProxy) : Db :=
  match raw.key? with
  | none => db
  | some (externalId, port) =>
    match db.resolveAssignment externalId with
    | none =>
      let id := db.assignmentSequence + 1
      { db with
        assignments := db.assignments ++ [raw.inserted id subscriptionId externalId port now]
        assignmentSequence := id }
    | some _ =>
      db.updateAssignments (fun a => a.externalId = externalId) fun a =>
        raw.updated a subscriptionId port profile now

/-- The row of a subscription in the payload, inserted or updated; and its id. -/
def upsertSubscription (db : Db) (raw : RawSubscription) (externalId : String) (now : Timestamp) :
    Db × Nat :=
  match Table.lookup Subscription.externalId externalId db.subscriptions with
  | none =>
    let id := Table.nextKey Subscription.id db.subscriptions
    let row : Subscription :=
      { id, externalId, status := orDefault raw.status "active", expiresAt := raw.expiresAt
        eligibleCount := raw.eligibleCount, lastSeenAt := now, updatedAt := now }
    ({ db with subscriptions := db.subscriptions ++ [row] }, id)
  | some s =>
    (db.updateSubscription s.id fun s =>
      { s with
        status := orDefault raw.status "active", expiresAt := raw.expiresAt
        eligibleCount := raw.eligibleCount, lastSeenAt := now, missingAt := none
        updatedAt := now }, s.id)

/-- Only subscriptions are written. -/
theorem upsertSubscription_eq (db : Db) (raw : RawSubscription) (externalId : String)
    (now : Timestamp) : ∃ subscriptions,
      (upsertSubscription db raw externalId now).1 = { db with subscriptions } := by
  unfold upsertSubscription
  split <;> exact ⟨_, rfl⟩

/-- The transaction of one subscription. -/
def syncSubscription (profile : Profile) (now : Timestamp) (db : Db)
    (payload : RawSubscription × List RawProxy) : Db :=
  match payload.1.externalId? with
  | none => db
  | some externalId =>
    let (db, id) := upsertSubscription db payload.1 externalId now
    payload.2.foldl (syncProxy id profile now) db

/-- What the payload names. -/
structure Seen where
  subscriptions : List String := []
  assignments : List String := []
  deriving DecidableEq, Repr

def seenIn (payload : List (RawSubscription × List RawProxy)) : Seen :=
  let accepted := payload.filterMap fun p => p.1.externalId?.map fun i => (i, p.2)
  { subscriptions := accepted.map Prod.fst
    assignments := accepted.flatMap fun p => p.2.filterMap fun raw => raw.key?.map Prod.fst }

/-- The last transaction of a sync. -/
def syncMissing (db : Db) (seen : Seen) (now : Timestamp) : Db :=
  let awaiting (s : Subscription) : Prop := ∃ j ∈ db.jobs, j.subscriptionId = s.id ∧
    (j.state = .providerApplied ∨ j.state = .reconciliationRequired)
  { db with
    subscriptions :=
      Table.update awaiting (fun s => { s with updatedAt := now })
        (Table.update (fun s : Subscription =>
            s.missingAt = none ∧ s.externalId ∉ seen.subscriptions)
          (fun s => { s with status := "missing", missingAt := some now, updatedAt := now })
          db.subscriptions)
    assignments :=
      Table.update (fun a : Assignment => a.missingAt = none ∧ a.externalId ∉ seen.assignments)
        (fun a => { a with status := "missing", missingAt := some now, updatedAt := now })
        db.assignments }

/-- `sync_proxiware_inventory`, up to the sweep that follows it. -/
def syncInventory (db : Db) (payload : List (RawSubscription × List RawProxy)) (profile : Profile)
    (now : Timestamp) : Db :=
  syncMissing (payload.foldl (syncSubscription profile now) db) (seenIn payload) now

end EarnProxy.Swap

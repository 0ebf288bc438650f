import EarnProxy.Library.History
import EarnProxy.Swap.Inventory

/-!
# Assignments that leave the inventory and come back

A successful sync marks the assignments that it was not told of as missing, in the columns `status`
and `missing_at`. A sync that is told of one again clears `missing_at`. The column `status` keeps
what it says unless the entry has a status of its own, and it says `missing` by then.
-/

namespace EarnProxy.Swap

/-- An entry of the list of proxies. -/
inductive RawEntry where
  | object (raw : RawProxy)
  | text (item : String)
  | other
  deriving DecidableEq, Repr

/-- A port of a `host:http:socks:user:pass` entry. -/
def portText (part : List Char) : Option Int :=
  (intText (String.ofList part)).filter fun port => 1 ≤ port ∧ port ≤ 65535

/-- One round of the loop in `list_subscription_proxies`; `none` is its `payload_error`. -/
def RawEntry.normalize (sha256 : String → String) (identifier : Int) : RawEntry → Option RawProxy
  | .object raw => some raw
  | .text item =>
    match (Text.stripChars item.toList).splitOn ':' with
    | [host, http, socks, username, password] => do
      if host = [] ∨ username = [] ∨ password = [] then none else
      let httpPort ← portText http
      let socksPort ← portText socks
      let key := String.ofList host ++ "\x00" ++ toString httpPort ++ "\x00" ++
        toString socksPort ++ "\x00" ++ String.ofList username
      let digest := sha256 (toString identifier ++ "\x00" ++ key)
      some { id := some (.text ("proxy-" ++ String.ofList (digest.toList.take 32)))
             host := String.ofList host, port := some socksPort, protocol := "socks5"
             username := some (String.ofList username)
             password := some (String.ofList password) }
    | _ => none
  | .other => none

/-- What the provider answers to one sync: its subscriptions, each with the list of its proxies.
`none` is an answer that is not a list, or a failed request. -/
abbrev Answers := List (RawSubscription × Option (List RawEntry))

/-- `list_subscription_proxies`. -/
def listSubscriptionProxies (sha256 : String → String) (identifier : Int)
    (entries : Option (List RawEntry)) : Option (List RawProxy) :=
  entries.bind fun entries => entries.mapM (RawEntry.normalize sha256 identifier)

/-- What the loop over the subscriptions reads, up to the first request that raises; and whether
none did. The proxies of a subscription that is not accepted are not asked for. -/
def fetch (sha256 : String → String) : Answers → List (RawSubscription × List RawProxy) × Bool
  | [] => ([], true)
  | (raw, entries) :: answers =>
    let proxies := match raw.externalId?, raw.id.bind RawId.int? with
      | some _, some identifier => listSubscriptionProxies sha256 identifier entries
      | _, _ => some []
    match proxies with
    | none => ([], false)
    | some proxies => ((raw, proxies) :: (fetch sha256 answers).1, (fetch sha256 answers).2)

structure SyncAttempt where
  answers : Answers
  /-- It is stopped after so many subscriptions. -/
  stopsAfter : Option Nat := none
  profile : Profile := .web
  now : Timestamp
  deriving DecidableEq, Repr

/-- The table that `sync_proxiware_inventory` leaves, and whether it finished with success. -/
def syncAttempt (sha256 : String → String) (db : Db) (attempt : SyncAttempt) : Db × Bool :=
  let (payload, complete) := fetch sha256 attempt.answers
  match attempt.stopsAfter, complete with
  | none, true => (syncInventory db payload attempt.profile attempt.now, true)
  | none, false => (payload.foldl (syncSubscription attempt.profile attempt.now) db, false)
  | some n, _ =>
    ((payload.take n).foldl (syncSubscription attempt.profile attempt.now) db, false)

/-- The assignments that the attempt lists by a valid entry under a valid subscription. -/
def SyncAttempt.listed (attempt : SyncAttempt) (sha256 : String → String) : List String :=
  (seenIn (fetch sha256 attempt.answers).1).assignments

/-- No entry has a status. -/
def SyncAttempt.Plain (attempt : SyncAttempt) : Prop :=
  ∀ answer ∈ attempt.answers, ∀ entries ∈ answer.2, ∀ raw, RawEntry.object raw ∈ entries →
    raw.status = none

/-- The attempts of `h`, newest first, lead from `db₀` to `db`. -/
def Syncs (sha256 : String → String) (db₀ : Db) (h : List (SyncAttempt × Db)) (db : Db) : Prop :=
  History.Run (fun db attempt db' => attempt.Plain ∧ (syncAttempt sha256 db attempt).1 = db') db₀ h
    db

/-- The two columns of an assignment that say whether it is missing. -/
def Db.presence (db : Db) (externalId : String) : Option (String × Option Timestamp) :=
  (db.resolveAssignment externalId).map fun a => (a.status, a.missingAt)

/-- The last status of the assignment other than the mark of a missing one. -/
def lastStatus (db₀ : Db) (externalId : String) : List (SyncAttempt × Db) → Option String
  | [] => ((db₀.presence externalId).map Prod.fst).filter (· ≠ "missing")
  | (_, db) :: h => (((db.presence externalId).map Prod.fst).filter (· ≠ "missing")).or
      (lastStatus db₀ externalId h)

/-- What the queries of `_claim` and `_raw_rows` ask of the inventory. -/
def Assignment.Offered (a : Assignment) : Prop := a.missingAt = none ∧ a.InUse

/-- The assignment is what it was before it left the inventory. -/
structure Restored (db₀ : Db) (h : List (SyncAttempt × Db)) (db' : Db) (externalId : String)
    (a : Assignment) : Prop where
  stored : db'.resolveAssignment externalId = some a
  missingAt : a.missingAt = none
  marked : a.status ≠ "missing"
  status : a.status = (lastStatus db₀ externalId h).getD "active"
  offered : (∀ status ∈ lastStatus db₀ externalId h, status = "active" ∨ status = "current") →
    a.Offered

/-! ## What one sync does to the two columns -/

/-- An entry without a status keeps the status of the row, or makes it active. -/
def relist (listed : Prop) [Decidable listed] (presence : Option (String × Option Timestamp)) :
    Option (String × Option Timestamp) :=
  if listed then some ((presence.map Prod.fst).getD "active", none) else presence

theorem relist_relist {P Q : Prop} [Decidable P] [Decidable Q]
    (presence : Option (String × Option Timestamp)) :
    relist Q (relist P presence) = relist (P ∨ Q) presence := by
  by_cases hP : P <;> by_cases hQ : Q <;> simp [relist, hP, hQ]

section Presence

variable {db : Db} {i : String} {profile : Profile} {now : Timestamp}

theorem Db.presence_of_assignments {db' : Db} (h : db'.assignments = db.assignments) :
    db'.presence i = db.presence i := by
  simp [Db.presence, Db.resolveAssignment, h]

theorem RawProxy.updated_presence {raw : RawProxy} (hplain : raw.status = none) (a : Assignment)
    (subscriptionId port : Nat) (profile : Profile) (now : Timestamp) :
    let row := raw.updated a subscriptionId port profile now
    row.externalId = a.externalId ∧ row.status = a.status ∧ row.missingAt = none := by
  unfold RawProxy.updated
  simp only [hplain]
  split <;> exact ⟨rfl, rfl, rfl⟩

theorem RawProxy.inserted_presence {raw : RawProxy} (hplain : raw.status = none)
    (id subscriptionId : Nat) (externalId : String) (port : Nat) (now : Timestamp) :
    let row := raw.inserted id subscriptionId externalId port now
    row.externalId = externalId ∧ row.status = "active" ∧ row.missingAt = none := by
  simp [RawProxy.inserted, hplain, orDefault]

theorem syncProxy_presence {raw : RawProxy} (hplain : raw.status = none) (subscriptionId : Nat) :
    (syncProxy subscriptionId profile now db raw).presence i =
      relist (raw.key?.map Prod.fst = some i) (db.presence i) := by
  unfold syncProxy
  cases hkey : raw.key? with
  | none => simp [relist]
  | some key =>
    obtain ⟨externalId, port⟩ := key
    simp only [Option.map_some, Option.some.injEq]
    cases hstored : db.resolveAssignment externalId with
    | none =>
      have hnew := raw.inserted_presence hplain (db.assignmentSequence + 1)
        subscriptionId externalId port now
      unfold Db.presence Db.resolveAssignment at *
      rw [Table.lookup_append_singleton, hnew.1]
      by_cases hi : externalId = i
      · subst hi
        simp [relist, hstored, hnew]
      · simp [relist, hi]
    | some a =>
      have hrow (a : Assignment) := raw.updated_presence hplain a subscriptionId port profile now
      unfold Db.presence Db.resolveAssignment Db.updateAssignments Table.update at *
      rw [Table.lookup_map fun a _ => by split <;> simp [hrow]]
      by_cases hi : externalId = i
      · subst hi
        simp [relist, hstored, Table.key_of_lookup hstored, hrow]
      · cases hother : Table.lookup Assignment.externalId i db.assignments with
        | none => simp [relist, hi]
        | some b => simp [relist, hi, Table.key_of_lookup hother, Ne.symm hi]

theorem syncProxies_presence {raws : List RawProxy} (hplain : ∀ raw ∈ raws, raw.status = none)
    (subscriptionId : Nat) : ∀ db : Db,
    (raws.foldl (syncProxy subscriptionId profile now) db).presence i =
      relist (i ∈ raws.filterMap fun raw => raw.key?.map Prod.fst) (db.presence i) := by
  induction raws with
  | nil => simp [relist]
  | cons raw raws ih =>
    intro db
    rw [List.foldl_cons, ih fun raw hraw => hplain raw (List.mem_cons_of_mem _ hraw),
      syncProxy_presence (hplain raw List.mem_cons_self), relist_relist]
    congr 1
    cases hkey : raw.key?.map Prod.fst with
    | none => simp [hkey]
    | some k => simp [hkey, eq_comm]

theorem syncSubscription_presence {payload : RawSubscription × List RawProxy}
    (hplain : ∀ raw ∈ payload.2, raw.status = none) :
    (syncSubscription profile now db payload).presence i =
      relist (i ∈ (seenIn [payload]).assignments) (db.presence i) := by
  unfold syncSubscription seenIn
  cases hid : payload.1.externalId? with
  | none => simp [hid, relist]
  | some externalId =>
    have hseen : List.filterMap (fun p => Option.map (fun i => (i, p.2)) p.1.externalId?)
        [payload] = [(externalId, payload.2)] := by simp [hid]
    obtain ⟨subscriptions, hupsert⟩ := upsertSubscription_eq db payload.1 externalId now
    have hassignments : (upsertSubscription db payload.1 externalId now).1.assignments =
        db.assignments := by rw [hupsert]
    rw [syncProxies_presence hplain, hseen, Db.presence_of_assignments hassignments]
    simp only [List.flatMap_cons, List.flatMap_nil, List.append_nil]

theorem seenIn_cons (p : RawSubscription × List RawProxy)
    (payload : List (RawSubscription × List RawProxy)) :
    (seenIn (p :: payload)).assignments =
      (seenIn [p]).assignments ++ (seenIn payload).assignments := by
  unfold seenIn
  cases h : p.1.externalId? <;> simp [h]

theorem syncSubscriptions_presence {payload : List (RawSubscription × List RawProxy)}
    (hplain : ∀ p ∈ payload, ∀ raw ∈ p.2, raw.status = none) : ∀ db : Db,
    (payload.foldl (syncSubscription profile now) db).presence i =
      relist (i ∈ (seenIn payload).assignments) (db.presence i) := by
  induction payload with
  | nil => simp [relist, seenIn]
  | cons p payload ih =>
    intro db
    rw [List.foldl_cons, ih fun q hq => hplain q (List.mem_cons_of_mem _ hq),
      syncSubscription_presence (hplain p List.mem_cons_self), relist_relist, seenIn_cons p payload]
    simp only [List.mem_append]

theorem syncMissing_presence (seen : Seen) :
    (syncMissing db seen now).presence i =
      (db.presence i).map fun p =>
        if p.2 = none ∧ i ∉ seen.assignments then ("missing", some now) else p := by
  unfold syncMissing Db.presence Db.resolveAssignment Table.update
  rw [Table.lookup_map fun a _ => by split <;> rfl]
  cases hstored : Table.lookup Assignment.externalId i db.assignments with
  | none => rfl
  | some a =>
    have hkey : a.externalId = i := Table.key_of_lookup hstored
    by_cases hgone : a.missingAt = none ∧ i ∉ seen.assignments
    · simp [hkey, hgone]
    · simp [hkey, hgone]

end Presence

/-! ## The entries that the client passes on -/

section Fetch

variable {sha256 : String → String}

theorem RawEntry.normalize_plain {identifier : Int} {entry : RawEntry} {raw : RawProxy}
    (hplain : ∀ raw, RawEntry.object raw = entry → raw.status = none)
    (h : entry.normalize sha256 identifier = some raw) : raw.status = none := by
  unfold RawEntry.normalize at h
  split at h
  · exact hplain raw (congrArg RawEntry.object (Option.some.inj h).symm)
  · split at h
    · split at h
      · cases h
      · obtain ⟨httpPort, -, h⟩ := Option.bind_eq_some_iff.mp h
        obtain ⟨socksPort, -, h⟩ := Option.bind_eq_some_iff.mp h
        obtain rfl := Option.some.inj h
        rfl
    · cases h
  · cases h

theorem mapM_option_mem {α β : Type} {f : α → Option β} {l : List α} {l' : List β}
    (h : l.mapM f = some l') : ∀ b ∈ l', ∃ a ∈ l, f a = some b := by
  induction l generalizing l' with
  | nil =>
    obtain rfl := Option.some.inj h
    simp
  | cons a l ih =>
    rw [List.mapM_cons] at h
    obtain ⟨b, hb, h⟩ := Option.bind_eq_some_iff.mp h
    obtain ⟨rest, hrest, h⟩ := Option.bind_eq_some_iff.mp h
    obtain rfl := Option.some.inj h
    intro c hc
    rcases List.mem_cons.mp hc with rfl | hc
    · exact ⟨a, List.mem_cons_self, hb⟩
    · obtain ⟨a', ha', hc⟩ := ih hrest c hc
      exact ⟨a', List.mem_cons_of_mem _ ha', hc⟩

theorem listSubscriptionProxies_plain {identifier : Int} {entries : Option (List RawEntry)}
    {proxies : List RawProxy}
    (hplain : ∀ es ∈ entries, ∀ raw, RawEntry.object raw ∈ es → raw.status = none)
    (h : listSubscriptionProxies sha256 identifier entries = some proxies) :
    ∀ raw ∈ proxies, raw.status = none := by
  obtain ⟨es, hes, h⟩ := Option.bind_eq_some_iff.mp h
  intro raw hraw
  obtain ⟨entry, hentry, hnormal⟩ := mapM_option_mem h raw hraw
  exact RawEntry.normalize_plain (fun raw' hraw' => hplain es hes raw' (hraw' ▸ hentry)) hnormal

theorem fetch_plain {answers : Answers}
    (hplain : ∀ answer ∈ answers, ∀ es ∈ answer.2, ∀ raw, RawEntry.object raw ∈ es →
      raw.status = none) :
    ∀ p ∈ (fetch sha256 answers).1, ∀ raw ∈ p.2, raw.status = none := by
  induction answers with
  | nil => simp [fetch]
  | cons answer answers ih =>
    have hrest := ih fun a ha => hplain a (List.mem_cons_of_mem _ ha)
    have hhead := hplain answer List.mem_cons_self
    unfold fetch
    simp only
    split
    · simp
    · rename_i proxies hproxies
      intro p hp
      rcases List.mem_cons.mp hp with rfl | hp
      · split at hproxies
        · exact listSubscriptionProxies_plain hhead hproxies
        · obtain rfl := Option.some.inj hproxies
          simp
      · exact hrest p hp

end Fetch

section Attempt

variable {sha256 : String → String} {db db' : Db} {attempt : SyncAttempt} {i : String}

theorem relist_status (P : Prop) [Decidable P] (presence : Option (String × Option Timestamp)) :
    (relist P presence).map Prod.fst =
      if P then some ((presence.map Prod.fst).getD "active") else presence.map Prod.fst := by
  by_cases hP : P <;> simp [relist, hP]

/-- What a success leaves. -/
theorem syncAttempt_success (hplain : attempt.Plain)
    (hsync : syncAttempt sha256 db attempt = (db', true)) (hi : i ∈ attempt.listed sha256) :
    db'.presence i = some (((db.presence i).map Prod.fst).getD "active", none) := by
  unfold syncAttempt at hsync
  simp only at hsync
  split at hsync
  · obtain ⟨rfl, -⟩ := Prod.mk.inj hsync
    unfold SyncAttempt.listed at hi
    unfold syncInventory
    rw [syncMissing_presence, syncSubscriptions_presence (fetch_plain hplain)]
    simp [relist, hi]
  · cases (Prod.mk.inj hsync).2
  · cases (Prod.mk.inj hsync).2

/-- Any attempt keeps the row, and a mark that it carries. -/
theorem syncAttempt_kept (hplain : attempt.Plain) (i : String) :
    let presence' := (syncAttempt sha256 db attempt).1.presence i
    (presence' = none → db.presence i = none) ∧
    ((db.presence i).map Prod.fst = some "missing" → presence'.map Prod.fst = some "missing") := by
  have hrelist (P : Prop) [Decidable P] :
      (relist P (db.presence i) = none → db.presence i = none) ∧
      ((db.presence i).map Prod.fst = some "missing" →
        (relist P (db.presence i)).map Prod.fst = some "missing") := by
    rw [relist_status]
    refine ⟨fun h => ?_, fun h => ?_⟩
    · unfold relist at h
      split at h
      · cases h
      · exact h
    · simp [h]
  have hfetched : ∀ p ∈ (fetch sha256 attempt.answers).1, ∀ raw ∈ p.2, raw.status = none :=
    fetch_plain hplain
  unfold syncAttempt
  simp only
  split
  · unfold syncInventory
    rw [syncMissing_presence, syncSubscriptions_presence hfetched]
    have hlisted := hrelist (i ∈ (seenIn (fetch sha256 attempt.answers).1).assignments)
    refine ⟨fun h => hlisted.1 (Option.map_eq_none_iff.mp h), fun h => ?_⟩
    obtain ⟨p, hp, hmissing⟩ := Option.map_eq_some_iff.mp (hlisted.2 h)
    rw [hp, Option.map_some, Option.map_some]
    split
    · rfl
    · rw [hmissing]
  · rw [syncSubscriptions_presence hfetched]
    exact hrelist _
  · rw [syncSubscriptions_presence fun p hp => hfetched p (List.mem_of_mem_take hp)]
    exact hrelist _

end Attempt

/-! ## Runs of syncs -/

section Runs

variable {sha256 : String → String} {db₀ db : Db} {h : List (SyncAttempt × Db)} {i : String}

/-- Once marked, an assignment stays marked whatever the provider lists. -/
theorem Syncs.marked (run : Syncs sha256 db₀ h db)
    (hmarked : (db₀.presence i).map Prod.fst = some "missing") :
    (db.presence i).map Prod.fst = some "missing" := by
  refine run.invariant (I := fun _ db => (db.presence i).map Prod.fst = some "missing") hmarked ?_
  rintro h db attempt _ _ hmarked ⟨hplain, rfl⟩
  exact (syncAttempt_kept hplain i).2 hmarked

theorem Syncs.lastStatus_absent (run : Syncs sha256 db₀ h db) (habsent : db.presence i = none) :
    lastStatus db₀ i h = none := by
  induction run with
  | nil => simp [lastStatus, habsent]
  | snoc run hstep ih =>
    obtain ⟨hplain, rfl⟩ := hstep
    simp [lastStatus, habsent, ih ((syncAttempt_kept hplain i).1 habsent)]

theorem Syncs.lastStatus_unmarked (run : Syncs sha256 db₀ h db) {status : String}
    (hstatus : (db.presence i).map Prod.fst = some status) (hmark : status ≠ "missing") :
    lastStatus db₀ i h = some status := by
  cases run <;> simp [lastStatus, hstatus, hmark]

end Runs

/-- After a success of a run of syncs the listed assignments are what they were before they left the
inventory if and only if none of them was marked as missing. The mark is never taken back. -/
theorem relisted_restored_iff {sha256 : String → String} {db₀ db : Db}
    {h : List (SyncAttempt × Db)} (run : Syncs sha256 db₀ h db) {attempt : SyncAttempt}
    (hplain : attempt.Plain) {db' : Db} (hsync : syncAttempt sha256 db attempt = (db', true)) :
    ((∀ i ∈ attempt.listed sha256, ∃ a, Restored db₀ h db' i a) ↔
      ∀ i ∈ attempt.listed sha256, ∀ a, db.resolveAssignment i = some a → a.status ≠ "missing") ∧
    ∀ i a, db'.resolveAssignment i = some a → a.status = "missing" →
      ∀ {h' : List (SyncAttempt × Db)} {db'' : Db}, Syncs sha256 db' h' db'' →
        ∃ a', db''.resolveAssignment i = some a' ∧ a'.status = "missing" := by
  refine ⟨⟨fun hrestored i hi a ha hmarked => ?_, fun hunmarked i hi => ?_⟩,
    fun i a ha hmarked h' db'' run' => ?_⟩
  · obtain ⟨a', hstored, -, hmark, -⟩ := hrestored i hi
    have hleft := syncAttempt_success hplain hsync hi
    simp only [Db.presence, ha, hstored, Option.map_some, Option.getD_some, hmarked,
      Option.some.injEq, Prod.mk.injEq] at hleft
    exact hmark hleft.1
  · have hleft := syncAttempt_success hplain hsync hi
    have hstatus : ((db.presence i).map Prod.fst).getD "active" ≠ "missing" ∧
        ((db.presence i).map Prod.fst).getD "active" = (lastStatus db₀ i h).getD "active" := by
      cases hstored : db.resolveAssignment i with
      | none =>
        have habsent : db.presence i = none := by simp [Db.presence, hstored]
        simp [habsent, run.lastStatus_absent habsent]
      | some a =>
        have hthere : (db.presence i).map Prod.fst = some a.status := by simp [Db.presence, hstored]
        have hmark := hunmarked i hi a hstored
        simp [hthere, hmark, run.lastStatus_unmarked hthere hmark]
    obtain ⟨a, hstored, ha⟩ := Option.map_eq_some_iff.mp hleft
    obtain ⟨hsame, hmissing⟩ := Prod.mk.inj ha
    refine ⟨a, hstored, hmissing, hsame ▸ hstatus.1, hsame.trans hstatus.2,
      fun hoffered => ⟨hmissing, ?_⟩⟩
    unfold Assignment.InUse
    rw [hsame, hstatus.2]
    cases hlast : lastStatus db₀ i h with
    | none => exact .inl rfl
    | some status => exact hoffered status (by simp [hlast])
  · have hthere : (db'.presence i).map Prod.fst = some "missing" := by
      simp [Db.presence, ha, hmarked]
    have hlater := run'.marked hthere
    simp only [Db.presence, Option.map_map] at hlater
    obtain ⟨a', hstored, ha'⟩ := Option.map_eq_some_iff.mp hlater
    exact ⟨a', hstored, ha'⟩

namespace Scenario

/-- An answer with one subscription, and one proxy in it or none. -/
def answers (listed : Bool) : Answers :=
  [({ id := some (.number 1) },
    some (if listed then [.text "proxy.example:8080:1080:user:secret"] else []))]

def attempt (listed : Bool) (now : Timestamp) : SyncAttempt := { answers := answers listed, now }

/-- SHA-256 of the text above. -/
def sha256 (_ : String) : String :=
  "79c25d795842954f55b7d2dccc46a4cfab820fc3604ed21b44ebdee2e6400ac3"

/-- A sync that is stopped after a subscription without proxies. -/
def stopped (now : Timestamp) : SyncAttempt := { attempt false now with stopsAfter := some 1 }

def relistings (attempts : List SyncAttempt) : List (SyncAttempt × Db) :=
  History.replay (fun db attempt => (syncAttempt sha256 db attempt).1) {} attempts

def afterSyncs (attempts : List SyncAttempt) : Db := History.current {} (relistings attempts)

/-- The proxy is listed, not listed and listed again. -/
def relistedLate : Db :=
  (syncAttempt sha256 (afterSyncs [attempt true 0, attempt false 1]) (attempt true 2)).1

theorem plain (listed : Bool) (now : Timestamp) : (attempt listed now).Plain := by
  cases listed <;> simp [SyncAttempt.Plain, attempt, answers]

theorem syncs (attempts : List SyncAttempt)
    (hplain : History.Throughout (fun _ attempt => attempt.Plain) {} (relistings attempts)) :
    Syncs sha256 {} (relistings attempts) (History.current {} (relistings attempts)) := by
  have run := History.run_replay (fun db attempt => (syncAttempt sha256 db attempt).1) ({} : Db)
    attempts
  refine (run.throughout hplain).mono ?_
  rintro db attempt db' ⟨hnext, hplain⟩
  exact ⟨hplain, hnext⟩

end Scenario

open EarnProxy.Swap.Scenario in
/-- A proxy that a stopped sync was not told of is restored by the next one. Once a sync has
finished without it, it stays marked however often it is listed. -/
theorem relisted_restored_iff_stoppedBetween :
    ((attempt true 2).listed sha256 ≠ [] ∧ ∀ i ∈ (attempt true 2).listed sha256,
      ∃ a, Restored {} (relistings [attempt true 0, stopped 1])
        (syncAttempt sha256 (afterSyncs [attempt true 0, stopped 1]) (attempt true 2)).1 i a) ∧
    ∀ i ∈ (attempt true 2).listed sha256, ∃ a,
      (syncAttempt sha256 (relistedLate) (attempt true 3)).1.resolveAssignment i = some a ∧
        a.status = "missing" := by
  have run := syncs [attempt true 0, stopped 1] ⟨plain false 1, plain true 0, trivial⟩
  have late := syncs [attempt true 0, attempt false 1] ⟨plain false 1, plain true 0, trivial⟩
  refine ⟨⟨by decide +kernel, (relisted_restored_iff run (plain true 2)
    (Prod.ext rfl (by decide +kernel))).1.mpr (by decide +kernel)⟩, fun i hi => ?_⟩
  have hmarked : ∀ i ∈ (attempt true 2).listed sha256, ∃ a,
      relistedLate.resolveAssignment i = some a ∧ a.status = "missing" := by decide +kernel
  obtain ⟨a, ha, hstatus⟩ := hmarked i hi
  exact (relisted_restored_iff late (plain true 2) (Prod.ext rfl (by decide +kernel))).2 i a ha
    hstatus (.snoc .nil ⟨plain true 3, rfl⟩)

/-- A proxy that one sync was not told of stays marked when the next one lists it. -/
theorem relisted_not_restored_absentOnce :
    ∃ (h : List (SyncAttempt × Db)) (db db' : Db) (attempt : SyncAttempt),
      Syncs Scenario.sha256 {} h db ∧ attempt.Plain ∧
      syncAttempt Scenario.sha256 db attempt = (db', true) ∧
      ∃ i ∈ attempt.listed Scenario.sha256, ∃ a, db'.resolveAssignment i = some a ∧
        a.missingAt = none ∧ a.status = "missing" ∧ ¬ a.Offered := by
  have run := Scenario.syncs [Scenario.attempt true 0, Scenario.attempt false 1]
    ⟨Scenario.plain false 1, Scenario.plain true 0, trivial⟩
  refine ⟨_, _, _, Scenario.attempt true 2, run, Scenario.plain true 2,
    Prod.ext rfl (by decide +kernel), ?_⟩
  unfold Assignment.Offered Assignment.InUse
  decide +kernel

end EarnProxy.Swap

import EarnProxy.Library.History
import EarnProxy.Swap.Fence
import EarnProxy.Swap.Qualify

/-!
# Probes and the credentials that they used

Any number of qualifications run beside the inventory sync and the swap services. Each statement of
`qualify_proxiware_assignment` is a step of its own; its `UPDATE` looks at the generation of the
identity, and the reconciliation that follows it looks at nothing. A sync that changes the identity
of a row counts its generation up. `mark_provider_applied` empties a row and leaves the generation.
-/

namespace EarnProxy.Swap

/-- Where a qualification stands. -/
inductive QualifyWorker where
  | idle
  | probing (task : QualifyTask)
  | judged (task : QualifyTask) (finding : Finding)
  /-- `_identity_is_current` has passed. -/
  | checked (task : QualifyTask) (finding : Finding)
  /-- The row is written, the duplicates are still to be reconciled. -/
  | recorded (profile : Profile)
  | reconciling (profile : Profile) (rows : List Assignment) (flags : List Flags)
  deriving DecidableEq, Repr

structure QualifyState where
  db : Db
  workers : Nat → QualifyWorker := fun _ => .idle

def QualifyState.setWorker (s : QualifyState) (worker : Nat) (at_ : QualifyWorker) : QualifyState :=
  { s with workers := Function.update s.workers worker at_ }

/-- The calls that may change the identity of a row or delete it. -/
def Call.Official : Call → Prop
  | .syncSubscription _ | .syncMissing _ | .providerApplied .. | .succeed .. => True
  | _ => False

instance (call : Call) : Decidable call.Official := by
  rcases call with ⟨⟩ <;> unfold Call.Official <;> infer_instance

/-- The columns that the dashboard, the runner of the qualifications, the triggers and the schema
write. -/
def Assignment.touched (a row : Assignment) : Assignment :=
  { row with
    id := a.id, subscriptionId := a.subscriptionId, externalId := a.externalId, host := a.host
    port := a.port, username := a.username, password := a.password
    identityGeneration := a.identityGeneration }

/-- The tables of `other`, with the assignments of `db`. -/
def Db.withTables (db other : Db) : Db :=
  { other with assignments := db.assignments, assignmentSequence := db.assignmentSequence }

inductive QualifyAction where
  | start (worker assignmentId : Nat) (claimToken : Option String) (profile : Profile)
      (current : Timestamp) (checkIntervalSeconds retrySeconds : Int)
  /-- The adapters have returned or raised. -/
  | judge (worker : Nat) (users : List UserEgress) (probe : Option ProbeResult)
      (eligibility : Option Verdict)
  | check (worker : Nat)
  | write (worker : Nat)
  /-- The queries of the reconciliation return `rows`. -/
  | reconcileRead (worker : Nat) (users : List UserEgress) (rows : List Assignment)
    (now : Timestamp)
  | reconcileWrite (worker : Nat)
  | crash (worker : Nat)
  /-- A transaction of the sync or of a swap. -/
  | official (e : Event)
  /-- Another service writes the row under the same id. -/
  | touch (row : Assignment)
  /-- Another service writes the other tables. -/
  | tables (other : Db)

/-- The other tables keep their constraints. -/
def Db.TablesConstrained (other : Db) : Prop :=
  (other.subscriptions.map Subscription.id).Nodup ∧
  (other.subscriptions.map Subscription.externalId).Nodup ∧ (other.jobs.map Job.id).Nodup ∧
  JobsUnique other.jobs

instance (other : Db) : Decidable other.TablesConstrained := inferInstanceAs (Decidable (_ ∧ _))

/-- One action. -/
def QualifyState.next (isGlobal : IpAddress → Bool) (s : QualifyState) (action : QualifyAction) :
    Option QualifyState :=
  match action with
  | .start worker assignmentId claimToken profile current checkIntervalSeconds retrySeconds =>
    if s.workers worker = .idle then
      (qualifyRow s.db assignmentId claimToken).map fun row =>
        s.setWorker worker (.probing
          { row, claimToken, profile, current, checkIntervalSeconds, retrySeconds })
    else none
  | .judge worker users probe eligibility =>
    match s.workers worker with
    | .probing task =>
      some (s.setWorker worker
        (.judged task (task.judge isGlobal users s.db probe eligibility)))
    | _ => none
  | .check worker =>
    match s.workers worker with
    | .judged task finding =>
      some (s.setWorker worker
        (if identityIsCurrent s.db task then .checked task finding else .idle))
    | _ => none
  | .write worker =>
    match s.workers worker with
    | .checked task finding =>
      -- no row means that the identity has changed, which is raised
      if ∃ a ∈ s.db.assignments, task.Targets a then
        let db := s.db.updateAssignments (fun a => task.Targets a) (task.apply finding)
        let after := match finding with
          | .probeError => QualifyWorker.idle
          | .probed .. => .recorded task.profile
        some ({ s with db }.setWorker worker after)
      else some (s.setWorker worker .idle)
    | _ => none
  | .reconcileRead worker users rows now =>
    match s.workers worker with
    | .recorded profile =>
      -- the query has no order
      if rows.Perm (s.db.assignments.filter fun a => decide (a.missingAt = none)) then
        some (s.setWorker worker (.reconciling profile rows
          (reconcileFlags isGlobal users s.db rows now)))
      else none
    | _ => none
  | .reconcileWrite worker =>
    match s.workers worker with
    | .reconciling _ _ flags =>
      some ({ s with db := flags.foldl writeFlags s.db }.setWorker worker .idle)
    | _ => none
  | .crash worker => some (s.setWorker worker .idle)
  | .official e =>
    if e.call.Official then
      match s.db.transact e with
      | .ok db => some { s with db }
      | .error _ => some s
    else none
  | .touch row =>
    some { s with db := s.db.updateAssignment row.id fun a => a.touched row }
  | .tables other =>
    if other.TablesConstrained then some { s with db := s.db.withTables other } else none

/-- The actions of `h`, newest first, lead from `s₀` to `s`. -/
def QualifyRuns (isGlobal : IpAddress → Bool) (s₀ : QualifyState)
    (h : List (QualifyAction × QualifyState)) (s : QualifyState) : Prop :=
  History.Run (fun s a s' => s.next isGlobal a = some s') s₀ h s

/-- The action writes what a probe has shown to a row that no longer has the identity it was probed
with. -/
def Misplaces (s : QualifyState) (action : QualifyAction) : Prop :=
  match action with
  | .write worker => ∃ task finding, s.workers worker = .checked task finding ∧
      ∃ a ∈ s.db.assignments, task.Targets a ∧ a.identity task.profile ≠ task.identity
  | .reconcileWrite worker => ∃ profile rows flags,
      s.workers worker = .reconciling profile rows flags ∧
      ∃ r ∈ rows, ∃ a ∈ s.db.assignments, a.id = r.id ∧
        (∃ f ∈ flags, f.id = a.id ∧
          (a.duplicateEgress ≠ f.duplicate ∨ a.distributionEnabled ≠ f.distribution)) ∧
        a.identity profile ≠ r.identity profile
  | _ => False

/-- The identity that an entry of the inventory gives to the row, as a process of the profile reads
it. -/
def RawProxy.identityOver (raw : RawProxy) (a : Assignment) (port : Nat) (profile : Profile) :
    String × Nat × String × String :=
  assignmentIdentity (Text.strip raw.host) port (raw.username.getD (a.username.decrypted profile))
    (raw.password.getD (a.password.decrypted profile))

/-- The entry lists the row and gives it another identity. -/
def RawProxy.Changes (raw : RawProxy) (a : Assignment) (profile : Profile) : Prop :=
  ∃ port, raw.key? = some (a.externalId, port) ∧
    raw.identityOver a port profile ≠ a.identity profile

/-- The transaction leaves the identity of the row `i` alone, or counts its generation up. -/
def Event.Announces (db : Db) (e : Event) (i : Nat) (profile : Profile) : Prop :=
  match e.call with
  | .providerApplied _ _ newExternal _ _ =>
    ∀ r ∈ db.resolveAssignment (Text.strip (newExternal.getD "")), r.id ≠ i
  | .syncSubscription payload => ∀ a ∈ db.assignments, a.id = i → ∀ raw ∈ payload.2,
      raw.Changes a profile → raw.Changes a e.profile
  | _ => True

/-- The transaction leaves the identity of the row `i` alone. -/
def Event.Keeps (db : Db) (e : Event) (i : Nat) (profile : Profile) : Prop :=
  match e.call with
  | .providerApplied _ _ newExternal _ _ =>
    ∀ r ∈ db.resolveAssignment (Text.strip (newExternal.getD "")), r.id ≠ i
  | .syncSubscription payload => ∀ a ∈ db.assignments, a.id = i → ∀ raw ∈ payload.2,
      ¬ raw.Changes a profile
  | _ => True

/-- No row is emptied between the check and the `UPDATE` of a qualification, and no identity is
changed between the query and the `UPDATE` of a reconciliation. -/
def Spares (s : QualifyState) (action : QualifyAction) : Prop :=
  match action with
  | .official e => ∀ worker,
      (∀ task finding, s.workers worker = .checked task finding →
        e.Announces s.db task.row.id task.profile) ∧
      ∀ profile rows flags, s.workers worker = .reconciling profile rows flags →
        ∀ r ∈ rows, e.Keeps s.db r.id profile
  | _ => True

/-! ## Identities of rows -/

/-- The rows with the id `i` come from such rows, in the relation `R`. -/
def Carried (R : Assignment → Assignment → Prop) (i : Nat) (rows rows' : List Assignment) : Prop :=
  ∀ a' ∈ rows', a'.id = i → ∃ a ∈ rows, a.id = i ∧ a'.externalId = a.externalId ∧ R a a'

/-- The same credentials, under the same generation. -/
structure Assignment.SameCredentials (a a' : Assignment) : Prop where
  host : a'.host = a.host
  port : a'.port = a.port
  username : a'.username = a.username
  password : a'.password = a.password
  generation : a'.identityGeneration = a.identityGeneration

/-- A change of the identity is counted. -/
structure Assignment.Follows (profile : Profile) (a a' : Assignment) : Prop where
  generation : a.identityGeneration ≤ a'.identityGeneration
  identity : a'.identityGeneration = a.identityGeneration → a'.identity profile = a.identity profile

section Rows

variable {R : Assignment → Assignment → Prop} {i : Nat} {rows rows' rows'' : List Assignment}
  {a a' : Assignment} {profile : Profile}

theorem Assignment.SameCredentials.refl (a : Assignment) : a.SameCredentials a :=
  ⟨rfl, rfl, rfl, rfl, rfl⟩

theorem Assignment.SameCredentials.identity (h : a.SameCredentials a') :
    a'.identity profile = a.identity profile := by
  simp [Assignment.identity, h.host, h.port, h.username, h.password]

theorem Assignment.SameCredentials.follows (h : a.SameCredentials a') : a.Follows profile a' :=
  ⟨h.generation.ge, fun _ => h.identity⟩

theorem Assignment.SameCredentials.trans {a'' : Assignment} (h : a.SameCredentials a')
    (h' : a'.SameCredentials a'') : a.SameCredentials a'' :=
  ⟨h'.host.trans h.host, h'.port.trans h.port, h'.username.trans h.username,
    h'.password.trans h.password, h'.generation.trans h.generation⟩

theorem Carried.refl (hrefl : ∀ a, R a a) : Carried R i rows rows :=
  fun a ha hi => ⟨a, ha, hi, rfl, hrefl a⟩

theorem Carried.mono {R' : Assignment → Assignment → Prop} (h : Carried R i rows rows')
    (himp : ∀ a ∈ rows, ∀ a', R a a' → R' a a') : Carried R' i rows rows' := by
  intro a' ha' hi
  obtain ⟨a, ha, hid, hexternal, hR⟩ := h a' ha' hi
  exact ⟨a, ha, hid, hexternal, himp a ha a' hR⟩

theorem Carried.trans (h : Carried Assignment.SameCredentials i rows rows')
    (h' : Carried Assignment.SameCredentials i rows' rows'') :
    Carried Assignment.SameCredentials i rows rows'' := by
  intro a'' ha'' hi
  obtain ⟨a', ha', hid', hexternal', hsame'⟩ := h' a'' ha'' hi
  obtain ⟨a, ha, hid, hexternal, hsame⟩ := h a' ha' hid'
  exact ⟨a, ha, hid, hexternal'.trans hexternal, hsame.trans hsame'⟩

/-- A statement that leaves the credentials of the row alone. -/
theorem Carried.update {p : Assignment → Prop} [DecidablePred p] {f : Assignment → Assignment}
    (hkeys : ∀ a, (f a).id = a.id ∧ (f a).externalId = a.externalId)
    (hsame : ∀ a, p a → a.id = i → a.SameCredentials (f a)) (rows : List Assignment) :
    Carried Assignment.SameCredentials i rows (Table.update p f rows) := by
  intro a' ha' hi
  obtain ⟨a, ha, rfl⟩ := Table.mem_update.mp ha'
  by_cases hp : p a
  · rw [if_pos hp] at hi ⊢
    have hid : a.id = i := (hkeys a).1.symm.trans hi
    exact ⟨a, ha, hid, (hkeys a).2, hsame a hp hid⟩
  · rw [if_neg hp] at hi ⊢
    exact ⟨a, ha, hi, rfl, .refl a⟩

theorem Carried.filter (p : Assignment → Bool) (rows : List Assignment) :
    Carried Assignment.SameCredentials i rows (rows.filter p) :=
  fun a ha hi => ⟨a, List.mem_of_mem_filter ha, hi, rfl, .refl a⟩

end Rows

/-! ## The sync -/

section Sync

variable {a b : Assignment} {raw : RawProxy} {port : Nat} {profile q : Profile}

@[simp] theorem Secret.decrypted_encrypt (text : String) (profile : Profile) :
    (Secret.encrypt text).decrypted profile = text := by
  cases profile with
  | web => rfl
  | worker =>
    by_cases h : text = "" <;>
      simp [Secret.decrypted, Secret.decrypt, Secret.encrypt, Option.filter, h]

theorem getD_decrypted (text : Option String) (secret : Secret) (profile : Profile) :
    ((text.map Secret.encrypt).getD secret).decrypted profile =
      text.getD (secret.decrypted profile) := by
  cases text <;> simp

/-- The row that a sync updates has the identity of the entry, and a new generation if the process
of the sync sees a change. -/
theorem RawProxy.updated_identity (raw : RawProxy) (a : Assignment) (subscriptionId port : Nat)
    (q : Profile) (now : Timestamp) :
    let row := raw.updated a subscriptionId port q now
    (∀ profile, row.identity profile = raw.identityOver a port profile) ∧
    row.identityGeneration =
      if a.identity q = raw.identityOver a port q then a.identityGeneration
      else a.identityGeneration + 1 := by
  unfold RawProxy.updated
  dsimp only
  split
  · rename_i hsame
    refine ⟨fun profile => ?_, (if_pos hsame).symm⟩
    simp [Assignment.identity, RawProxy.identityOver, getD_decrypted]
  · rename_i hchanged
    refine ⟨fun profile => ?_, (if_neg hchanged).symm⟩
    simp [Assignment.identity, RawProxy.identityOver, Assignment.replaced, getD_decrypted]

/-- Two rows with one identity are given one identity. -/
theorem RawProxy.identityOver_congr (h : b.identity profile = a.identity profile) :
    raw.identityOver b port profile = raw.identityOver a port profile := by
  obtain ⟨-, -, husername, hpassword⟩ : normalized b.host = normalized a.host ∧ b.port = a.port ∧
      b.username.decrypted profile = a.username.decrypted profile ∧
      b.password.decrypted profile = a.password.decrypted profile := by
    simpa [Assignment.identity, assignmentIdentity] using h
  simp [RawProxy.identityOver, husername, hpassword]

/-- The rows of the table after the entries of one subscription. -/
theorem syncProxies_carried {R : Assignment → Assignment → Prop} {i subscriptionId : Nat}
    {rows : List Assignment} {raws : List RawProxy} {now : Timestamp}
    (hupdate : ∀ raw ∈ raws, ∀ a ∈ rows, a.id = i → ∀ b, b.externalId = a.externalId → R a b →
      ∀ port, raw.key? = some (a.externalId, port) →
        R a (raw.updated b subscriptionId port q now)) :
    ∀ db : Db, i ≤ db.assignmentSequence → Carried R i rows db.assignments →
      Carried R i rows (raws.foldl (syncProxy subscriptionId q now) db).assignments := by
  induction raws with
  | nil => exact fun _ _ h => h
  | cons raw raws ih =>
    intro db hi hdb
    rw [List.foldl_cons]
    have hrest := ih fun raw' hraw' => hupdate raw' (List.mem_cons_of_mem _ hraw')
    unfold syncProxy
    split
    · exact hrest db hi hdb
    · rename_i externalId port hkey
      split
      · refine hrest _ (Nat.le_succ_of_le hi) fun a' ha' hid => ?_
        rcases List.mem_append.mp ha' with ha' | ha'
        · exact hdb a' ha' hid
        · -- the new row has a new id
          obtain rfl := List.mem_singleton.mp ha'
          have hnew : db.assignmentSequence + 1 = i := hid
          omega
      · refine hrest _ hi fun a' ha' hid => ?_
        obtain ⟨b, hb, rfl⟩ := Table.mem_update.mp ha'
        by_cases hlisted : b.externalId = externalId
        · rw [if_pos hlisted] at hid ⊢
          obtain ⟨hsameId, hsameExternal⟩ := raw.updated_same b subscriptionId port q now
          obtain ⟨a, ha, hida, hexternal, hR⟩ := hdb b hb (hsameId.symm.trans hid)
          refine ⟨a, ha, hida, hsameExternal.trans hexternal, ?_⟩
          refine hupdate raw List.mem_cons_self a ha hida b hexternal hR port ?_
          rw [hkey, ← hlisted, hexternal]
        · rw [if_neg hlisted] at hid ⊢
          exact hdb b hb hid

theorem syncSubscription_carried {R : Assignment → Assignment → Prop} {i : Nat} {db : Db}
    {payload : RawSubscription × List RawProxy} {now : Timestamp} (hi : i ≤ db.assignmentSequence)
    (hrefl : ∀ a, R a a)
    (hupdate : ∀ raw ∈ payload.2, ∀ a ∈ db.assignments, a.id = i → ∀ b,
      b.externalId = a.externalId → R a b → ∀ port, raw.key? = some (a.externalId, port) →
      ∀ subscriptionId, R a (raw.updated b subscriptionId port q now)) :
    Carried R i db.assignments (syncSubscription q now db payload).assignments := by
  unfold syncSubscription
  split
  · exact .refl hrefl
  · rename_i externalId _
    obtain ⟨subscriptions, hupsert⟩ := upsertSubscription_eq db payload.1 externalId now
    refine syncProxies_carried (fun raw hraw a ha hid b hb hR port hkey =>
      hupdate raw hraw a ha hid b hb hR port hkey _)
      (upsertSubscription db payload.1 externalId now).1 (by rw [hupsert]; exact hi) ?_
    rw [hupsert]
    exact .refl hrefl

/-- A sync that does not change the identity for a process of `profile` either changes it for its
own process, and counts that, or changes it for nobody. -/
theorem syncSubscription_follows {i : Nat} {db : Db} {payload : RawSubscription × List RawProxy}
    {now : Timestamp} (hi : i ≤ db.assignmentSequence)
    (hannounces : ∀ a ∈ db.assignments, a.id = i → ∀ raw ∈ payload.2, raw.Changes a profile →
      raw.Changes a q) :
    Carried (Assignment.Follows profile) i db.assignments
      (syncSubscription q now db payload).assignments := by
  -- until the generation counts, neither process sees a change
  suffices hboth : Carried (fun a b => a.Follows profile b ∧ a.Follows q b) i db.assignments
      (syncSubscription q now db payload).assignments from hboth.mono fun _ _ _ h => h.1
  refine syncSubscription_carried hi (fun a => ?_) ?_
  · exact ⟨(Assignment.SameCredentials.refl a).follows, (Assignment.SameCredentials.refl a).follows⟩
  rintro raw hraw a ha hid b hb ⟨hp, hq⟩ port hkey subscriptionId
  obtain ⟨hidentity, hgeneration⟩ := raw.updated_identity b subscriptionId port q now
  by_cases hseen : b.identity q = raw.identityOver b port q
  · rw [if_pos hseen] at hgeneration
    have hle : a.identityGeneration ≤
        (raw.updated b subscriptionId port q now).identityGeneration := by
      rw [hgeneration]
      exact hp.generation
    refine ⟨⟨hle, fun hsame => ?_⟩, ⟨hle, fun hsame => ?_⟩⟩
    · rw [hgeneration] at hsame
      have hbq := hq.identity hsame
      have hbp := hp.identity hsame
      have hunchanged : ¬ raw.Changes a q := by
        rintro ⟨port', hkey', hne⟩
        obtain rfl : port' = port := by simpa [hkey] using hkey'.symm
        exact hne ((RawProxy.identityOver_congr hbq).symm.trans (hseen.symm.trans hbq))
      rw [hidentity profile, RawProxy.identityOver_congr hbp]
      by_contra hne
      exact hunchanged (hannounces a ha hid raw hraw ⟨port, hkey, hne⟩)
    · rw [hgeneration] at hsame
      rw [hidentity q, ← hseen]
      exact hq.identity hsame
  · rw [if_neg hseen] at hgeneration
    have hlt := hp.generation
    have hnew : ∀ p, a.Follows p (raw.updated b subscriptionId port q now) := fun p =>
      ⟨by omega, fun hsame => by omega⟩
    exact ⟨hnew profile, hnew q⟩

theorem syncSubscription_keeps {i : Nat} {db : Db} {payload : RawSubscription × List RawProxy}
    {now : Timestamp} (hi : i ≤ db.assignmentSequence)
    (hkeeps : ∀ a ∈ db.assignments, a.id = i → ∀ raw ∈ payload.2, ¬ raw.Changes a profile) :
    Carried (fun a b => b.identity profile = a.identity profile) i db.assignments
      (syncSubscription q now db payload).assignments := by
  refine syncSubscription_carried hi (fun _ => rfl) ?_
  intro raw hraw a ha hid b hb hsame port hkey subscriptionId
  rw [(raw.updated_identity b subscriptionId port q now).1, RawProxy.identityOver_congr hsame]
  by_contra hne
  exact hkeeps a ha hid raw hraw ⟨port, hkey, hne⟩

/-- Nothing that a probe or the dashboard has shown is left. -/
structure Assignment.Cleared (a : Assignment) : Prop where
  exitIp : a.exitIp = none
  egressVerifiedAt : a.egressVerifiedAt = none
  dashboard : a.dashboardAssignmentId = none ∧ a.dashboardEligible = none ∧
    a.dashboardConnections = none ∧ a.dashboardObservedAt = none ∧ a.dashboardSource = ""
  claim : a.qualificationClaimedUntil = none ∧ a.qualificationClaimToken = none
  flags : a.duplicateEgress = false ∧ a.distributionEnabled = false

theorem RawProxy.updated_cleared (raw : RawProxy) (a : Assignment) (subscriptionId port : Nat)
    (q : Profile) (now : Timestamp) (h : a.identity q = raw.identityOver a port q → a.Cleared) :
    (raw.updated a subscriptionId port q now).Cleared := by
  unfold RawProxy.updated
  dsimp only
  split
  · rename_i hsame
    obtain ⟨hexit, hverified, hdashboard, hclaim, hflags⟩ := h hsame
    exact ⟨hexit, hverified, hdashboard, hclaim, hflags⟩
  · exact ⟨rfl, rfl, ⟨rfl, rfl, rfl, rfl, rfl⟩, ⟨rfl, rfl⟩, rfl, rfl⟩

/-- A sync that changes the identity of a row clears it, for every process whose changes the process
of the sync sees. -/
theorem syncSubscription_cleared {i : Nat} {db : Db} {payload : RawSubscription × List RawProxy}
    {now : Timestamp} (hi : i ≤ db.assignmentSequence)
    (hsees : ∀ a ∈ db.assignments, a.id = i → ∀ raw ∈ payload.2,
      raw.Changes a profile → raw.Changes a q) :
    Carried (fun a b => b.identity profile ≠ a.identity profile ∨ b.identity q ≠ a.identity q →
      b.Cleared) i db.assignments (syncSubscription q now db payload).assignments := by
  refine syncSubscription_carried hi (fun a hne => by simp at hne) ?_
  intro raw hraw a ha hid b _ hcleared port hkey subscriptionId hchanged
  refine raw.updated_cleared b subscriptionId port q now fun hsame => ?_
  obtain ⟨hidentity, -⟩ := raw.updated_identity b subscriptionId port q now
  rw [hidentity, hidentity, ← hsame] at hchanged
  by_contra hkept
  have hkeeps : b.identity profile = a.identity profile ∧ b.identity q = a.identity q := by
    by_contra hne
    exact hkept (hcleared (not_and_or.mp hne))
  obtain ⟨hprofile, hq⟩ := hkeeps
  -- the entry changes what the other process sees, and so what this one sees
  have hother : raw.identityOver a port profile ≠ a.identity profile := by
    rw [← RawProxy.identityOver_congr hprofile]
    exact hchanged.resolve_right (not_not.mpr hq)
  obtain ⟨port', hkey', hne⟩ := hsees a ha hid raw hraw ⟨port, hkey, hother⟩
  obtain rfl : port = port' := by
    rw [hkey] at hkey'
    simpa using hkey'
  rw [← RawProxy.identityOver_congr hq, ← hsame] at hne
  exact hne hq

end Sync

/-! ## The other transactions -/

section Official

variable {db db' : Db} {e : Event} {i : Nat}

theorem syncMissing_carried (db : Db) (seen : Seen) (now : Timestamp) :
    Carried Assignment.SameCredentials i db.assignments (syncMissing db seen now).assignments := by
  refine Carried.update ?_ ?_ db.assignments
  · intro a
    exact ⟨rfl, rfl⟩
  · intro a _ _
    exact ⟨rfl, rfl, rfl, rfl, rfl⟩

/-- A statement on one row that writes other columns. -/
theorem updateAssignment_carried (db : Db) (k : Nat) {f : Assignment → Assignment}
    (hkeys : ∀ a, (f a).id = a.id ∧ (f a).externalId = a.externalId)
    (hsame : ∀ a : Assignment, a.SameCredentials (f a)) :
    Carried Assignment.SameCredentials i db.assignments (db.updateAssignment k f).assignments :=
  .update hkeys (fun a _ _ => hsame a) db.assignments

theorem markProviderApplied_carried {jobId : Nat} {oldExternal : String}
    {newExternal newAddress claimToken : Option String} {current : Timestamp}
    (hspares : ∀ r ∈ db.resolveAssignment (Text.strip (newExternal.getD "")), r.id ≠ i)
    (h : markProviderApplied db jobId oldExternal newExternal newAddress claimToken current =
      .ok db') : Carried Assignment.SameCredentials i db.assignments db'.assignments := by
  obtain ⟨_, _, _, _, k, db₁, _, hempties, h⟩ := markProviderApplied_ok h
  have hunobserved : Carried Assignment.SameCredentials i db.assignments
      (db.updateAssignment k fun a => a.unobserved current).assignments := by
    refine updateAssignment_carried db k ?_ ?_
    · intro a
      exact ⟨rfl, rfl⟩
    · intro a
      exact ⟨rfl, rfl, rfl, rfl, rfl⟩
  obtain ⟨rfl, -⟩ := updateJobs_ok h
  cases hempties with
  | unknown => exact hunobserved
  | known r hr =>
    -- the row that is emptied is another one
    have hother : r.id ≠ i := by
      unfold Db.resolveAssignment Db.updateAssignment Db.updateAssignments Table.update at hr
      rw [Table.lookup_map fun a _ => by split <;> rfl] at hr
      obtain ⟨r₀, hr₀, rfl⟩ := Option.map_eq_some_iff.mp hr
      have hne := hspares r₀ hr₀
      split <;> exact hne
    refine hunobserved.trans (Carried.update ?_ ?_ _)
    · intro a
      exact ⟨rfl, rfl⟩
    · intro a ha hid
      exact absurd (ha.symm.trans hid) hother

theorem markSwapSuccess_carried {jobId : Nat} {oldExternal : String} {newExternal : Option String}
    {newAddress : Option (Option Endpoint)} {claimToken : Option String} {current : Timestamp}
    {profile : Profile}
    (h : markSwapSuccess db jobId oldExternal newExternal newAddress claimToken current profile =
      .ok db') : Carried Assignment.SameCredentials i db.assignments db'.assignments := by
  obtain ⟨_, _, _, old, new, _, _, _, h⟩ := markSwapSuccess_ok h
  obtain ⟨_, _, readyAt, rfl⟩ := closeSuccess_ok h
  have hreplacing : Carried Assignment.SameCredentials i db.assignments
      (db.updateAssignment new.id fun a => a.replacing readyAt current).assignments := by
    refine updateAssignment_carried db new.id ?_ ?_
    · intro a
      exact ⟨rfl, rfl⟩
    · intro a
      exact ⟨rfl, rfl, rfl, rfl, rfl⟩
  exact hreplacing.trans (.filter _ _)

/-- A transaction other than a sync of a subscription. -/
theorem official_carried (hofficial : e.call.Official) (h : db.transact e = .ok db')
    (hsync : ∀ payload, e.call ≠ .syncSubscription payload)
    (hspares : ∀ jobId oldExternal newExternal newAddress claimToken,
      e.call = .providerApplied jobId oldExternal newExternal newAddress claimToken →
      ∀ r ∈ db.resolveAssignment (Text.strip (newExternal.getD "")), r.id ≠ i) :
    Carried Assignment.SameCredentials i db.assignments db'.assignments := by
  unfold Db.transact at h
  cases hcall : e.call with
  | syncSubscription payload => exact absurd hcall (hsync payload)
  | syncMissing seen =>
    rw [hcall] at h
    obtain rfl := Except.ok.inj h
    exact syncMissing_carried db seen e.now
  | providerApplied jobId oldExternal newExternal newAddress claimToken =>
    rw [hcall] at h
    exact markProviderApplied_carried (hspares _ _ _ _ _ hcall) h
  | succeed jobId oldExternal newExternal newAddress claimToken =>
    rw [hcall] at h
    exact markSwapSuccess_carried h
  | _ =>
    rw [hcall] at hofficial
    exact hofficial.elim

theorem official_follows {profile : Profile} (hi : i ≤ db.assignmentSequence)
    (hofficial : e.call.Official) (h : db.transact e = .ok db')
    (hannounces : e.Announces db i profile) :
    Carried (Assignment.Follows profile) i db.assignments db'.assignments := by
  by_cases hsync : ∃ payload, e.call = .syncSubscription payload
  · obtain ⟨payload, hcall⟩ := hsync
    unfold Db.transact at h
    unfold Event.Announces at hannounces
    rw [hcall] at h hannounces
    obtain rfl := Except.ok.inj h
    exact syncSubscription_follows hi hannounces
  · refine (official_carried hofficial h (fun payload hcall => hsync ⟨payload, hcall⟩) ?_).mono
      fun _ _ _ hsame => hsame.follows
    intro jobId oldExternal newExternal newAddress claimToken hcall
    unfold Event.Announces at hannounces
    rwa [hcall] at hannounces

theorem official_keeps {profile : Profile} (hi : i ≤ db.assignmentSequence)
    (hofficial : e.call.Official) (h : db.transact e = .ok db') (hkeeps : e.Keeps db i profile) :
    Carried (fun a b => b.identity profile = a.identity profile) i db.assignments
      db'.assignments := by
  by_cases hsync : ∃ payload, e.call = .syncSubscription payload
  · obtain ⟨payload, hcall⟩ := hsync
    unfold Db.transact at h
    unfold Event.Keeps at hkeeps
    rw [hcall] at h hkeeps
    obtain rfl := Except.ok.inj h
    exact syncSubscription_keeps hi hkeeps
  · refine (official_carried hofficial h (fun payload hcall => hsync ⟨payload, hcall⟩) ?_).mono
      fun _ _ _ hsame => hsame.identity
    intro jobId oldExternal newExternal newAddress claimToken hcall
    unfold Event.Keeps at hkeeps
    rwa [hcall] at hkeeps

end Official

/-! ## Every run -/

/-- What the next statement of the worker relies on. -/
def QualifyWorker.Placed (db : Db) : QualifyWorker → Prop
  | .checked task _ => task.row.id ≤ db.assignmentSequence ∧
      ∀ a ∈ db.assignments, a.id = task.row.id → task.row.Follows task.profile a
  | .reconciling profile rows _ => ∀ r ∈ rows, r.id ≤ db.assignmentSequence ∧
      ∀ a ∈ db.assignments, a.id = r.id → a.identity profile = r.identity profile
  | _ => True

structure QualifyState.Sound (s : QualifyState) : Prop where
  constrained : s.db.Constrained
  placed : ∀ worker, (s.workers worker).Placed s.db

section Step

variable {isGlobal : IpAddress → Bool} {s s' : QualifyState} {db' : Db}

theorem Assignment.Follows.trans {profile : Profile} {a b c : Assignment} (h : a.Follows profile b)
    (h' : b.Follows profile c) : a.Follows profile c where
  generation := h.generation.trans h'.generation
  identity := fun hsame => by
    have hmiddle : b.identityGeneration = a.identityGeneration :=
      le_antisymm (h'.generation.trans hsame.le) h.generation
    exact (h'.identity (hsame.trans hmiddle.symm)).trans (h.identity hmiddle)

/-- Another table under the same workers. -/
theorem QualifyState.Sound.moved (h : s.Sound) (hconstrained : db'.Constrained)
    (hsequence : s.db.assignmentSequence ≤ db'.assignmentSequence)
    (hchecked : ∀ worker task finding, s.workers worker = .checked task finding →
      Carried (Assignment.Follows task.profile) task.row.id s.db.assignments db'.assignments)
    (hreconciling :
      ∀ worker profile rows flags, s.workers worker = .reconciling profile rows flags →
      ∀ r ∈ rows, Carried (fun a b => b.identity profile = a.identity profile) r.id
        s.db.assignments db'.assignments) : ({ s with db := db' } : QualifyState).Sound := by
  refine ⟨hconstrained, fun worker => ?_⟩
  have hplaced := h.placed worker
  show (s.workers worker).Placed db'
  cases hworker : s.workers worker with
  | checked task finding =>
    rw [hworker] at hplaced
    refine ⟨hplaced.1.trans hsequence, fun a' ha' hid => ?_⟩
    obtain ⟨a, ha, hida, -, hfollows⟩ := hchecked worker task finding hworker a' ha' hid
    exact (hplaced.2 a ha hida).trans hfollows
  | reconciling profile rows flags =>
    rw [hworker] at hplaced
    refine fun r hr => ⟨(hplaced r hr).1.trans hsequence, fun a' ha' hid => ?_⟩
    obtain ⟨a, ha, hida, -, hsame⟩ := hreconciling worker profile rows flags hworker r hr a' ha' hid
    exact hsame.trans ((hplaced r hr).2 a ha hida)
  | _ => trivial

/-- A write that leaves all credentials alone. -/
theorem QualifyState.Sound.kept (h : s.Sound) (hconstrained : db'.Constrained)
    (hsequence : s.db.assignmentSequence ≤ db'.assignmentSequence)
    (hcarried : ∀ i, Carried Assignment.SameCredentials i s.db.assignments db'.assignments) :
    ({ s with db := db' } : QualifyState).Sound :=
  h.moved hconstrained hsequence (fun _ _ _ _ => (hcarried _).mono fun _ _ _ hsame => hsame.follows)
    fun _ _ _ _ _ _ _ => (hcarried _).mono fun _ _ _ hsame => hsame.identity

theorem QualifyState.Sound.setWorker (h : s.Sound) {at_ : QualifyWorker} (worker : Nat)
    (hplaced : at_.Placed s.db) : (s.setWorker worker at_).Sound := by
  refine ⟨h.constrained, fun w => ?_⟩
  by_cases hw : w = worker
  · subst hw
    simpa [QualifyState.setWorker] using hplaced
  · simpa [QualifyState.setWorker, hw] using h.placed w

theorem Db.Constrained.ofInventory {db : Db} (h : db.Constrained) (hjobs : db'.jobs = db.jobs)
    (hinventory : Inventory db db') : db'.Constrained :=
  ⟨hinventory.keyed h.toKeyed, hjobs ▸ h.jobIds, hjobs ▸ h.jobsUnique⟩

theorem identityIsCurrent_placed {task : QualifyTask} {finding : Finding} (h : s.db.Constrained)
    (hcurrent : identityIsCurrent s.db task) :
    (QualifyWorker.checked task finding).Placed s.db := by
  obtain ⟨a, ha, hgeneration, hidentity⟩ := hcurrent
  obtain ⟨hfound, -⟩ := Option.filter_eq_some_iff.mp ha
  have hmem := Table.mem_of_lookup hfound
  have hid := Table.key_of_lookup hfound
  refine ⟨hid ▸ h.assignmentSequence a hmem, fun b hb hb' => ?_⟩
  obtain rfl := h.assignmentIds.eq hb hmem (hb'.trans hid.symm)
  exact ⟨hgeneration.ge, fun _ => hidentity⟩

theorem writeFlags_carried (flags : List Flags) : ∀ db : Db,
    (flags.foldl writeFlags db).jobs = db.jobs ∧
    (flags.foldl writeFlags db).assignmentSequence = db.assignmentSequence ∧
    Inventory db (flags.foldl writeFlags db) ∧
    ∀ i, Carried Assignment.SameCredentials i db.assignments
      (flags.foldl writeFlags db).assignments := by
  induction flags with
  | nil => exact fun db => ⟨rfl, rfl, .refl db, fun i => .refl .refl⟩
  | cons f flags ih =>
    intro db
    obtain ⟨hjobs, hsequence, hinventory, hcarried⟩ := ih (writeFlags db f)
    refine ⟨hjobs, hsequence, Inventory.trans ?_ hinventory, fun i => Carried.trans ?_ (hcarried i)⟩
    · refine Inventory.updateAssignments db ?_
      intro a
      exact ⟨rfl, rfl⟩
    · refine Carried.update ?_ ?_ db.assignments
      · intro a
        exact ⟨rfl, rfl⟩
      · intro a _ _
        exact ⟨rfl, rfl, rfl, rfl, rfl⟩

theorem apply_same (task : QualifyTask) (finding : Finding) (a : Assignment) :
    ((task.apply finding a).id = a.id ∧ (task.apply finding a).externalId = a.externalId) ∧
      a.SameCredentials (task.apply finding a) := by
  cases finding <;> exact ⟨⟨rfl, rfl⟩, rfl, rfl, rfl, rfl, rfl⟩

theorem Change.sequence {db : Db} {e : Event} (h : Change db e db') :
    db.assignmentSequence ≤ db'.assignmentSequence := by
  cases h with
  | quiet _ _ hinventory | moved _ _ _ _ _ hinventory | claimed _ _ _ _ _ _ _ _ hinventory
    | recovered _ _ _ hinventory | queued _ _ _ _ _ _ hinventory => exact hinventory.sequence
  | succeeded _ _ _ _ _ _ hsequence _ => exact hsequence.ge

theorem official_sound {e : Event} (h : s.Sound) (hspares : Spares s (.official e))
    (hofficial : e.call.Official) (htransact : s.db.transact e = .ok db') :
    ({ s with db := db' } : QualifyState).Sound := by
  have hchange := transact_change h.constrained.jobIds h.constrained.jobsUnique htransact
  refine h.moved (hchange.constrained h.constrained) hchange.sequence ?_ ?_
  · intro worker task finding hworker
    have hplaced := h.placed worker
    rw [hworker] at hplaced
    exact official_follows hplaced.1 hofficial htransact ((hspares worker).1 task finding hworker)
  · intro worker profile rows flags hworker r hr
    have hplaced := h.placed worker
    rw [hworker] at hplaced
    exact official_keeps (hplaced r hr).1 hofficial htransact
      ((hspares worker).2 profile rows flags hworker r hr)

/-- The rows that the query of a reconciliation returns. -/
theorem reconcileRead_placed {profile : Profile} {rows : List Assignment} {flags : List Flags}
    (h : s.db.Constrained)
    (hrows : rows.Perm (s.db.assignments.filter fun a => decide (a.missingAt = none))) :
    (QualifyWorker.reconciling profile rows flags).Placed s.db := by
  intro r hr
  have hmem : r ∈ s.db.assignments := List.mem_of_mem_filter (hrows.subset hr)
  refine ⟨h.assignmentSequence r hmem, fun a ha hid => ?_⟩
  rw [h.assignmentIds.eq ha hmem hid]

/-- The other services keep the constraints and the identities. -/
theorem touch_sound (h : s.Sound) (row : Assignment) :
    ({ s with db := s.db.updateAssignment row.id fun a => a.touched row } :
      QualifyState).Sound := by
  refine h.kept (h.constrained.ofInventory rfl (.updateAssignments _ fun a => ?_)) le_rfl
    fun i => ?_
  · exact ⟨rfl, rfl⟩
  · refine updateAssignment_carried s.db row.id ?_ ?_
    · intro a
      exact ⟨rfl, rfl⟩
    · intro a
      exact ⟨rfl, rfl, rfl, rfl, rfl⟩

theorem tables_sound (h : s.Sound) {other : Db} (hother : other.TablesConstrained) :
    ({ s with db := s.db.withTables other } : QualifyState).Sound := by
  obtain ⟨hsubscriptionIds, hsubscriptionExternalIds, hjobIds, hjobsUnique⟩ := hother
  have hkeyed := h.constrained.toKeyed
  exact h.kept ⟨⟨hsubscriptionIds, hsubscriptionExternalIds, hkeyed.assignmentIds,
    hkeyed.assignmentExternalIds, hkeyed.assignmentSequence⟩, hjobIds, hjobsUnique⟩ le_rfl
    fun _ => .refl .refl

theorem write_sound (h : s.Sound) (task : QualifyTask) (finding : Finding) :
    ({ s with
      db := s.db.updateAssignments (fun a => task.Targets a) (task.apply finding) } :
        QualifyState).Sound := by
  refine h.kept (h.constrained.ofInventory rfl ?_) le_rfl fun i => ?_
  · exact .updateAssignments _ fun a => (apply_same task finding a).1
  · exact .update (fun a => (apply_same task finding a).1)
      (fun a _ _ => (apply_same task finding a).2) _

theorem next_sound {action : QualifyAction} (h : s.Sound) (hspares : Spares s action)
    (hnext : s.next isGlobal action = some s') : s'.Sound := by
  cases action with
  | start worker assignmentId claimToken profile current checkIntervalSeconds retrySeconds =>
    unfold QualifyState.next at hnext
    dsimp only at hnext
    split at hnext
    · obtain ⟨row, -, rfl⟩ := Option.map_eq_some_iff.mp hnext
      exact h.setWorker worker trivial
    · cases hnext
  | judge worker users probe eligibility =>
    unfold QualifyState.next at hnext
    dsimp only at hnext
    split at hnext
    · obtain rfl := Option.some.inj hnext
      exact h.setWorker worker trivial
    · cases hnext
  | check worker =>
    unfold QualifyState.next at hnext
    dsimp only at hnext
    split at hnext
    · obtain rfl := Option.some.inj hnext
      refine h.setWorker worker ?_
      split
      · exact identityIsCurrent_placed h.constrained ‹_›
      · trivial
    · cases hnext
  | write worker =>
    unfold QualifyState.next at hnext
    dsimp only at hnext
    split at hnext
    · rename_i task finding _
      split at hnext
      · obtain rfl := Option.some.inj hnext
        refine (write_sound h task finding).setWorker worker ?_
        cases finding <;> trivial
      · obtain rfl := Option.some.inj hnext
        exact h.setWorker worker trivial
    · cases hnext
  | reconcileRead worker users rows now =>
    unfold QualifyState.next at hnext
    dsimp only at hnext
    split at hnext
    · split at hnext
      · obtain rfl := Option.some.inj hnext
        exact h.setWorker worker (reconcileRead_placed h.constrained ‹_›)
      · cases hnext
    · cases hnext
  | reconcileWrite worker =>
    unfold QualifyState.next at hnext
    dsimp only at hnext
    split at hnext
    · rename_i profile rows flags _
      obtain rfl := Option.some.inj hnext
      obtain ⟨hjobs, hsequence, hinventory, hcarried⟩ := writeFlags_carried flags s.db
      exact QualifyState.Sound.setWorker
        (h.kept (h.constrained.ofInventory hjobs hinventory) hsequence.ge hcarried) worker trivial
    · cases hnext
  | crash worker =>
    obtain rfl := Option.some.inj hnext
    exact h.setWorker worker trivial
  | official e =>
    unfold QualifyState.next at hnext
    dsimp only at hnext
    split at hnext
    · split at hnext
      · obtain rfl := Option.some.inj hnext
        exact official_sound h hspares ‹_› ‹_›
      · obtain rfl := Option.some.inj hnext
        exact h
    · cases hnext
  | touch row =>
    obtain rfl := Option.some.inj hnext
    exact touch_sound h row
  | tables other =>
    unfold QualifyState.next at hnext
    dsimp only at hnext
    split at hnext
    · obtain rfl := Option.some.inj hnext
      exact tables_sound h ‹_›
    · cases hnext

/-- In a sound state every write meets the identity that was probed. -/
theorem QualifyState.Sound.places (h : s.Sound) (action : QualifyAction) :
    ¬ Misplaces s action := by
  intro hmisplaces
  cases action with
  | write worker =>
    obtain ⟨task, finding, hworker, a, ha, ⟨hid, hgeneration, -⟩, hidentity⟩ := hmisplaces
    have hplaced := h.placed worker
    rw [hworker] at hplaced
    exact hidentity ((hplaced.2 a ha hid).identity hgeneration)
  | reconcileWrite worker =>
    obtain ⟨profile, rows, flags, hworker, r, hr, a, ha, hid, -, hidentity⟩ := hmisplaces
    have hplaced := h.placed worker
    rw [hworker] at hplaced
    exact hidentity ((hplaced r hr).2 a ha hid)
  | _ => exact hmisplaces.elim

end Step

theorem runs_sound {isGlobal : IpAddress → Bool} {db₀ : Db} {s : QualifyState}
    {h : List (QualifyAction × QualifyState)} (hdb₀ : db₀.Constrained)
    (hrun : QualifyRuns isGlobal { db := db₀ } h s)
    (hspares : History.Throughout Spares { db := db₀ } h) : s.Sound := by
  have hstart : ({ db := db₀ } : QualifyState).Sound := ⟨hdb₀, fun _ => trivial⟩
  refine (hrun.throughout hspares).always hstart ?_
  intro s action s' hs ⟨hnext, hspared⟩
  exact next_sound hs hspared hnext

/-- In a run that empties no row inside a qualification and changes no identity inside a
reconciliation, what a probe has shown is only written to a row that still has the identity that was
probed, and a sync that changes an identity clears the row. -/
theorem probe_trust {isGlobal : IpAddress → Bool} {db₀ : Db} {s : QualifyState}
    {h : List (QualifyAction × QualifyState)} (hdb₀ : db₀.Constrained)
    (hrun : QualifyRuns isGlobal { db := db₀ } h s)
    (hspares : History.Throughout Spares { db := db₀ } h) :
    (∀ action, ¬ Misplaces s action) ∧
    ∀ (e : Event) (payload : RawSubscription × List RawProxy) (db' : Db) (profile : Profile),
      e.call = .syncSubscription payload → s.db.transact e = .ok db' →
      ∀ a ∈ s.db.assignments, e.Announces s.db a.id profile →
      ∀ b ∈ db'.assignments, b.id = a.id → b.identity profile ≠ a.identity profile →
        b.Cleared := by
  have hsound := runs_sound hdb₀ hrun hspares
  refine ⟨hsound.places, fun e payload db' profile hcall h a ha hannounces b hb hid hne => ?_⟩
  unfold Db.transact at h
  unfold Event.Announces at hannounces
  rw [hcall] at h hannounces
  obtain rfl := Except.ok.inj h
  have hkeys := hsound.constrained
  obtain ⟨a', ha', hida', -, hcleared⟩ :=
    syncSubscription_cleared (hkeys.assignmentSequence a ha) hannounces b hb hid
  obtain rfl := hkeys.assignmentIds.eq ha' ha hida'
  exact hcleared (.inl hne)

namespace Scenario

/-- A sync brings the replacement of a swap that is in its mutation, and a probe sees it live. -/
def replacementProbed : List QualifyAction :=
  [.official (second 16 (subscription [risky "old" "192.0.2.1", risky "new" "192.0.2.2"])),
    .start 0 2 none .web (seconds 17) 3600 60,
    .judge 0 [] (some { status := "live", exitIp := "8.8.8.8", egressTrusted := true }) none,
    .check 0]

/-- The swap ends. -/
def replacementNamed : QualifyAction :=
  .official (second 18 (.providerApplied 1 "old" (some "new") none (some "token")))

def qualifyHistory (actions : List QualifyAction) : List (QualifyAction × QualifyState) :=
  History.replay (fun s a => (s.next (fun _ => true) a).getD s) { db := swapStarted.db } actions

def qualified (actions : List QualifyAction) : QualifyState :=
  History.current { db := swapStarted.db } (qualifyHistory actions)

/-- The replacement comes back with another address. -/
def moved : RawSubscription × List RawProxy :=
  ({ id := some (.number 1) }, [risky "new" "192.0.2.3"])

end Scenario

open EarnProxy.Swap.Scenario in
/-- The row of a proxy that was seen live and then moved. -/
theorem probe_trust_moved :
    ∃ b ∈ (syncSubscription .web (seconds 20) (qualified (replacementProbed ++ [.write 0])).db
      moved).assignments, b.externalId = "new" ∧ b.Cleared := by
  have run : QualifyRuns (fun _ => true) { db := swapStarted.db }
      (qualifyHistory (replacementProbed ++ [.write 0]))
      (qualified (replacementProbed ++ [.write 0])) :=
    History.run_replay_accepted (by decide +kernel)
  have hspares : History.Throughout Spares { db := swapStarted.db }
      (qualifyHistory (replacementProbed ++ [.write 0])) := by
    refine ⟨trivial, trivial, trivial, trivial, fun worker => ⟨?_, ?_⟩, trivial⟩
    · intro task finding hworker
      cases hworker
    · intro profile rows flags hworker
      cases hworker
  have hcleared := (probe_trust (run_constrained empty_fresh.toConstrained swapStarts_runs) run
    hspares).2 (second 20 (.syncSubscription moved)) moved _ .web rfl rfl
  have hrow : ∃ a ∈ (qualified (replacementProbed ++ [.write 0])).db.assignments,
      ∃ b ∈ (syncSubscription .web (seconds 20)
        (qualified (replacementProbed ++ [.write 0])).db moved).assignments,
      b.id = a.id ∧ b.identity .web ≠ a.identity .web ∧ b.externalId = "new" := by
    decide +kernel
  obtain ⟨a, ha, b, hb, hid, hne, hexternal⟩ := hrow
  exact ⟨b, hb, hexternal, hcleared a ha (fun _ _ _ _ _ hchanges => hchanges) b hb hid hne⟩

open EarnProxy.Swap.Scenario in
/-- The swap empties the row after the identity was checked, and the row is live without an
address. -/
theorem probe_trust_emptied :
    ∃ h s, QualifyRuns (fun _ => true) { db := swapStarted.db } h s ∧ Misplaces s (.write 0) ∧
      ∃ s', s.next (fun _ => true) (.write 0) = some s' ∧
        ∃ a ∈ s'.db.assignments, a.host = "" ∧ a.liveStatus = "live" := by
  have run : QualifyRuns (fun _ => true) { db := swapStarted.db }
      (qualifyHistory (replacementProbed ++ [replacementNamed]))
      (qualified (replacementProbed ++ [replacementNamed])) :=
    History.run_replay_accepted (by decide +kernel)
  refine ⟨_, _, run, ⟨_, _, rfl, ?_⟩, _, rfl, ?_⟩
  · decide +kernel
  · decide +kernel

end EarnProxy.Swap

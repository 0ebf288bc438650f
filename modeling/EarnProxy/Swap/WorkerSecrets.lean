import Mathlib.Data.List.Forall2
import EarnProxy.Library.Table

/-!
# `app/services/proxiware_crypto.py`

The browser and swap workers have a key of their own and read only the worker ciphertext columns.
`migrate_provider_worker_secrets` fills these columns from the ciphertexts of the global key. Only
rows of the provider are read or written, so only these are here.
-/

namespace EarnProxy.Swap

/-- Encryption under one key; the number stands for the randomness that a call draws. -/
structure Fernet where
  encrypt : Nat → String → String
  decrypt : String → Option String
  decrypt_encrypt : ∀ draw text, decrypt (encrypt draw text) = some text

/-- The key of the web application, which is only read here, and that of the workers. -/
structure Keys where
  /-- `decrypt_secret`; `none` is its `ValueError`. -/
  decryptSecret : String → Option String
  worker : Fernet

/-- `WORKER_PREFIX`. -/
def workerPrefix : List Char := ['p', 'w', 'k', '1', ':']

/-- `encrypt_worker_secret`. -/
def Keys.encryptWorkerSecret (keys : Keys) (draw : Nat) (value : String) : String :=
  String.ofList (workerPrefix ++ (keys.worker.encrypt draw value).toList)

/-- `decrypt_worker_secret`; `none` is its `ValueError`. -/
def Keys.decryptWorkerSecret (keys : Keys) (value : String) : Option String :=
  if workerPrefix.isPrefixOf value.toList then
    keys.worker.decrypt (String.ofList (value.toList.drop workerPrefix.length))
  else none

@[simp] theorem Keys.decrypt_encryptWorkerSecret (keys : Keys) (draw : Nat) (value : String) :
    keys.decryptWorkerSecret (keys.encryptWorkerSecret draw value) = some value := by
  have hprefix : workerPrefix.isPrefixOf
      (workerPrefix ++ (keys.worker.encrypt draw value).toList) = true :=
    List.isPrefixOf_iff_prefix.mpr (List.prefix_append _ _)
  unfold Keys.decryptWorkerSecret Keys.encryptWorkerSecret
  rw [String.toList_ofList, if_pos hprefix, List.drop_left, String.ofList_toList]
  exact keys.worker.decrypt_encrypt draw value

@[simp] theorem Keys.decryptWorkerSecret_empty (keys : Keys) :
    keys.decryptWorkerSecret "" = none := by
  simp [Keys.decryptWorkerSecret, workerPrefix]

/-! ## The tables -/

/-- One secret: the ciphertext of the global key, and the one for the workers. -/
structure CipherPair where
  encrypted : String := ""
  workerEncrypted : String := ""
  deriving DecidableEq, Repr

structure CredentialSecret where
  name : String
  secret : CipherPair
  deriving DecidableEq, Repr

structure AssignmentSecrets where
  id : Nat
  username : CipherPair
  password : CipherPair
  deriving DecidableEq, Repr

/-- `provider_sessions` has one row for each provider. -/
structure ProviderSecrets where
  session : Option CipherPair := none
  credentials : List CredentialSecret := []
  assignments : List AssignmentSecrets := []
  deriving DecidableEq, Repr

/-- The primary keys. -/
structure ProviderSecrets.Keyed (db : ProviderSecrets) : Prop where
  credentials : Table.Keyed CredentialSecret.name db.credentials
  assignments : Table.Keyed AssignmentSecrets.id db.assignments

/-- The secret that a call of `encrypt_worker_secret` is for. -/
inductive SecretPlace where
  | session
  | credential (name : String)
  | username (assignmentId : Nat)
  | password (assignmentId : Nat)
  deriving DecidableEq, Repr

/-! ## The migration -/

section Migration

variable (keys : Keys) (draws : SecretPlace → Nat)

/-- What the first two loops write for a row; the query leaves out rows without a global
ciphertext. -/
def CipherPair.migrated? (place : SecretPlace) (pair : CipherPair) : Option String :=
  if pair.encrypted = "" then none
  else if (keys.decryptWorkerSecret pair.workerEncrypted).isSome then none
  else (keys.decryptSecret pair.encrypted).map (keys.encryptWorkerSecret (draws place))

/-- What a round of the inner loop of the third one does: `continue`, an update, or `break`. -/
inductive ColumnUpdate where
  | keep
  | write (value : String)
  | giveUp
  deriving DecidableEq, Repr

def CipherPair.update (place : SecretPlace) (pair : CipherPair) : ColumnUpdate :=
  if pair.workerEncrypted ≠ "" ∧ (keys.decryptWorkerSecret pair.workerEncrypted).isSome then .keep
  else if pair.encrypted = "" then .write ""
  else match keys.decryptSecret pair.encrypted with
    | some text => .write (keys.encryptWorkerSecret (draws place) text)
    | none => .giveUp

/-- `updates` after the inner loop: the values for both columns, if there are any. -/
def AssignmentSecrets.updates (row : AssignmentSecrets) : Option String × Option String :=
  match row.username.update keys draws (.username row.id),
      row.password.update keys draws (.password row.id) with
  | .giveUp, _ | _, .giveUp => (none, none)
  | .keep, .keep => (none, none)
  | .write username, .keep => (some username, none)
  | .keep, .write password => (none, some password)
  | .write username, .write password => (some username, some password)

/-- The statement for a row of `provider_credentials`. -/
def CredentialSecret.statement (row : CredentialSecret) :
    Option (CredentialSecret → CredentialSecret) :=
  (row.secret.migrated? keys draws (.credential row.name)).map fun value r =>
    { r with secret := { r.secret with workerEncrypted := value } }

/-- The statement for a row of `provider_assignments`, which writes both columns. -/
def AssignmentSecrets.statement (row : AssignmentSecrets) :
    Option (AssignmentSecrets → AssignmentSecrets) :=
  match row.updates keys draws with
  | (none, none) => none
  | (username, password) => some fun r =>
    { r with
      username := { r.username with workerEncrypted := username.getD "" }
      password := { r.password with workerEncrypted := password.getD "" } }

/-- `migrate_provider_worker_secrets` on tables that have the worker columns. -/
def migrateProviderWorkerSecrets (db : ProviderSecrets) : ProviderSecrets × Nat :=
  let session := db.session.bind fun pair => pair.migrated? keys draws .session
  let credentials := Table.rewriteEach CredentialSecret.name (·.statement keys draws) db.credentials
  let assignments := Table.rewriteEach AssignmentSecrets.id (·.statement keys draws) db.assignments
  ({ session := db.session.map fun pair =>
       { pair with workerEncrypted := session.getD pair.workerEncrypted }
     credentials := credentials.1, assignments := assignments.1 },
    session.toList.length + credentials.2 + assignments.2)

end Migration

/-! ## What is lost -/

/-- What is known of a secret before the migration. -/
inductive CipherState where
  /-- The workers can read it already. -/
  | readable
  /-- The workers cannot read it, and there is nothing to read. -/
  | empty
  /-- Only the global key reads it. -/
  | legacy
  /-- Neither key reads it. -/
  | corrupt
  deriving DecidableEq, Repr

def CipherPair.state (keys : Keys) (pair : CipherPair) : CipherState :=
  if (keys.decryptWorkerSecret pair.workerEncrypted).isSome then .readable
  else if pair.encrypted = "" then .empty
  else if (keys.decryptSecret pair.encrypted).isSome then .legacy
  else .corrupt

/-- The global ciphertext stays, a worker ciphertext that could be read still says the same, and
what the global key reads can be read by the workers, as what it is if they could not read it
before. -/
structure CipherPair.Kept (keys : Keys) (pair pair' : CipherPair) : Prop where
  global : pair'.encrypted = pair.encrypted
  worker : ∀ text, keys.decryptWorkerSecret pair.workerEncrypted = some text →
    keys.decryptWorkerSecret pair'.workerEncrypted = some text
  filled : ∀ text, pair.encrypted ≠ "" → keys.decryptSecret pair.encrypted = some text →
    (keys.decryptWorkerSecret pair'.workerEncrypted).isSome ∧
      (keys.decryptWorkerSecret pair.workerEncrypted = none →
        keys.decryptWorkerSecret pair'.workerEncrypted = some text)

/-- A migration, with another one after it, loses nothing and leaves the second one nothing to
do. -/
structure Lossless (keys : Keys) (draws draws' : SecretPlace → Nat) (db : ProviderSecrets) :
    Prop where
  session : Option.Rel (CipherPair.Kept keys) db.session
    (migrateProviderWorkerSecrets keys draws db).1.session
  credentials : List.Forall₂ (fun r r' => r'.name = r.name ∧ r.secret.Kept keys r'.secret)
    db.credentials (migrateProviderWorkerSecrets keys draws db).1.credentials
  assignments : List.Forall₂ (fun r r' => r'.id = r.id ∧ r.username.Kept keys r'.username ∧
      r.password.Kept keys r'.password)
    db.assignments (migrateProviderWorkerSecrets keys draws db).1.assignments
  idempotent : migrateProviderWorkerSecrets keys draws'
      (migrateProviderWorkerSecrets keys draws db).1 =
    ((migrateProviderWorkerSecrets keys draws db).1, 0)

/-- Both secrets are readable, both are to be migrated, or one is corrupt and the other is not to be
migrated. -/
def AssignmentSecrets.Together (keys : Keys) (row : AssignmentSecrets) : Prop :=
  (row.username.state keys = .readable ∧ row.password.state keys = .readable) ∨
    (row.username.state keys = .legacy ∧ row.password.state keys = .legacy) ∨
    (row.username.state keys = .corrupt ∧ row.password.state keys ≠ .legacy) ∨
    (row.password.state keys = .corrupt ∧ row.username.state keys ≠ .legacy)

instance (keys : Keys) (row : AssignmentSecrets) : Decidable (row.Together keys) :=
  inferInstanceAs (Decidable (_ ∨ _))

section Pairs

variable {keys : Keys} {draws : SecretPlace → Nat} {place : SecretPlace} {pair : CipherPair}

theorem CipherPair.kept_self (h : pair.state keys ≠ .legacy) : pair.Kept keys pair where
  global := rfl
  worker := fun _ h => h
  filled := by
    intro text hne htext
    by_cases hreadable : (keys.decryptWorkerSecret pair.workerEncrypted).isSome
    · refine ⟨hreadable, fun hnone => ?_⟩
      rw [hnone] at hreadable
      cases hreadable
    · exact absurd (by simp [CipherPair.state, hreadable, hne, htext]) h

theorem CipherPair.not_kept_self (h : pair.state keys = .legacy) : ¬ pair.Kept keys pair := by
  intro hkept
  unfold CipherPair.state at h
  split at h
  · cases h
  rename_i hunreadable
  split at h
  · cases h
  rename_i hne
  split at h
  · rename_i hsome
    obtain ⟨text, htext⟩ := Option.isSome_iff_exists.mp hsome
    exact hunreadable (hkept.filled text hne htext).1
  · cases h

/-- An erased ciphertext is no loss only where nothing could be read. -/
theorem CipherPair.not_kept_erased (h : pair.state keys = .readable) :
    ¬ pair.Kept keys { pair with workerEncrypted := "" } := by
  intro hkept
  unfold CipherPair.state at h
  split at h
  · rename_i hsome
    obtain ⟨text, htext⟩ := Option.isSome_iff_exists.mp hsome
    have herased := hkept.worker text htext
    rw [Keys.decryptWorkerSecret_empty] at herased
    cases herased
  · split at h
    · cases h
    · split at h <;> cases h

theorem CipherPair.kept_encrypted {text : String} {draw : Nat} (h : pair.state keys = .legacy)
    (htext : keys.decryptSecret pair.encrypted = some text) :
    pair.Kept keys { pair with workerEncrypted := keys.encryptWorkerSecret draw text } where
  global := rfl
  worker := by
    intro text' htext'
    unfold CipherPair.state at h
    rw [htext'] at h
    cases h
  filled := by
    intro text' _ htext'
    obtain rfl := Option.some.inj (htext.symm.trans htext')
    simp

theorem CipherPair.state_encrypted (keys : Keys) (pair : CipherPair) (text : String) (draw : Nat) :
    CipherPair.state keys { pair with workerEncrypted := keys.encryptWorkerSecret draw text } =
      .readable := by
  simp [CipherPair.state]

/-- What the inner loop does for a secret. -/
theorem CipherPair.update_eq (keys : Keys) (draws : SecretPlace → Nat) (place : SecretPlace)
    (pair : CipherPair) :
    match pair.state keys with
    | .readable => pair.update keys draws place = .keep
    | .empty => pair.update keys draws place = .write ""
    | .legacy => ∃ text, keys.decryptSecret pair.encrypted = some text ∧
        pair.update keys draws place = .write (keys.encryptWorkerSecret (draws place) text)
    | .corrupt => pair.update keys draws place = .giveUp := by
  by_cases hreadable : (keys.decryptWorkerSecret pair.workerEncrypted).isSome
  · have hne : pair.workerEncrypted ≠ "" := by
      intro hempty
      rw [hempty, Keys.decryptWorkerSecret_empty] at hreadable
      cases hreadable
    simp [CipherPair.state, CipherPair.update, hreadable, hne]
  · by_cases hempty : pair.encrypted = ""
    · simp [CipherPair.state, CipherPair.update, hreadable, hempty]
    · cases htext : keys.decryptSecret pair.encrypted with
      | none => simp [CipherPair.state, CipherPair.update, hreadable, hempty, htext]
      | some text => simp [CipherPair.state, CipherPair.update, hreadable, hempty, htext]

/-- What the first two loops do for a secret. -/
theorem CipherPair.migrated?_eq (keys : Keys) (draws : SecretPlace → Nat) (place : SecretPlace)
    (pair : CipherPair) :
    match pair.state keys with
    | .legacy => ∃ text, keys.decryptSecret pair.encrypted = some text ∧
        pair.migrated? keys draws place = some (keys.encryptWorkerSecret (draws place) text)
    | _ => pair.migrated? keys draws place = none := by
  by_cases hreadable : (keys.decryptWorkerSecret pair.workerEncrypted).isSome
  · simp [CipherPair.state, CipherPair.migrated?, hreadable]
  · by_cases hempty : pair.encrypted = ""
    · simp [CipherPair.state, CipherPair.migrated?, hreadable, hempty]
    · cases htext : keys.decryptSecret pair.encrypted with
      | none => simp [CipherPair.state, CipherPair.migrated?, hreadable, hempty, htext]
      | some text => simp [CipherPair.state, CipherPair.migrated?, hreadable, hempty, htext]

/-- Single secrets are kept, and migrated once. -/
theorem CipherPair.migrated?_kept (draws' : SecretPlace → Nat) :
    let pair' : CipherPair :=
      { pair with workerEncrypted := (pair.migrated? keys draws place).getD pair.workerEncrypted }
    pair.Kept keys pair' ∧ pair'.migrated? keys draws' place = none := by
  have hmigrated := CipherPair.migrated?_eq keys draws place pair
  have hagain := CipherPair.migrated?_eq keys draws' place pair
  cases hstate : pair.state keys with
  | legacy =>
    rw [hstate] at hmigrated
    obtain ⟨text, htext, hmigrated⟩ := hmigrated
    rw [hmigrated]
    refine ⟨CipherPair.kept_encrypted hstate htext, ?_⟩
    have hdone := CipherPair.migrated?_eq keys draws' place
      { pair with workerEncrypted := keys.encryptWorkerSecret (draws place) text }
    rwa [CipherPair.state_encrypted] at hdone
  | _ =>
    rw [hstate] at hmigrated hagain
    rw [hmigrated]
    exact ⟨CipherPair.kept_self (by rw [hstate]; decide), hagain⟩

end Pairs

/-! ## Assignments -/

/-- The row with other worker ciphertexts. -/
def AssignmentSecrets.written (row : AssignmentSecrets) (username password : String) :
    AssignmentSecrets :=
  { row with
    username := { row.username with workerEncrypted := username }
    password := { row.password with workerEncrypted := password } }

/-- The value that the statement writes for a secret: nothing, unless it is to be migrated. -/
inductive CipherPair.Writes (keys : Keys) (pair : CipherPair) : String → Prop where
  | encrypted {text : String} {draw : Nat} (state : pair.state keys = .legacy)
      (source : keys.decryptSecret pair.encrypted = some text) :
      pair.Writes keys (keys.encryptWorkerSecret draw text)
  | erased (state : pair.state keys = .readable ∨ pair.state keys = .empty) : pair.Writes keys ""

/-- The two kinds of rows that the third loop leaves alone. -/
def AssignmentSecrets.LeftAlone (keys : Keys) (row : AssignmentSecrets) : Prop :=
  (row.username.state keys = .readable ∧ row.password.state keys = .readable) ∨
    row.username.state keys = .corrupt ∨ row.password.state keys = .corrupt

section Rows

variable {keys : Keys} {row : AssignmentSecrets}

theorem AssignmentSecrets.LeftAlone.statement (h : row.LeftAlone keys) (draws : SecretPlace → Nat) :
    row.statement keys draws = none := by
  have hu := CipherPair.update_eq keys draws (.username row.id) row.username
  have hp := CipherPair.update_eq keys draws (.password row.id) row.password
  unfold AssignmentSecrets.statement AssignmentSecrets.updates
  rcases h with ⟨husername, hpassword⟩ | husername | hpassword
  · rw [husername] at hu
    rw [hpassword] at hp
    simp only [hu, hp]
  · rw [husername] at hu
    simp only [hu]
  · rw [hpassword] at hp
    cases row.username.update keys draws (.username row.id) <;> simp only [hp]

/-- A secret that is not corrupt gets a value, its own or none. -/
theorem CipherPair.update_writes {pair : CipherPair} (h : pair.state keys ≠ .corrupt)
    (draws : SecretPlace → Nat) (place : SecretPlace) : ∃ value, pair.Writes keys value ∧
      (pair.update keys draws place = .write value ∨
        pair.state keys = .readable ∧ value = "" ∧ pair.update keys draws place = .keep) := by
  have hupdate := CipherPair.update_eq keys draws place pair
  cases hstate : pair.state keys with
  | corrupt => exact absurd hstate h
  | readable =>
    rw [hstate] at hupdate
    exact ⟨"", .erased (.inl hstate), .inr ⟨rfl, rfl, hupdate⟩⟩
  | empty =>
    rw [hstate] at hupdate
    exact ⟨"", .erased (.inr hstate), .inl hupdate⟩
  | legacy =>
    rw [hstate] at hupdate
    obtain ⟨text, htext, hupdate⟩ := hupdate
    exact ⟨_, .encrypted hstate htext, .inl hupdate⟩

/-- Every other row is written as a whole. -/
theorem AssignmentSecrets.statement_of_not_leftAlone (h : ¬ row.LeftAlone keys)
    (draws : SecretPlace → Nat) : ∃ username password, row.username.Writes keys username ∧
      row.password.Writes keys password ∧
      row.statement keys draws = some fun r => r.written username password := by
  obtain ⟨hboth, hcorrupt⟩ := not_or.mp h
  obtain ⟨husername, hpassword⟩ := not_or.mp hcorrupt
  obtain ⟨username, hu, hupdate⟩ :=
    CipherPair.update_writes husername draws (.username row.id)
  obtain ⟨password, hp, hupdate'⟩ :=
    CipherPair.update_writes hpassword draws (.password row.id)
  refine ⟨username, password, hu, hp, ?_⟩
  unfold AssignmentSecrets.statement AssignmentSecrets.updates
  rcases hupdate with hupdate | ⟨hreadable, rfl, hupdate⟩ <;>
    rcases hupdate' with hupdate' | ⟨hreadable', rfl, hupdate'⟩
  · simp only [hupdate, hupdate']
    rfl
  · simp only [hupdate, hupdate']
    rfl
  · simp only [hupdate, hupdate']
    rfl
  · exact absurd ⟨hreadable, hreadable'⟩ hboth

theorem AssignmentSecrets.Together.leftAlone_or (h : row.Together keys) :
    (row.LeftAlone keys ∧ row.username.state keys ≠ .legacy ∧ row.password.state keys ≠ .legacy) ∨
      row.username.state keys = .legacy ∧ row.password.state keys = .legacy := by
  rcases h with ⟨hu, hp⟩ | hlegacy | ⟨hu, hp⟩ | ⟨hp, hu⟩
  · exact .inl ⟨.inl ⟨hu, hp⟩, by rw [hu]; decide, by rw [hp]; decide⟩
  · exact .inr hlegacy
  · exact .inl ⟨.inr (.inl hu), by rw [hu]; decide, hp⟩
  · exact .inl ⟨.inr (.inr hp), hu, by rw [hp]; decide⟩

/-- After an erasure nothing can be read. -/
theorem CipherPair.Writes.state_ne {pair : CipherPair} {value : String} (h : pair.Writes keys value)
    (hlegacy : pair.state keys ≠ .legacy) :
    CipherPair.state keys { pair with workerEncrypted := value } ≠ .readable := by
  cases h with
  | encrypted hstate _ => exact absurd hstate hlegacy
  | erased _ =>
    simp only [CipherPair.state, Keys.decryptWorkerSecret_empty]
    split
    · rename_i hsome
      cases hsome
    · split
      · decide
      · split <;> decide

/-- A written secret is corrupt only if the value was erased above a corrupt source. -/
theorem CipherPair.Writes.state_of_empty {pair : CipherPair} {value : String}
    (h : pair.Writes keys value) (hreadable : pair.state keys ≠ .readable) :
    CipherPair.state keys { pair with workerEncrypted := value } =
      if pair.state keys = .legacy then .readable else .empty := by
  cases h with
  | encrypted hstate _ => rw [if_pos hstate, CipherPair.state_encrypted]
  | erased hstate =>
    obtain hstate := hstate.resolve_left hreadable
    rw [hstate, if_neg (by decide)]
    have hempty : pair.encrypted = "" := by
      unfold CipherPair.state at hstate
      split at hstate
      · cases hstate
      · split at hstate
        · assumption
        · split at hstate <;> cases hstate
    simp [CipherPair.state, hempty]

/-- One row loses nothing exactly when its secrets go together. -/
theorem AssignmentSecrets.lossless_iff (draws draws' : SecretPlace → Nat) :
    let row' := Table.rewritten (·.statement keys draws) row
    (row.username.Kept keys row'.username ∧ row.password.Kept keys row'.password ∧
      row'.statement keys draws' = none) ↔ row.Together keys := by
  intro row'
  by_cases halone : row.LeftAlone keys
  · have hsame : row' = row := by
      simp only [row', Table.rewritten, halone.statement draws]
    rw [hsame]
    constructor
    · rintro ⟨hu, hp, -⟩
      have husername : row.username.state keys ≠ .legacy := fun h => CipherPair.not_kept_self h hu
      have hpassword : row.password.state keys ≠ .legacy := fun h => CipherPair.not_kept_self h hp
      rcases halone with hboth | hcorrupt | hcorrupt
      · exact .inl hboth
      · exact .inr (.inr (.inl ⟨hcorrupt, hpassword⟩))
      · exact .inr (.inr (.inr ⟨hcorrupt, husername⟩))
    · intro htogether
      rcases htogether.leftAlone_or with ⟨-, hu, hp⟩ | ⟨hu, hp⟩
      · exact ⟨CipherPair.kept_self hu, CipherPair.kept_self hp, halone.statement draws'⟩
      · -- a row with two secrets to migrate is not left alone
        rcases halone with ⟨h, -⟩ | h | h
        · rw [hu] at h
          cases h
        · rw [hu] at h
          cases h
        · rw [hp] at h
          cases h
  · obtain ⟨username, password, hu, hp, hstatement⟩ :=
      AssignmentSecrets.statement_of_not_leftAlone halone draws
    have hwritten : row' = row.written username password := by
      simp only [row', Table.rewritten, hstatement]
    rw [hwritten]
    constructor
    · rintro ⟨hkeptU, hkeptP, hagain⟩
      -- nothing readable was erased
      have hreadableU : row.username.state keys ≠ .readable := by
        intro h
        cases hu with
        | encrypted hstate _ =>
          rw [h] at hstate
          cases hstate
        | erased _ => exact CipherPair.not_kept_erased h hkeptU
      have hreadableP : row.password.state keys ≠ .readable := by
        intro h
        cases hp with
        | encrypted hstate _ =>
          rw [h] at hstate
          cases hstate
        | erased _ => exact CipherPair.not_kept_erased h hkeptP
      -- the second migration leaves the written row alone, so both secrets are readable now
      have halone' : (row.written username password).LeftAlone keys := by
        by_contra hnot
        obtain ⟨_, _, _, _, hsome⟩ :=
          AssignmentSecrets.statement_of_not_leftAlone hnot draws'
        rw [hagain] at hsome
        cases hsome
      have hstateU := hu.state_of_empty hreadableU
      have hstateP := hp.state_of_empty hreadableP
      rcases halone' with ⟨h, h'⟩ | h | h
      · refine .inr (.inl ⟨?_, ?_⟩)
        · by_contra hlegacy
          exact hu.state_ne hlegacy h
        · by_contra hlegacy
          exact hp.state_ne hlegacy h'
      · have hcorrupt := hstateU.symm.trans h
        split at hcorrupt <;> cases hcorrupt
      · have hcorrupt := hstateP.symm.trans h
        split at hcorrupt <;> cases hcorrupt
    · intro htogether
      rcases htogether.leftAlone_or with ⟨h, -⟩ | ⟨hlegacyU, hlegacyP⟩
      · exact absurd h halone
      · cases hu with
        | erased hstate => exact absurd hlegacyU (by rcases hstate with h | h <;> rw [h] <;> decide)
        | encrypted _ hsource =>
          cases hp with
          | erased hstate =>
            exact absurd hlegacyP (by rcases hstate with h | h <;> rw [h] <;> decide)
          | encrypted _ hsource' =>
            refine ⟨CipherPair.kept_encrypted hlegacyU hsource,
              CipherPair.kept_encrypted hlegacyP hsource', ?_⟩
            refine AssignmentSecrets.LeftAlone.statement (.inl ⟨?_, ?_⟩) draws'
            · exact CipherPair.state_encrypted keys row.username _ _
            · exact CipherPair.state_encrypted keys row.password _ _

end Rows

/-! ## The whole migration -/

section Tables

variable {keys : Keys} {db : ProviderSecrets}

theorem CredentialSecret.name_statement {draws : SecretPlace → Nat} (row : CredentialSecret)
    (f : CredentialSecret → CredentialSecret) (h : row.statement keys draws = some f) :
    (f row).name = row.name := by
  obtain ⟨value, _, rfl⟩ := Option.map_eq_some_iff.mp h
  rfl

theorem AssignmentSecrets.id_statement {draws : SecretPlace → Nat} (row : AssignmentSecrets)
    (f : AssignmentSecrets → AssignmentSecrets) (h : row.statement keys draws = some f) :
    (f row).id = row.id := by
  unfold AssignmentSecrets.statement at h
  split at h
  · cases h
  · obtain rfl := Option.some.inj h
    rfl

theorem CredentialSecret.rewritten_eq (draws : SecretPlace → Nat) (row : CredentialSecret) :
    Table.rewritten (·.statement keys draws) row =
      { row with secret := { row.secret with
          workerEncrypted := (row.secret.migrated? keys draws (.credential row.name)).getD
            row.secret.workerEncrypted } } := by
  cases hvalue : row.secret.migrated? keys draws (.credential row.name) <;>
    simp [Table.rewritten, CredentialSecret.statement, hvalue]

/-- The migration goes row by row. -/
theorem ProviderSecrets.Keyed.migrate_eq (h : db.Keyed) (draws : SecretPlace → Nat) :
    migrateProviderWorkerSecrets keys draws db =
      ({ session := db.session.map fun pair => { pair with
           workerEncrypted := (pair.migrated? keys draws .session).getD pair.workerEncrypted }
         credentials := db.credentials.map (Table.rewritten (·.statement keys draws))
         assignments := db.assignments.map (Table.rewritten (·.statement keys draws)) },
        (db.session.bind fun pair => pair.migrated? keys draws .session).toList.length +
          db.credentials.countP (fun row => (row.statement keys draws).isSome) +
          db.assignments.countP (fun row => (row.statement keys draws).isSome)) := by
  unfold migrateProviderWorkerSecrets
  rw [h.credentials.rewriteEach_eq CredentialSecret.name_statement,
    h.assignments.rewriteEach_eq AssignmentSecrets.id_statement]
  cases db.session <;> rfl

theorem ProviderSecrets.Keyed.migrate (h : db.Keyed) (draws : SecretPlace → Nat) :
    (migrateProviderWorkerSecrets keys draws db).1.Keyed := by
  rw [h.migrate_eq]
  exact ⟨h.credentials.map fun row _ => Table.key_rewritten CredentialSecret.name_statement row,
    h.assignments.map fun row _ => Table.key_rewritten AssignmentSecrets.id_statement row⟩

/-- A migration that has nothing to write changes nothing. -/
theorem ProviderSecrets.Keyed.migrate_idle_iff (h : db.Keyed) (draws : SecretPlace → Nat) :
    migrateProviderWorkerSecrets keys draws db = (db, 0) ↔
      (∀ pair ∈ db.session, pair.migrated? keys draws .session = none) ∧
      (∀ row ∈ db.credentials, row.statement keys draws = none) ∧
      ∀ row ∈ db.assignments, row.statement keys draws = none := by
  rw [h.migrate_eq]
  constructor
  · intro hidle
    have hcount := (Prod.mk.inj hidle).2
    have hsession : (db.session.bind fun pair => pair.migrated? keys draws .session).toList.length =
        0 := by omega
    have hcredentials :
        db.credentials.countP (fun row => (row.statement keys draws).isSome) = 0 := by
      omega
    have hassignments :
        db.assignments.countP (fun row => (row.statement keys draws).isSome) = 0 := by
      omega
    refine ⟨fun pair hpair => ?_, fun row hrow => ?_, fun row hrow => ?_⟩
    · rw [Option.mem_def.mp hpair] at hsession
      simpa using hsession
    · simpa using List.countP_eq_zero.mp hcredentials row hrow
    · simpa using List.countP_eq_zero.mp hassignments row hrow
  · rintro ⟨hsession, hcredentials, hassignments⟩
    have hrows : ∀ {α : Type} {statement : α → Option (α → α)} {rows : List α},
        (∀ row ∈ rows, statement row = none) → rows.map (Table.rewritten statement) = rows := by
      intro α statement rows hnone
      refine (List.map_congr_left fun row hrow => ?_).trans (List.map_id _)
      exact Table.rewritten_of_none (hnone row hrow)
    have hnone : db.session.bind (fun pair => pair.migrated? keys draws .session) = none := by
      cases hpair : db.session with
      | none => rfl
      | some pair => exact hsession pair hpair
    have hsame : (db.session.map fun pair => { pair with
        workerEncrypted := (pair.migrated? keys draws .session).getD pair.workerEncrypted }) =
        db.session := by
      cases hpair : db.session with
      | none => rfl
      | some pair => simp [hsession pair hpair]
    rw [hrows hcredentials, hrows hassignments, hnone, hsame,
      List.countP_eq_zero.mpr fun row hrow => by simp [hcredentials row hrow],
      List.countP_eq_zero.mpr fun row hrow => by simp [hassignments row hrow]]
    rfl

theorem forall₂_map_right_iff {α : Type} {R : α → α → Prop} {f : α → α} {rows : List α} :
    List.Forall₂ R rows (rows.map f) ↔ ∀ row ∈ rows, R row (f row) := by
  rw [List.forall₂_map_right_iff, List.forall₂_same]

/-- The migration loses nothing, and the next one finds nothing to do, exactly when in every
assignment both secrets are readable for the workers, both are to be migrated, or one is corrupt
and the other is not to be migrated. -/
theorem migration_lossless_iff (h : db.Keyed) (draws draws' : SecretPlace → Nat) :
    Lossless keys draws draws' db ↔ ∀ row ∈ db.assignments, row.Together keys := by
  have hrows : ∀ row : AssignmentSecrets, _ ↔ row.Together keys := fun _ =>
    AssignmentSecrets.lossless_iff draws draws'
  constructor
  · intro hlossless row hrow
    have hkept := hlossless.assignments
    have hidle := ((h.migrate draws).migrate_idle_iff draws').mp hlossless.idempotent
    rw [h.migrate_eq] at hkept hidle
    obtain ⟨-, hu, hp⟩ := forall₂_map_right_iff.mp hkept row hrow
    exact (hrows row).mp ⟨hu, hp, hidle.2.2 _ (List.mem_map_of_mem hrow)⟩
  · intro htogether
    refine ⟨?_, ?_, ?_, ((h.migrate draws).migrate_idle_iff draws').mpr ⟨?_, ?_, ?_⟩⟩ <;>
      rw [h.migrate_eq]
    · cases hpair : db.session with
      | none => exact .none
      | some pair => exact .some (CipherPair.migrated?_kept draws').1
    · refine forall₂_map_right_iff.mpr fun row _ => ?_
      rw [CredentialSecret.rewritten_eq]
      exact ⟨rfl, (CipherPair.migrated?_kept draws').1⟩
    · refine forall₂_map_right_iff.mpr fun row hrow => ?_
      obtain ⟨hu, hp, -⟩ := (hrows row).mpr (htogether row hrow)
      exact ⟨Table.key_rewritten AssignmentSecrets.id_statement row, hu, hp⟩
    · intro pair' hpair'
      obtain ⟨pair, _, rfl⟩ := Option.map_eq_some_iff.mp hpair'
      exact (CipherPair.migrated?_kept draws').2
    · intro row' hrow'
      obtain ⟨row, _, rfl⟩ := List.mem_map.mp hrow'
      rw [CredentialSecret.rewritten_eq]
      unfold CredentialSecret.statement
      rw [Option.map_eq_none_iff]
      exact (CipherPair.migrated?_kept draws').2
    · intro row' hrow'
      obtain ⟨row, hrow, rfl⟩ := List.mem_map.mp hrow'
      exact ((hrows row).mpr (htogether row hrow)).2.2

end Tables

/-! ## A provider -/

namespace Scenario

/-- A key that shifts nothing and only marks its texts. -/
def fernet : Fernet where
  encrypt _ text := String.ofList ('#' :: text.toList)
  decrypt encoded := match encoded.toList with
    | '#' :: text => some (String.ofList text)
    | _ => none
  decrypt_encrypt draw text := by simp

def keys : Keys where
  decryptSecret encoded := match encoded.toList with
    | 'g' :: ':' :: text => some (String.ofList text)
    | _ => none
  worker := fernet

/-- Both secrets of the first assignment are to be migrated, those of the second one are readable,
and the user name of the third one is corrupt. -/
def secrets : ProviderSecrets where
  session := some { encrypted := "g:cookie" }
  credentials := [{ name := "api", secret := { encrypted := "g:token", workerEncrypted := "old" } }]
  assignments := [
    { id := 1, username := { encrypted := "g:user" }, password := { encrypted := "g:pass" } },
    { id := 2, username := { encrypted := "g:user", workerEncrypted := "pwk1:#user" }
      password := { encrypted := "", workerEncrypted := "pwk1:#pass" } },
    { id := 3, username := { encrypted := "old" }
      password := { encrypted := "g:pass", workerEncrypted := "pwk1:#pass" } }]

theorem secrets_keyed : secrets.Keyed where
  credentials := by simp [Table.Keyed, secrets]
  assignments := by simp [Table.Keyed, secrets]

/-- The workers have the user name, and not yet the password. -/
def halfMigrated : ProviderSecrets where
  assignments := [
    { id := 1, username := { encrypted := "g:user", workerEncrypted := "pwk1:#user" }
      password := { encrypted := "g:pass" } }]

end Scenario

open EarnProxy.Swap.Scenario in
theorem migration_lossless_iff_secrets :
    secrets.Keyed ∧ Lossless keys (fun _ => 0) (fun _ => 1) secrets :=
  ⟨secrets_keyed, (migration_lossless_iff secrets_keyed _ _).mpr (by decide +kernel)⟩

open EarnProxy.Swap.Scenario in
/-- The user name that could be read is erased. -/
theorem migration_erases_halfMigrated :
    halfMigrated.assignments.map (fun r => keys.decryptWorkerSecret r.username.workerEncrypted) =
        [some "user"] ∧
      (migrateProviderWorkerSecrets keys (fun _ => 0) halfMigrated).1.assignments =
        [{ id := 1, username := { encrypted := "g:user", workerEncrypted := "" }
           password := { encrypted := "g:pass", workerEncrypted := "pwk1:#pass" } }] ∧
      ¬ Lossless keys (fun _ => 0) (fun _ => 1) halfMigrated := by
  have hrun : (migrateProviderWorkerSecrets keys (fun _ => 0) halfMigrated).1.assignments =
      [{ id := 1, username := { encrypted := "g:user", workerEncrypted := "" }
         password := { encrypted := "g:pass", workerEncrypted := "pwk1:#pass" } }] := by
    decide +kernel
  refine ⟨by decide +kernel, hrun, fun hlossless => ?_⟩
  have hkept := hlossless.assignments
  rw [hrun] at hkept
  obtain ⟨-, husername, -⟩ := (List.forall₂_cons.mp hkept).1
  have hread := husername.worker "user" (by decide +kernel)
  rw [Keys.decryptWorkerSecret_empty] at hread
  cases hread

end EarnProxy.Swap

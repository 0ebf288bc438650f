import EarnProxy.Library.History
import EarnProxy.Library.Transaction
import EarnProxy.Schema
import EarnProxy.Text

/-!
# `app/services/api_keys.py`

API keys are rows that are never deleted and whose digest is unique, so a revocation lasts. Every
call below runs in one transaction: it starts with a statement that takes the write lock, or with
`BEGIN IMMEDIATE`. `authenticate_api_key` reads the row first and notes the use in a second
transaction; an attempt of `create_api_key` that meets a taken name for its key leaves nothing
behind, so a call whose attempts lie apart in time is a call for each of them.

Digests are the values of a parameter `sha256`, the hexadecimal digest of a text.
-/

namespace EarnProxy.ApiKeys

structure ApiKey where
  id : Nat
  publicId : String
  name : String
  tokenPrefix : String
  tokenHash : String
  source : String := "managed"
  createdByUserId : Option Nat := none
  createdAt : Timestamp
  lastUsedAt : Option Timestamp := none
  revokedAt : Option Timestamp := none
  deriving DecidableEq, Repr

/-- The table `api_keys`, and the ids that its foreign key refers to. -/
structure KeyDb where
  users : List Nat := []
  keys : List ApiKey := []
  deriving DecidableEq, Repr

inductive KeyError where
  | valueError (message : String)
  | lookupError (message : String)
  | runtimeError (message : String)
  deriving DecidableEq, Repr

/-- What `secrets.token_urlsafe` returns for the token and for the public id of a key. -/
structure Material where
  token : String
  publicId : String
  deriving DecidableEq, Repr

def tokenText (m : Material) : String := "ep_live_" ++ m.token

/-- `_token_prefix`. -/
def tokenPrefix (token : String) : String := String.ofList (token.toList.take 16) ++ "..."

/-- `str.split`. -/
def words (text : String) : List String :=
  ((text.toList.splitOnP Text.isSpace).filter (· ≠ [])).map String.ofList

/-- `_normalise_name`. -/
def normaliseName (name : String) : Except KeyError String :=
  let value := " ".intercalate (words name)
  if value = "" then .error (.valueError "API key name is required")
  else if 80 < value.length then
    .error (.valueError "API key name must be 80 characters or fewer")
  else if value.toList.any fun c => c.toNat < 32 then
    .error (.valueError "API key name contains an invalid control character")
  else .ok value

/-- The `source` column of a new key. -/
def sourceValue (source : String) : String :=
  let value := Text.lower (Text.strip (if source = "" then "managed" else source))
  if value = "" then "managed" else value

/-- A key is active until it is revoked. -/
def ApiKey.Active (k : ApiKey) : Prop := k.revokedAt = none

instance : DecidablePred ApiKey.Active := fun k => inferInstanceAs (Decidable (k.revokedAt = none))

/-- An active key that stands for a configured token. -/
def ApiKey.ActiveLegacy (k : ApiKey) : Prop := k.source = "legacy" ∧ k.Active

instance : DecidablePred ApiKey.ActiveLegacy := fun _ => inferInstanceAs (Decidable (_ ∧ _))

/-- The row meets the constraints of the table. -/
def KeyDb.Admits (db : KeyDb) (row : ApiKey) : Prop :=
  (∀ k ∈ db.keys, k.publicId ≠ row.publicId) ∧ (∀ k ∈ db.keys, k.tokenHash ≠ row.tokenHash) ∧
    ∀ user ∈ row.createdByUserId, user ∈ db.users

instance (db : KeyDb) (row : ApiKey) : Decidable (db.Admits row) :=
  inferInstanceAs (Decidable (_ ∧ _ ∧ _))

/-- The key that `lastrowid` names after the next insert. -/
def KeyDb.nextId (db : KeyDb) : Nat := Table.nextKey ApiKey.id db.keys

def KeyDb.insert (db : KeyDb) (row : ApiKey) : KeyDb := { db with keys := db.keys ++ [row] }

/-- `UPDATE api_keys SET f WHERE p`. -/
def KeyDb.update (db : KeyDb) (p : ApiKey → Prop) [DecidablePred p] (f : ApiKey → ApiKey) : KeyDb :=
  { db with keys := Table.update p f db.keys }

/-- `UPDATE api_keys SET revoked_at=? WHERE p AND revoked_at IS NULL`. -/
def KeyDb.revoke (db : KeyDb) (p : ApiKey → Prop) [DecidablePred p] (now : Timestamp) : KeyDb :=
  db.update (fun k => p k ∧ k.Active) fun k => { k with revokedAt := some now }

section Services

variable (sha256 : String → String)

/-- The row that an attempt of `_insert_key` inserts. -/
def newKey (db : KeyDb) (name source : String) (createdBy : Option Nat) (now : Timestamp)
    (m : Material) : ApiKey where
  id := db.nextId
  publicId := "key_" ++ m.publicId
  name := name
  tokenPrefix := tokenPrefix (tokenText m)
  tokenHash := sha256 (tokenText m)
  source := source
  createdByUserId := createdBy
  createdAt := now

/-- `_insert_key`: the key, and the token that its digest is made of. -/
def insertKey (db : KeyDb) (name : String) (createdBy : Option Nat) (source : String)
    (now : Timestamp) (materials : List Material) : Except KeyError (KeyDb × Nat × String) := do
  let normalised ← normaliseName name
  let row := newKey sha256 db normalised (sourceValue source) createdBy now
  match (materials.take 5).find? fun m => db.Admits (row m) with
  | some m => pure (db.insert (row m), db.nextId, tokenText m)
  | none => throw (.runtimeError "Could not allocate a unique API key")

/-- `create_api_key`. -/
def createApiKey (db : KeyDb) (name : String) (createdBy : Option Nat) (source : String)
    (now : Timestamp) (materials : List Material) : Except KeyError (KeyDb × Nat × String) :=
  insertKey sha256 db name createdBy source now materials

/-- The row that stands for a configured token. -/
def legacyKey (db : KeyDb) (token : String) (now : Timestamp) : ApiKey where
  id := db.nextId
  publicId := "legacy_" ++ String.ofList ((sha256 token).toList.take 24)
  name := "Legacy environment key"
  tokenPrefix := tokenPrefix token
  tokenHash := sha256 token
  source := "legacy"
  createdAt := now

/-- `ensure_legacy_api_key`, with the id that it returns. -/
def ensureLegacyApiKey (db : KeyDb) (token : String) (now : Timestamp) : KeyDb × Option Nat :=
  if token = "" then (db.revoke (fun k => k.source = "legacy") now, none)
  else
    let digest := sha256 token
    let db := db.revoke (fun k => k.source = "legacy" ∧ k.tokenHash ≠ digest) now
    let existing (db : KeyDb) :=
      db.keys.find? fun k => decide (k.tokenHash = digest ∧ k.source = "legacy")
    match existing db with
    | some k => (db, some k.id)
    | none =>
      -- `INSERT OR IGNORE`
      let row := legacyKey sha256 db token now
      let db := if db.Admits row then db.insert row else db
      (db, (existing db).map ApiKey.id)

/-- What `authenticate_api_key` reads, and returns in the end. -/
def authenticateApiKey (db : KeyDb) (supplied : String) : Option ApiKey :=
  if supplied = "" ∨ 512 < supplied.length then none
  else db.keys.find? fun k => decide (k.tokenHash = sha256 supplied ∧ k.Active)

/-- The second transaction of `authenticate_api_key`; `row` is what it has read. -/
def noteUse (db : KeyDb) (row : ApiKey) (now : Timestamp) : KeyDb :=
  if ∃ used ∈ row.lastUsedAt, now - used < minutes 5 then db
  else db.update (fun k => k.id = row.id ∧ k.Active) fun k => { k with lastUsedAt := some now }

/-- `revoke_api_key`. -/
def revokeApiKey (db : KeyDb) (keyId : Nat) (now : Timestamp) : Except KeyError KeyDb :=
  if ∃ k ∈ db.keys, k.id = keyId ∧ k.Active then pure (db.revoke (fun k => k.id = keyId) now)
  else throw (.lookupError "API key not found or already revoked")

/-- `rotate_api_key`. -/
def rotateApiKey (db : KeyDb) (keyId : Nat) (createdBy : Option Nat) (now : Timestamp)
    (materials : List Material) : Except KeyError (KeyDb × Nat × String) :=
  match db.keys.find? fun k => decide (k.id = keyId ∧ k.Active) with
  | none => throw (.lookupError "API key not found or already revoked")
  | some old => do
    let (db, newId, token) ← insertKey sha256 db old.name createdBy "managed" now materials
    pure (db.revoke (fun k => k.id = keyId) now, newId, token)

inductive Call where
  | create (name : String) (createdBy : Option Nat) (source : String) (materials : List Material)
  | ensureLegacy (token : String)
  | authenticate (supplied : String)
  | noteUse (row : ApiKey)
  | revoke (keyId : Nat)
  | rotate (keyId : Nat) (createdBy : Option Nat) (materials : List Material)
  deriving DecidableEq, Repr

structure Event where
  call : Call
  now : Timestamp
  deriving DecidableEq, Repr

/-- What a transaction leaves when it is committed. -/
def step (db : KeyDb) (e : Event) : Except KeyError KeyDb :=
  match e.call with
  | .create name createdBy source materials =>
    Prod.fst <$> createApiKey sha256 db name createdBy source e.now materials
  | .ensureLegacy token => pure (ensureLegacyApiKey sha256 db token e.now).1
  | .authenticate _ => pure db
  | .noteUse row => pure (noteUse db row e.now)
  | .revoke keyId => revokeApiKey db keyId e.now
  | .rotate keyId createdBy materials =>
    Prod.fst <$> rotateApiKey sha256 db keyId createdBy e.now materials

/-- The table after an event; an error rolls the transaction back. -/
def exec (db : KeyDb) (e : Event) : KeyDb :=
  match step sha256 db e with
  | .ok db => db
  | .error _ => db

/-- The events of `h`, newest first, lead from `db₀` to `db`. -/
def Runs (db₀ : KeyDb) (h : List (Event × KeyDb)) (db : KeyDb) : Prop :=
  History.Run (fun db e db' => exec sha256 db e = db') db₀ h db

end Services

/-! ## What a call can do -/

/-- A key later in its life: what it stands for stays, and it is not activated again. -/
structure ApiKey.Ages (k k' : ApiKey) : Prop where
  id : k'.id = k.id
  tokenHash : k'.tokenHash = k.tokenHash
  source : k'.source = k.source
  active : k'.Active → k.Active

theorem ApiKey.Ages.refl (k : ApiKey) : k.Ages k := ⟨rfl, rfl, rfl, fun h => h⟩

theorem ApiKey.Ages.trans {k k' k'' : ApiKey} (h : k.Ages k') (h' : k'.Ages k'') : k.Ages k'' :=
  ⟨h'.id.trans h.id, h'.tokenHash.trans h.tokenHash, h'.source.trans h.source,
    fun ha => h.active (h'.active ha)⟩

theorem ApiKey.Ages.legacy {k k' : ApiKey} (h : k.Ages k') (hk : k'.ActiveLegacy) :
    k.ActiveLegacy :=
  ⟨h.source ▸ hk.1, h.active hk.2⟩

/-- The same keys, later. -/
def KeyDb.Aged (db db' : KeyDb) : Prop :=
  ∃ φ : ApiKey → ApiKey, db'.keys = db.keys.map φ ∧ ∀ k : ApiKey, k.Ages (φ k)

theorem KeyDb.Aged.refl (db : KeyDb) : db.Aged db := ⟨id, by simp, .refl⟩

theorem KeyDb.Aged.update {p : ApiKey → Prop} [DecidablePred p] {f : ApiKey → ApiKey}
    (h : ∀ k, p k → k.Ages (f k)) (db : KeyDb) : db.Aged (db.update p f) := by
  refine ⟨fun k => if p k then f k else k, rfl, fun k => ?_⟩
  by_cases hp : p k
  · simpa [hp] using h k hp
  · simpa [hp] using ApiKey.Ages.refl k

theorem KeyDb.Aged.revoke (p : ApiKey → Prop) [DecidablePred p] (now : Timestamp) (db : KeyDb) :
    db.Aged (db.revoke p now) := by
  refine KeyDb.Aged.update (fun k hk => ?_) db
  exact ⟨rfl, rfl, rfl, fun _ => hk.2⟩

theorem KeyDb.Aged.origin {db db' : KeyDb} (h : db.Aged db') {k' : ApiKey} (hk' : k' ∈ db'.keys) :
    ∃ k ∈ db.keys, k.Ages k' := by
  obtain ⟨φ, hkeys, hages⟩ := h
  rw [hkeys] at hk'
  obtain ⟨k, hk, rfl⟩ := List.mem_map.mp hk'
  exact ⟨k, hk, hages k⟩

theorem KeyDb.Aged.keep {db db' : KeyDb} (h : db.Aged db') {k : ApiKey} (hk : k ∈ db.keys) :
    ∃ k' ∈ db'.keys, k.Ages k' := by
  obtain ⟨φ, hkeys, hages⟩ := h
  exact ⟨φ k, hkeys ▸ List.mem_map_of_mem hk, hages k⟩

/-- A call of `create_api_key` that asks for a legacy key. No caller names a source. -/
def Event.NamesLegacy (e : Event) : Prop :=
  match e.call with
  | .create _ _ source _ => sourceValue source = "legacy"
  | _ => False

instance (e : Event) : Decidable e.NamesLegacy := by
  unfold Event.NamesLegacy
  split <;> infer_instance

/-- Keys age, and at most one key is added. -/
inductive Effect (e : Event) (db : KeyDb) : KeyDb → Prop where
  | aged {db' : KeyDb} : db.Aged db' → Effect e db db'
  | added {db₁ db' : KeyDb} {row : ApiKey} (before : db.Aged db₁) (admits : db₁.Admits row)
      (fresh : row.id = db₁.nextId)
      (legacy : row.source = "legacy" → e.NamesLegacy ∨ ∀ k ∈ db₁.keys, ¬ k.ActiveLegacy)
      (after : (db₁.insert row).Aged db') : Effect e db db'

section Effects

variable {sha256 : String → String} {db db' : KeyDb} {e : Event}

/-- A key that `_insert_key` adds. -/
theorem insertKey_ok {name source token : String} {createdBy : Option Nat} {now : Timestamp}
    {materials : List Material} {newId : Nat}
    (h : insertKey sha256 db name createdBy source now materials = .ok (db', newId, token)) :
    ∃ normalised m, normaliseName name = .ok normalised ∧ token = tokenText m ∧ newId = db.nextId ∧
      db.Admits (newKey sha256 db normalised (sourceValue source) createdBy now m) ∧
      db' = db.insert (newKey sha256 db normalised (sourceValue source) createdBy now m) := by
  obtain ⟨normalised, hname, h⟩ := Transaction.ok_of_bind h
  simp only at h
  split at h
  · rename_i m hm
    have hadmits := List.find?_some hm
    obtain ⟨rfl, rfl, rfl⟩ := Except.ok.inj h
    exact ⟨normalised, m, hname, rfl, rfl, by simpa using hadmits, rfl⟩
  · cases h

theorem createApiKey_effect {name source token : String} {createdBy : Option Nat}
    {materials : List Material} {newId : Nat} {now : Timestamp}
    (h : createApiKey sha256 db name createdBy source now materials = .ok (db', newId, token)) :
    Effect ⟨.create name createdBy source materials, now⟩ db db' := by
  obtain ⟨normalised, m, -, -, -, hadmits, rfl⟩ := insertKey_ok h
  refine .added (.refl db) hadmits rfl (fun hlegacy => .inl ?_) (.refl _)
  simpa only [Event.NamesLegacy, newKey] using hlegacy

theorem ensureLegacyApiKey_effect (token : String) :
    Effect e db (ensureLegacyApiKey sha256 db token e.now).1 := by
  unfold ensureLegacyApiKey
  split
  · exact .aged (.revoke _ _ db)
  set db₁ := db.revoke (fun k => k.source = "legacy" ∧ k.tokenHash ≠ sha256 token) e.now with hdb₁
  have hrevoked : db.Aged db₁ := .revoke _ _ db
  simp only
  split
  · exact .aged hrevoked
  rename_i hnone
  split
  · refine .added hrevoked ‹_› rfl (fun _ => .inr ?_) (.refl _)
    -- the first statement has left no active legacy key but that of the token, which does not exist
    rintro k hk ⟨hsource, hactive⟩
    have hother : k.tokenHash ≠ sha256 token := fun hhash => by
      simpa [hhash, hsource] using List.find?_eq_none.mp hnone k hk
    rw [hdb₁] at hk
    obtain ⟨k₀, hk₀, hk⟩ := Table.mem_update.mp hk
    by_cases hmatch : (k₀.source = "legacy" ∧ k₀.tokenHash ≠ sha256 token) ∧ k₀.Active
    · rw [if_pos hmatch] at hk
      subst hk
      exact absurd hactive (by simp [ApiKey.Active])
    · rw [if_neg hmatch] at hk
      subst hk
      exact hmatch ⟨⟨hsource, hother⟩, hactive⟩
  · exact .aged hrevoked

theorem rotateApiKey_ok {keyId newId : Nat} {createdBy : Option Nat} {now : Timestamp}
    {materials : List Material} {token : String}
    (h : rotateApiKey sha256 db keyId createdBy now materials = .ok (db', newId, token)) :
    ∃ old ∈ db.keys, old.id = keyId ∧ old.Active ∧ ∃ normalised m,
      normaliseName old.name = .ok normalised ∧ token = tokenText m ∧ newId = db.nextId ∧
      db.Admits (newKey sha256 db normalised "managed" createdBy now m) ∧
      db' = (db.insert (newKey sha256 db normalised "managed" createdBy now m)).revoke
        (fun k => k.id = keyId) now := by
  unfold rotateApiKey at h
  split at h
  · cases h
  rename_i old hold
  obtain ⟨⟨db₁, newId₁, token₁⟩, hinsert, h⟩ := Transaction.ok_of_bind h
  obtain ⟨rfl, rfl, rfl⟩ := Except.ok.inj h
  obtain ⟨normalised, m, hname, htoken, hid, hadmits, rfl⟩ := insertKey_ok hinsert
  have hfound : old.id = keyId ∧ old.Active := by simpa using List.find?_some hold
  exact ⟨old, List.mem_of_find?_eq_some hold, hfound.1, hfound.2, normalised, m, hname, htoken, hid,
    hadmits, rfl⟩

theorem step_effect (h : step sha256 db e = .ok db') : Effect e db db' := by
  obtain ⟨call, now⟩ := e
  cases call with
  | create name createdBy source materials =>
    obtain ⟨⟨db₁, newId, token⟩, hcreate, rfl⟩ := Transaction.ok_of_map h
    exact createApiKey_effect hcreate
  | ensureLegacy token =>
    obtain rfl := Except.ok.inj h
    exact ensureLegacyApiKey_effect (e := ⟨.ensureLegacy token, now⟩) token
  | authenticate supplied =>
    obtain rfl := Except.ok.inj h
    exact .aged (.refl db)
  | noteUse row =>
    obtain rfl := Except.ok.inj h
    refine .aged ?_
    unfold noteUse
    split
    · exact .refl db
    · refine KeyDb.Aged.update (fun k hk => ?_) db
      exact ⟨rfl, rfl, rfl, fun _ => hk.2⟩
  | revoke keyId =>
    simp only [step, revokeApiKey] at h
    split at h
    · obtain rfl := Except.ok.inj h
      exact .aged (.revoke (fun k => k.id = keyId) now db)
    · cases h
  | rotate keyId createdBy materials =>
    obtain ⟨⟨db₁, newId, token⟩, hrotate, rfl⟩ := Transaction.ok_of_map h
    obtain ⟨old, -, -, -, normalised, m, -, -, -, hadmits, rfl⟩ := rotateApiKey_ok hrotate
    exact .added (.refl db) hadmits rfl (fun hlegacy => absurd hlegacy (by simp [newKey]))
      (.revoke (fun k => k.id = keyId) now _)

theorem exec_effect (db : KeyDb) (e : Event) : Effect e db (exec sha256 db e) := by
  unfold exec
  cases hstep : step sha256 db e with
  | ok db' => exact step_effect hstep
  | error error => exact .aged (.refl db)

end Effects

/-! ## Every run -/

/-- The keys of the table. -/
structure KeyDb.Sound (db : KeyDb) : Prop where
  ids : Table.Keyed ApiKey.id db.keys
  tokenHashes : Table.Keyed ApiKey.tokenHash db.keys

/-- At most one key stands for a configured token. -/
def KeyDb.OneLegacy (db : KeyDb) : Prop :=
  ∀ k ∈ db.keys, ∀ k' ∈ db.keys, k.ActiveLegacy → k'.ActiveLegacy → k.id = k'.id

/-- The key with this digest was revoked. -/
def KeyDb.Revoked (digest : String) (db : KeyDb) : Prop :=
  ∃ k ∈ db.keys, k.tokenHash = digest ∧ ¬ k.Active

section Invariants

variable {sha256 : String → String} {db db' : KeyDb} {e : Event}

theorem KeyDb.Sound.aged (hs : db.Sound) (h : db.Aged db') : db'.Sound := by
  obtain ⟨φ, hkeys, hages⟩ := h
  constructor
  · exact hkeys ▸ hs.ids.map fun k _ => (hages k).id
  · exact hkeys ▸ hs.tokenHashes.map fun k _ => (hages k).tokenHash

theorem KeyDb.Sound.insert (hs : db.Sound) {row : ApiKey} (hadmits : db.Admits row)
    (hfresh : row.id = db.nextId) : (db.insert row).Sound where
  ids := hs.ids.append_fresh fun k hk => by
    have hlt : k.id < Table.nextKey ApiKey.id db.keys := Table.lt_nextKey hk
    rw [hfresh]
    exact hlt.ne
  tokenHashes := hs.tokenHashes.append_fresh hadmits.2.1

theorem Effect.sound (h : Effect e db db') (hs : db.Sound) : db'.Sound := by
  cases h with
  | aged haged => exact hs.aged haged
  | added before admits fresh _ after => exact ((hs.aged before).insert admits fresh).aged after

theorem KeyDb.OneLegacy.aged (ho : db.OneLegacy) (h : db.Aged db') : db'.OneLegacy := by
  intro k₁ hk₁ k₂ hk₂ h₁ h₂
  obtain ⟨k₁', hmem₁, hages₁⟩ := h.origin hk₁
  obtain ⟨k₂', hmem₂, hages₂⟩ := h.origin hk₂
  rw [hages₁.id, hages₂.id]
  exact ho k₁' hmem₁ k₂' hmem₂ (hages₁.legacy h₁) (hages₂.legacy h₂)

theorem KeyDb.OneLegacy.insert (ho : db.OneLegacy) {row : ApiKey}
    (hrow : row.source = "legacy" → ∀ k ∈ db.keys, ¬ k.ActiveLegacy) :
    (db.insert row).OneLegacy := by
  intro k₁ hk₁ k₂ hk₂ h₁ h₂
  rcases List.mem_append.mp hk₁ with hold₁ | hnew₁ <;>
    rcases List.mem_append.mp hk₂ with hold₂ | hnew₂
  · exact ho k₁ hold₁ k₂ hold₂ h₁ h₂
  · obtain rfl := List.mem_singleton.mp hnew₂
    exact absurd h₁ (hrow h₂.1 k₁ hold₁)
  · obtain rfl := List.mem_singleton.mp hnew₁
    exact absurd h₂ (hrow h₁.1 k₂ hold₂)
  · rw [List.mem_singleton.mp hnew₁, List.mem_singleton.mp hnew₂]

theorem Effect.oneLegacy (h : Effect e db db') (hsource : ¬ e.NamesLegacy) (ho : db.OneLegacy) :
    db'.OneLegacy := by
  cases h with
  | aged haged => exact ho.aged haged
  | added before _ _ legacy after =>
    exact ((ho.aged before).insert fun hrow => (legacy hrow).resolve_left hsource).aged after

theorem KeyDb.Revoked.aged {digest : String} (hr : db.Revoked digest) (h : db.Aged db') :
    db'.Revoked digest := by
  obtain ⟨k, hk, hhash, hactive⟩ := hr
  obtain ⟨k', hk', hages⟩ := h.keep hk
  exact ⟨k', hk', hages.tokenHash.trans hhash, fun ha => hactive (hages.active ha)⟩

theorem KeyDb.Revoked.insert {digest : String} (hr : db.Revoked digest) (row : ApiKey) :
    (db.insert row).Revoked digest := by
  obtain ⟨k, hk, hrest⟩ := hr
  exact ⟨k, List.mem_append_left _ hk, hrest⟩

theorem Effect.revoked (h : Effect e db db') {digest : String} (hr : db.Revoked digest) :
    db'.Revoked digest := by
  cases h with
  | aged haged => exact hr.aged haged
  | added before _ _ _ after => exact ((hr.aged before).insert _).aged after

/-- A digest belongs to one key only, so no active key has that of a revoked one. -/
theorem KeyDb.Sound.not_authenticated (hs : db.Sound) {token : String}
    (hr : db.Revoked (sha256 token)) : authenticateApiKey sha256 db token = none := by
  unfold authenticateApiKey
  split
  · rfl
  refine List.find?_eq_none.mpr fun k hk hmatch => ?_
  obtain ⟨hhash, hactive⟩ := of_decide_eq_true hmatch
  obtain ⟨k', hk', hhash', hrevoked⟩ := hr
  obtain rfl := hs.tokenHashes.eq hk hk' (hhash.trans hhash'.symm)
  exact hrevoked hactive

variable {h : List (Event × KeyDb)}

theorem Runs.sound {db₀ : KeyDb} (hs : db₀.Sound) (run : Runs sha256 db₀ h db) : db.Sound := by
  refine History.Run.always hs ?_ run
  rintro db e _ hs rfl
  exact (exec_effect db e).sound hs

theorem Runs.oneLegacy {db₀ : KeyDb} (ho : db₀.OneLegacy) (run : Runs sha256 db₀ h db)
    (hsource : ∀ x ∈ h, ¬ x.1.NamesLegacy) : db.OneLegacy := by
  refine run.invariant (I := fun h db => (∀ x ∈ h, ¬ x.1.NamesLegacy) → db.OneLegacy)
    (fun _ => ho) ?_ hsource
  rintro h db e _ - ih rfl hsource
  have hbefore : db.OneLegacy := ih fun x hx => hsource x (List.mem_cons_of_mem _ hx)
  exact (exec_effect db e).oneLegacy (hsource _ List.mem_cons_self) hbefore

theorem Runs.revoked {digest : String} {db₀ : KeyDb} (hr : db₀.Revoked digest)
    (run : Runs sha256 db₀ h db) : db.Revoked digest := by
  refine History.Run.always hr ?_ run
  rintro db e _ hr rfl
  exact (exec_effect db e).revoked hr

end Invariants

/-- A table in which no key was created yet. -/
def KeyDb.empty (users : List Nat) : KeyDb := { users }

/-- The old key is revoked, and one active key with its name succeeds it. -/
structure Rotated (sha256 : String → String) (db db' : KeyDb) (keyId newId : Nat) (token : String)
    (now : Timestamp) : Prop where
  old : ∃ old ∈ db.keys, old.id = keyId ∧ old.Active
  successor : ∃ new : ApiKey, new.id = newId ∧ new.Active ∧ new.source = "managed" ∧
    new.tokenHash = sha256 token ∧ (∀ k ∈ db.keys, k.id ≠ newId ∧ k.tokenHash ≠ new.tokenHash) ∧
    db'.keys = Table.update (fun k => k.id = keyId) (fun k => { k with revokedAt := some now })
      db.keys ++ [new]

theorem rotateApiKey_rotated {sha256 : String → String} {db db' : KeyDb} (hs : db.Sound)
    {keyId newId : Nat} {createdBy : Option Nat} {now : Timestamp} {materials : List Material}
    {token : String}
    (h : rotateApiKey sha256 db keyId createdBy now materials = .ok (db', newId, token)) :
    Rotated sha256 db db' keyId newId token now := by
  obtain ⟨old, hold, hid, hactive, normalised, m, -, htoken, hnew, hadmits, rfl⟩ :=
    rotateApiKey_ok h
  refine ⟨⟨old, hold, hid, hactive⟩, newKey sha256 db normalised "managed" createdBy now m,
    hnew.symm,
    rfl, rfl, htoken ▸ rfl, fun k hk => ⟨?_, hadmits.2.1 k hk⟩, ?_⟩
  · rw [hnew]
    exact (Table.lt_nextKey hk).ne
  -- the second statement finds the old key, which is still active, and no other key of that id
  simp only [KeyDb.revoke, KeyDb.update, KeyDb.insert, Table.update, List.map_append]
  congr 1
  · refine List.map_congr_left fun k hk => if_congr ⟨fun hk => hk.1, fun hkey => ⟨hkey, ?_⟩⟩ rfl rfl
    exact hs.ids.eq hk hold (hkey.trans hid.symm) ▸ hactive
  · have hother : db.nextId ≠ keyId := by
      rw [← hid]
      exact (Table.lt_nextKey hold).ne'
    simp [newKey, hother]

/-- In every run of the services a revoked token stays revoked, and a rotation replaces the key or
changes nothing. At most one legacy key is active under a condition on the callers of
`create_api_key`, that none of them asks for a legacy key. -/
theorem revocation_permanent {sha256 : String → String} {users : List Nat}
    {h : List (Event × KeyDb)} {db : KeyDb} (run : Runs sha256 (.empty users) h db) :
    (∀ {token : String}, db.Revoked (sha256 token) → ∀ {h' : List (Event × KeyDb)} {db' : KeyDb},
      Runs sha256 db h' db' → authenticateApiKey sha256 db' token = none) ∧
    ((∀ x ∈ h, ¬ x.1.NamesLegacy) →
      (db.keys.filter fun k => decide k.ActiveLegacy).length ≤ 1) ∧
    ∀ (keyId : Nat) (createdBy : Option Nat) (now : Timestamp) (materials : List Material),
      match rotateApiKey sha256 db keyId createdBy now materials with
      | .ok (db', newId, token) => Rotated sha256 db db' keyId newId token now ∧
          exec sha256 db ⟨.rotate keyId createdBy materials, now⟩ = db'
      | .error _ => exec sha256 db ⟨.rotate keyId createdBy materials, now⟩ = db := by
  have hempty : (KeyDb.empty users).Sound := ⟨List.nodup_nil, List.nodup_nil⟩
  have hsound : db.Sound := run.sound hempty
  refine ⟨fun hr h' db' run' => ?_, fun hsource => ?_, fun keyId createdBy now materials => ?_⟩
  · exact (run'.sound hsound).not_authenticated (run'.revoked hr)
  · have hone : db.OneLegacy :=
      run.oneLegacy (fun k hk => absurd hk (by simp [KeyDb.empty])) hsource
    have hkeyed : Table.Keyed ApiKey.id (db.keys.filter fun k => decide k.ActiveLegacy) :=
      hsound.ids.filter _
    refine hkeyed.length_le_one fun k hk k' hk' => ?_
    obtain ⟨hmem, hlegacy⟩ := List.mem_filter.mp hk
    obtain ⟨hmem', hlegacy'⟩ := List.mem_filter.mp hk'
    exact hone k hmem k' hmem' (of_decide_eq_true hlegacy) (of_decide_eq_true hlegacy')
  · cases hrotate : rotateApiKey sha256 db keyId createdBy now materials with
    | ok result =>
      obtain ⟨db', newId, token⟩ := result
      exact ⟨rotateApiKey_rotated hsound hrotate, by simp [exec, step, hrotate]⟩
    | error error => simp [exec, step, hrotate]

namespace Scenario

/-- SHA-256 of the tokens below. -/
def digest (token : String) : String :=
  if token = "first" then "a7937b64b8caa58f03721bb6bacf5c78cb235febe0e70b1b84cd99541461a08e"
  else if token = "second" then "16367aacb67a4a017c8da8ab95682ccb390863780f7114dda0a0e0c55644c7c4"
  else if token = "ep_live_n1" then
    "dd848a4a2adc0ebbff4f6b836cee08321f71dd8c4eb4d75a5be3d5a1b2ac41a8"
  else ""

/-- A second token is configured, its key is rotated, and the first token is configured again. -/
def tokenConfiguredAgain : List Event :=
  [⟨.ensureLegacy "first", 0⟩, ⟨.ensureLegacy "second", minutes 1⟩,
    ⟨.rotate 2 none [⟨"n1", "p1"⟩], minutes 2⟩, ⟨.ensureLegacy "first", minutes 3⟩]

def history : List (Event × KeyDb) :=
  History.replay (exec digest) (.empty []) tokenConfiguredAgain

def after : KeyDb := History.current (.empty []) history

end Scenario

theorem revocation_permanent_tokenConfiguredAgain :
    (∀ {h' : List (Event × KeyDb)} {db' : KeyDb}, Runs Scenario.digest Scenario.after h' db' →
      authenticateApiKey Scenario.digest db' "first" = none ∧
        authenticateApiKey Scenario.digest db' "second" = none) ∧
    (Scenario.after.keys.filter fun k => decide k.ActiveLegacy).length ≤ 1 := by
  have run : Runs Scenario.digest (.empty []) Scenario.history Scenario.after :=
    History.run_replay (exec Scenario.digest) (.empty []) Scenario.tokenConfiguredAgain
  obtain ⟨hrevoked, hlegacy, -⟩ := revocation_permanent run
  have hfirst : Scenario.after.Revoked (Scenario.digest "first") := by
    unfold KeyDb.Revoked
    decide +kernel
  have hsecond : Scenario.after.Revoked (Scenario.digest "second") := by
    unfold KeyDb.Revoked
    decide +kernel
  exact ⟨fun run' => ⟨hrevoked hfirst run', hrevoked hsecond run'⟩, hlegacy (by decide +kernel)⟩

end EarnProxy.ApiKeys

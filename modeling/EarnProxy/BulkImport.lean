import EarnProxy.Library.Transaction
import EarnProxy.ProxyParser

/-!
# `bulk_add_proxies`

A batch of lines is parsed first and inserted then, with a set of the fingerprints it has seen and
its own count of active rows. Line by line, `add_proxy` counts again and relies on the unique
constraint. Both leave the same rows.
-/

namespace EarnProxy

variable (isGlobal : IpAddress → Bool)

/-- The error of `add_proxy` when the quota is reached. -/
def quotaError (maxActiveProxies : Option Int) : DbError :=
  .proxyQuotaExceeded ("This account has reached the maximum number of active proxies (" ++
    toString ((maxActiveProxies.map proxyQuota).getD 0) ++ ")")

/-- `quota is not None and active_count >= quota`. -/
def QuotaReached (maxActiveProxies : Option Int) (activeCount : Nat) : Prop :=
  ∃ q ∈ maxActiveProxies.map proxyQuota, q ≤ activeCount

instance (maxActiveProxies : Option Int) (activeCount : Nat) :
    Decidable (QuotaReached maxActiveProxies activeCount) :=
  inferInstanceAs (Decidable (∃ q ∈ maxActiveProxies.map proxyQuota, _))

/-- `add_proxy` on a raw line. The quota is checked before the line is parsed. -/
def addRawProxy (db : Db) (userId : Nat) (raw : List Char) (maxActiveProxies : Option Int)
    (wall : Timestamp) : Tx (Db × Nat) :=
  if QuotaReached maxActiveProxies (activeCount db userId) then .error (quotaError maxActiveProxies)
  else
    match parseProxy isGlobal raw with
    | .error e => .error (.valueError e)
    | .ok parsed => addProxy db userId parsed maxActiveProxies wall

/-- `ProxyParseError`, `DuplicateCredential` and `ProxyQuotaExceeded`. -/
def DbError.IsImportFailure : DbError → Prop
  | .valueError _ | .duplicateCredential | .proxyQuotaExceeded _ => True
  | _ => False

instance (e : DbError) : Decidable e.IsImportFailure := by
  cases e <;> unfold DbError.IsImportFailure <;> infer_instance

/-- Every line is added by itself, at its own reading of the clock. A failure that is none of
an import stops. -/
def addEach (userId : Nat) (maxActiveProxies : Option Int) :
    List (List Char × Timestamp) → Db → Db × Option DbError
  | [], db => (db, none)
  | (raw, wall) :: calls, db =>
    match addRawProxy isGlobal db userId raw maxActiveProxies wall with
    | .ok (db', _) => addEach userId maxActiveProxies calls db'
    | .error e =>
      if e.IsImportFailure then addEach userId maxActiveProxies calls db else (db, some e)

structure BulkImportIssue where
  line : Nat
  category : String
  reason : String
  value : String := ""
  deriving DecidableEq, Repr

/-- `MAX_BULK_IMPORT_ISSUES`. -/
def maxBulkImportIssues : Nat := 100

/-- `issues` and `issues_truncated`. -/
structure IssueLog where
  issues : List BulkImportIssue := []
  truncated : Nat := 0
  deriving DecidableEq, Repr

/-- `record_issue`. -/
def IssueLog.record (log : IssueLog) (issue : BulkImportIssue) : IssueLog :=
  if log.issues.length < maxBulkImportIssues then { log with issues := log.issues ++ [issue] }
  else { log with truncated := log.truncated + 1 }

/-- The variables of the first loop; `parsedRows` computes the fingerprint again where it is
used. -/
structure BulkParse where
  submitted : Nat := 0
  ignoredBlank : Nat := 0
  invalid : Nat := 0
  log : IssueLog := {}
  parsedRows : List (Nat × ParsedProxy) := []
  deriving DecidableEq, Repr

/-- One round of the first loop. -/
def BulkParse.visit (s : BulkParse) (lineNumber : Nat) (rawLine : List Char) : BulkParse :=
  let value := Text.stripChars rawLine
  if value = [] then { s with ignoredBlank := s.ignoredBlank + 1 }
  else
    match parseProxy isGlobal value with
    | .error e => { s with
        submitted := s.submitted + 1, invalid := s.invalid + 1
        log := s.log.record { line := lineNumber, category := "invalid", reason := e } }
    | .ok parsed => { s with
        submitted := s.submitted + 1, parsedRows := s.parsedRows ++ [(lineNumber, parsed)] }

/-- `_safe_issue_value` of a line that was parsed. -/
def safeIssueValue (parsed : ParsedProxy) : String := parsed.host ++ ":" ++ toString parsed.port

/-- The variables of the second loop, with the database as it is inside the transaction. -/
structure BulkState where
  db : Db
  activeCount : Nat
  seen : List String := []
  added : Nat := 0
  duplicates : Nat := 0
  quotaSkipped : Nat := 0
  log : IssueLog

/-- One round of the second loop. An error comes with the database at which it was raised. -/
def BulkState.visit (userId : Nat) (maxActiveProxies : Option Int) (now : Timestamp) (s : BulkState)
    (row : Nat × ParsedProxy) : Except (DbError × Db) BulkState :=
  let fingerprint := credentialFingerprint row.2
  let issue category reason : BulkImportIssue :=
    { line := row.1, category, reason, value := safeIssueValue row.2 }
  if fingerprint ∈ s.seen then
    .ok { s with
      duplicates := s.duplicates + 1
      log := s.log.record (issue "duplicate" "Proxy credential already exists in this import") }
  else
    let s := { s with seen := s.seen ++ [fingerprint] }
    if CredentialTaken s.db row.2 none then
      .ok { s with
        duplicates := s.duplicates + 1
        log := s.log.record (issue "duplicate" "Proxy credential already exists") }
    else if QuotaReached maxActiveProxies s.activeCount then
      .ok { s with
        quotaSkipped := s.quotaSkipped + 1
        log := s.log.record (issue "quota" "Account proxy limit reached") }
    else if s.db.user? userId = none then .error (.foreignKey, s.db)
    else
      .ok { s with
        db := { s.db with proxies := s.db.proxies ++ [newProxy s.db userId row.2 now] }
        added := s.added + 1, activeCount := s.activeCount + 1 }

structure BulkImportResult where
  submitted : Nat
  added : Nat
  duplicates : Nat
  invalid : Nat
  quotaSkipped : Nat
  ignoredBlank : Nat
  issues : List BulkImportIssue
  issuesTruncated : Nat
  deriving DecidableEq, Repr

/-- The first loop. -/
def bulkParse (lines : List (List Char)) : BulkParse :=
  (lines.zipIdx 1).foldl (fun s line => s.visit isGlobal line.2 line.1) {}

/-- The second loop. -/
def bulkInsert (db : Db) (userId : Nat) (maxActiveProxies : Option Int) (wall : Timestamp)
    (parse : BulkParse) : Except (DbError × Db) BulkState :=
  let start : BulkState := {
    db, log := parse.log
    activeCount := if maxActiveProxies = none then 0 else activeCount db userId }
  parse.parsedRows.foldlM (fun s row => s.visit userId maxActiveProxies wall row) start

/-- `bulk_add_proxies` of a list of lines: what the database is then, and the result. Without a
transaction of the caller its own is rolled back when it raises. -/
def bulkAddProxies (db : Db) (userId : Nat) (lines : List (List Char))
    (maxActiveProxies : Option Int) (maxLines : Int) (inTransaction : Bool) (wall : Timestamp) :
    Db × Except DbError BulkImportResult :=
  if max 1 maxLines < lines.length then
    (db, .error (.valueError ("A single import can contain at most " ++ toString maxLines ++
      " lines")))
  else
    let parse := bulkParse isGlobal lines
    match bulkInsert db userId maxActiveProxies wall parse with
    | .error (e, raisedAt) => (if inTransaction then raisedAt else db, .error e)
    | .ok s => (s.db, .ok {
        submitted := parse.submitted, added := s.added, duplicates := s.duplicates
        invalid := parse.invalid, quotaSkipped := s.quotaSkipped, ignoredBlank := parse.ignoredBlank
        issues := s.log.issues.mergeSort fun a b => a.line ≤ b.line
        issuesTruncated := s.log.truncated })

/-! ## The first loop -/

section FirstLoop

variable {isGlobal} {s : BulkParse}

theorem parseProxy_stripChars (raw : List Char) :
    parseProxy isGlobal (Text.stripChars raw) = parseProxy isGlobal raw := by
  unfold parseProxy proxyFields
  rw [(Text.trimmed_stripChars raw).stripChars_eq]

theorem parseProxy_blank {raw : List Char} (h : Text.stripChars raw = []) :
    parseProxy isGlobal raw = .error "Proxy is required" := by
  unfold parseProxy proxyFields
  rw [h]
  rfl

/-- The issues that were recorded or counted. -/
def IssueLog.total (log : IssueLog) : Nat := log.issues.length + log.truncated

@[simp] theorem IssueLog.total_record (log : IssueLog) (issue : BulkImportIssue) :
    (log.record issue).total = log.total + 1 := by
  unfold IssueLog.record IssueLog.total
  split_ifs <;> simp <;> omega

variable (isGlobal) in
/-- The row of a line that is parsed. -/
def readRow (line : List Char × Nat) : Option (Nat × ParsedProxy) :=
  match parseProxy isGlobal line.1 with
  | .ok parsed => some (line.2, parsed)
  | .error _ => none

/-- The counters after `lines` lines. -/
structure BulkParse.Counts (s : BulkParse) (lines : Nat) : Prop where
  lines_eq : lines = s.submitted + s.ignoredBlank
  submitted_eq : s.submitted = s.invalid + s.parsedRows.length
  issues_eq : s.log.total = s.invalid

variable (isGlobal) in
/-- One round counts one line and reads its row. -/
theorem BulkParse.Counts.visit {lines : Nat} (h : s.Counts lines) (line : List Char × Nat) :
    (s.visit isGlobal line.2 line.1).Counts (lines + 1) ∧
      (s.visit isGlobal line.2 line.1).parsedRows =
        s.parsedRows ++ (readRow isGlobal line).toList := by
  obtain ⟨hlines, hsubmitted, hissues⟩ := h
  unfold BulkParse.visit readRow
  dsimp only
  split_ifs with hblank
  · rw [parseProxy_blank hblank]
    refine ⟨⟨?_, hsubmitted, hissues⟩, by simp⟩
    dsimp only
    omega
  · rw [parseProxy_stripChars]
    cases parseProxy isGlobal line.1 with
    | error e =>
      refine ⟨⟨?_, ?_, ?_⟩, by simp⟩
      · dsimp only
        omega
      · dsimp only
        omega
      · simp [hissues]
    | ok parsed =>
      refine ⟨⟨?_, ?_, hissues⟩, by simp⟩
      · dsimp only
        omega
      · simp [hsubmitted, Nat.add_assoc]

variable (isGlobal) in
theorem BulkParse.Counts.foldl {lines : Nat} (h : s.Counts lines) (rest : List (List Char × Nat)) :
    (rest.foldl (fun s line => s.visit isGlobal line.2 line.1) s).Counts (lines + rest.length) ∧
      (rest.foldl (fun s line => s.visit isGlobal line.2 line.1) s).parsedRows =
        s.parsedRows ++ rest.filterMap (readRow isGlobal) := by
  induction rest generalizing s lines with
  | nil => exact ⟨h, by simp⟩
  | cons line rest ih =>
    obtain ⟨hcounts, hrows⟩ := h.visit isGlobal line
    obtain ⟨hcounts', hrows'⟩ := ih hcounts
    rw [List.foldl_cons, List.length_cons]
    refine ⟨by convert hcounts' using 1; omega, ?_⟩
    rw [hrows', hrows, List.append_assoc, List.filterMap_cons]
    cases readRow isGlobal line <;> rfl

variable (isGlobal) in
theorem bulkParse_spec (lines : List (List Char)) :
    (bulkParse isGlobal lines).Counts lines.length ∧
      (bulkParse isGlobal lines).parsedRows = (lines.zipIdx 1).filterMap (readRow isGlobal) := by
  have hstart : BulkParse.Counts {} 0 := ⟨rfl, rfl, rfl⟩
  unfold bulkParse
  simpa using hstart.foldl isGlobal (lines.zipIdx 1)

end FirstLoop

/-! ## The second loop -/

section SecondLoop

variable {userId : Nat} {maxActiveProxies : Option Int} {now : Timestamp} {s s' : BulkState}
variable {row : Nat × ParsedProxy}

/-- A round that leaves the line out. -/
structure BulkState.Skips (maxActiveProxies : Option Int) (s s' : BulkState)
    (row : Nat × ParsedProxy) : Prop where
  db : s'.db = s.db
  activeCount : s'.activeCount = s.activeCount
  added : s'.added = s.added
  skipped : s'.duplicates + s'.quotaSkipped = s.duplicates + s.quotaSkipped + 1
  log : s'.log.total = s.log.total + 1
  seen : ∀ fingerprint ∈ s'.seen, fingerprint ∈ s.seen ∨ fingerprint = credentialFingerprint row.2
  reason : credentialFingerprint row.2 ∈ s.seen ∨ CredentialTaken s.db row.2 none ∨
    QuotaReached maxActiveProxies s.activeCount

/-- A round that inserts the line. -/
structure BulkState.Inserts (userId : Nat) (maxActiveProxies : Option Int) (now : Timestamp)
    (s s' : BulkState) (row : Nat × ParsedProxy) : Prop where
  db : s'.db = { s.db with proxies := s.db.proxies ++ [newProxy s.db userId row.2 now] }
  activeCount : s'.activeCount = s.activeCount + 1
  added : s'.added = s.added + 1
  skipped : s'.duplicates + s'.quotaSkipped = s.duplicates + s.quotaSkipped
  log : s'.log.total = s.log.total
  seen : ∀ fingerprint ∈ s'.seen, fingerprint ∈ s.seen ∨ fingerprint = credentialFingerprint row.2
  free : ¬ CredentialTaken s.db row.2 none
  room : ¬ QuotaReached maxActiveProxies s.activeCount
  user : s.db.user? userId ≠ none

variable (userId maxActiveProxies now) in
/-- What a round can do. -/
theorem BulkState.visit_spec (s : BulkState) (row : Nat × ParsedProxy) :
    match s.visit userId maxActiveProxies now row with
    | .ok s' => s.Skips maxActiveProxies s' row ∨ s.Inserts userId maxActiveProxies now s' row
    | .error (e, raisedAt) => e = .foreignKey ∧ raisedAt = s.db ∧ s.db.user? userId = none ∧
        ¬ CredentialTaken s.db row.2 none ∧ ¬ QuotaReached maxActiveProxies s.activeCount := by
  have hseen : ∀ fingerprint ∈ s.seen ++ [credentialFingerprint row.2],
      fingerprint ∈ s.seen ∨ fingerprint = credentialFingerprint row.2 := by simp
  unfold BulkState.visit
  dsimp only
  split_ifs with hagain htaken hquota huser
  · exact .inl ⟨rfl, rfl, rfl, by dsimp only; omega, by simp, fun _ h => .inl h, .inl hagain⟩
  · exact .inl ⟨rfl, rfl, rfl, by dsimp only; omega, by simp, hseen, .inr (.inl htaken)⟩
  · exact .inl ⟨rfl, rfl, rfl, by dsimp only; omega, by simp, hseen, .inr (.inr hquota)⟩
  · exact ⟨rfl, rfl, huser, htaken, hquota⟩
  · exact .inr ⟨rfl, rfl, rfl, rfl, rfl, hseen, htaken, hquota, huser⟩

/-- The counters after `rows` rows of a batch with `invalid` lines that were not parsed. -/
structure BulkState.Counts (s : BulkState) (invalid rows : Nat) : Prop where
  rows_eq : rows = s.added + (s.duplicates + s.quotaSkipped)
  issues_eq : s.log.total = invalid + (s.duplicates + s.quotaSkipped)

theorem BulkState.Counts.foldlM {invalid visited : Nat} (h : s.Counts invalid visited)
    {rows : List (Nat × ParsedProxy)}
    (hrun : rows.foldlM (fun s row => s.visit userId maxActiveProxies now row) s = .ok s') :
    s'.Counts invalid (visited + rows.length) := by
  induction rows generalizing s visited with
  | nil => exact Except.ok.inj hrun ▸ h
  | cons row rows ih =>
    rw [List.foldlM_cons] at hrun
    obtain ⟨next, hnext, hrun⟩ := Transaction.ok_of_bind hrun
    have hspec := s.visit_spec userId maxActiveProxies now row
    rw [hnext] at hspec
    have hcounts : next.Counts invalid (visited + 1) := by
      obtain ⟨hrows, hissues⟩ := h
      rcases hspec with hskip | hinsert
      · have h1 := hskip.added
        have h2 := hskip.skipped
        have h3 := hskip.log
        constructor <;> omega
      · have h1 := hinsert.added
        have h2 := hinsert.skipped
        have h3 := hinsert.log
        constructor <;> omega
    rw [List.length_cons, Nat.add_comm rows.length 1, ← Nat.add_assoc]
    exact ih hcounts hrun

variable (maxActiveProxies now) in
/-- With a user that exists no round raises. -/
theorem foldlM_visit_ok (huser : s.db.user? userId ≠ none) (rows : List (Nat × ParsedProxy)) :
    ∃ s', rows.foldlM (fun s row => s.visit userId maxActiveProxies now row) s = .ok s' := by
  induction rows generalizing s with
  | nil => exact ⟨s, rfl⟩
  | cons row rows ih =>
    have hspec := s.visit_spec userId maxActiveProxies now row
    rw [List.foldlM_cons]
    cases hnext : s.visit userId maxActiveProxies now row with
    | error e =>
      rw [hnext] at hspec
      exact absurd hspec.2.2.1 huser
    | ok next =>
      rw [hnext] at hspec
      refine ih ?_
      rcases hspec with hskip | hinsert
      · rwa [hskip.db]
      · rw [hinsert.db]
        exact huser

/-- An error is raised before the first row is inserted. -/
theorem raisedAt_eq {rows : List (Nat × ParsedProxy)} {e : DbError} {raisedAt : Db}
    (hrun : rows.foldlM (fun s row => s.visit userId maxActiveProxies now row) s =
      .error (e, raisedAt)) : raisedAt = s.db := by
  induction rows generalizing s with
  | nil => cases hrun
  | cons row rows ih =>
    have hspec := s.visit_spec userId maxActiveProxies now row
    rw [List.foldlM_cons] at hrun
    cases hnext : s.visit userId maxActiveProxies now row with
    | error raised =>
      rw [hnext] at hspec hrun
      obtain rfl := Except.error.inj hrun
      exact hspec.2.1
    | ok next =>
      rw [hnext] at hspec hrun
      rcases hspec with hskip | hinsert
      · rw [← hskip.db]
        exact ih hrun
      · have huser : next.db.user? userId ≠ none := by
          rw [hinsert.db]
          exact hinsert.user
        obtain ⟨s', hs'⟩ := foldlM_visit_ok maxActiveProxies now huser rows
        exact absurd (hs'.symm.trans hrun) nofun

end SecondLoop

/-! ## Databases up to timestamps -/

/-- A row with its timestamps erased. -/
def Proxy.untimed (r : Proxy) : Proxy :=
  { r with
    credentialStartedAt := 0, nextCheckAt := r.nextCheckAt.map fun _ => 0
    probationStartedAt := r.probationStartedAt.map fun _ => 0
    accrualCursorAt := r.accrualCursorAt.map fun _ => 0, createdAt := 0 }

/-- Two databases that differ in timestamps of proxies only. -/
structure SameUpToTime (db db' : Db) : Prop where
  rest : { db with proxies := [] } = { db' with proxies := [] }
  rows : db.proxies.map Proxy.untimed = db'.proxies.map Proxy.untimed

namespace SameUpToTime

variable {db db' : Db}

theorem refl (db : Db) : SameUpToTime db db := ⟨rfl, rfl⟩

theorem user?_eq (h : SameUpToTime db db') (userId : Nat) : db.user? userId = db'.user? userId := by
  have husers := congrArg Db.users h.rest
  dsimp only at husers
  unfold Db.user?
  rw [husers]

/-- A column that is no timestamp. -/
theorem map_eq {β : Type} (h : SameUpToTime db db') {column : Proxy → β}
    (hcolumn : ∀ r : Proxy, column r.untimed = column r) :
    db.proxies.map column = db'.proxies.map column := by
  have hcomp : column = column ∘ Proxy.untimed := funext fun r => (hcolumn r).symm
  rw [hcomp, ← List.map_map, ← List.map_map, h.rows]

theorem activeCount_eq (h : SameUpToTime db db') (userId : Nat) :
    activeCount db userId = activeCount db' userId := by
  have hcount (d : Db) : activeCount d userId =
      ((d.proxies.map fun r => (r.userId, r.archivedAt)).filter fun c =>
        c.1 = userId ∧ c.2 = none).length := by
    unfold activeCount
    rw [List.filter_map, List.length_map]
    rfl
  rw [hcount, hcount, h.map_eq fun _ => rfl]

theorem taken_iff (h : SameUpToTime db db') (parsed : ParsedProxy) :
    CredentialTaken db parsed none ↔ CredentialTaken db' parsed none := by
  have htaken (d : Db) : CredentialTaken d parsed none ↔
      credentialFingerprint parsed ∈ d.proxies.map fun r => r.credentialFingerprint := by
    simp [CredentialTaken]
  rw [htaken, htaken, h.map_eq fun _ => rfl]

theorem insert (h : SameUpToTime db db') (userId : Nat) (parsed : ParsedProxy)
    (now wall : Timestamp) :
    SameUpToTime { db with proxies := db.proxies ++ [newProxy db userId parsed now] }
      { db' with proxies := db'.proxies ++ [newProxy db' userId parsed wall] } := by
  have hkey : Table.nextKey Proxy.id db.proxies = Table.nextKey Proxy.id db'.proxies := by
    unfold Table.nextKey
    rw [h.map_eq fun _ => rfl]
  refine ⟨h.rest, ?_⟩
  rw [List.map_append, List.map_append, h.rows]
  simp [newProxy, Proxy.untimed, hkey]

end SameUpToTime

/-! ## The batch and the single lines -/

section Refinement

variable {userId : Nat} {maxActiveProxies : Option Int} {now : Timestamp} {s s' : BulkState}
    {db : Db}

theorem activeCount_insert (db : Db) (userId : Nat) (parsed : ParsedProxy) (now : Timestamp) :
    activeCount { db with proxies := db.proxies ++ [newProxy db userId parsed now] } userId =
      activeCount db userId + 1 := by
  simp [activeCount, newProxy, List.filter_append]

theorem QuotaReached.mono {m n : Nat} (h : QuotaReached maxActiveProxies m) (hle : m ≤ n) :
    QuotaReached maxActiveProxies n := by
  obtain ⟨q, hq, hm⟩ := h
  exact ⟨q, hq, hm.trans (by exact_mod_cast hle)⟩

/-- The batch after some rows, beside the database after the same lines by themselves. A fingerprint
that was seen is stored, or the quota is reached for good. -/
structure Agrees (userId : Nat) (maxActiveProxies : Option Int) (s : BulkState) (db : Db) :
    Prop where
  same : SameUpToTime s.db db
  count : maxActiveProxies ≠ none → s.activeCount = activeCount s.db userId
  seen : ∀ fingerprint ∈ s.seen, (∃ r ∈ s.db.proxies, r.credentialFingerprint = fingerprint) ∨
    QuotaReached maxActiveProxies (activeCount s.db userId)

theorem Agrees.quota_iff (h : Agrees userId maxActiveProxies s db) :
    QuotaReached maxActiveProxies s.activeCount ↔
      QuotaReached maxActiveProxies (activeCount db userId) := by
  rw [← h.same.activeCount_eq]
  by_cases hnone : maxActiveProxies = none
  · simp [QuotaReached, hnone]
  · rw [h.count hnone]

variable {isGlobal} {raw : List Char} {wall : Timestamp} {calls : List (List Char × Timestamp)}

theorem addEach_skip {e : DbError}
    (h : addRawProxy isGlobal db userId raw maxActiveProxies wall = .error e)
    (he : e.IsImportFailure) : addEach isGlobal userId maxActiveProxies ((raw, wall) :: calls) db =
      addEach isGlobal userId maxActiveProxies calls db := by
  rw [addEach, h]
  exact if_pos he

/-- A line that cannot be inserted is passed over. -/
theorem addEach_of_reason {parsed : ParsedProxy} (hparse : parseProxy isGlobal raw = .ok parsed)
    (hreason : CredentialTaken db parsed none ∨
      QuotaReached maxActiveProxies (activeCount db userId)) :
    addEach isGlobal userId maxActiveProxies ((raw, wall) :: calls) db =
      addEach isGlobal userId maxActiveProxies calls db := by
  by_cases hquota : QuotaReached maxActiveProxies (activeCount db userId)
  · refine addEach_skip (e := quotaError maxActiveProxies) ?_ trivial
    rw [addRawProxy, if_pos hquota]
  · refine addEach_skip (e := .duplicateCredential) ?_ trivial
    rw [addRawProxy, if_neg hquota, hparse]
    dsimp only
    rw [addProxy]
    exact (if_neg hquota).trans (if_pos (hreason.resolve_right hquota))

theorem addEach_of_parseError {e : String} (hparse : parseProxy isGlobal raw = .error e) :
    addEach isGlobal userId maxActiveProxies ((raw, wall) :: calls) db =
      addEach isGlobal userId maxActiveProxies calls db := by
  by_cases hquota : QuotaReached maxActiveProxies (activeCount db userId)
  · refine addEach_skip (e := quotaError maxActiveProxies) ?_ trivial
    rw [addRawProxy, if_pos hquota]
  · refine addEach_skip (e := .valueError e) ?_ trivial
    rw [addRawProxy, if_neg hquota, hparse]

theorem addRawProxy_free {parsed : ParsedProxy} (hparse : parseProxy isGlobal raw = .ok parsed)
    (hfree : ¬ CredentialTaken db parsed none)
    (hroom : ¬ QuotaReached maxActiveProxies (activeCount db userId)) :
    addRawProxy isGlobal db userId raw maxActiveProxies wall =
      if db.user? userId = none then .error .foreignKey
      else .ok ({ db with proxies := db.proxies ++ [newProxy db userId parsed wall] },
        (newProxy db userId parsed wall).id) := by
  rw [addRawProxy, if_neg hroom, hparse]
  dsimp only
  rw [addProxy]
  exact (if_neg hroom).trans (if_neg hfree)

theorem Agrees.skip {row : Nat × ParsedProxy} (h : Agrees userId maxActiveProxies s db)
    (hskip : s.Skips maxActiveProxies s' row) :
    Agrees userId maxActiveProxies s' db ∧ (CredentialTaken db row.2 none ∨
      QuotaReached maxActiveProxies (activeCount db userId)) := by
  have hreason : (∃ r ∈ s.db.proxies, r.credentialFingerprint = credentialFingerprint row.2) ∨
      QuotaReached maxActiveProxies (activeCount s.db userId) := by
    rcases hskip.reason with hseen | ⟨r, hr, htaken, -⟩ | hquota
    · exact h.seen _ hseen
    · exact .inl ⟨r, hr, htaken⟩
    · rw [h.quota_iff, ← h.same.activeCount_eq] at hquota
      exact .inr hquota
  refine ⟨⟨hskip.db ▸ h.same, ?_, ?_⟩, ?_⟩
  · rw [hskip.db, hskip.activeCount]
    exact h.count
  · intro fingerprint hmem
    rw [hskip.db]
    rcases hskip.seen fingerprint hmem with hold | rfl
    · exact h.seen fingerprint hold
    · exact hreason
  · rw [← h.same.taken_iff, ← h.same.activeCount_eq]
    exact hreason.imp_left fun ⟨r, hr, heq⟩ => ⟨r, hr, heq, nofun⟩

theorem Agrees.insert {row : Nat × ParsedProxy} (h : Agrees userId maxActiveProxies s db)
    (hinsert : s.Inserts userId maxActiveProxies now s' row) (wall : Timestamp) :
    Agrees userId maxActiveProxies s'
      { db with proxies := db.proxies ++ [newProxy db userId row.2 wall] } := by
  refine ⟨hinsert.db ▸ h.same.insert userId row.2 now wall, ?_, ?_⟩
  · intro hsome
    rw [hinsert.db, hinsert.activeCount, activeCount_insert, h.count hsome]
  · intro fingerprint hmem
    rw [hinsert.db, activeCount_insert]
    rcases hinsert.seen fingerprint hmem with hold | rfl
    · refine (h.seen fingerprint hold).imp (fun ⟨r, hr, heq⟩ => ⟨r, ?_, heq⟩) fun hquota =>
        hquota.mono (Nat.le_succ _)
      exact List.mem_append_left _ hr
    · exact .inl ⟨newProxy s.db userId row.2 now, by simp, rfl⟩

variable (isGlobal now) in
/-- The batch and the single calls go on alike from states that agree. -/
theorem Agrees.run (h : Agrees userId maxActiveProxies s db) (calls : List (List Char × Timestamp))
    (start : Nat) :
    match (((calls.map Prod.fst).zipIdx start).filterMap (readRow isGlobal)).foldlM
        (fun s row => s.visit userId maxActiveProxies now row) s with
    | .ok s' => ∃ db', addEach isGlobal userId maxActiveProxies calls db = (db', none) ∧
        Agrees userId maxActiveProxies s' db'
    | .error (e, raisedAt) => ∃ db', addEach isGlobal userId maxActiveProxies calls db =
      (db', some e) ∧ SameUpToTime raisedAt db' := by
  induction calls generalizing s db start with
  | nil => exact ⟨db, rfl, h⟩
  | cons call calls ih =>
    obtain ⟨raw, wall⟩ := call
    rw [List.map_cons, List.zipIdx_cons, List.filterMap_cons]
    cases hparse : parseProxy isGlobal raw with
    | error e =>
      rw [addEach_of_parseError hparse]
      simp only [readRow, hparse]
      exact ih h (start + 1)
    | ok parsed =>
      simp only [readRow, hparse, List.foldlM_cons]
      have hspec := s.visit_spec userId maxActiveProxies now (start, parsed)
      cases hnext : s.visit userId maxActiveProxies now (start, parsed) with
      | error raised =>
        obtain ⟨e, raisedAt⟩ := raised
        rw [hnext] at hspec
        obtain ⟨rfl, rfl, huser, hfree, hroom⟩ := hspec
        rw [h.same.taken_iff] at hfree
        rw [h.quota_iff] at hroom
        rw [h.same.user?_eq] at huser
        refine ⟨db, ?_, h.same⟩
        rw [addEach, addRawProxy_free hparse hfree hroom, if_pos huser]
        rfl
      | ok next =>
        rw [hnext] at hspec
        rcases hspec with hskip | hinsert
        · obtain ⟨hagrees, hreason⟩ := h.skip hskip
          rw [addEach_of_reason hparse hreason]
          exact ih hagrees (start + 1)
        · have hfree := mt (h.same.taken_iff parsed).mpr hinsert.free
          have hroom := mt h.quota_iff.mpr hinsert.room
          have huser := h.same.user?_eq userId ▸ hinsert.user
          rw [addEach, addRawProxy_free hparse hfree hroom, if_neg huser]
          exact ih (h.insert hinsert wall) (start + 1)

/-- What the counters of a result say about the lines of the batch. -/
structure BulkImportResult.Accounts (result : BulkImportResult) (lines : Nat) : Prop where
  submitted_eq : result.submitted =
    result.added + result.duplicates + result.invalid + result.quotaSkipped
  lines_eq : lines = result.submitted + result.ignoredBlank
  issues_eq : result.issues.length + result.issuesTruncated = result.submitted - result.added
  sorted : result.issues.Pairwise fun a b => a.line ≤ b.line

theorem pairwise_sorted (issues : List BulkImportIssue) :
    (issues.mergeSort fun a b => a.line ≤ b.line).Pairwise fun a b => a.line ≤ b.line := by
  have hsorted := List.pairwise_mergeSort
    (fun a b c (h : decide (a.line ≤ b.line) = true) (h' : decide (b.line ≤ c.line) = true) =>
      decide_eq_true ((of_decide_eq_true h).trans (of_decide_eq_true h')))
    (fun a b => by simpa using Nat.le_total a.line b.line) issues
  simpa using hsorted

theorem accounts_of_ok {lines : List (List Char)} {maxLines : Int}
    {inTransaction : Bool} {result : BulkImportResult}
    (h : (bulkAddProxies isGlobal db userId lines maxActiveProxies maxLines
      inTransaction now).2 = .ok result) : result.Accounts lines.length := by
  obtain ⟨⟨hlines, hsubmitted, hissues⟩, -⟩ := bulkParse_spec isGlobal lines
  unfold bulkAddProxies at h
  by_cases hlong : max 1 maxLines < lines.length
  · rw [if_pos hlong] at h
    cases h
  rw [if_neg hlong] at h
  dsimp only at h
  cases hrun : bulkInsert db userId maxActiveProxies now (bulkParse isGlobal lines) with
  | error raised =>
    rw [hrun] at h
    cases h
  | ok s =>
    rw [hrun] at h
    obtain rfl := Except.ok.inj h
    have hstart : BulkState.Counts {
        db, log := (bulkParse isGlobal lines).log
        activeCount := if maxActiveProxies = none then 0 else activeCount db userId }
        (bulkParse isGlobal lines).invalid 0 := ⟨rfl, hissues⟩
    obtain ⟨hrows, htotal⟩ := hstart.foldlM hrun
    unfold IssueLog.total at htotal
    refine ⟨?_, hlines, ?_, ?_⟩
    · dsimp only
      omega
    · dsimp only
      rw [List.length_mergeSort]
      omega
    · exact pairwise_sorted s.log.issues

/-- A batch that raises leaves the database as it was, whoever owns the transaction. -/
theorem eq_of_error {lines : List (List Char)} {maxLines : Int} {inTransaction : Bool} {e : DbError}
    (h : (bulkAddProxies isGlobal db userId lines maxActiveProxies maxLines inTransaction now).2 =
      .error e) :
    (bulkAddProxies isGlobal db userId lines maxActiveProxies maxLines inTransaction now).1 =
      db := by
  unfold bulkAddProxies at h ⊢
  by_cases hlong : max 1 maxLines < lines.length
  · rw [if_pos hlong]
  rw [if_neg hlong] at h ⊢
  dsimp only at h ⊢
  cases hrun : bulkInsert db userId maxActiveProxies now (bulkParse isGlobal lines) with
  | error raised =>
    obtain ⟨e, raisedAt⟩ := raised
    have hraised : raisedAt = db := raisedAt_eq hrun
    rw [hraised]
    exact ite_self db
  | ok s =>
    rw [hrun] at h
    cases h

theorem sameRows_of_length {maxLines : Int} {inTransaction : Bool}
    (hlines : ((calls.map Prod.fst).length : Int) ≤ max 1 maxLines) :
    SameUpToTime (bulkAddProxies isGlobal db userId (calls.map Prod.fst) maxActiveProxies maxLines
        inTransaction now).1 (addEach isGlobal userId maxActiveProxies calls db).1 ∧
      ∀ e, (bulkAddProxies isGlobal db userId (calls.map Prod.fst) maxActiveProxies maxLines
        inTransaction now).2 = .error e ↔
          (addEach isGlobal userId maxActiveProxies calls db).2 = some e := by
  obtain ⟨-, hrows⟩ := bulkParse_spec isGlobal (calls.map Prod.fst)
  have hstart : Agrees userId maxActiveProxies {
      db, log := (bulkParse isGlobal (calls.map Prod.fst)).log
      activeCount := if maxActiveProxies = none then 0 else activeCount db userId } db :=
    ⟨.refl db, fun hsome => if_neg hsome, nofun⟩
  have hboth := hstart.run isGlobal now calls 1
  rw [← hrows] at hboth
  unfold bulkAddProxies
  rw [if_neg (by omega)]
  dsimp only
  cases hrun :
    bulkInsert db userId maxActiveProxies now (bulkParse isGlobal (calls.map Prod.fst)) with
  | error raised =>
    obtain ⟨e, raisedAt⟩ := raised
    have hraised : raisedAt = db := raisedAt_eq hrun
    unfold bulkInsert at hrun
    rw [hrun] at hboth
    obtain ⟨db', hsingle, hsame⟩ := hboth
    rw [hsingle]
    dsimp only
    rw [hraised] at hsame ⊢
    refine ⟨by rwa [ite_self], fun e' => ⟨fun h => ?_, fun h => ?_⟩⟩
    · rw [Except.error.inj h]
    · rw [Option.some.inj h]
  | ok s =>
    unfold bulkInsert at hrun
    rw [hrun] at hboth
    obtain ⟨db', hsingle, hagrees⟩ := hboth
    rw [hsingle]
    exact ⟨hagrees.same, fun e => ⟨nofun, nofun⟩⟩

end Refinement

/-- A batch of lines leaves the rows that the lines leave when they are added one after the other,
at any readings of the clock; its counters account for every line, and when it raises no row was
added. -/
theorem bulkAddProxies_refines (db : Db) (userId : Nat) (calls : List (List Char × Timestamp))
    (maxActiveProxies : Option Int) (maxLines : Int) (inTransaction : Bool) (wall : Timestamp) :
    let lines := calls.map Prod.fst
    let bulk := bulkAddProxies isGlobal db userId lines maxActiveProxies maxLines inTransaction wall
    let single := addEach isGlobal userId maxActiveProxies calls db
    ((lines.length : Int) ≤ max 1 maxLines →
      SameUpToTime bulk.1 single.1 ∧ ∀ e, bulk.2 = .error e ↔ single.2 = some e) ∧
    (∀ result, bulk.2 = .ok result → result.Accounts lines.length) ∧
    ∀ e, bulk.2 = .error e → bulk.1 = db :=
  ⟨sameRows_of_length, fun _ => accounts_of_ok, fun _ => eq_of_error⟩

namespace Scenario

def importUser : Db := { users := [{ id := 1, status := .active }] }

/-- A proxy, a blank line, the proxy again, a line that is none, and a proxy beyond a quota of
one. -/
def mixedLines : List (List Char × Timestamp) :=
  [("proxy.example:80".toList, 1), ("  ".toList, 2), ("Proxy.Example.:80".toList, 3),
    ("proxy.example".toList, 4), ("other.example:81".toList, 5)]

end Scenario

open Scenario in
theorem bulkAddProxies_refines_mixedLines :
    SameUpToTime
      (bulkAddProxies (fun _ => true) importUser 1 (mixedLines.map Prod.fst)
        (some 1) 5000 false 9).1
      (addEach (fun _ => true) 1 (some 1) mixedLines importUser).1 :=
  ((bulkAddProxies_refines (fun _ => true) importUser 1 mixedLines (some 1) 5000 false 9).1
    (by decide)).1

end EarnProxy

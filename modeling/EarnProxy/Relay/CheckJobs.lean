import EarnProxy.Library.History
import EarnProxy.Relay.Proxies

/-!
# Check jobs of the relay

`run_check_ids` reads its rows when it starts, probes them for as long as that takes, and writes the
results back by id. The requests run in between; only `undo_import` waits for the jobs. Two requests
that start a check at once may both find no running job, so there may be several jobs.

The publication of `relay.json` is in `Relay/Publishing`.
-/

namespace EarnProxy.Relay

/-- What `check_proxy` returns; a missing text is the empty text. -/
structure CheckResult where
  status : String := ""
  protocol : String := ""
  exitIp : String := ""
  latencyMs : Option Int := none
  error : String := ""
  deriving DecidableEq, Repr

def orElse (value default : String) : String := if value = "" then default else value

/-- `is_usable_status`. -/
def isUsableStatus (status : String) : Bool := status ∈ ["live", "live_unverified"]

/-- The columns that `apply_check_result` decides about. -/
structure CheckUpdate where
  status : String
  detectedProtocol : String
  exitIp : String
  failureStreak : Nat
  deriving DecidableEq, Repr

/-- `apply_check_result`, without the columns that it copies. -/
def applyCheckResult (row : Proxy) (result : CheckResult) : CheckUpdate :=
  let current := orElse row.status "unknown"
  let probe := orElse result.status "inconclusive"
  let streak := row.failureStreak + 1
  let protocol := orElse (row.detectedProtocol.getD "") "unknown"
  if isUsableStatus probe then ⟨probe, orElse result.protocol "unknown", result.exitIp, 0⟩
  else if probe = "blocked" then ⟨"blocked", orElse result.protocol "unknown", "", 0⟩
  else if current = "blocked" then ⟨"blocked", protocol, "", 0⟩
  else if 3 ≤ streak then ⟨"dead", "unknown", "", streak⟩
  else if isUsableStatus current ∨ current = "dead" then
    ⟨current, protocol, row.exitIp.getD "", streak⟩
  else ⟨"inconclusive", protocol, row.exitIp.getD "", streak⟩

/-- The row that the `UPDATE` of a result leaves; `read` is the row that the job has read. -/
def Proxy.checked (r read : Proxy) (result : CheckResult) (now : Timestamp) : Proxy :=
  let update := applyCheckResult read result
  { r with
    status := update.status, detectedProtocol := some update.detectedProtocol
    exitIp := some update.exitIp, latencyMs := result.latencyMs, error := some result.error
    checkedAt := some now, lastCheckStatus := some (orElse result.status "inconclusive")
    failureStreak := update.failureStreak }

/-- A running job, with the rows that it has read. -/
structure Job where
  id : Nat
  rows : List Proxy
  deriving DecidableEq, Repr

structure State where
  db : Db
  jobs : List Job := []
  deriving DecidableEq, Repr

/-- The rows a job reads. -/
def readRows (db : Db) (ids : List Nat) : List Proxy :=
  db.proxies.filter fun r => decide (r.enabled = true ∧ r.id ∈ ids)

/-- The `UPDATE` for one result. -/
def writeResult (rows : List Proxy) (now : Timestamp) (db : Db) (p : Nat × CheckResult) : Db :=
  match Table.lookup Proxy.id p.1 rows with
  | none => db
  | some read =>
    { db with
      proxies := Table.update (fun r => r.id = p.1) (fun r => r.checked read p.2 now) db.proxies }

/-- The last transaction of a job; a job that was stopped has results for some of its rows. -/
def writeResults (db : Db) (job : Job) (results : List (Nat × CheckResult)) (now : Timestamp) :
    Db :=
  results.foldl (writeResult job.rows now) db

inductive Call where
  | startCheck (jobId : Nat) (ids : List Nat)
  | finishCheck (jobId : Nat) (results : List (Nat × CheckResult))
  | importProxy (lines : List (Option ParsedLine))
  | delete (ids : List Nat)
  | deleteAll
  | undoImport
  deriving DecidableEq, Repr

structure Event where
  call : Call
  now : Timestamp
  deriving DecidableEq, Repr

/-- One event. Ids of jobs are fresh; `undo_import` does nothing while a job runs. -/
def State.next (config : Config) (s : State) (e : Event) : Option State :=
  match e.call with
  | .startCheck jobId ids =>
    if ∃ j ∈ s.jobs, j.id = jobId then none
    else some { s with jobs := s.jobs ++ [⟨jobId, readRows s.db ids⟩] }
  | .finishCheck jobId results =>
    (Table.lookup Job.id jobId s.jobs).map fun job =>
      { db := writeResults s.db job results e.now
        jobs := s.jobs.filter fun j => decide (j.id ≠ jobId) }
  | .importProxy lines => some { s with db := (importProxy config s.db lines).1 }
  | .delete ids => some { s with db := deleteProxies s.db ids }
  | .deleteAll => some { s with db := deleteAll s.db }
  | .undoImport => some (if s.jobs = [] then { s with db := undoImport s.db e.now } else s)

def Step (config : Config) (s : State) (e : Event) (s' : State) : Prop := s.next config e = some s'

instance (config : Config) (s : State) (e : Event) (s' : State) : Decidable (Step config s e s') :=
  inferInstanceAs (Decidable (_ = _))

/-- The events of `h`, newest first, lead from `db₀`, on which no job runs, to `s`. -/
def Runs (config : Config) (db₀ : Db) (h : List (Event × State)) (s : State) : Prop :=
  History.Run (Step config) { db := db₀ } h s

/-- What the tables promise. -/
structure Db.WellFormed (db : Db) : Prop where
  ids : Table.Keyed Proxy.id db.proxies
  batch : ∀ r ∈ db.proxies, ∀ b ∈ r.importBatchId, b ∈ db.batches.map ImportBatch.id

/-- No row that the event imports gets the id of a row that a running job has read. -/
def Event.SparesJobs (config : Config) (s : State) (e : Event) : Prop :=
  match e.call with
  | .importProxy lines =>
    ∀ i ∈ (importProxy config s.db lines).2, ∀ job ∈ s.jobs, i ∉ job.rows.map Proxy.id
  | _ => True

instance (config : Config) (s : State) (e : Event) : Decidable (e.SparesJobs config s) := by
  unfold Event.SparesJobs
  split <;> infer_instance

/-- The row was imported after job `jobId` has read its rows. -/
def ImportedDuring (h : List (Event × State)) (jobId : Nat) (r : Proxy) : Prop :=
  ∃ b ∈ r.importBatchId, ∀ x ∈ h, (∃ ids, x.1.call = .startCheck jobId ids) →
    b ∉ x.2.db.batches.map ImportBatch.id

/-- The results of a job stay with the proxies that were probed: a row keeps what it had, or gets a
result for its own upstream; rows imported during the job keep what they had, and no row comes
back. -/
def ResultsStay (h : List (Event × State)) (s : State) (job : Job)
    (results : List (Nat × CheckResult)) (now : Timestamp) (s' : State) : Prop :=
  ∃ φ : Proxy → Proxy, s'.db.proxies = s.db.proxies.map φ ∧ ∀ r ∈ s.db.proxies,
    (φ r = r ∨ ∃ read ∈ job.rows, read.id = r.id ∧ read.upstream = r.upstream ∧
      ∃ result, (r.id, result) ∈ results ∧ φ r = r.checked read result now) ∧
    (ImportedDuring h job.id r → φ r = r)

/-! ## What the requests do to the rows -/

/-- Two rows for one proxy. -/
def Proxy.Same (r r' : Proxy) : Prop :=
  r'.id = r.id ∧ r'.upstream = r.upstream ∧ r'.importBatchId = r.importBatchId

theorem Proxy.checked_same (r read : Proxy) (result : CheckResult) (now : Timestamp) :
    r.Same (r.checked read result now) := ⟨rfl, rfl, rfl⟩

/-- A later result overwrites all that an earlier one has written. -/
theorem Proxy.checked_checked (r read read' : Proxy) (result result' : CheckResult)
    (now : Timestamp) : (r.checked read result now).checked read' result' now =
      r.checked read' result' now := rfl

/-- What an import has added so far. -/
structure Importing (db : Db) (batchId : Nat) (acc : Import) : Prop where
  added : ∃ news, acc.db.proxies = db.proxies ++ news ∧ acc.ids = news.map Proxy.id ∧
    ∀ r ∈ news, r.importBatchId = some batchId
  batches : acc.db.batches = db.batches
  ids : Table.Keyed Proxy.id acc.db.proxies

theorem Importing.line {config : Config} {db : Db} {batchId : Nat} {acc : Import}
    (h : Importing db batchId acc) (line : Option ParsedLine) :
    Importing db batchId (importLine config batchId acc line) := by
  obtain ⟨⟨news, hproxies, hids, hnews⟩, hbatches, hkeyed⟩ := h
  have same : ∀ acc' : Import, acc'.db.proxies = acc.db.proxies → acc'.db.batches = acc.db.batches →
      acc'.ids = acc.ids → Importing db batchId acc' := by
    intro acc' hp hb hi
    exact ⟨⟨news, hp.trans hproxies, hi.trans hids, hnews⟩, hb.trans hbatches, hp ▸ hkeyed⟩
  unfold importLine
  cases line with
  | none => exact same _ rfl rfl rfl
  | some line =>
    simp only
    split
    · exact same _ rfl rfl rfl
    split
    · exact same _ rfl rfl rfl
    split
    · exact same _ rfl rfl rfl
    rename_i httpPort _ _ socksPort _
    set row := importedProxy { acc.db with nextHttpPort := httpPort + 1 } line httpPort socksPort
      batchId with hrow
    refine ⟨⟨news ++ [row], ?_, ?_, ?_⟩, hbatches, ?_⟩
    · simp [hproxies]
    · simp [hids]
    · intro r hr
      rcases List.mem_append.mp hr with hr | hr
      · exact hnews r hr
      · exact List.mem_singleton.mp hr ▸ rfl
    · refine hkeyed.append_fresh fun r hr => ?_
      have hlt : r.id < Table.nextKey Proxy.id acc.db.proxies := Table.lt_nextKey hr
      exact hlt.ne

theorem importLines_importing (config : Config) {db : Db} (hw : db.WellFormed)
    (lines : List (Option ParsedLine)) :
    Importing (openBatch db lines.length) (Table.nextKey ImportBatch.id db.batches)
      (importLines config db lines) := by
  have hopened : Importing (openBatch db lines.length) (Table.nextKey ImportBatch.id db.batches)
      { db := openBatch db lines.length } := ⟨⟨[], by simp⟩, rfl, hw.ids⟩
  refine List.foldlRecOn lines _ hopened fun acc h line _ => ?_
  exact h.line line

theorem importProxy_rows (config : Config) {db : Db} (hw : db.WellFormed)
    (lines : List (Option ParsedLine)) :
    ∃ news, (importProxy config db lines).1.proxies = db.proxies ++ news ∧
      (importProxy config db lines).2 = news.map Proxy.id ∧
      (importProxy config db lines).1.WellFormed := by
  obtain ⟨⟨news, hproxies, hids, hnews⟩, hbatches, hkeyed⟩ := importLines_importing config hw lines
  set batchId := Table.nextKey ImportBatch.id db.batches
  have hbatch : (importProxy config db lines).1.batches.map ImportBatch.id =
      db.batches.map ImportBatch.id ++ [batchId] := by
    have hclosed : (importProxy config db lines).1.batches.map ImportBatch.id =
        (importLines config db lines).db.batches.map ImportBatch.id := by
      refine Table.map_update_of_forall ImportBatch.id ?_ _
      intro b _
      rfl
    rw [hclosed, hbatches]
    simp [openBatch, batchId]
  refine ⟨news, hproxies, hids, ⟨hkeyed, fun r hr b hb => ?_⟩⟩
  rw [hbatch]
  have hr' : r ∈ db.proxies ++ news := hproxies ▸ hr
  rcases List.mem_append.mp hr' with hold | hnew
  · exact List.mem_append_left _ (hw.batch r hold b hb)
  · have hrow : some b = some batchId := (Option.mem_def.mp hb).symm.trans (hnews r hnew)
    obtain rfl := Option.some.inj hrow
    simp

/-- Each result overwrites its row, if the row is still there. -/
theorem writeResults_rows (db : Db) (job : Job) (results : List (Nat × CheckResult))
    (now : Timestamp) :
    (writeResults db job results now).batches = db.batches ∧
    ∃ φ : Proxy → Proxy, (writeResults db job results now).proxies = db.proxies.map φ ∧
      ∀ r, φ r = r ∨ ∃ read ∈ job.rows, read.id = r.id ∧
        ∃ result, (r.id, result) ∈ results ∧ φ r = r.checked read result now := by
  unfold writeResults
  induction results generalizing db with
  | nil => exact ⟨rfl, id, by simp, fun r => .inl rfl⟩
  | cons p results ih =>
    rw [List.foldl_cons]
    obtain ⟨hbatches, φ, hφ, hrows⟩ := ih (writeResult job.rows now db p)
    cases hread : Table.lookup Proxy.id p.1 job.rows with
    | none =>
      have hskip : writeResult job.rows now db p = db := by
        unfold writeResult
        rw [hread]
      rw [hskip] at hφ hbatches ⊢
      refine ⟨hbatches, φ, hφ, fun r => (hrows r).imp_right ?_⟩
      rintro ⟨read, hmem, hid, result, hresult, heq⟩
      exact ⟨read, hmem, hid, result, List.mem_cons_of_mem _ hresult, heq⟩
    | some read =>
      have hwrite : writeResult job.rows now db p =
          { db with proxies := db.proxies.map fun r =>
              if r.id = p.1 then r.checked read p.2 now else r } := by
        unfold writeResult
        rw [hread]
        rfl
      rw [hwrite] at hφ hbatches ⊢
      refine ⟨hbatches, fun r => φ (if r.id = p.1 then r.checked read p.2 now else r), ?_,
        fun r => ?_⟩
      · rw [hφ, List.map_map]
        rfl
      by_cases hid : r.id = p.1
      · simp only [hid, if_true]
        refine .inr ?_
        rcases hrows (r.checked read p.2 now) with heq | ⟨read', hmem, hid', result, hresult, heq⟩
        · refine ⟨read, Table.mem_of_lookup hread, Table.key_of_lookup hread, p.2, ?_, heq⟩
          exact List.mem_cons_self
        · refine ⟨read', hmem, hid'.trans hid, result, ?_, heq.trans (Proxy.checked_checked ..)⟩
          exact List.mem_cons_of_mem _ (hid ▸ hresult)
      · simp only [hid, if_false]
        refine (hrows r).imp_right ?_
        rintro ⟨read', hmem, hid', result, hresult, heq⟩
        exact ⟨read', hmem, hid', result, List.mem_cons_of_mem _ hresult, heq⟩

/-- A row that a request leaves in the table is the same proxy as before. -/
def Keeps (db db' : Db) : Prop := ∀ r' ∈ db'.proxies, ∃ r ∈ db.proxies, r.Same r'

theorem Keeps.of_subset {db db' : Db} (h : ∀ r ∈ db'.proxies, r ∈ db.proxies) : Keeps db db' :=
  fun r hr => ⟨r, h r hr, rfl, rfl, rfl⟩

theorem writeResults_keeps (db : Db) (job : Job) (results : List (Nat × CheckResult))
    (now : Timestamp) : Keeps db (writeResults db job results now) := by
  obtain ⟨-, φ, hφ, hrows⟩ := writeResults_rows db job results now
  intro r' hr'
  rw [hφ] at hr'
  obtain ⟨r, hr, rfl⟩ := List.mem_map.mp hr'
  refine ⟨r, hr, ?_⟩
  rcases hrows r with heq | ⟨read, -, -, result, -, heq⟩
  · rw [heq]
    exact ⟨rfl, rfl, rfl⟩
  · rw [heq]
    exact Proxy.checked_same r read result now

theorem Db.WellFormed.writeResults {db : Db} (hw : db.WellFormed) (job : Job)
    (results : List (Nat × CheckResult)) (now : Timestamp) :
    (writeResults db job results now).WellFormed := by
  obtain ⟨hbatches, φ, hφ, hrows⟩ := writeResults_rows db job results now
  constructor
  · rw [hφ]
    refine hw.ids.map fun r _ => ?_
    rcases hrows r with heq | ⟨read, -, -, result, -, heq⟩ <;> rw [heq]
    rfl
  · intro r' hr' b hb
    obtain ⟨r, hr, -, -, hbatch⟩ := writeResults_keeps db job results now r' hr'
    rw [hbatches]
    exact hw.batch r hr b (hbatch ▸ hb)

theorem Db.WellFormed.filter {db : Db} (hw : db.WellFormed) (p : Proxy → Bool)
    {batches : List ImportBatch} (hb : batches.map ImportBatch.id = db.batches.map ImportBatch.id) :
    ({ db with proxies := db.proxies.filter p, batches } : Db).WellFormed where
  ids := hw.ids.filter p
  batch := fun r hr b hmem => by
    simp only [hb]
    exact hw.batch r (List.mem_filter.mp hr).1 b hmem

/-! ## Every run -/

/-- While a job runs, the rows with the ids that it has read are those rows, and the batches they
came with were there when it read them. -/
structure Tracked (h : List (Event × State)) (s : State) : Prop where
  wellFormed : s.db.WellFormed
  same : ∀ job ∈ s.jobs, ∀ read ∈ job.rows, ∀ r ∈ s.db.proxies, r.id = read.id → read.Same r
  started : ∀ job ∈ s.jobs, ∃ x ∈ h, (∃ ids, x.1.call = .startCheck job.id ids) ∧
    ∀ read ∈ job.rows, ∀ b ∈ read.importBatchId, b ∈ x.2.db.batches.map ImportBatch.id

theorem Proxy.Same.trans {r r' r'' : Proxy} (h : r.Same r') (h' : r'.Same r'') : r.Same r'' :=
  ⟨h'.1.trans h.1, h'.2.1.trans h.2.1, h'.2.2.trans h.2.2⟩

/-- A step that only keeps rows, and ends jobs. -/
theorem Tracked.keeps {h : List (Event × State)} {s : State} (ht : Tracked h s) {e : Event}
    {s' : State} (hw : s'.db.WellFormed) (hkeeps : Keeps s.db s'.db)
    (hjobs : ∀ job ∈ s'.jobs, job ∈ s.jobs) : Tracked ((e, s') :: h) s' where
  wellFormed := hw
  same := by
    intro job hjob read hread r' hr' hid
    obtain ⟨r, hr, hsame⟩ := hkeeps r' hr'
    exact (ht.same job (hjobs job hjob) read hread r hr (hsame.1.symm.trans hid)).trans hsame
  started := by
    intro job hjob
    obtain ⟨x, hx, hrest⟩ := ht.started job (hjobs job hjob)
    exact ⟨x, List.mem_cons_of_mem _ hx, hrest⟩

theorem undoImport_tracked {h : List (Event × State)} {s : State} (ht : Tracked h s) (e : Event) :
    Tracked ((e, { s with db := undoImport s.db e.now }) :: h)
      { s with db := undoImport s.db e.now } := by
  unfold undoImport
  split
  · exact ht.keeps ht.wellFormed (.of_subset fun _ hr => hr) fun _ hj => hj
  · refine ht.keeps ?_ (.of_subset fun r hr => (List.mem_filter.mp hr).1) fun _ hj => hj
    refine ht.wellFormed.filter _ (Table.map_update_of_forall ImportBatch.id ?_ _)
    intro b _
    rfl

theorem startCheck_tracked {h : List (Event × State)} {s : State} (ht : Tracked h s) {e : Event}
    {jobId : Nat} {ids : List Nat} (hcall : e.call = .startCheck jobId ids) :
    Tracked ((e, { s with jobs := s.jobs ++ [⟨jobId, readRows s.db ids⟩] }) :: h)
      { s with jobs := s.jobs ++ [⟨jobId, readRows s.db ids⟩] } := by
  have hread : ∀ read ∈ readRows s.db ids, read ∈ s.db.proxies := fun r hr =>
    (List.mem_filter.mp hr).1
  refine ⟨ht.wellFormed, fun job hjob read hmem r hr hid => ?_, fun job hjob => ?_⟩
  · rcases List.mem_append.mp hjob with hjob | hjob
    · exact ht.same job hjob read hmem r hr hid
    · obtain rfl := List.mem_singleton.mp hjob
      rw [ht.wellFormed.ids.eq hr (hread read hmem) hid]
      exact ⟨rfl, rfl, rfl⟩
  · rcases List.mem_append.mp hjob with hjob | hjob
    · obtain ⟨x, hx, hrest⟩ := ht.started job hjob
      exact ⟨x, List.mem_cons_of_mem _ hx, hrest⟩
    · obtain rfl := List.mem_singleton.mp hjob
      refine ⟨_, List.mem_cons_self, ⟨ids, hcall⟩, fun read hmem b hb => ?_⟩
      exact ht.wellFormed.batch read (hread read hmem) b hb

theorem importProxy_tracked {config : Config} {h : List (Event × State)} {s : State}
    (ht : Tracked h s) {e : Event} {lines : List (Option ParsedLine)}
    (hcall : e.call = .importProxy lines) (hspares : e.SparesJobs config s) :
    Tracked ((e, { s with db := (importProxy config s.db lines).1 }) :: h)
      { s with db := (importProxy config s.db lines).1 } := by
  obtain ⟨news, hproxies, hids, hw⟩ := importProxy_rows config ht.wellFormed lines
  refine ⟨hw, fun job hjob read hmem r hr hid => ?_, fun job hjob => ?_⟩
  · rcases List.mem_append.mp (hproxies ▸ hr : r ∈ s.db.proxies ++ news) with hold | hnew
    · exact ht.same job hjob read hmem r hold hid
    -- the import gives no id that a running job has read
    · unfold Event.SparesJobs at hspares
      simp only [hcall, hids] at hspares
      have hnot : r.id ∉ job.rows.map Proxy.id := hspares r.id (List.mem_map_of_mem hnew) job hjob
      exact absurd (hid ▸ List.mem_map_of_mem hmem) hnot
  · obtain ⟨x, hx, hrest⟩ := ht.started job hjob
    exact ⟨x, List.mem_cons_of_mem _ hx, hrest⟩

theorem step_tracked {config : Config} {h : List (Event × State)} {s s' : State} {e : Event}
    (ht : Tracked h s) (hstep : Step config s e s') (hspares : e.SparesJobs config s) :
    Tracked ((e, s') :: h) s' := by
  unfold Step State.next at hstep
  split at hstep
  · rename_i jobId ids hcall
    split at hstep
    · cases hstep
    · obtain rfl := Option.some.inj hstep
      exact startCheck_tracked ht hcall
  · rename_i jobId results _
    obtain ⟨job, -, rfl⟩ := Option.map_eq_some_iff.mp hstep
    exact ht.keeps (ht.wellFormed.writeResults job results e.now)
      (writeResults_keeps s.db job results e.now) fun job hj => (List.mem_filter.mp hj).1
  · rename_i lines hcall
    obtain rfl := Option.some.inj hstep
    exact importProxy_tracked ht hcall hspares
  · obtain rfl := Option.some.inj hstep
    exact ht.keeps (ht.wellFormed.filter _ rfl) (.of_subset fun r hr => (List.mem_filter.mp hr).1)
      fun _ hj => hj
  · obtain rfl := Option.some.inj hstep
    refine ht.keeps ⟨List.nodup_nil, fun r hr => ?_⟩ (.of_subset fun r hr => ?_) fun _ hj => hj
    · exact absurd hr List.not_mem_nil
    · exact absurd hr List.not_mem_nil
  · obtain rfl := Option.some.inj hstep
    split
    · exact undoImport_tracked ht e
    · exact ht.keeps ht.wellFormed (.of_subset fun _ hr => hr) fun _ hj => hj

theorem Runs.tracked {config : Config} {db₀ : Db} (hw : db₀.WellFormed)
    {h : List (Event × State)} {s : State} (run : Runs config db₀ h s)
    (spares : History.Throughout (fun s e => e.SparesJobs config s) { db := db₀ } h) :
    Tracked h s := by
  refine (run.throughout spares).invariant (I := Tracked) ?_ ?_
  · exact ⟨hw, fun job hjob => absurd hjob List.not_mem_nil,
      fun job hjob => absurd hjob List.not_mem_nil⟩
  · exact fun h s e s' _ ht hstep => step_tracked ht hstep.1 hstep.2

/-- As long as no import gives a running job's id to another row, the results of every job stay with
the proxies that were probed. -/
theorem check_results_stay {config : Config} {db₀ : Db} (hw : db₀.WellFormed)
    {h : List (Event × State)} {s : State} (run : Runs config db₀ h s)
    (spares : History.Throughout (fun s e => e.SparesJobs config s) { db := db₀ } h)
    {e : Event} {jobId : Nat} {results : List (Nat × CheckResult)}
    (hcall : e.call = .finishCheck jobId results) {s' : State} (hstep : Step config s e s') :
    ∃ job ∈ s.jobs, job.id = jobId ∧ ResultsStay h s job results e.now s' := by
  have ht : Tracked h s := run.tracked hw spares
  unfold Step State.next at hstep
  simp only [hcall] at hstep
  obtain ⟨job, hjob, rfl⟩ := Option.map_eq_some_iff.mp hstep
  have hmem : job ∈ s.jobs := Table.mem_of_lookup hjob
  obtain ⟨-, φ, hφ, hrows⟩ := writeResults_rows s.db job results e.now
  refine ⟨job, hmem, Table.key_of_lookup hjob, φ, hφ, fun r hr => ⟨?_, fun hduring => ?_⟩⟩
  · refine (hrows r).imp_right ?_
    rintro ⟨read, hread, hid, hresult⟩
    exact ⟨read, hread, hid, (ht.same job hmem read hread r hr hid.symm).2.1.symm, hresult⟩
  · refine (hrows r).resolve_right ?_
    rintro ⟨read, hread, hid, -⟩
    -- the row was read by the job, so its batch is older than the job
    obtain ⟨b, hb, hnew⟩ := hduring
    obtain ⟨x, hx, hstarted, hbatch⟩ := ht.started job hmem
    have hsame := ht.same job hmem read hread r hr hid.symm
    exact hnew x hx hstarted (hbatch read hread b (hsame.2.2 ▸ hb))

namespace Scenario

def config : Config := { httpBase := 20001, socksBase := 30001 }

/-- The tables before the first import. -/
def empty : Db := { nextHttpPort := 20001, nextSocksPort := 30001 }

def line (host : String) : Option ParsedLine := some { upstream := { host, port := 8080 } }

def live : CheckResult := { status := "live", protocol := "http", exitIp := "198.51.100.7" }

def history (events : List Event) : List (Event × State) :=
  History.replay (fun s e => (s.next config e).getD s) { db := empty } events

def after (events : List Event) : State := History.current { db := empty } (history events)

/-- A proxy is checked, deleted and another one imported before the check is done. -/
def replacedWhileChecked : List Event :=
  [⟨.importProxy [line "first.example"], 0⟩, ⟨.startCheck 7 [1], 1⟩, ⟨.delete [1], 2⟩,
    ⟨.importProxy [line "second.example"], 3⟩]

/-- A proxy is checked while another one is imported. -/
def importedWhileChecked : List Event :=
  [⟨.importProxy [line "first.example"], 0⟩, ⟨.startCheck 7 [1], 1⟩,
    ⟨.importProxy [line "second.example"], 2⟩]

def finish : Event := ⟨.finishCheck 7 [(1, live)], 4⟩

theorem runs {events : List Event}
    (haccepts : History.Throughout (fun s e => (s.next config e).isSome) { db := empty }
      (history events)) : Runs config empty (history events) (after events) :=
  History.run_replay_accepted haccepts

theorem empty_wellFormed : empty.WellFormed :=
  ⟨List.nodup_nil, fun _ hr => absurd hr List.not_mem_nil⟩

/-- The proxy that takes the id of the first one. -/
def second : Proxy :=
  { id := 1, upstream := { host := "second.example", port := 8080 }, httpPort := 20002
    socksPort := 30002, importBatchId := some 2 }

end Scenario

theorem check_results_stay_importedWhileChecked :
    ∃ job ∈ (Scenario.after Scenario.importedWhileChecked).jobs, job.id = 7 ∧
      ResultsStay (Scenario.history Scenario.importedWhileChecked)
        (Scenario.after Scenario.importedWhileChecked) job [(1, Scenario.live)] 4
        (Scenario.after (Scenario.importedWhileChecked ++ [Scenario.finish])) :=
  check_results_stay Scenario.empty_wellFormed (Scenario.runs (by decide +kernel))
    (by decide +kernel) rfl (by decide +kernel : Step _ _ Scenario.finish _)

/-- The id of the deleted proxy goes to the next import, and with it the result. -/
theorem check_results_stray_replacedWhileChecked :
    ∃ (h : List (Event × State)) (s s' : State), Runs Scenario.config Scenario.empty h s ∧
      Step Scenario.config s Scenario.finish s' ∧
      ∀ job ∈ s.jobs, ¬ ResultsStay h s job [(1, Scenario.live)] Scenario.finish.now s' := by
  refine ⟨_, Scenario.after Scenario.replacedWhileChecked,
    Scenario.after (Scenario.replacedWhileChecked ++ [Scenario.finish]),
    Scenario.runs (by decide +kernel), by decide +kernel, fun job hjob hstay => ?_⟩
  obtain ⟨φ, hφ, hrows⟩ := hstay
  have hbefore : (Scenario.after Scenario.replacedWhileChecked).db.proxies = [Scenario.second] := by
    decide +kernel
  have hafter : (Scenario.after (Scenario.replacedWhileChecked ++ [Scenario.finish])).db.proxies.map
      Proxy.status = ["live"] := by decide +kernel
  rw [hφ, hbefore] at hafter
  rcases (hrows Scenario.second (hbefore ▸ List.mem_cons_self)).1 with
      heq | ⟨read, hread, -, hup, -⟩
  · rw [List.map_singleton, heq] at hafter
    exact absurd hafter (by decide)
  · have hother : ∀ job ∈ (Scenario.after Scenario.replacedWhileChecked).jobs,
        ∀ read ∈ job.rows, read.upstream ≠ Scenario.second.upstream := by decide +kernel
    exact hother job hjob read hread hup

end EarnProxy.Relay

import EarnProxy.Schema

/-!
# The proxies of `integrations/proxy-relay/app.py`

The tables of the relay, and the requests that add and remove rows: import, undo and the deletions.
The ids of both tables are plain integer primary keys, so an insert takes the largest stored id plus
one, and a deletion of the last rows gives their ids back. The lines of an import are given as
`parse_proxy_line` reads them; the texts that are flashed are left out.
-/

namespace EarnProxy.Relay

/-- `HTTP_BASE` and `SOCKS_BASE`. -/
structure Config where
  httpBase : Nat
  socksBase : Nat
  deriving DecidableEq, Repr

/-- What a probe connects to. -/
structure Upstream where
  host : String
  port : Nat
  username : String := ""
  password : String := ""
  deriving DecidableEq, Repr

structure Proxy where
  id : Nat
  upstream : Upstream
  protocol : String := "auto"
  status : String := "unknown"
  detectedProtocol : Option String := none
  exitIp : Option String := none
  latencyMs : Option Int := none
  error : Option String := none
  httpPort : Nat
  socksPort : Nat
  enabled : Bool := true
  checkedAt : Option Timestamp := none
  importBatchId : Option Nat := none
  lastCheckStatus : Option String := none
  failureStreak : Nat := 0
  deriving DecidableEq, Repr

structure ImportBatch where
  id : Nat
  inputCount : Nat := 0
  addedCount : Nat := 0
  duplicateCount : Nat := 0
  errorCount : Nat := 0
  undoneAt : Option Timestamp := none
  undoneCount : Nat := 0
  deriving DecidableEq, Repr

/-- The tables, with the settings `next_http_port` and `next_socks_port`. -/
structure Db where
  proxies : List Proxy := []
  batches : List ImportBatch := []
  nextHttpPort : Nat
  nextSocksPort : Nat
  deriving DecidableEq, Repr

/-- A line that `parse_proxy_line` accepts. -/
structure ParsedLine where
  upstream : Upstream
  protocol : String := "auto"
  deriving DecidableEq, Repr

/-- The first port from `value` on that no row has; one of the candidates is free. -/
def freePort (used : List Nat) (value : Nat) : Nat :=
  (((List.range (used.length + 1)).map (value + ·)).find? (· ∉ used)).getD value

/-- One round of `next_ports`; `none` is its `ValueError`. -/
def nextPort (base next : Nat) (used : List Nat) : Option Nat :=
  let value := freePort used next
  if base + 9999 ≤ value then none else some value

/-- What an import has counted so far; `ids` are the rows it has added. -/
structure Import where
  db : Db
  ids : List Nat := []
  duplicates : Nat := 0
  errors : Nat := 0
  deriving DecidableEq, Repr

/-- The row that an import inserts. -/
def importedProxy (db : Db) (line : ParsedLine) (httpPort socksPort batchId : Nat) : Proxy where
  id := Table.nextKey Proxy.id db.proxies
  upstream := line.upstream
  protocol := line.protocol
  httpPort := httpPort
  socksPort := socksPort
  importBatchId := some batchId

/-- One round of the loop of `import_proxy`; `none` is a line that does not parse. -/
def importLine (config : Config) (batchId : Nat) (acc : Import) (line : Option ParsedLine) :
    Import :=
  match line with
  | none => { acc with errors := acc.errors + 1 }
  | some line =>
    if ∃ r ∈ acc.db.proxies, r.upstream = line.upstream then
      { acc with duplicates := acc.duplicates + 1 }
    else
      match nextPort config.httpBase acc.db.nextHttpPort (acc.db.proxies.map Proxy.httpPort) with
      | none => { acc with errors := acc.errors + 1 }
      | some httpPort =>
        -- the setting is written before the second port is looked for
        let db := { acc.db with nextHttpPort := httpPort + 1 }
        match nextPort config.socksBase db.nextSocksPort (db.proxies.map Proxy.socksPort) with
        | none => { acc with db := db, errors := acc.errors + 1 }
        | some socksPort =>
          let row := importedProxy db line httpPort socksPort batchId
          { acc with
            db := { db with proxies := db.proxies ++ [row], nextSocksPort := socksPort + 1 }
            ids := acc.ids ++ [row.id] }

/-- The row of `import_batches` that an import opens. -/
def openBatch (db : Db) (inputCount : Nat) : Db :=
  { db with
    batches := db.batches ++ [{ id := Table.nextKey ImportBatch.id db.batches, inputCount }] }

/-- The loop of `import_proxy`. -/
def importLines (config : Config) (db : Db) (lines : List (Option ParsedLine)) : Import :=
  lines.foldl (importLine config (Table.nextKey ImportBatch.id db.batches))
    { db := openBatch db lines.length }

/-- The row of `import_batches` when the import is done. -/
def ImportBatch.closed (b : ImportBatch) (acc : Import) : ImportBatch :=
  { b with
    addedCount := acc.ids.length, duplicateCount := acc.duplicates, errorCount := acc.errors }

/-- `import_proxy`, with the ids of the rows that it adds. -/
def importProxy (config : Config) (db : Db) (lines : List (Option ParsedLine)) : Db × List Nat :=
  let acc := importLines config db lines
  ({ acc.db with
      batches := Table.update (fun b => b.id = Table.nextKey ImportBatch.id db.batches)
        (fun b => b.closed acc) acc.db.batches }, acc.ids)

/-- The routes `delete` and `batch` with the action `delete`. -/
def deleteProxies (db : Db) (ids : List Nat) : Db :=
  { db with proxies := db.proxies.filter fun r => decide (r.id ∉ ids) }

/-- The action `delete_all`. -/
def deleteAll (db : Db) : Db := { db with proxies := [] }

/-- `latest_undo_batch`. -/
def latestUndoBatch (db : Db) : Option ImportBatch :=
  (db.batches.argmax ImportBatch.id).filter fun b =>
    b.undoneAt = none ∧ ∃ r ∈ db.proxies, r.importBatchId = some b.id

/-- The transaction of `undo_import`. -/
def undoImport (db : Db) (now : Timestamp) : Db :=
  match latestUndoBatch db with
  | none => db
  | some batch =>
    let rows := db.proxies.filter fun r => decide (r.importBatchId = some batch.id)
    { db with
      proxies := db.proxies.filter fun r => decide (r.importBatchId ≠ some batch.id)
      batches := Table.update (fun b => b.id = batch.id)
        (fun b => { b with undoneAt := some now, undoneCount := rows.length }) db.batches }

end EarnProxy.Relay

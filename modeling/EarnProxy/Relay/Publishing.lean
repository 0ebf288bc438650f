import EarnProxy.Library.Publication
import EarnProxy.Relay.CheckJobs

/-!
# Publishing `relay.json`

`reload_relay` reads the rows that the relay serves, opens `relay.json.tmp` for writing, writes them
and renames the file. The requests that delete rows call it after their commit, and a check job
calls it when one of its results differs from the row that it has read. An import does not call it.

Each read, each opening of the temporary file, which empties it, each write and each rename is one
step. The signal to the engine is left out.
-/

namespace EarnProxy.Relay

/-- One of the `entries` of `relay.json`. -/
structure RelayEntry where
  id : Nat
  port : Nat
  protocol : Option String
  upstream : Upstream
  deriving DecidableEq, Repr

/-- `client_port`. -/
def clientPort (row : Proxy) : Nat :=
  if row.detectedProtocol = some "socks5" then row.socksPort else row.httpPort

/-- The condition of `reload_relay`. -/
def Proxy.Served (r : Proxy) : Prop :=
  r.enabled = true ∧ isUsableStatus r.status = true ∧
    (r.detectedProtocol = some "http" ∨ r.detectedProtocol = some "socks5")

instance (r : Proxy) : Decidable r.Served := inferInstanceAs (Decidable (_ ∧ _))

def Proxy.entry (r : Proxy) : RelayEntry := ⟨r.id, clientPort r, r.detectedProtocol, r.upstream⟩

/-- What `reload_relay` reads. -/
def relayEntries (rows : List Proxy) : List RelayEntry :=
  ((rows.filter fun r => decide r.Served).mergeSort fun a b => a.id ≤ b.id).map Proxy.entry

/-- `operational_changed` for one result. -/
def changedBy (read : Proxy) (result : CheckResult) : Bool :=
  let update := applyCheckResult read result
  update.status ≠ read.status ∨
    update.detectedProtocol ≠ orElse (read.detectedProtocol.getD "") "unknown" ∨
    update.exitIp ≠ read.exitIp.getD ""

def operationalChanged (rows : List Proxy) (results : List (Nat × CheckResult)) : Bool :=
  results.any fun p => (Table.lookup Proxy.id p.1 rows).any fun read => changedBy read p.2

/-- The caller of the event goes on to `reload_relay`. -/
def Event.reloads (s : State) (e : Event) : Bool :=
  match e.call with
  | .startCheck .. | .importProxy _ => false
  | .finishCheck jobId results =>
    (Table.lookup Job.id jobId s.jobs).any fun job => operationalChanged job.rows results
  | .delete _ | .deleteAll => true
  | .undoImport => s.jobs = [] ∧ (latestUndoBatch s.db).isSome

def publisher (config : Config) : Publication.Publisher State Event (List RelayEntry) where
  next := State.next config
  owes := fun s e => e.reloads s
  view := fun s => relayEntries s.db.proxies

/-- The relay, just started, with the file of its last reload. -/
def published (ι : Type*) (db₀ : Db) : Publication.State State ι (List RelayEntry) where
  store := { db := db₀ }
  texts := fun n => if n = 0 then [relayEntries db₀.proxies] else []

theorem published_started (ι : Type*) (config : Config) (db₀ : Db) :
    (published ι db₀).Started (publisher config) where
  settled := fun _ => rfl
  file := rfl
  others := fun n (hn : n ≠ 0) => by simp [published, hn]
  temporary := rfl
  numbered := Nat.zero_lt_one

/-- The jobs check one after the other, and no row gets an id that a running job has read. -/
def Event.ChecksAlone (config : Config) (s : State) (e : Event) : Prop :=
  e.SparesJobs config s ∧ match e.call with
    | .startCheck .. => s.jobs = []
    | _ => True

instance ChecksAlone.decidable (config : Config) (s : State) (e : Event) :
    Decidable (e.ChecksAlone config s) := by
  rcases e with ⟨⟨⟩, _⟩ <;> unfold Event.ChecksAlone <;> infer_instance

/-! ## What leaves the file as it is -/

theorem relayEntries_map {rows : List Proxy} {φ : Proxy → Proxy} (hid : ∀ r, (φ r).id = r.id)
    (hserved : ∀ r ∈ rows, ((φ r).Served ↔ r.Served))
    (hentry : ∀ r ∈ rows, r.Served → (φ r).entry = r.entry) :
    relayEntries (rows.map φ) = relayEntries rows := by
  have hfilter : (rows.map φ).filter (fun r => decide r.Served) =
      (rows.filter fun r => decide r.Served).map φ := by
    rw [List.filter_map]
    refine congrArg _ (List.filter_congr fun r hr => ?_)
    simp [hserved r hr]
  have hsort : ((rows.filter fun r => decide r.Served).map φ).mergeSort (fun a b => a.id ≤ b.id) =
      ((rows.filter fun r => decide r.Served).mergeSort fun a b => a.id ≤ b.id).map φ :=
    (List.map_mergeSort fun a _ b _ => by simp [hid]).symm
  unfold relayEntries
  rw [hfilter, hsort, List.map_map]
  refine List.map_congr_left fun r hr => ?_
  have hr' := List.mem_filter.mp (List.mem_mergeSort.mp hr)
  exact hentry r hr'.1 (by simpa using hr'.2)

theorem relayEntries_append {rows news : List Proxy} (hnews : ∀ r ∈ news, ¬ r.Served) :
    relayEntries (rows ++ news) = relayEntries rows := by
  have hnone : news.filter (fun r => decide r.Served) = [] := by
    simpa [List.filter_eq_nil_iff] using hnews
  simp [relayEntries, hnone]

/-- An import adds rows that no check has seen. -/
theorem importProxy_unchecked (config : Config) (db : Db) (lines : List (Option ParsedLine)) :
    ∃ news, (importProxy config db lines).1.proxies = db.proxies ++ news ∧
      ∀ r ∈ news, r.status = "unknown" ∧ r.detectedProtocol = none ∧ r.exitIp = none ∧
        r.failureStreak = 0 := by
  refine List.foldlRecOn (motive := fun acc : Import =>
    ∃ news, acc.db.proxies = db.proxies ++ news ∧ ∀ r ∈ news, r.status = "unknown" ∧
      r.detectedProtocol = none ∧ r.exitIp = none ∧ r.failureStreak = 0) lines _
    ⟨[], by simp [openBatch], by simp⟩ fun acc h line _ => ?_
  unfold importLine
  cases line with
  | none => exact h
  | some line =>
    dsimp only
    split
    · exact h
    split
    · exact h
    split
    · exact h
    obtain ⟨news, hproxies, hnews⟩ := h
    rw [hproxies]
    refine ⟨_, List.append_assoc .., fun r hr => ?_⟩
    rcases List.mem_append.mp hr with hr | hr
    · exact hnews r hr
    · obtain rfl := List.mem_singleton.mp hr
      exact ⟨rfl, rfl, rfl, rfl⟩

theorem importProxy_unserved (config : Config) (db : Db) (lines : List (Option ParsedLine)) :
    relayEntries (importProxy config db lines).1.proxies = relayEntries db.proxies := by
  obtain ⟨news, hproxies, hnews⟩ := importProxy_unchecked config db lines
  rw [hproxies]
  refine relayEntries_append fun r hr hserved => ?_
  simpa [(hnews r hr).2.1] using hserved.2.2

/-- A result that changes nothing of the row leaves what the relay serves as it is. -/
theorem checked_served {r : Proxy} {result : CheckResult} {now : Timestamp}
    (hsame : changedBy r result = false) :
    ((r.checked r result now).Served ↔ r.Served) ∧
      (r.Served → (r.checked r result now).entry = r.entry) := by
  obtain ⟨hs, hd, -⟩ : (applyCheckResult r result).status = r.status ∧
      (applyCheckResult r result).detectedProtocol =
        orElse (r.detectedProtocol.getD "") "unknown" ∧
      (applyCheckResult r result).exitIp = r.exitIp.getD "" := by
    simpa [changedBy] using hsame
  have hs' : (r.checked r result now).status = r.status := hs
  have hd' : (r.checked r result now).detectedProtocol =
      some (orElse (r.detectedProtocol.getD "") "unknown") := congrArg some hd
  have hprotocol (p : String) (hp : p = "http" ∨ p = "socks5") :
      orElse (r.detectedProtocol.getD "") "unknown" = p ↔ r.detectedProtocol = some p := by
    cases r.detectedProtocol with
    | none => rcases hp with rfl | rfl <;> simp [orElse]
    | some d =>
      by_cases hempty : d = ""
      · rcases hp with rfl | rfl <;> simp [orElse, hempty]
      · simp [orElse, hempty]
  refine ⟨?_, fun hserved => ?_⟩
  · simp only [Proxy.Served, hs', hd', Option.some.injEq, hprotocol "http" (.inl rfl),
      hprotocol "socks5" (.inr rfl)]
    exact Iff.rfl
  · have hkept : (r.checked r result now).detectedProtocol = r.detectedProtocol := by
      rcases hserved.2.2 with hp | hp
      · rw [hd', (hprotocol "http" (.inl rfl)).mpr hp, hp]
      · rw [hd', (hprotocol "socks5" (.inr rfl)).mpr hp, hp]
    simp only [Proxy.entry, clientPort, hkept]
    rfl

/-! ## What the steps keep -/

/-- At most one job runs, and the rows that it has read are the rows of the table. -/
structure State.ReadsHold (s : State) : Prop where
  wellFormed : s.db.WellFormed
  alone : s.jobs.length ≤ 1
  keyed : ∀ job ∈ s.jobs, Table.Keyed Proxy.id job.rows
  agree : ∀ job ∈ s.jobs, ∀ read ∈ job.rows, ∀ r ∈ s.db.proxies, r.id = read.id → r = read

theorem State.ReadsHold.writeResults {s : State} (hs : s.ReadsHold) {job : Job}
    (hjob : job ∈ s.jobs)
    {results : List (Nat × CheckResult)} (hsame : operationalChanged job.rows results = false)
    (now : Timestamp) :
    relayEntries (writeResults s.db job results now).proxies = relayEntries s.db.proxies := by
  obtain ⟨-, φ, hφ, hrows⟩ := writeResults_rows s.db job results now
  have hcases (r : Proxy) (hr : r ∈ s.db.proxies) :
      ((φ r).Served ↔ r.Served) ∧ (r.Served → (φ r).entry = r.entry) := by
    obtain heq | ⟨read, hread, hid, result, hresult, heq⟩ := hrows r
    · rw [heq]
      exact ⟨Iff.rfl, fun _ => rfl⟩
    · obtain rfl := hs.agree job hjob read hread r hr hid.symm
      have hlookup : Table.lookup Proxy.id r.id job.rows = some r :=
        (hs.keyed job hjob).lookup_eq hread
      have hunchanged : changedBy r result = false := by
        have hall := List.any_eq_false.mp hsame _ hresult
        simpa [hlookup] using hall
      rw [heq]
      exact checked_served hunchanged
  rw [hφ]
  refine relayEntries_map (fun r => ?_) (fun r hr => (hcases r hr).1) fun r hr => (hcases r hr).2
  obtain heq | ⟨read, -, -, result, -, heq⟩ := hrows r <;> rw [heq]
  rfl

/-- A step that deletes rows, and may end jobs. -/
theorem State.ReadsHold.keeps {s s' : State} (hs : s.ReadsHold) (hw : s'.db.WellFormed)
    (hrows : ∀ r ∈ s'.db.proxies, r ∈ s.db.proxies) (hjobs : s'.jobs = s.jobs) : s'.ReadsHold where
  wellFormed := hw
  alone := hjobs ▸ hs.alone
  keyed := hjobs ▸ hs.keyed
  agree := by
    rw [hjobs]
    exact fun job hjob read hread r hr hid => hs.agree job hjob read hread r (hrows r hr) hid

theorem State.ReadsHold.startCheck {s : State} (hs : s.ReadsHold) (hidle : s.jobs = [])
    (jobId : Nat) (ids : List Nat) :
    { s with jobs := s.jobs ++ [⟨jobId, readRows s.db ids⟩] : State }.ReadsHold := by
  have hread {read : Proxy} (hmem : read ∈ readRows s.db ids) : read ∈ s.db.proxies :=
    (List.mem_filter.mp hmem).1
  refine ⟨hs.wellFormed, by simp [hidle], ?_, ?_⟩
  · intro job hjob
    obtain rfl : job = ⟨jobId, readRows s.db ids⟩ := by simpa [hidle] using hjob
    exact hs.wellFormed.ids.filter _
  · intro job hjob read hmem r hr hid
    obtain rfl : job = ⟨jobId, readRows s.db ids⟩ := by simpa [hidle] using hjob
    exact hs.wellFormed.ids.eq hr (hread hmem) hid

theorem State.ReadsHold.finishCheck {s : State} (hs : s.ReadsHold) {job : Job} (hjob : job ∈ s.jobs)
    (results : List (Nat × CheckResult)) (now : Timestamp) :
    { db := Relay.writeResults s.db job results now
      jobs := s.jobs.filter fun j => decide (j.id ≠ job.id) : State }.ReadsHold := by
  have hnone : s.jobs.filter (fun j => decide (j.id ≠ job.id)) = [] := by
    refine List.filter_eq_nil_iff.mpr fun j hj => ?_
    obtain ⟨j', hjobs⟩ := List.length_eq_one_iff.mp
      (Nat.le_antisymm hs.alone (List.length_pos_of_mem hjob))
    grind
  refine ⟨hs.wellFormed.writeResults job results now, ?_, ?_, ?_⟩ <;> simp only [hnone] <;> simp

theorem State.ReadsHold.importProxy {config : Config} {s : State} (hs : s.ReadsHold) {e : Event}
    {lines : List (Option ParsedLine)} (hcall : e.call = .importProxy lines)
    (hspares : e.SparesJobs config s) :
    { s with db := (Relay.importProxy config s.db lines).1 : State }.ReadsHold := by
  obtain ⟨news, hproxies, hids, hw⟩ := importProxy_rows config hs.wellFormed lines
  refine ⟨hw, hs.alone, hs.keyed, fun job hjob read hread r hr hid => ?_⟩
  rcases List.mem_append.mp (hproxies ▸ hr : r ∈ s.db.proxies ++ news) with hold | hnew
  · exact hs.agree job hjob read hread r hold hid
  · unfold Event.SparesJobs at hspares
    simp only [hcall, hids] at hspares
    have hnot : r.id ∉ job.rows.map Proxy.id := hspares r.id (List.mem_map_of_mem hnew) job hjob
    exact absurd (hid ▸ List.mem_map_of_mem hread) hnot

theorem State.ReadsHold.undoImport {s : State} (hs : s.ReadsHold) (now : Timestamp) :
    { s with db := Relay.undoImport s.db now : State }.ReadsHold := by
  unfold Relay.undoImport
  split
  · exact hs
  · refine hs.keeps ?_ (fun r hr => (List.mem_filter.mp hr).1) rfl
    refine hs.wellFormed.filter _ (Table.map_update_of_forall ImportBatch.id ?_ _)
    intro b _
    rfl

/-- One event keeps the rows that the job has read, and a caller that does not reload has not
changed what the relay serves. -/
theorem State.ReadsHold.step {config : Config} {s s' : State} {e : Event} (hs : s.ReadsHold)
    (halone : e.ChecksAlone config s) (hstep : s.next config e = some s') :
    s'.ReadsHold ∧
      (e.reloads s = false → relayEntries s'.db.proxies = relayEntries s.db.proxies) := by
  obtain ⟨hspares, hstart⟩ := halone
  unfold State.next at hstep
  unfold Event.reloads
  cases hcall : e.call with
  | startCheck jobId ids =>
    simp only [hcall] at hstep hstart
    split at hstep
    · cases hstep
    · obtain rfl := Option.some.inj hstep
      exact ⟨hs.startCheck hstart jobId ids, fun _ => rfl⟩
  | finishCheck jobId results =>
    simp only [hcall] at hstep ⊢
    obtain ⟨job, hjob, rfl⟩ := Option.map_eq_some_iff.mp hstep
    have hmem : job ∈ s.jobs := Table.mem_of_lookup hjob
    obtain rfl : job.id = jobId := Table.key_of_lookup hjob
    exact ⟨hs.finishCheck hmem results e.now, fun hsame =>
      hs.writeResults hmem (by simpa [hjob] using hsame) e.now⟩
  | importProxy lines =>
    simp only [hcall] at hstep
    obtain rfl := Option.some.inj hstep
    exact ⟨hs.importProxy hcall hspares, fun _ => importProxy_unserved config s.db lines⟩
  | delete ids =>
    simp only [hcall] at hstep
    obtain rfl := Option.some.inj hstep
    exact ⟨hs.keeps (hs.wellFormed.filter _ rfl) (fun r hr => (List.mem_filter.mp hr).1) rfl,
      fun h => by simp at h⟩
  | deleteAll =>
    simp only [hcall] at hstep
    obtain rfl := Option.some.inj hstep
    refine ⟨hs.keeps ⟨List.nodup_nil, fun r hr => ?_⟩ (fun r hr => ?_) rfl, fun h => by simp at h⟩
    · exact absurd hr List.not_mem_nil
    · exact absurd hr List.not_mem_nil
  | undoImport =>
    simp only [hcall] at hstep ⊢
    obtain rfl := Option.some.inj hstep
    by_cases hidle : s.jobs = []
    · simp only [hidle, if_true] at hs ⊢
      refine ⟨?_, fun hnone => ?_⟩
      · simpa [hidle] using hs.undoImport e.now
      · have hbatch : latestUndoBatch s.db = none := by simpa using hnone
        simp [Relay.undoImport, hbatch]
    · simp only [hidle, if_false]
      exact ⟨hs, fun _ => trivial⟩

/-! ## Every run -/

/-- `relay.json` never holds anything but texts of what the relay served in some state of the
tables. When reloads do not overlap, it is one whole text of that kind. When check jobs do not
overlap either, and no import gives a running job's id to another row, it lists exactly what the
relay serves as soon as no reload is owed or under way. -/
theorem relay_published {ι : Type*} [DecidableEq ι] {config : Config} {db₀ : Db}
    (hw : db₀.WellFormed)
    {h : List (Publication.Event Event ι × Publication.State State ι (List RelayEntry))}
    {s : Publication.State State ι (List RelayEntry)}
    (run : History.Run (Publication.Step (publisher config)) (published ι db₀) h s) :
    (∀ text ∈ s.file, ∃ past, History.Visited (published ι db₀) h past ∧
      text = relayEntries past.store.db.proxies) ∧
    (History.Throughout (fun s e => e.Serial s) (published ι db₀) h →
      ∃ past, History.Visited (published ι db₀) h past ∧
        s.file = [relayEntries past.store.db.proxies]) ∧
    (History.Throughout (fun s e => e.Serial s ∧ e.Meets (fun s e => e.ChecksAlone config s) s)
        (published ι db₀) h →
      s.Settled → s.file = [relayEntries s.store.db.proxies]) := by
  have hs₀ : (published ι db₀).Started (publisher config) := published_started ι config db₀
  refine ⟨Publication.file_seen hs₀ run, fun hserial => ?_, fun hC hs => ?_⟩
  · obtain ⟨text, hfile, past, hpast, rfl⟩ := Publication.file_whole hs₀ run hserial
    exact ⟨past, hpast, hfile⟩
  · refine Publication.file_settled (I := State.ReadsHold) hs₀ ?_ ?_ run hC hs
    · exact ⟨hw, by simp [published], by simp [published], by simp [published]⟩
    · exact fun s e s' hs halone hstep => hs.step halone hstep

namespace Scenario

open Publication in
abbrev Threads := Publication.State Relay.State (Fin 2) (List RelayEntry)

def requests (events : List (Publication.Event Event (Fin 2))) :
    List (Publication.Event Event (Fin 2) × Threads) :=
  History.replay (fun s e => (s.next (publisher config) e).getD s) (published (Fin 2) empty) events

/-- Two rows are imported, checked and published. -/
def served : List (Publication.Event Event (Fin 2)) :=
  [.commit 0 ⟨.importProxy [line "a.example", line "b.example"], 1⟩,
    .commit 0 ⟨.startCheck 7 [1, 2], 2⟩, .commit 1 ⟨.finishCheck 7 [(1, live), (2, live)], 3⟩,
    .read 1, .truncate 1, .write 1, .replace 1]

/-- One of them is deleted. -/
def deleted : List (Publication.Event Event (Fin 2)) :=
  served ++ [.commit 0 ⟨.delete [1], 4⟩, .read 0, .truncate 0, .write 0, .replace 0]

end Scenario

open EarnProxy.Relay.Scenario in
theorem relay_published_deleted :
    let s := History.current (published (Fin 2) empty) (requests deleted)
    s.file = [relayEntries s.store.db.proxies] ∧ s.file.map (·.map RelayEntry.id) = [[2]] := by
  refine ⟨?_, by decide +kernel⟩
  refine (relay_published empty_wellFormed (History.run_replay_accepted ?_)).2.2 ?_ ?_
  all_goals decide +kernel

open EarnProxy.Relay.Scenario in
/-- Of two deletions at once, the one that has read the table first renames its file last. -/
example :
    let s := History.current (published (Fin 2) empty) (requests (served ++
      [.commit 0 ⟨.delete [1], 4⟩, .read 0, .commit 1 ⟨.delete [2], 5⟩, .read 1, .truncate 1,
        .write 1, .replace 1, .truncate 0, .write 0, .replace 0]))
    s.Settled ∧ s.store.db.proxies = [] ∧ s.file.map (·.map RelayEntry.id) = [[2]] := by
  decide +kernel

open EarnProxy.Relay.Scenario in
/-- A rename takes the file that another thread has just emptied. -/
example :
    let s := History.current (published (Fin 2) empty) (requests (served ++
      [.commit 0 ⟨.delete [1], 4⟩, .read 0, .truncate 0, .write 0, .commit 1 ⟨.delete [2], 5⟩,
        .read 1, .truncate 1, .replace 0]))
    s.file = [] := by
  decide +kernel

end EarnProxy.Relay

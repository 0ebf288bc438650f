import EarnProxy.Relay.Ports
import EarnProxy.Relay.Publishing

/-!
# Three failures in a row

`apply_check_result` decides about a row from the columns that the last result has left. Over the
life of a row this comes to a rule about the results alone: the last answer counts, and three
failures since then close the row; a row behind a captive portal stays blocked until the proxy
answers.
-/

namespace EarnProxy.Relay

/-- The probe came through, or met a captive portal. -/
def CheckResult.Answers (r : CheckResult) : Prop :=
  isUsableStatus r.status = true ∨ r.status = "blocked"

instance (r : CheckResult) : Decidable r.Answers := inferInstanceAs (Decidable (_ ∨ _))

/-- How many results, newest first, came in since the last answer. -/
def failures (results : List CheckResult) : Nat :=
  (results.takeWhile fun r => decide ¬ r.Answers).length

/-- What the results of a row, newest first, say about it. -/
def verdict (results : List CheckResult) : CheckUpdate :=
  let streak := failures results
  match results.find? fun r => decide r.Answers with
  | some answer =>
    if answer.status = "blocked" then ⟨"blocked", orElse answer.protocol "unknown", "", 0⟩
    else if 3 ≤ streak then ⟨"dead", "unknown", "", streak⟩
    else ⟨answer.status, orElse answer.protocol "unknown", answer.exitIp, streak⟩
  | none =>
    ⟨if streak = 0 then "unknown" else if streak < 3 then "inconclusive" else "dead",
      "unknown", "", streak⟩

/-- What the columns of a row say. -/
def Proxy.verdict (r : Proxy) : CheckUpdate :=
  ⟨r.status, orElse (r.detectedProtocol.getD "") "unknown", r.exitIp.getD "", r.failureStreak⟩

/-- What a job writes for a row that it has read; of two results the last one stays. -/
def Job.answer (job : Job) (results : List (Nat × CheckResult)) (id : Nat) : Option CheckResult :=
  if id ∈ job.rows.map Proxy.id then
    (results.reverse.find? fun p => decide (p.1 = id)).map Prod.snd
  else none

/-- The results that were written to the row with this id since it was imported, newest first. -/
def answers (db₀ : Db) : List (Event × State) → Nat → List CheckResult
  | [], _ => []
  | (e, s') :: h, id =>
    if id ∈ s'.db.proxies.map Proxy.id then
      match e.call with
      | .finishCheck jobId results =>
        ((Table.lookup Job.id jobId (History.current { db := db₀ } h).jobs).bind fun job =>
          job.answer results id).toList ++ answers db₀ h id
      | _ => answers db₀ h id
    else []

/-! ## One result -/

theorem CheckResult.Answers.ne_empty {r : CheckResult} (h : r.Answers) :
    orElse r.status "inconclusive" = r.status := by
  have hne : r.status ≠ "" := by
    rintro hempty
    simp [CheckResult.Answers, isUsableStatus, hempty] at h
  simp [orElse, hne]

theorem verdict_protocol (results : List CheckResult) :
    orElse (verdict results).detectedProtocol "unknown" = (verdict results).detectedProtocol := by
  unfold verdict
  grind [orElse]

theorem failures_cons (result : CheckResult) (results : List CheckResult) :
    failures (result :: results) = if result.Answers then 0 else failures results + 1 := by
  by_cases h : result.Answers <;> simp [failures, h]

/-- The result of a check of a row on which the columns and the results agree. -/
theorem applyCheckResult_verdict {r : Proxy} {results : List CheckResult}
    (h : r.verdict = verdict results) (result : CheckResult) :
    applyCheckResult r result = verdict (result :: results) := by
  by_cases hanswers : result.Answers
  · have hprobe := hanswers.ne_empty
    have hlast : verdict (result :: results) =
        if result.status = "blocked" then ⟨"blocked", orElse result.protocol "unknown", "", 0⟩
        else ⟨result.status, orElse result.protocol "unknown", result.exitIp, 0⟩ := by
      simp [verdict, hanswers, failures_cons]
    rw [hlast]
    by_cases hblocked : result.status = "blocked"
    · simp [applyCheckResult, hblocked, orElse, isUsableStatus]
    · have husable := hanswers.resolve_right hblocked
      simp [applyCheckResult, hprobe, husable, hblocked]
  · have hnot : isUsableStatus (orElse result.status "inconclusive") = false ∧
        orElse result.status "inconclusive" ≠ "blocked" := by
      by_cases hempty : result.status = ""
      · simp [orElse, hempty, isUsableStatus]
      · have hsame : orElse result.status "inconclusive" = result.status := by simp [orElse, hempty]
        rw [hsame]
        exact ⟨by simpa using fun hu => hanswers (.inl hu), fun hb => hanswers (.inr hb)⟩
    have hstreak : failures (result :: results) = failures results + 1 := by
      simp [failures_cons, hanswers]
    have hfind : (result :: results).find? (fun r => decide r.Answers) =
        results.find? fun r => decide r.Answers := by simp [hanswers]
    simp only [applyCheckResult, hnot.1, hnot.2, if_false, Bool.false_eq_true]
    simp only [verdict, hstreak, hfind]
    unfold verdict at h
    cases hlast : results.find? fun r => decide r.Answers with
    | none =>
      simp only [hlast, Proxy.verdict, CheckUpdate.mk.injEq] at h
      obtain ⟨hstatus, hprotocol, hexit, hfailed⟩ := h
      rw [hstatus, hprotocol, hexit, hfailed]
      grind [orElse, isUsableStatus]
    | some answer =>
      have hanswer : answer.Answers := by simpa using List.find?_some hlast
      have hne : answer.status ≠ "" := by
        intro hempty
        simp [CheckResult.Answers, isUsableStatus, hempty] at hanswer
      simp only [hlast, Proxy.verdict] at h
      by_cases hblocked : answer.status = "blocked"
      · simp only [hblocked, if_true, CheckUpdate.mk.injEq] at h ⊢
        obtain ⟨hstatus, hprotocol, -, -⟩ := h
        simp only [hstatus, hprotocol]
        simp [orElse]
      · have husable := hanswer.resolve_right hblocked
        simp only [hblocked, if_false] at h ⊢
        split at h
        · obtain ⟨hstatus, -, -, hfailed⟩ := CheckUpdate.mk.inj h
          have hmany : 3 ≤ failures results + 1 := by omega
          simp [hstatus, hfailed, hmany, orElse]
        · obtain ⟨hstatus, hprotocol, hexit, hfailed⟩ := CheckUpdate.mk.inj h
          have hsame : orElse answer.status "unknown" = answer.status := by simp [orElse, hne]
          simp only [hstatus, hprotocol, hexit, hfailed, hsame, hblocked, husable]
          simp

theorem checked_verdict {r : Proxy} {results : List CheckResult} (h : r.verdict = verdict results)
    (result : CheckResult) (now : Timestamp) :
    (r.checked r result now).verdict = verdict (result :: results) := by
  have hwritten : (r.checked r result now).verdict =
      { applyCheckResult r result with
        detectedProtocol := orElse (applyCheckResult r result).detectedProtocol "unknown" } := rfl
  rw [hwritten, applyCheckResult_verdict h, verdict_protocol]

/-! ## One job -/

theorem writeResults_append (db : Db) (job : Job) (results : List (Nat × CheckResult))
    (p : Nat × CheckResult) (now : Timestamp) :
    writeResults db job (results ++ [p]) now =
      writeResult job.rows now (writeResults db job results now) p := by
  simp [writeResults]

/-- The row after the result that is written to it, if any. -/
def Proxy.written (r : Proxy) (now : Timestamp) : Option CheckResult → Proxy
  | some result => r.checked r result now
  | none => r

@[simp] theorem Proxy.written_id (r : Proxy) (now : Timestamp) (result : Option CheckResult) :
    (r.written now result).id = r.id := by
  cases result <;> rfl

@[simp] theorem Proxy.checked_written (r : Proxy) (now : Timestamp) (earlier : Option CheckResult)
    (result : CheckResult) :
    (r.written now earlier).checked r result now = r.checked r result now := by
  cases earlier <;> rfl

/-- What a job writes, row by row. -/
theorem writeResults_proxies (db : Db) {job : Job}
    (hagree : ∀ read ∈ job.rows, ∀ r ∈ db.proxies, r.id = read.id → r = read)
    (results : List (Nat × CheckResult)) (now : Timestamp) :
    (writeResults db job results now).proxies =
      db.proxies.map fun r => r.written now (job.answer results r.id) := by
  induction results using List.reverseRecOn with
  | nil => simp [writeResults, Job.answer, Proxy.written]
  | append_singleton results p ih =>
    obtain ⟨i, result⟩ := p
    rw [writeResults_append, writeResult]
    cases hread : Table.lookup Proxy.id i job.rows with
    | none =>
      rw [ih]
      refine List.map_congr_left fun r _ => ?_
      have hnot : r.id ∈ job.rows.map Proxy.id → i ≠ r.id := by
        rintro hmem hid
        obtain ⟨read, hread', hid'⟩ := List.mem_map.mp hmem
        exact Table.lookup_eq_none.mp hread read hread' (hid'.trans hid.symm)
      have hskip : job.answer (results ++ [(i, result)]) r.id = job.answer results r.id := by
        grind [Job.answer]
      rw [hskip]
    | some read =>
      have hmem : read ∈ job.rows := Table.mem_of_lookup hread
      obtain rfl : read.id = i := Table.key_of_lookup hread
      dsimp only
      rw [ih, Table.update, List.map_map]
      refine List.map_congr_left fun r hr => ?_
      by_cases hid : r.id = read.id
      · obtain rfl := hagree read hmem r hr hid
        have hrow : r.id ∈ job.rows.map Proxy.id := List.mem_map_of_mem hmem
        have hlast : job.answer (results ++ [(r.id, result)]) r.id = some result := by
          unfold Job.answer
          rw [if_pos hrow]
          simp
        simp only [Function.comp_apply, Proxy.written_id, if_true, Proxy.checked_written, hlast]
        rfl
      · have hskip :
            job.answer (results ++ [(read.id, result)]) r.id = job.answer results r.id := by
          have hne : read.id ≠ r.id := fun h => hid h.symm
          simp [Job.answer, hne]
        simp [hskip, hid]

/-! ## Every run -/

/-- An id that no row has stands for no results. -/
theorem answers_absent {config : Config} {db₀ : Db} {h : List (Event × State)} {s : State}
    (run : Runs config db₀ h s) {id : Nat} (habsent : id ∉ s.db.proxies.map Proxy.id) :
    answers db₀ h id = [] := by
  cases run with
  | nil => rfl
  | snoc run hstep => exact if_neg habsent

theorem answers_snoc {config : Config} {db₀ : Db} {h : List (Event × State)} {s : State}
    (run : Runs config db₀ h s) {e : Event} {s' : State} {id : Nat}
    (hid : id ∈ s'.db.proxies.map Proxy.id) :
    answers db₀ ((e, s') :: h) id =
      match e.call with
      | .finishCheck jobId results =>
        ((Table.lookup Job.id jobId s.jobs).bind fun job => job.answer results id).toList ++
          answers db₀ h id
      | _ => answers db₀ h id := by
  simp only [answers, if_pos hid, run.current_eq]

/-- The columns of each row say what its results say. -/
def Judged (db₀ : Db) (h : List (Event × State)) (s : State) : Prop :=
  s.ReadsHold ∧ ∀ r ∈ s.db.proxies, r.verdict = verdict (answers db₀ h r.id)

theorem Judged.kept {config : Config} {db₀ : Db} {h : List (Event × State)} {s s' : State}
    {e : Event} (run : Runs config db₀ h s) (hs : Judged db₀ h s)
    (hcall : ∀ jobId results, e.call ≠ .finishCheck jobId results) {r : Proxy}
    (hr : r ∈ s'.db.proxies) (hold : r ∈ s.db.proxies) :
    r.verdict = verdict (answers db₀ ((e, s') :: h) r.id) := by
  rw [answers_snoc run (List.mem_map_of_mem hr), hs.2 r hold]
  split
  · exact absurd ‹_› (hcall _ _)
  · rfl

theorem Judged.step {config : Config} {db₀ : Db} {h : List (Event × State)} {s s' : State}
    {e : Event} (run : Runs config db₀ h s) (hs : Judged db₀ h s)
    (halone : e.ChecksAlone config s) (hstep : Step config s e s') :
    Judged db₀ ((e, s') :: h) s' := by
  refine ⟨(hs.1.step halone hstep).1, fun r hr => ?_⟩
  unfold Step State.next at hstep
  cases hcall : e.call with
  | startCheck jobId ids =>
    simp only [hcall] at hstep
    split at hstep
    · cases hstep
    · obtain rfl := Option.some.inj hstep
      exact hs.kept run (by simp [hcall]) hr hr
  | finishCheck jobId results =>
    simp only [hcall] at hstep
    obtain ⟨job, hjob, rfl⟩ := Option.map_eq_some_iff.mp hstep
    rw [answers_snoc run (List.mem_map_of_mem hr)]
    simp only [hcall, hjob, Option.bind_some]
    have hproxies :=
      writeResults_proxies s.db (hs.1.agree job (Table.mem_of_lookup hjob)) results e.now
    obtain ⟨r, hold, rfl⟩ := List.mem_map.mp (hproxies ▸ hr)
    rw [Proxy.written_id]
    cases job.answer results r.id with
    | none => exact hs.2 r hold
    | some result => exact checked_verdict (hs.2 r hold) result e.now
  | importProxy lines =>
    simp only [hcall] at hstep
    obtain rfl := Option.some.inj hstep
    obtain ⟨news, hproxies, hnews⟩ := importProxy_unchecked config s.db lines
    obtain ⟨_, -, -, hw⟩ := importProxy_rows config hs.1.wellFormed lines
    have hkeyed : Table.Keyed Proxy.id (s.db.proxies ++ news) := hproxies ▸ hw.ids
    rcases List.mem_append.mp (hproxies ▸ hr : r ∈ s.db.proxies ++ news) with hold | hnew
    · exact hs.kept run (by simp [hcall]) hr hold
    · have habsent : r.id ∉ s.db.proxies.map Proxy.id := by
        intro hmem
        obtain ⟨r', hr', hid⟩ := List.mem_map.mp hmem
        exact hkeyed.ne_of_append hr' hnew hid
      obtain ⟨hstatus, hdetected, hexit, hstreak⟩ := hnews r hnew
      rw [answers_snoc run (List.mem_map_of_mem hr)]
      simp only [hcall, answers_absent run habsent]
      simp [Proxy.verdict, verdict, failures, hstatus, hdetected, hexit, hstreak, orElse]
  | delete ids =>
    simp only [hcall] at hstep
    obtain rfl := Option.some.inj hstep
    exact hs.kept run (by simp [hcall]) hr (List.mem_filter.mp hr).1
  | deleteAll =>
    simp only [hcall] at hstep
    obtain rfl := Option.some.inj hstep
    exact absurd hr List.not_mem_nil
  | undoImport =>
    simp only [hcall] at hstep
    obtain rfl := Option.some.inj hstep
    refine hs.kept run (by simp [hcall]) hr ?_
    split at hr
    · exact (undoImport_rows s.db e.now).1.subset hr
    · exact hr

/-- In the life of a relay whose checks run one at a time, the columns of every row are those that
the results since its import call for: those of the last answer, until three failures in a row close
the row. -/
theorem relay_verdict {config : Config} {db₀ : Db} (hempty : db₀.proxies = [])
    {h : List (Event × State)} {s : State} (run : Runs config db₀ h s)
    (halone : History.Throughout (fun s e => e.ChecksAlone config s) { db := db₀ } h) :
    ∀ r ∈ s.db.proxies, r.verdict = verdict (answers db₀ h r.id) := by
  suffices hjudged : Runs config db₀ h s ∧ Judged db₀ h s from hjudged.2.2
  refine (run.throughout halone).invariant
    (I := fun h s => Runs config db₀ h s ∧ Judged db₀ h s) ⟨.nil, ?_, by simp [hempty]⟩ ?_
  · have hw : db₀.WellFormed := ⟨by simp [Table.Keyed, hempty], by simp [hempty]⟩
    exact ⟨hw, by simp, by simp, by simp⟩
  · rintro h s e s' - ⟨run, hjudged⟩ ⟨hstep, hspares⟩
    exact ⟨run.snoc hstep, hjudged.step run hspares hstep⟩

namespace Scenario

def failed : CheckResult := { error := "timed out" }

def check (jobId : Nat) (result : CheckResult) : List Event :=
  [⟨.startCheck jobId [1], jobId⟩, ⟨.finishCheck jobId [(1, result)], jobId⟩]

/-- A row is live, and then fails three times. -/
def closed : List Event :=
  ⟨.importProxy [line "a.example"], 0⟩ ::
    (check 1 live ++ check 2 failed ++ check 3 failed ++ check 4 failed)

end Scenario

open EarnProxy.Relay.Scenario in
theorem relay_verdict_closed :
    let s := after closed
    (∀ r ∈ s.db.proxies, r.verdict = verdict (answers empty (history closed) r.id)) ∧
      s.db.proxies.map Proxy.verdict = [⟨"dead", "unknown", "", 3⟩] := by
  refine ⟨?_, by decide +kernel⟩
  exact relay_verdict rfl (runs (by decide +kernel)) (by decide +kernel)

end EarnProxy.Relay

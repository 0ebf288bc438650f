import Mathlib.Data.Set.Function
import EarnProxy.Checks
import EarnProxy.Library.IsoFormat
import EarnProxy.Library.SlidingWindow

/-!
# `app/registration_rate_limit.py`

The two gates have a table of attempts each, whose timestamps are texts. Calls are serialized by
`BEGIN IMMEDIATE`, so a run is a list of calls. Runs are listed newest first.
-/

namespace EarnProxy

open IsoFormat

/-- A row of `registration_attempts` or `login_attempts`; only the second has an account. -/
structure Attempt where
  identityHash : String
  accountHash : Option String
  attemptedAt : String
  deriving DecidableEq, Repr

/-- The numbers of the configuration: `int(config[key])`, with `none` for a key that is missing or
has no number. -/
abbrev RateConfig := String → Option Int

/-- `_int_setting`. -/
def intSetting (config : RateConfig) (key : String) (default lower upper : Int) : Int :=
  boundedInt (config key) default lower upper

/-- `identity or "unknown"`. -/
def orUnknown (text : String) : String := if text = "" then "unknown" else text

/-- The decision over the rows that the `DELETE` has left, and the table after it. -/
def reserveAttempt (identityMax globalMax : Int) (row : Attempt) (kept : List Attempt) :
    Bool × List Attempt :=
  let globalCount := kept.length
  let identityCount := kept.countP (·.identityHash = row.identityHash)
  if (globalCount : Int) ≥ globalMax ∨ (identityCount : Int) ≥ identityMax then (false, kept)
  else (true, row :: kept)

/-- What the two functions share. `none` is the `OverflowError` of the cutoff, which comes before
the transaction. -/
def admitAttempt (identityMax window globalMax : Int) (row : Attempt) (now : DateTime)
    (attempts : List Attempt) : Option (Bool × List Attempt) :=
  (now.sub (window.toNat * 1000000)).map fun cutoff =>
    reserveAttempt identityMax globalMax row
      (attempts.filter fun a => ¬ TextLe a.attemptedAt cutoff.isoformat)

/-- The digest of `hashlib.sha256(text.encode())`. -/
abbrev Digest := String → String

/-- `admit_registration_attempt`. -/
def admitRegistrationAttempt (sha256 : Digest) (config : RateConfig) (identity : String)
    (now : DateTime) : List Attempt → Option (Bool × List Attempt) :=
  admitAttempt (intSetting config "REGISTRATION_MAX_ATTEMPTS" 5 1 1000)
    (intSetting config "REGISTRATION_RATE_WINDOW_SECONDS" 900 60 86400)
    (intSetting config "REGISTRATION_GLOBAL_MAX_ATTEMPTS" 100 1 100000)
    ⟨sha256 (orUnknown identity), none, now.isoformat⟩ now

/-- `admit_login_attempt`. -/
def admitLoginAttempt (sha256 : Digest) (config : RateConfig) (identity account : String)
    (now : DateTime) : List Attempt → Option (Bool × List Attempt) :=
  admitAttempt (intSetting config "LOGIN_IP_MAX_ATTEMPTS" 30 1 100000)
    (intSetting config "LOGIN_RATE_WINDOW_SECONDS" 900 60 86400)
    (intSetting config "LOGIN_GLOBAL_MAX_ATTEMPTS" 1000 1 1000000)
    ⟨sha256 (orUnknown identity), some (sha256 (Text.lower (Text.strip (orUnknown account)))),
      now.isoformat⟩ now

/-! ## Runs of a gate -/

/-- A call of a gate. A registration has no account. -/
structure RateCall where
  identity : String
  account : String := ""
  now : DateTime

inductive Gate where
  | registration | login
  deriving DecidableEq, Repr

namespace Gate

def identityMax (config : RateConfig) : Gate → Int
  | registration => intSetting config "REGISTRATION_MAX_ATTEMPTS" 5 1 1000
  | login => intSetting config "LOGIN_IP_MAX_ATTEMPTS" 30 1 100000

def window (config : RateConfig) : Gate → Int
  | registration => intSetting config "REGISTRATION_RATE_WINDOW_SECONDS" 900 60 86400
  | login => intSetting config "LOGIN_RATE_WINDOW_SECONDS" 900 60 86400

def globalMax (config : RateConfig) : Gate → Int
  | registration => intSetting config "REGISTRATION_GLOBAL_MAX_ATTEMPTS" 100 1 100000
  | login => intSetting config "LOGIN_GLOBAL_MAX_ATTEMPTS" 1000 1 1000000

/-- The length of the window in microseconds. -/
def width (config : RateConfig) (gate : Gate) : Nat := (gate.window config).toNat * 1000000

variable (sha256 : Digest) (config : RateConfig)

def reserve (call : RateCall) : Gate → List Attempt → Option (Bool × List Attempt)
  | registration => admitRegistrationAttempt sha256 config call.identity call.now
  | login => admitLoginAttempt sha256 config call.identity call.account call.now

/-- The row that the gate inserts for a call. -/
def row (call : RateCall) : Gate → Attempt
  | registration => ⟨sha256 (orUnknown call.identity), none, call.now.isoformat⟩
  | login => ⟨sha256 (orUnknown call.identity),
      some (sha256 (Text.lower (Text.strip (orUnknown call.account)))), call.now.isoformat⟩

variable (gate : Gate)

/-- The table after a run from an empty one. -/
def tableAfter : List RateCall → List Attempt
  | [] => []
  | call :: earlier =>
    ((gate.reserve sha256 config call (tableAfter earlier)).map Prod.snd).getD (tableAfter earlier)

/-- What a call returns after a run. -/
def answer (earlier : List RateCall) (call : RateCall) : Option Bool :=
  (gate.reserve sha256 config call (gate.tableAfter sha256 config earlier)).map Prod.fst

/-- The calls of a run that were admitted. -/
def admitted : List RateCall → List RateCall
  | [] => []
  | call :: earlier =>
    if gate.answer sha256 config earlier call = some true then call :: admitted earlier
    else admitted earlier

end Gate

/-- The identity that a call counts for. -/
def RateCall.key (call : RateCall) : String := orUnknown call.identity

/-- The call lies in the window that ends at an instant. -/
def RateCall.InWindow (call : RateCall) (width : Nat) (last : DateTime) : Prop :=
  last.micros < call.now.micros + width ∧ call.now.micros ≤ last.micros

instance (call : RateCall) (width : Nat) (last : DateTime) : Decidable (call.InWindow width last) :=
  inferInstanceAs (Decidable (_ ∧ _))

/-- What a gate promises of a run. -/
structure Gate.Sliding (sha256 : Digest) (config : RateConfig) (gate : Gate)
    (calls : List RateCall) : Prop where
  /-- In every window that has its first instant and not its last. -/
  identity_le : ∀ identity start, (gate.admitted sha256 config calls).countP (fun call =>
    call.key = identity ∧ start ≤ call.now.micros ∧ call.now.micros < start + gate.width config) ≤
      gate.identityMax config
  /-- In every window that has its last instant and not its first. -/
  identity_le' : ∀ identity start, (gate.admitted sha256 config calls).countP (fun call =>
    call.key = identity ∧ start < call.now.micros ∧ call.now.micros ≤ start + gate.width config) ≤
      gate.identityMax config
  global_le : ∀ start, (gate.admitted sha256 config calls).countP (fun call =>
    start ≤ call.now.micros ∧ call.now.micros < start + gate.width config) ≤ gate.globalMax config
  global_le' : ∀ start, (gate.admitted sha256 config calls).countP (fun call =>
    start < call.now.micros ∧ call.now.micros ≤ start + gate.width config) ≤ gate.globalMax config
  /-- Only a window that would begin before the first instant leaves a call without an answer. -/
  overflows : ∀ call earlier, call :: earlier <:+ calls →
    (gate.answer sha256 config earlier call = none ↔ call.now.sub (gate.width config) = none)
  /-- With room in both budgets a call is admitted. -/
  admits : ∀ call earlier, call :: earlier <:+ calls →
    call.now.sub (gate.width config) ≠ none →
    (gate.admitted sha256 config earlier).countP (fun other =>
      other.InWindow (gate.width config) call.now) < gate.globalMax config →
    (gate.admitted sha256 config earlier).countP (fun other =>
      other.key = call.key ∧ other.InWindow (gate.width config) call.now) <
        gate.identityMax config →
    gate.answer sha256 config earlier call = some true
  /-- A refusal comes from a budget that is full in the window that ends at the call. -/
  refused : ∀ call earlier, call :: earlier <:+ calls →
    gate.answer sha256 config earlier call = some false →
    gate.globalMax config ≤ (gate.admitted sha256 config earlier).countP (fun other =>
      other.InWindow (gate.width config) call.now) ∨
    gate.identityMax config ≤ (gate.admitted sha256 config earlier).countP (fun other =>
      other.key = call.key ∧ other.InWindow (gate.width config) call.now)
  /-- No later call can tell that a refused one has been made. -/
  consumes_nothing : ∀ call earlier, call :: earlier <:+ calls →
    gate.answer sha256 config earlier call = some false →
    ∀ next : RateCall, call.now.micros ≤ next.now.micros →
      gate.reserve sha256 config next (gate.tableAfter sha256 config (call :: earlier)) =
        gate.reserve sha256 config next (gate.tableAfter sha256 config earlier)
  /-- After every call the table has the admitted calls whose windows are open, and no others. -/
  kept : ∀ call earlier, call :: earlier <:+ calls →
    gate.tableAfter sha256 config (call :: earlier) =
      ((gate.admitted sha256 config (call :: earlier)).filter fun other =>
        call.now.micros < other.now.micros + gate.width config).map fun other =>
          gate.row sha256 other

/-! ## The table and the log -/

namespace Gate

/-- The gate as a limiter of its calls. -/
def limiter (config : RateConfig) (gate : Gate) : SlidingWindow.Limiter RateCall String Nat where
  time call := call.now.micros
  key := RateCall.key
  width := gate.width config
  keyMax := (gate.identityMax config).toNat
  totalMax := (gate.globalMax config).toNat

variable {sha256 : Digest} {config : RateConfig} {gate : Gate}

theorem width_pos : 0 < gate.width config := by
  have hwindow : 60 ≤ gate.window config := by
    cases gate <;> exact Int.le_max_left _ _
  unfold width
  omega

theorem row_identityHash (call : RateCall) :
    (gate.row sha256 call).identityHash = sha256 call.key := by
  cases gate <;> rfl

theorem row_attemptedAt (call : RateCall) :
    (gate.row sha256 call).attemptedAt = call.now.isoformat := by
  cases gate <;> rfl

theorem reserve_eq (call : RateCall) (attempts : List Attempt) :
    gate.reserve sha256 config call attempts = admitAttempt (gate.identityMax config)
      (gate.window config) (gate.globalMax config) (gate.row sha256 call) call.now attempts := by
  cases gate <;> rfl

/-- The texts of the table prune it as the instants of the log would. -/
theorem filter_rows {now cutoff : DateTime} (h : now.micros = cutoff.micros + gate.width config)
    (log : List RateCall) :
    (log.map (gate.row sha256)).filter (fun a => ¬ TextLe a.attemptedAt cutoff.isoformat) =
      ((gate.limiter config).recent now.micros log).map (gate.row sha256) := by
  unfold SlidingWindow.Limiter.recent
  rw [List.filter_map]
  apply congrArg (List.map (gate.row sha256))
  apply List.filter_congr
  intro call _
  have hle := isoformat_le_iff call.now cutoff
  have hopen : now.micros < call.now.micros + gate.width config ↔
      ¬ call.now.micros ≤ cutoff.micros := by
    omega
  rw [Function.comp, row_attemptedAt, decide_eq_decide, hle]
  exact hopen.symm

/-- A call on the rows of a log, by the instants of the log. -/
theorem admit_rows (call : RateCall) (log : List RateCall) :
    gate.reserve sha256 config call (log.map (gate.row sha256)) =
      if gate.width config ≤ call.now.micros then
        some (reserveAttempt (gate.identityMax config) (gate.globalMax config)
          (gate.row sha256 call)
          (((gate.limiter config).recent call.now.micros log).map (gate.row sha256)))
      else none := by
  rw [reserve_eq, admitAttempt, DateTime.sub]
  change Option.map _ (if gate.width config ≤ call.now.micros then _ else _) = _
  split
  next hle =>
    rw [Option.map_some, filter_rows (Nat.sub_add_cancel hle).symm]
  next => rfl

/-- The decision is the one of the limiter, unless two identities have one digest. -/
theorem reserve_rows {call : RateCall} {log : List RateCall}
    (hsha : ∀ other ∈ log, sha256 other.key = sha256 call.key → other.key = call.key) :
    reserveAttempt (gate.identityMax config) (gate.globalMax config) (gate.row sha256 call)
        (((gate.limiter config).recent call.now.micros log).map (gate.row sha256)) =
      if (gate.limiter config).HasRoom log call then
        (true, (((gate.limiter config).recent call.now.micros (call :: log)).map (gate.row sha256)))
      else (false, ((gate.limiter config).recent call.now.micros log).map (gate.row sha256)) := by
  have hcount : (((gate.limiter config).recent call.now.micros log).map (gate.row sha256)).countP
      (·.identityHash = (gate.row sha256 call).identityHash) =
      ((gate.limiter config).recent call.now.micros log).countP (·.key = call.key) := by
    rw [List.countP_map]
    apply List.countP_congr
    intro other hother
    have hmem := List.mem_of_mem_filter hother
    simp only [Function.comp, row_identityHash, decide_eq_true_eq]
    exact ⟨hsha other hmem, congrArg sha256⟩
  have hnew : (gate.limiter config).recent call.now.micros (call :: log) =
      call :: (gate.limiter config).recent call.now.micros log := by
    apply List.filter_cons_of_pos
    exact decide_eq_true (Nat.lt_add_of_pos_right width_pos)
  have hroom : (gate.limiter config).HasRoom log call ↔
      ((gate.limiter config).recent call.now.micros log).length < (gate.globalMax config).toNat ∧
        ((gate.limiter config).recent call.now.micros log).countP (·.key = call.key) <
          (gate.identityMax config).toNat := Iff.rfl
  unfold reserveAttempt
  simp only [hcount, List.length_map, hnew, List.map_cons, hroom]
  split
  · rw [if_neg (by omega)]
  · rw [if_pos (by omega)]

/-- The instant of the last call. -/
def lastMicros : List RateCall → Nat
  | [] => 0
  | call :: _ => call.now.micros

/-- The log of a run, and what the table has of it. -/
structure Kept (sha256 : Digest) (config : RateConfig) (gate : Gate) (calls : List RateCall) : Prop
    where
  log : (gate.limiter config).Log (gate.admitted sha256 config calls)
  mem : ∀ call ∈ gate.admitted sha256 config calls, call ∈ calls
  table : gate.tableAfter sha256 config calls =
    ((gate.limiter config).recent (lastMicros calls) (gate.admitted sha256 config calls)).map
      (gate.row sha256)

/-- The calls come one after the other, and no two of their identities have one digest. -/
structure Orderly (sha256 : Digest) (calls : List RateCall) : Prop where
  sorted : calls.Pairwise fun later earlier => earlier.now.micros ≤ later.now.micros
  digests : ∀ a ∈ calls, ∀ b ∈ calls, sha256 a.key = sha256 b.key → a.key = b.key

theorem Orderly.of_suffix {calls earlier : List RateCall} (h : Orderly sha256 calls)
    (hsuffix : earlier <:+ calls) : Orderly sha256 earlier where
  sorted := h.sorted.sublist hsuffix.sublist
  digests a ha b hb := h.digests a (hsuffix.subset ha) b (hsuffix.subset hb)

theorem Orderly.last_le {call : RateCall} {earlier : List RateCall}
    (h : Orderly sha256 (call :: earlier)) : lastMicros earlier ≤ call.now.micros := by
  cases earlier with
  | nil => exact Nat.zero_le _
  | cons other earlier => exact List.rel_of_pairwise_cons h.sorted List.mem_cons_self

/-- One more call, from a table that has what it should. -/
theorem Kept.reserve_eq {call : RateCall} {earlier : List RateCall}
    (h : Kept sha256 config gate earlier) (horder : Orderly sha256 (call :: earlier)) :
    gate.reserve sha256 config call (gate.tableAfter sha256 config earlier) =
      if gate.width config ≤ call.now.micros then
        some (if (gate.limiter config).HasRoom (gate.admitted sha256 config earlier) call then
          (true, ((gate.limiter config).recent call.now.micros
            (call :: gate.admitted sha256 config earlier)).map (gate.row sha256))
        else (false, ((gate.limiter config).recent call.now.micros
          (gate.admitted sha256 config earlier)).map (gate.row sha256)))
      else none := by
  have hsha : ∀ other ∈ gate.admitted sha256 config earlier, sha256 other.key = sha256 call.key →
      other.key = call.key := fun other hother =>
    horder.digests other (List.mem_cons_of_mem _ (h.mem other hother)) call List.mem_cons_self
  rw [h.table, admit_rows, SlidingWindow.Limiter.recent_recent horder.last_le, reserve_rows hsha]

theorem admitted_of_answer {call : RateCall} {earlier : List RateCall}
    (h : gate.answer sha256 config earlier call = some true) :
    gate.admitted sha256 config (call :: earlier) = call :: gate.admitted sha256 config earlier :=
  if_pos h

theorem admitted_of_answer_ne {call : RateCall} {earlier : List RateCall}
    (h : gate.answer sha256 config earlier call ≠ some true) :
    gate.admitted sha256 config (call :: earlier) = gate.admitted sha256 config earlier :=
  if_neg h

theorem kept_of_orderly {calls : List RateCall} (horder : Orderly sha256 calls) :
    Kept sha256 config gate calls := by
  induction calls with
  | nil => exact ⟨.nil, fun _ h => h, rfl⟩
  | cons call earlier ih =>
    have hkept := ih (horder.of_suffix (List.suffix_cons _ _))
    have hadmit := hkept.reserve_eq horder
    by_cases hwidth : gate.width config ≤ call.now.micros
    · rw [if_pos hwidth] at hadmit
      by_cases hroom : (gate.limiter config).HasRoom (gate.admitted sha256 config earlier) call
      · rw [if_pos hroom] at hadmit
        have hanswer : gate.answer sha256 config earlier call = some true := by
          rw [answer, hadmit, Option.map_some]
        have hadmitted := admitted_of_answer hanswer
        refine ⟨?_, ?_, ?_⟩
        · rw [hadmitted]
          refine .cons hkept.log (fun other hother => ?_) hroom
          exact List.rel_of_pairwise_cons horder.sorted (hkept.mem other hother)
        · rw [hadmitted]
          intro other hother
          rcases List.mem_cons.mp hother with rfl | hother
          · exact List.mem_cons_self
          · exact List.mem_cons_of_mem _ (hkept.mem other hother)
        · rw [tableAfter, hadmit, hadmitted, Option.map_some, Option.getD_some, lastMicros]
      · rw [if_neg hroom] at hadmit
        have hanswer : gate.answer sha256 config earlier call ≠ some true := by
          rw [answer, hadmit, Option.map_some]
          simp
        have hadmitted := admitted_of_answer_ne hanswer
        refine ⟨hadmitted ▸ hkept.log, ?_, ?_⟩
        · rw [hadmitted]
          exact fun other hother => List.mem_cons_of_mem _ (hkept.mem other hother)
        · rw [tableAfter, hadmit, hadmitted, Option.map_some, Option.getD_some, lastMicros]
    · rw [if_neg hwidth] at hadmit
      have hanswer : gate.answer sha256 config earlier call ≠ some true := by
        rw [answer, hadmit, Option.map_none]
        simp
      have hadmitted := admitted_of_answer_ne hanswer
      -- So early, every window is still open, and the table is as the last call has left it.
      have hopen : ∀ now < gate.width config, (gate.limiter config).recent now
          (gate.admitted sha256 config earlier) = gate.admitted sha256 config earlier := by
        intro now hnow
        apply SlidingWindow.Limiter.recent_eq_self
        intro other _
        simp only [limiter]
        omega
      have hlast := horder.last_le
      refine ⟨hadmitted ▸ hkept.log, ?_, ?_⟩
      · rw [hadmitted]
        exact fun other hother => List.mem_cons_of_mem _ (hkept.mem other hother)
      · have hnow := hopen call.now.micros (by omega)
        rw [tableAfter, hadmit, hadmitted, lastMicros, hnow, Option.map_none, Option.getD_none,
          hkept.table, hopen _ (by omega)]

/-! ## What the gates promise -/

theorem narrow_before (start : Nat) : (gate.limiter config).Narrow fun call =>
    start ≤ call.now.micros ∧ call.now.micros < start + gate.width config := by
  intro call later hcall hlater _
  change later.now.micros < call.now.micros + gate.width config
  omega

theorem narrow_after (start : Nat) : (gate.limiter config).Narrow fun call =>
    start < call.now.micros ∧ call.now.micros ≤ start + gate.width config := by
  intro call later hcall hlater _
  change later.now.micros < call.now.micros + gate.width config
  omega

theorem maxima_pos : 0 ≤ gate.identityMax config ∧ 0 ≤ gate.globalMax config := by
  have hone : ∀ n : Int, 1 ≤ n → 0 ≤ n := fun n h => by omega
  cases gate <;> exact ⟨hone _ (Int.le_max_left _ _), hone _ (Int.le_max_left _ _)⟩

theorem Kept.identity_le {calls : List RateCall} (h : Kept sha256 config gate calls)
    {q : RateCall → Prop} [DecidablePred q] (hq : (gate.limiter config).Narrow q)
    (identity : String) :
    ((gate.admitted sha256 config calls).countP fun call => call.key = identity ∧ q call) ≤
      gate.identityMax config := by
  have hle := h.log.key_le hq identity
  have hmax : ((gate.limiter config).keyMax : Int) = gate.identityMax config :=
    Int.toNat_of_nonneg maxima_pos.1
  rw [← hmax]
  simp only [Bool.decide_and]
  exact Int.ofNat_le.mpr hle

theorem Kept.global_le {calls : List RateCall} (h : Kept sha256 config gate calls)
    {q : RateCall → Prop} [DecidablePred q] (hq : (gate.limiter config).Narrow q) :
    ((gate.admitted sha256 config calls).countP fun call => q call) ≤ gate.globalMax config := by
  have hle := h.log.total_le hq
  have hmax : ((gate.limiter config).totalMax : Int) = gate.globalMax config :=
    Int.toNat_of_nonneg maxima_pos.2
  rw [← hmax]
  exact Int.ofNat_le.mpr hle

theorem Kept.admitted_le {call : RateCall} {earlier : List RateCall}
    (h : Kept sha256 config gate earlier) (horder : Orderly sha256 (call :: earlier)) :
    ∀ other ∈ gate.admitted sha256 config earlier, other.now.micros ≤ call.now.micros :=
  fun other hother => List.rel_of_pairwise_cons horder.sorted (h.mem other hother)

theorem Kept.refused {call : RateCall} {earlier : List RateCall}
    (h : Kept sha256 config gate earlier) (horder : Orderly sha256 (call :: earlier))
    (hanswer : gate.answer sha256 config earlier call = some false) :
    gate.globalMax config ≤ ((gate.admitted sha256 config earlier).countP fun other =>
      other.InWindow (gate.width config) call.now) ∨
    gate.identityMax config ≤ ((gate.admitted sha256 config earlier).countP fun other =>
      other.key = call.key ∧ other.InWindow (gate.width config) call.now) := by
  have hle := h.admitted_le horder
  have hmaxima : 0 ≤ gate.identityMax config ∧ 0 ≤ gate.globalMax config := maxima_pos
  have hroom : ¬ (gate.limiter config).HasRoom (gate.admitted sha256 config earlier) call := by
    intro hroom
    rw [answer, h.reserve_eq horder] at hanswer
    split at hanswer
    · simp at hanswer
    · cases hanswer
  have hglobal : ((gate.limiter config).recent call.now.micros
      (gate.admitted sha256 config earlier)).length =
      (gate.admitted sha256 config earlier).countP fun other =>
        other.InWindow (gate.width config) call.now := by
    unfold SlidingWindow.Limiter.recent
    rw [← List.countP_eq_length_filter]
    apply List.countP_congr
    intro other hother
    rw [decide_eq_true_eq, decide_eq_true_eq]
    exact ⟨fun hopen => ⟨hopen, hle other hother⟩, And.left⟩
  have hidentity : ((gate.limiter config).recent call.now.micros
      (gate.admitted sha256 config earlier)).countP (·.key = call.key) =
      (gate.admitted sha256 config earlier).countP fun other =>
        other.key = call.key ∧ other.InWindow (gate.width config) call.now := by
    unfold SlidingWindow.Limiter.recent
    rw [List.countP_filter]
    apply List.countP_congr
    intro other hother
    rw [Bool.and_eq_true, decide_eq_true_eq, decide_eq_true_eq, decide_eq_true_eq]
    exact ⟨fun hboth => ⟨hboth.1, hboth.2, hle other hother⟩, fun hboth => ⟨hboth.1, hboth.2.1⟩⟩
  have hfull : ¬ (((gate.admitted sha256 config earlier).countP fun other =>
        other.InWindow (gate.width config) call.now) < (gate.globalMax config).toNat ∧
      ((gate.admitted sha256 config earlier).countP fun other =>
        other.key = call.key ∧ other.InWindow (gate.width config) call.now) <
          (gate.identityMax config).toNat) := by
    rw [← hglobal, ← hidentity]
    exact hroom
  omega

theorem answer_eq_none_iff {call : RateCall} {earlier : List RateCall} :
    gate.answer sha256 config earlier call = none ↔ call.now.sub (gate.width config) = none := by
  rw [answer, reserve_eq, admitAttempt, Option.map_eq_none_iff, Option.map_eq_none_iff, width]

theorem Kept.admits {call : RateCall} {earlier : List RateCall}
    (h : Kept sha256 config gate earlier) (horder : Orderly sha256 (call :: earlier))
    (hcutoff : call.now.sub (gate.width config) ≠ none)
    (hglobal : (gate.admitted sha256 config earlier).countP (fun other =>
      other.InWindow (gate.width config) call.now) < gate.globalMax config)
    (hidentity : (gate.admitted sha256 config earlier).countP (fun other =>
      other.key = call.key ∧ other.InWindow (gate.width config) call.now) <
        gate.identityMax config) :
    gate.answer sha256 config earlier call = some true := by
  cases hanswer : gate.answer sha256 config earlier call with
  | none => exact absurd (answer_eq_none_iff.mp hanswer) hcutoff
  | some admitted =>
    cases admitted with
    | true => rfl
    | false =>
      have hfull := h.refused horder hanswer
      omega

theorem Kept.consumes_nothing {call next : RateCall} {earlier : List RateCall}
    (h : Kept sha256 config gate earlier) (h' : Kept sha256 config gate (call :: earlier))
    (horder : Orderly sha256 (call :: earlier))
    (hanswer : gate.answer sha256 config earlier call = some false)
    (hnext : call.now.micros ≤ next.now.micros) :
    gate.reserve sha256 config next (gate.tableAfter sha256 config (call :: earlier)) =
      gate.reserve sha256 config next (gate.tableAfter sha256 config earlier) := by
  have hadmitted : gate.admitted sha256 config (call :: earlier) =
      gate.admitted sha256 config earlier := by
    rw [admitted, hanswer]
    rfl
  have hlast := horder.last_le
  rw [h.table, h'.table, hadmitted, admit_rows, admit_rows,
    SlidingWindow.Limiter.recent_recent (hlast.trans hnext),
    SlidingWindow.Limiter.recent_recent (show lastMicros (call :: earlier) ≤ _ from hnext)]

/-- Both gates keep their budgets in every window, admit whatever finds room in both, refuse for a
full budget only, and forget no call whose window is open. -/
theorem sliding_window {calls : List RateCall} (horder : Orderly sha256 calls) :
    gate.Sliding sha256 config calls := by
  have hkept : ∀ {earlier}, earlier <:+ calls → Kept sha256 config gate earlier :=
    fun hsuffix => kept_of_orderly (horder.of_suffix hsuffix)
  have hall := hkept (List.suffix_refl calls)
  exact {
    identity_le := fun identity start => hall.identity_le (narrow_before start) identity
    identity_le' := fun identity start => hall.identity_le (narrow_after start) identity
    global_le := fun start => hall.global_le (narrow_before start)
    global_le' := fun start => hall.global_le (narrow_after start)
    overflows := fun _ _ _ => answer_eq_none_iff
    admits := fun call earlier hsuffix =>
      (hkept ((List.suffix_cons _ _).trans hsuffix)).admits (horder.of_suffix hsuffix)
    refused := fun call earlier hsuffix =>
      (hkept ((List.suffix_cons _ _).trans hsuffix)).refused (horder.of_suffix hsuffix)
    consumes_nothing := fun call earlier hsuffix hanswer next hnext =>
      (hkept ((List.suffix_cons _ _).trans hsuffix)).consumes_nothing (hkept hsuffix)
        (horder.of_suffix hsuffix) hanswer hnext
    kept := fun call earlier hsuffix => (hkept hsuffix).table }

/-- The digests of what the calls below are counted by. -/
def sampleDigest : Digest := fun text =>
  if text = "203.0.113.1" then
    "a1ceb3dc7b127ea22d04f67b50908245930cfa9a3f91e1d38c0b266c44669ee7"
  else if text = "203.0.113.2" then
    "cdd7d717470134c78ea853e0b26db3e23bbe3baf492793b87f6d457c8a8eebc0"
  else "b23a6a8439c0dde5515893e7c90c1e3233b8616e634470f20dc4928bcf3609bc"

/-- One login of each client for a window of fifteen minutes. -/
def sampleConfig : RateConfig := fun key => if key = "LOGIN_IP_MAX_ATTEMPTS" then some 1 else none

/-- Two calls of one client, a minute after each other, then one of another client. -/
def sampleCalls : List RateCall :=
  [⟨"203.0.113.2", "", ⟨3660500000, by decide⟩⟩, ⟨"203.0.113.1", "", ⟨3660000000, by decide⟩⟩,
    ⟨"203.0.113.1", "", ⟨3600000000, by decide⟩⟩]

/-- The first call of each client is admitted, and the other one is refused. -/
theorem sliding_window_sampleCalls :
    Gate.login.Sliding sampleDigest sampleConfig sampleCalls ∧
      (Gate.login.admitted sampleDigest sampleConfig sampleCalls).map RateCall.identity =
        ["203.0.113.2", "203.0.113.1"] ∧
      Gate.login.answer sampleDigest sampleConfig (sampleCalls.drop 2) ⟨"203.0.113.1", "",
        ⟨3660000000, by decide⟩⟩ = some false :=
  ⟨sliding_window ⟨by decide, by decide⟩, by decide +kernel, by decide +kernel⟩

end Gate

end EarnProxy

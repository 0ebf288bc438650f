import EarnProxy.Numbers
import EarnProxy.Swap.Fence
import EarnProxy.Swap.Normalize
import EarnProxy.Swap.Tokens

/-!
# The swap runner

`ProxiwareSwapRunner._run_once_for_job_impl` from the claim of a job on, with `swap_assignment` of
the browser adapter. Any number of runners interleave with the other services; each transaction,
each read outside of one and each answer of the provider is a step of its own, an exception can be
raised at any point, also by what follows a commit, and a runner can be gone at any point.
-/

namespace EarnProxy.Swap

/-! ## The adapter -/

/-- One entry of `swaps` in the answer to a swap, each field as `str(value or "")`. -/
structure SwapEntry where
  assignmentId : String
  newAddress : String
  newAssignmentExternalId : String
  deriving DecidableEq, Repr

/-- The answer to a swap. `swaps` is `none` when it is no list, and an entry when it is no dict. -/
structure SwapReply where
  status : Int
  swaps : Option (List (Option SwapEntry))
  deriving DecidableEq, Repr

structure Evidence where
  oldAssignmentExternalId : String
  newAssignmentAddress : String
  newAssignmentExternalId : Option String
  deriving DecidableEq, Repr

/-- `assignment_id.removeprefix("ip:")`. -/
def responseAssignmentId (dashboardAssignmentId : String) : String :=
  let cs := (Text.strip dashboardAssignmentId).toList
  String.ofList (if "ip:".toList <+: cs then cs.drop 3 else cs)

/-- What `swap_assignment` asks for, after it has checked the row that it got: the number of the
assignment, and its text in the answer. -/
def Job.swapTarget (j : Job) : Option (Nat × String) :=
  let responseId := responseAssignmentId (j.mutationDashboardAssignmentId.getD "")
  if Text.strip (j.mutationDashboardAssignmentId.getD "") = "" ∨
      Text.strip (j.mutationOldAssignmentExternalId.getD "") = "" ∨ ¬ Text.isDigit responseId ∨
        Text.strip (j.mutationSubscriptionExternalId.getD "") = "" then none
  else (Text.digitsInt? responseId).map fun number => (number, responseId)

/-- The check of the subscription: exactly one of the rows that it shows is the assignment. -/
def InScope (responseId : String) (shownIds : List String) : Prop := shownIds.count responseId = 1

instance (responseId : String) (shownIds : List String) : Decidable (InScope responseId shownIds) :=
  inferInstanceAs (Decidable (_ = _))

/-- What `swap_assignment` makes of the answer, and `_validate_execution_result` lets pass. -/
def SwapReply.evidence (reply : SwapReply) (j : Job) (responseId : String) : Option Evidence :=
  if reply.status ∉ [200, 201, 202] then none
  else match reply.swaps with
    | some [some swap] =>
      match Swap.normalizeDashboardAddress Text.lowering swap.newAddress with
      | none => none
      | some newAddress =>
        if Text.strip swap.assignmentId ≠ responseId ∨ newAddress = "" then none
        else
          let explicit := Text.strip swap.newAssignmentExternalId
          some
            { oldAssignmentExternalId := Text.strip (j.mutationOldAssignmentExternalId.getD "")
              newAssignmentAddress := newAddress
              newAssignmentExternalId := if explicit = "" then none else some explicit }
    | _ => none

/-! ## A runner -/

/-- Where a runner stands. The token is the one of the row that it has read, and `started` is
`mutation_started`. -/
inductive Runner where
  | idle
  | claimed (jobId : Nat) (claimToken : Option String) (allowManual : Bool)
  | joined (jobId : Nat) (claimToken : Option String) (allowManual : Bool)
  | validated (jobId : Nat) (claimToken : Option String) (allowManual : Bool)
  | entered (jobId : Nat) (claimToken : Option String)
  | scoping (job : Job)
  | asking (job : Job) (number : Nat) (responseId : String)
  | asked (job : Job) (responseId : String)
  | answered (job : Job) (evidence : Evidence)
  /-- `mark_provider_applied` has committed, and what follows it has raised. -/
  | late (job : Job)
  | failing (jobId : Nat) (claimToken : Option String) (started : Bool)
  deriving DecidableEq, Repr

structure RunnerState where
  swap : State
  runners : List Runner
  /-- The swaps that the provider was asked for: the job, and the number of the assignment. -/
  requests : List (Nat × Nat) := []
  /-- The claim tokens that were drawn. -/
  tokens : List String := []
  deriving DecidableEq, Repr

/-- What a runner does, or another service. `raises` tells whether the statements that follow a
committed transaction raise: the heartbeat, or `enqueue_sync_run`. -/
inductive Act where
  /-- A transaction of another service, or what a sweep reads. -/
  | other (e : Event)
  | claim (k : Nat) (now : Timestamp) (claimSeconds : Int) (jobId : Option Nat) (token : String)
  | join (k : Nat) (now : Timestamp)
  | validate (k : Nat) (now : Timestamp) (raises : Bool)
  | enter (k : Nat) (now : Timestamp) (raises : Bool)
  | readFenced (k : Nat)
  /-- The subscription is shown with these assignments. -/
  | scope (k : Nat) (shownIds : List String)
  | ask (k : Nat)
  | answer (k : Nat) (reply : SwapReply)
  | apply (k : Nat) (now : Timestamp) (raises : Bool)
  /-- Anything that the runner does raises: the provider times out, a session is over. -/
  | raise (k : Nat)
  | giveUp (k : Nat) (now : Timestamp) (code : String)
  | crash (k : Nat)
  deriving DecidableEq, Repr

/-- What the other services do: only runners claim, revalidate and give up; a sweep gives up on a
row that it has read as applied, with the token of the row. -/
def State.Admits (s : State) : Call → Prop
  | .claim _ _ _ | .revalidate _ _ _ _ | .providerApplied _ _ _ _ _ | .block _ _ _
  | .fail _ _ _ _ _ => False
  | .reconciliationRequired jobId _ claimToken => ∃ r ∈ s.rows, r.id = jobId ∧
      r.state = .providerApplied ∧ claimToken = r.claimToken.filter (· ≠ "")
  | _ => True

instance (s : State) (call : Call) : Decidable (s.Admits call) := by
  rcases call with ⟨⟩ <;> unfold State.Admits <;> infer_instance

/-- A transaction of a runner. -/
def State.commit (s : State) (now : Timestamp) (call : Call) : State :=
  (s.next { call, now, profile := .worker }).getD s

/-- The row that a runner joins with its assignment and its subscription. -/
def joinedJob (db : Db) (jobId : Nat) : Option Job := do
  let job ← db.job? jobId
  let _ ← job.oldAssignmentId.bind db.assignment?
  let _ ← db.subscription? job.subscriptionId
  pure job

/-- The row behind the fence, by the token of the runner. -/
def fencedJob (db : Db) (jobId : Nat) (claimToken : Option String) : Option Job :=
  (db.job? jobId).filter fun j =>
    j.state = .mutating ∧ claimToken.isSome ∧ j.claimToken = claimToken

/-- `claim_next_swap`. -/
def State.claimJob (s : State) (now : Timestamp) (claimSeconds : Int) (jobId : Option Nat)
    (token : String) : State × Runner :=
  (s.commit now (.claim claimSeconds jobId token),
    match claimNextSwap s.db now claimSeconds jobId token with
    | .ok (_, some row) => .claimed row.id row.claimToken jobId.isSome
    | _ => .idle)

/-- The query `context`. -/
def State.joinJob (s : State) (now : Timestamp) (jobId : Nat) (claimToken : Option String)
    (allowManual : Bool) : State × Runner :=
  match joinedJob s.db jobId with
  | some job => (s, .joined job.id job.claimToken allowManual)
  | none => (s.commit now (.block jobId "manual_action_required" claimToken), .idle)

/-- `revalidate_swap_job`, and where the runner goes on when it is allowed to. A refusal is
recorded. -/
def State.revalidateJob (s : State) (now : Timestamp) (jobId : Nat) (claimToken : Option String)
    (allowManual enterMutation raises : Bool) (allowed : Runner) : State × Runner :=
  (s.commit now (.revalidate jobId allowManual claimToken enterMutation),
    match revalidateSwapJob s.db jobId now allowManual claimToken enterMutation with
    | .ok (_, decision) =>
      if decision.allowed then allowed
      else if raises then .failing jobId claimToken false else .idle
    | .error _ => .failing jobId claimToken false)

/-- The query `fenced`. -/
def State.readFencedJob (s : State) (jobId : Nat) (claimToken : Option String) : State × Runner :=
  match fencedJob s.db jobId claimToken with
  | some job => (s, .scoping job)
  | none => (s, .failing jobId claimToken true)

/-- The subscription is shown. -/
def State.scopeJob (s : State) (job : Job) (shownIds : List String) : State × Runner :=
  match job.swapTarget.filter fun target => InScope target.2 shownIds with
  | some (number, responseId) => (s, .asking job number responseId)
  | none => (s, .failing job.id job.claimToken true)

/-- The provider answers. -/
def State.answerJob (s : State) (job : Job) (responseId : String) (reply : SwapReply) :
    State × Runner :=
  match reply.evidence job responseId with
  | some evidence => (s, .answered job evidence)
  | none => (s, .failing job.id job.claimToken true)

/-- `mark_provider_applied`, and the heartbeat behind it. -/
def State.applyJob (s : State) (now : Timestamp) (job : Job) (evidence : Evidence)
    (raises : Bool) : State × Runner :=
  let call : Call := .providerApplied job.id evidence.oldAssignmentExternalId
    evidence.newAssignmentExternalId (some evidence.newAssignmentAddress) job.claimToken
  match s.db.transact { call, now, profile := .worker } with
  | .ok _ => (s.commit now call, if raises then .late job else .idle)
  | .error _ => (s, .failing job.id job.claimToken true)

/-- What an exception leads to, with the code of `safe_swap_error`. -/
def State.giveUpJob (s : State) (now : Timestamp) (jobId : Nat) (claimToken : Option String)
    (started : Bool) (code : String) : State × Runner :=
  if started then (s.commit now (.reconciliationRequired jobId code claimToken), .idle)
  else if code ∈ manualActionCodes then (s.commit now (.block jobId code claimToken), .idle)
  else (s.commit now (.fail jobId code true none claimToken), .idle)

/-- One step of a runner: the database, where the runner stands afterwards, and what the provider is
asked for. `none` when a runner that stands there does something else. -/
def Runner.next (s : State) : Runner → Act → Option ((State × Runner) × List (Nat × Nat))
  | .idle, .claim _ now claimSeconds jobId token =>
    some (s.claimJob now claimSeconds jobId token, [])
  | .claimed jobId claimToken allowManual, .join _ now =>
    some (s.joinJob now jobId claimToken allowManual, [])
  | .joined jobId claimToken allowManual, .validate _ now raises =>
    some (s.revalidateJob now jobId claimToken allowManual false raises
      (.validated jobId claimToken allowManual), [])
  | .validated jobId claimToken allowManual, .enter _ now raises =>
    some (s.revalidateJob now jobId claimToken allowManual true raises
      (.entered jobId claimToken), [])
  | .entered jobId claimToken, .readFenced _ => some (s.readFencedJob jobId claimToken, [])
  | .scoping job, .scope _ shownIds => some (s.scopeJob job shownIds, [])
  | .asking job number responseId, .ask _ =>
    some ((s, .asked job responseId), [(job.id, number)])
  | .asked job responseId, .answer _ reply => some (s.answerJob job responseId reply, [])
  | .answered job evidence, .apply _ now raises =>
    some (s.applyJob now job evidence raises, [])
  | .late job, .giveUp _ now code =>
    some (s.giveUpJob now job.id job.claimToken true code, [])
  | .failing jobId claimToken started, .giveUp _ now code =>
    some (s.giveUpJob now jobId claimToken started code, [])
  | .joined jobId claimToken _, .raise _ | .validated jobId claimToken _, .raise _ =>
    some ((s, .failing jobId claimToken false), [])
  | .entered jobId claimToken, .raise _ => some ((s, .failing jobId claimToken true), [])
  | .scoping job, .raise _ | .asking job _ _, .raise _ | .asked job _, .raise _
  | .answered job _, .raise _ => some ((s, .failing job.id job.claimToken true), [])
  | _, .crash _ => some ((s, .idle), [])
  | _, _ => none

/-- The runner that takes the step. -/
def Act.runner? : Act → Option Nat
  | .other _ => none
  | .claim k _ _ _ _ | .join k _ | .validate k _ _ | .enter k _ _ | .readFenced k | .scope k _
  | .ask k | .answer k _ | .apply k _ _ | .raise k | .giveUp k _ _ | .crash k => some k

/-- The token that a claim draws. -/
def Act.drawn? : Act → Option String
  | .claim _ _ _ _ token => some token
  | _ => none

/-- A runner takes its next step. A token is never drawn twice. -/
def RunnerState.move (s : RunnerState) (a : Act) : Option RunnerState := do
  let k ← a.runner?
  let runner ← s.runners[k]?
  if ∃ token ∈ a.drawn?, token ∈ s.tokens then none
  let ((swap, runner'), asked) ← runner.next s.swap a
  pure
    { swap, runners := s.runners.set k runner', requests := s.requests ++ asked
      tokens := s.tokens ++ a.drawn?.toList }

def RunnerState.next (s : RunnerState) : Act → Option RunnerState
  | .other e =>
    if s.swap.Admits e.call then (s.swap.next e).map fun swap => { s with swap } else none
  | a => s.move a

def RunnerStep (s : RunnerState) (a : Act) (s' : RunnerState) : Prop := s.next a = some s'

instance (s : RunnerState) (a : Act) (s' : RunnerState) : Decidable (RunnerStep s a s') :=
  inferInstanceAs (Decidable (_ = _))

/-- `count` runners, and a database in which no swap was queued yet. -/
def RunnerState.start (db : Db) (count : Nat) : RunnerState :=
  { swap := { db }, runners := List.replicate count .idle }

/-! ## What one step does -/

/-- The job that the runner has in its mutation, with the token of the claim. -/
def Runner.fence? : Runner → Option (Nat × Option String)
  | .entered jobId claimToken | .failing jobId claimToken true => some (jobId, claimToken)
  | .scoping job | .asking job _ _ | .asked job _ | .answered job _ => some (job.id, job.claimToken)
  | _ => none

/-- The row that the runner has read behind the fence. -/
def Runner.row? : Runner → Option Job
  | .scoping job | .asking job _ _ | .asked job _ | .answered job _ => some job
  | _ => none

/-- The job that the runner has still to ask for. -/
def Runner.ahead? : Runner → Option Nat
  | .entered jobId _ => some jobId
  | .scoping job | .asking job _ _ => some job.id
  | _ => none

/-- The job that the runner has recorded as applied. -/
def Runner.late? : Runner → Option Job
  | .late job => some job
  | _ => none

/-- The job that the runner has asked for. -/
def Runner.asked? : Runner → Option Nat
  | .asked job _ | .answered job _ => some job.id
  | _ => none

/-- The job goes from its run into the mutation. -/
structure Entry (db db' : Db) (i : Nat) (claimToken : Option String) : Prop where
  before : ∃ j ∈ db.jobs, j.id = i ∧ j.state = .running
  after : ∃ j ∈ db'.jobs, j.id = i ∧ j.state = .mutating ∧ j.claimToken = claimToken

theorem enterMutation_entry {db db' : Db} {job : Job} {claimToken : Option String} {now : Timestamp}
    (hids : Table.Keyed Job.id db.jobs) (hjob : job ∈ db.jobs)
    (herror : revalidationError? job now claimToken true = none)
    (h : enterMutation db job claimToken now = .ok db') : Entry db db' job.id claimToken := by
  obtain ⟨hclaim, hstate, henter⟩ := revalidationError?_eq_none herror
  unfold enterMutation at h
  obtain ⟨_, h⟩ := Transaction.ok_of_check h
  dsimp only at h
  split at h
  · cases h
  · rename_i a s _
    obtain ⟨db₁, hupdate, h⟩ := Transaction.ok_of_bind h
    obtain ⟨⟨j, hj, hid, _, htoken⟩, rfl, _⟩ := updateJobsOr_ok hupdate
    obtain rfl := hids.eq hj hjob hid
    obtain rfl := Except.ok.inj h
    refine ⟨⟨j, hj, rfl, hstate⟩, j.mutatingOn a s now, ?_, rfl, rfl, ?_⟩
    · exact Table.mem_update.mpr ⟨j, hj, if_pos ⟨rfl, hstate, htoken⟩⟩
    · -- the caller brings the token of the row
      cases claimToken with
      | none => cases (henter rfl).1
      | some token =>
        have hrow := hclaim token rfl
        rw [htoken, Option.getD_some] at hrow
        exact htoken.trans (congrArg some hrow)

theorem revalidateSwapJob_entry {db db' : Db} {i : Nat} {allowManual : Bool}
    {claimToken : Option String} {now : Timestamp} {decision : SwapDecision}
    (hids : Table.Keyed Job.id db.jobs)
    (h : revalidateSwapJob db i now allowManual claimToken true = .ok (db', decision))
    (hallowed : decision.allowed) : Entry db db' i claimToken := by
  unfold revalidateSwapJob at h
  split at h
  · cases h
  · rename_i job hjob
    obtain ⟨hmem, rfl⟩ := job?_mem hjob
    split at h
    · cases h
    · rename_i herror
      obtain ⟨verdict, _, h⟩ := Transaction.ok_of_bind h
      split at h
      · obtain ⟨db₁, henter, h⟩ := Transaction.ok_of_bind h
        obtain ⟨rfl, _⟩ := Prod.mk.inj (Except.ok.inj h)
        exact enterMutation_entry hids hmem herror henter
      · -- a refusal is no allowed decision
        unfold refuseSwap at h
        dsimp only at h
        generalize (if verdict.allowed then GuardReason.manualActionRequired
          else verdict.reason) = reason at h
        split at h <;>
        · obtain ⟨db₁, _, h⟩ := Transaction.ok_of_bind h
          obtain ⟨_, rfl⟩ := Prod.mk.inj (Except.ok.inj h)
          cases hallowed

section Commit

variable {s : State} {now : Timestamp} {call : Call}

/-- The call is a transaction of a runner. -/
def Call.OfRunner : Call → Prop
  | .claim _ _ _ | .revalidate _ _ _ _ | .providerApplied _ _ _ _ _ | .reconciliationRequired _ _ _
  | .block _ _ _ | .fail _ _ _ _ _ => True
  | _ => False

theorem Call.OfRunner.holds (h : call.OfRunner) (s : State) : s.Holds call := by
  cases call <;> simp_all [Call.OfRunner, State.Holds]

theorem Call.OfRunner.read (h : call.OfRunner) (s : State) :
    s.read { call, now, profile := .worker } = s := by
  cases call <;> simp_all [Call.OfRunner, State.read]

theorem commit_ok {db : Db} (h : call.OfRunner)
    (hok : s.db.transact { call, now, profile := .worker } = .ok db) :
    s.commit now call = { s with db } := by
  simp [State.commit, State.next, h.holds, h.read, hok]

theorem commit_error {error : SwapError} (h : call.OfRunner)
    (herror : s.db.transact { call, now, profile := .worker } = .error error) :
    s.commit now call = s := by
  simp [State.commit, State.next, h.holds, h.read, herror]

theorem commit_step (h : call.OfRunner) :
    Step s { call, now, profile := .worker } (s.commit now call) := by
  unfold Step
  cases hcall : s.db.transact { call, now, profile := .worker } with
  | ok db =>
    rw [commit_ok h hcall]
    simp [State.next, h.holds, h.read, hcall]
  | error error =>
    rw [commit_error h hcall]
    simp [State.next, h.holds, h.read, hcall]

end Commit

/-- The steps of a runner, by what they do to the fence. -/
inductive RunnerMove (s : State) (runner : Runner) (a : Act) :
    State × Runner → List (Nat × Nat) → Prop
  | outside {runner' : Runner} {call : Call} (now : Timestamp) (ofRunner : call.OfRunner)
      (outcome : call.outcome? = none) (drawn : ∀ token ∈ call.drawn?, token ∈ a.drawn?)
      (fence' : runner'.fence? = none) (late : runner'.late? = none) :
      RunnerMove s runner a (s.commit now call, runner') []
  | enters {call : Call} {i : Nat} {claimToken : Option String} (now : Timestamp)
      (ofRunner : call.OfRunner) (outcome : call.outcome? = none) (drawn : call.drawn? = none)
      (entry : Entry s.db (s.commit now call).db i claimToken) :
      RunnerMove s runner a (s.commit now call, .entered i claimToken) []
  /-- A step behind the fence that leaves the database as it is. -/
  | inside {runner' : Runner} (fence : runner'.fence? = runner.fence?)
      (row : ∀ job ∈ runner'.row?, job ∈ s.db.jobs ∨ job ∈ runner.row?)
      (ahead : ∀ i ∈ runner'.ahead?, i ∈ runner.ahead?)
      (asked : ∀ i ∈ runner'.asked?, i ∈ runner.asked?)
      (target : ∀ job number responseId, runner' = .asking job number responseId →
        job.swapTarget = some (number, responseId)) (late : runner'.late? = none) :
      RunnerMove s runner a (s, runner') []
  | asks {job : Job} {number : Nat} {responseId : String}
      (asking : runner = .asking job number responseId) :
      RunnerMove s runner a (s, .asked job responseId) [(job.id, number)]
  | resolves {runner' : Runner} {i : Nat} {claimToken : Option String} {call : Call}
      (now : Timestamp) (ofRunner : call.OfRunner) (outcome : call.outcome? = some i)
      (fence : runner.fence? = some (i, claimToken))
      (applied : ∀ j ∈ call.applied?, j ∈ runner.asked?) (drawn : call.drawn? = none)
      (fence' : runner'.fence? = none)
      (late : ∀ job ∈ runner'.late?, (job.id, job.claimToken) = (i, claimToken) ∧
        ∀ j ∈ (s.commit now call).db.jobs, j.id = i → j.state ≠ .mutating) :
      RunnerMove s runner a (s.commit now call, runner') []
  /-- The runner gives up on a job that it has recorded as applied. -/
  | givesUp {job : Job} (now : Timestamp) (errorCode : String) (late : runner = .late job) :
      RunnerMove s runner a
        (s.commit now (.reconciliationRequired job.id errorCode job.claimToken), .idle) []
  /-- The runner is done, or it is gone. -/
  | stops {runner' : Runner} (fence' : runner'.fence? = none)
      (late : runner'.late? = none) : RunnerMove s runner a (s, runner') []

theorem RunnerMove.fails {s : State} {runner : Runner} {a : Act} {i : Nat}
    {claimToken : Option String} (fence : runner.fence? = some (i, claimToken)) :
    RunnerMove s runner a (s, .failing i claimToken true) [] :=
  .inside fence.symm (by simp [Runner.row?]) (by simp [Runner.ahead?]) (by simp [Runner.asked?])
    (by simp) rfl

section Moves

variable {s : State} {a : Act} {now : Timestamp} {jobId : Nat} {claimToken : Option String}
  {allowManual raises : Bool} {job : Job}

theorem claimJob_move {k : Nat} {claimSeconds : Int} {wanted : Option Nat} {token : String} :
    RunnerMove s .idle (.claim k now claimSeconds wanted token)
      (s.claimJob now claimSeconds wanted token) [] := by
  unfold State.claimJob
  split
  · exact .outside _ trivial rfl (fun _ h => h) rfl rfl
  · exact .outside _ trivial rfl (fun _ h => h) rfl rfl

theorem joinJob_move :
    RunnerMove s (.claimed jobId claimToken allowManual) a
      (s.joinJob now jobId claimToken allowManual) [] := by
  unfold State.joinJob
  split
  · exact .stops rfl rfl
  · exact .outside _ trivial rfl (by simp [Call.drawn?]) rfl rfl

theorem validateJob_move :
    RunnerMove s (.joined jobId claimToken allowManual) a
      (s.revalidateJob now jobId claimToken allowManual false raises
        (.validated jobId claimToken allowManual)) [] := by
  unfold State.revalidateJob
  split
  · split
    · exact .outside _ trivial rfl (by simp [Call.drawn?]) rfl rfl
    · split <;> exact .outside _ trivial rfl (by simp [Call.drawn?]) rfl rfl
  · exact .outside _ trivial rfl (by simp [Call.drawn?]) rfl rfl

theorem enterJob_move (hids : Table.Keyed Job.id s.db.jobs) :
    RunnerMove s (.validated jobId claimToken allowManual) a
      (s.revalidateJob now jobId claimToken allowManual true raises
        (.entered jobId claimToken)) [] := by
  unfold State.revalidateJob
  split
  · rename_i db' decision hok
    split
    · rename_i hallowed
      have hcommit : s.commit now (.revalidate jobId allowManual claimToken true) =
          { s with db := db' } := commit_ok trivial (by simp [Db.transact, hok])
      refine .enters _ trivial rfl rfl ?_
      rw [hcommit]
      exact revalidateSwapJob_entry hids hok hallowed
    · split <;> exact .outside _ trivial rfl (by simp [Call.drawn?]) rfl rfl
  · exact .outside _ trivial rfl (by simp [Call.drawn?]) rfl rfl

theorem readFencedJob_move :
    RunnerMove s (.entered jobId claimToken) a (s.readFencedJob jobId claimToken) [] := by
  unfold State.readFencedJob
  split
  · rename_i job hjob
    obtain ⟨hrow, hfenced⟩ := Option.filter_eq_some_iff.mp hjob
    obtain ⟨hmem, hid⟩ := job?_mem hrow
    obtain ⟨_, _, htoken⟩ := of_decide_eq_true hfenced
    refine .inside ?_ ?_ ?_ (by simp [Runner.asked?]) (by simp) rfl
    · simp [Runner.fence?, hid, htoken]
    · simpa [Runner.row?] using hmem
    · simp [Runner.ahead?, hid]
  · exact .fails rfl

theorem scopeJob_move {shownIds : List String} :
    RunnerMove s (.scoping job) a (s.scopeJob job shownIds) [] := by
  unfold State.scopeJob
  split
  · rename_i number responseId htarget
    refine .inside rfl (by simp [Runner.row?]) (by simp [Runner.ahead?])
      (by simp [Runner.asked?]) ?_ rfl
    rintro _ _ _ ⟨⟩
    exact (Option.filter_eq_some_iff.mp htarget).1
  · exact .fails rfl

theorem answerJob_move {responseId : String} {reply : SwapReply} :
    RunnerMove s (.asked job responseId) a (s.answerJob job responseId reply) [] := by
  unfold State.answerJob
  split
  · exact .inside rfl (by simp [Runner.row?]) (by simp [Runner.ahead?]) (by simp [Runner.asked?])
      (by simp) rfl
  · exact .fails rfl

theorem markProviderApplied_leaves {db db' : Db} {oldExternal : String}
    {newExternal newAddress : Option String}
    (h : markProviderApplied db jobId oldExternal newExternal newAddress claimToken now = .ok db') :
    ∀ j ∈ db'.jobs, j.id = jobId → j.state ≠ .mutating := by
  obtain ⟨_, _, _, _, _, db₁, _, _, h⟩ := markProviderApplied_ok h
  obtain ⟨rfl, -⟩ := updateJobs_ok h
  intro j hj hid hstate
  obtain ⟨r, -, rfl⟩ := Table.mem_update.mp hj
  split at hstate
  · cases hstate
  · rename_i hkept
    rw [if_neg hkept] at hid
    exact hkept ⟨hid, hstate⟩

theorem applyJob_move {evidence : Evidence} :
    RunnerMove s (.answered job evidence) a (s.applyJob now job evidence raises) [] := by
  unfold State.applyJob
  dsimp only
  split
  · rename_i db hok
    refine .resolves _ trivial rfl rfl (by simp [Call.applied?, Runner.asked?]) rfl ?_ ?_
    · cases raises <;> rfl
    · intro row hlate
      cases raises with
      | false => cases hlate
      | true =>
        obtain rfl := Option.some.inj hlate
        have hcommit := commit_ok (by trivial) hok
        rw [hcommit]
        exact ⟨rfl, markProviderApplied_leaves hok⟩
  · exact .fails rfl

theorem giveUpJob_move {started : Bool} {code : String} :
    RunnerMove s (.failing jobId claimToken started) a
      (s.giveUpJob now jobId claimToken started code) [] := by
  unfold State.giveUpJob
  cases started with
  | true =>
    exact .resolves _ trivial rfl rfl (by simp [Call.applied?]) rfl rfl (by simp [Runner.late?])
  | false =>
    simp only [Bool.false_eq_true, if_false]
    split <;> exact .outside _ trivial rfl (by simp [Call.drawn?]) rfl rfl

end Moves

theorem next_move {s : State} {runner : Runner} {a : Act} {out : State × Runner}
    {asked : List (Nat × Nat)} (hids : Table.Keyed Job.id s.db.jobs)
    (h : runner.next s a = some (out, asked)) : RunnerMove s runner a out asked := by
  unfold Runner.next at h
  split at h <;> try obtain ⟨rfl, rfl⟩ := Prod.mk.inj (Option.some.inj h)
  · exact claimJob_move
  · exact joinJob_move
  · exact validateJob_move
  · exact enterJob_move hids
  · exact readFencedJob_move
  · exact scopeJob_move
  · exact .asks rfl
  · exact answerJob_move
  · exact applyJob_move
  · exact .givesUp _ _ rfl
  · exact giveUpJob_move
  · exact .stops rfl rfl
  · exact .stops rfl rfl
  · exact .fails rfl
  · exact .fails rfl
  · exact .fails rfl
  · exact .fails rfl
  · exact .fails rfl
  · exact .stops rfl rfl
  · cases h

end EarnProxy.Swap

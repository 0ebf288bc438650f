import EarnProxy.Swap.Fence
import EarnProxy.Swap.Session

/-!
# The runtime gate of auto-swap

Swap workers, the browser worker and the administrator renew the session of the provider and restore
the intent of the administrator, next to the swap services. What a process has read before it
restores is part of its state. A worker that gets past its session goes on with calls of the swap
services, which are events of their own.
-/

namespace EarnProxy.Swap

/-- Who renews the session; a swap worker remembers what it has read of the intent. -/
inductive Caller where
  | runner (manual intent : Bool)
  | browser | admin
  deriving DecidableEq, Repr

/-- Where a process stands in `_run_once_for_job_impl`, `_renew_session` or the route of the
administrator. -/
inductive Process where
  | idle
  | started (manual : Bool)
  /-- The gate is read. -/
  | gated (manual enabled : Bool)
  /-- The intent is read, and one of both is on. -/
  | entered (manual enabled intent : Bool)
  /-- There is no live session. -/
  | expired (caller : Caller) (error : String)
  | renewing (caller : Caller)
  /-- `store_provider_session` has committed. -/
  | stored (caller : Caller)
  /-- `restore_auto_swap_intent` has read the intent. -/
  | restoring (caller : Caller) (enabled : Bool)
  /-- The session is looked at again. -/
  | renewed (manual intent : Bool)
  /-- `record_session_renewal_failure` is to come. -/
  | refused (caller : Caller) (error : String)
  /-- `mark_manual_action_required` is to come. -/
  | failed (error : String)
  | passed (manual intent : Bool)
  /-- The worker's own `restore_auto_swap_intent` has read the intent. -/
  | resuming (enabled : Bool)
  /-- The cookies are being restored. -/
  | opening
  deriving DecidableEq, Repr

structure GateState where
  swap : State
  session : Option Session := none
  processes : Nat → Process := fun _ => .idle

inductive GateAction where
  /-- A transaction of the swap services, the sync, the dashboard observer or the qualifications. -/
  | swap (e : Event)
  /-- The intent is seeded with the schema. -/
  | seed
  /-- The two statements of `set_auto_swap_preference`. -/
  | preferIntent (enabled : Bool)
  | preferGate (enabled : Bool)
  /-- The browser worker finds no way on. -/
  | markManual (error : String) (now : Timestamp)
  | start (process : Nat) (manual : Bool)
  | readGate (process : Nat)
  | readIntent (process : Nat)
  | readSession (process : Nat) (profile : Profile) (wall : Timestamp)
  /-- The browser worker or the administrator. -/
  | request (process : Nat) (caller : Caller)
  | tryRenewal (process : Nat) (configured : Bool) (wall : Timestamp)
  | renewalSucceeds (process : Nat) (profile : Profile) (expiresAt : Expiry) (now : Timestamp)
  | renewalFails (process : Nat) (error : String) (now : Timestamp)
  | recordFailure (process : Nat) (cooldownSeconds : Int) (now : Timestamp)
  | fail (process : Nat) (now : Timestamp)
  | readRestored (process : Nat)
  | writeRestored (process : Nat)
  /-- The adapter raises. -/
  | adapterFails (process : Nat) (error : String)
  | crash (process : Nat)

namespace GateState

variable (s : GateState)

def settings : Settings := s.swap.db.settings

def withSettings (settings : Settings) : GateState :=
  { s with swap := { s.swap with db := { s.swap.db with settings } } }

def move (process : Nat) (place : Process) : GateState :=
  { s with processes := Function.update s.processes process place }

/-- `mark_manual_action_required`. -/
def markManual (error : String) (now : Timestamp) : GateState :=
  { s.withSettings s.settings.paused with session := some (manualSession s.session error now) }

end GateState

/-- What a process does after the intent was restored with a renewal. -/
def Caller.next : Caller → Process
  | .runner manual intent => .renewed manual intent
  | .browser | .admin => .idle

/-- What a process does after a renewal was refused. -/
def Caller.refused (error : String) : Caller → Process
  | .admin => .idle
  | caller => .refused caller error

/-- The settings that only the administrator writes stay. -/
def Call.KeepsGate (settings : Settings) : Call → Prop
  | .configure settings' =>
    settings'.autoSwap = settings.autoSwap ∧ settings'.autoSwapIntent = settings.autoSwapIntent
  | _ => True

instance (settings : Settings) (call : Call) : Decidable (call.KeepsGate settings) := by
  rcases call with ⟨⟩ <;> unfold Call.KeepsGate <;> infer_instance

/-- One action. -/
def GateState.next (s : GateState) (action : GateAction) : Option GateState :=
  match action with
  | .swap e =>
    if e.call.KeepsGate s.settings then (s.swap.next e).map fun swap => { s with swap } else none
  | .seed => some (s.withSettings s.settings.seeded)
  | .preferIntent enabled =>
    some (s.withSettings { s.settings with autoSwapIntent := some enabled })
  | .preferGate enabled => some (s.withSettings { s.settings with autoSwap := enabled })
  | .markManual error now => some (s.markManual error now)
  | .start process manual =>
    match s.processes process with
    | .idle =>
      if (s.settings.automationPaused ∧ ¬ manual) ∨ s.settings.swapWorkerPaused then some s
      else some (s.move process (.started manual))
    | _ => none
  | .readGate process =>
    match s.processes process with
    | .started manual => some (s.move process (.gated manual s.settings.autoSwap))
    | _ => none
  | .readIntent process =>
    match s.processes process with
    | .gated manual enabled =>
      let intent := s.settings.intends
      some (s.move process
        (if ¬ manual ∧ ¬ enabled ∧ ¬ intent then .idle else .entered manual enabled intent))
    | _ => none
  | .readSession process profile wall =>
    let error := configuredSession s.session profile wall
    match s.processes process with
    | .entered manual enabled intent =>
      some (s.move process
        (if ¬ manual ∧ ¬ enabled ∧ error = "" then .idle
          else if error = "" then .passed manual intent
          else .expired (.runner manual intent) error))
    | .renewed manual intent =>
      some (s.move process (if error = "" then .passed manual intent else .failed error))
    | _ => none
  | .request process caller =>
    match s.processes process, caller with
    | .idle, .browser => some (s.move process (.expired .browser "session_expired"))
    | .idle, .admin => some (s.move process (.renewing .admin))
    | _, _ => none
  | .tryRenewal process configured wall =>
    match s.processes process with
    | .expired caller _ =>
      some (s.move process
        (if ¬ configured then .failed "session_expired"
          else
            match renewalWaits s.session wall with
            | some error => .failed error
            | none => .renewing caller))
    | _ => none
  | .renewalSucceeds process profile expiresAt now =>
    match s.processes process with
    | .renewing caller =>
      some ({ s with session := some (storedSession profile expiresAt now) }.move process
        (.stored caller))
    | _ => none
  | .renewalFails process error now =>
    match s.processes process with
    | .renewing caller | .stored caller | .restoring caller _ =>
      some ((s.markManual error now).move process (caller.refused error))
    | _ => none
  | .recordFailure process cooldownSeconds now =>
    match s.processes process with
    | .refused _ error =>
      let session := (manualSession s.session error now).renewalFailed cooldownSeconds now
      some ({ s.markManual error now with session := some session }.move process (.failed error))
    | _ => none
  | .fail process now =>
    match s.processes process with
    | .failed error => some ((s.markManual error now).move process .idle)
    | _ => none
  | .readRestored process =>
    match s.processes process with
    | .stored caller => some (s.move process (.restoring caller s.settings.intends))
    | .passed manual intent =>
      some (s.move process
        (if ¬ manual ∧ intent then .resuming s.settings.intends else .opening))
    | _ => none
  | .writeRestored process =>
    match s.processes process with
    | .restoring caller enabled =>
      some ((s.withSettings { s.settings with autoSwap := enabled }).move process caller.next)
    | .resuming enabled =>
      some ((s.withSettings { s.settings with autoSwap := enabled }).move process .opening)
    | _ => none
  | .adapterFails process error =>
    match s.processes process with
    | .entered .. | .opening => some (s.move process (.failed error))
    | _ => none
  | .crash process => some (s.move process .idle)

/-- The actions of `h`, newest first, lead from `s₀` to `s`. -/
def GateRuns (s₀ : GateState) (h : List (GateAction × GateState)) (s : GateState) : Prop :=
  History.Run (fun s a s' => s.next a = some s') s₀ h s

/-! ## What the swap services write -/

section Services

variable {db db' : Db} {current : Timestamp} {claimToken : Option String} {job : Job}

theorem updateJobs_settings {p : Job → Prop} [DecidablePred p] {f : Job → Job}
    (h : db.updateJobs p f = .ok db') : db'.settings = db.settings := by
  rw [(updateJobs_ok h).1]

theorem updateJobsOr_settings {p : Job → Prop} [DecidablePred p] {f : Job → Job}
    {error : SwapError} (h : db.updateJobsOr p f error = .ok db') :
    db'.settings = db.settings := by
  rw [(updateJobsOr_ok h).2.1]

/-- A fold of steps that leave the settings alone. -/
theorem foldl_settings {α : Type} {f : Db → α → Db} (hf : ∀ db a, (f db a).settings = db.settings)
    (l : List α) : ∀ db : Db, (l.foldl f db).settings = db.settings := by
  induction l with
  | nil => exact fun _ => rfl
  | cons a l ih => exact fun db => (ih (f db a)).trans (hf db a)

theorem ensureProxiwareSwapSchema_settings (db : Db) (wall : Timestamp) :
    (ensureProxiwareSwapSchema db wall).settings = db.settings := by
  unfold ensureProxiwareSwapSchema
  split <;> rfl

theorem queueRows_settings {threshold : Int} {rows : List (Nat × Nat)}
    (h : queueRows db current threshold rows = .ok db') : db'.settings = db.settings := by
  refine Transaction.ok_of_foldlM (I := fun _ db' => db'.settings = db.settings)
    (fun row _ before after hbefore hrow => ?_) rows db db' rfl h
  obtain ⟨decision, -, hafter⟩ := Transaction.ok_of_bind hrow
  obtain rfl := Except.ok.inj hafter
  rw [← hbefore]
  unfold queueDecision
  dsimp only
  split
  · split
    · rename_i hwrite
      rw [(writeJobs_ok hwrite).1]
      rfl
    · rfl
  · rfl

theorem claimNextSwap_settings {claimSeconds : Int} {jobId : Option Nat} {token : String}
    {out : Db × Option Job} (h : claimNextSwap db current claimSeconds jobId token = .ok out) :
    out.1.settings = db.settings := by
  unfold claimNextSwap at h
  obtain ⟨released, hreleased, h⟩ := Transaction.ok_of_bind h
  split at h
  · obtain rfl := Except.ok.inj h
    exact updateJobs_settings hreleased
  · obtain ⟨claimed, hclaimed, h⟩ := Transaction.ok_of_bind h
    obtain rfl := Except.ok.inj h
    exact (updateJobs_settings hclaimed).trans (updateJobs_settings hreleased)

theorem enterMutation_settings (h : enterMutation db job claimToken current = .ok db') :
    db'.settings = db.settings := by
  unfold enterMutation at h
  replace h := (Transaction.ok_of_check h).2
  dsimp only at h
  split at h
  · cases h
  · obtain ⟨entered, hentered, h⟩ := Transaction.ok_of_bind h
    obtain rfl := Except.ok.inj h
    show entered.settings = db.settings
    exact updateJobsOr_settings hentered

theorem refuseSwap_settings {decision : SwapDecision} {allowManual : Bool}
    {out : Db × SwapDecision} (h : refuseSwap db job decision allowManual current = .ok out) :
    out.1.settings = db.settings := by
  unfold refuseSwap at h
  dsimp only at h
  generalize (if decision.allowed then GuardReason.manualActionRequired else decision.reason) =
    reason at h
  split at h
  · obtain ⟨refused, hrefused, h⟩ := Transaction.ok_of_bind h
    obtain rfl := Except.ok.inj h
    show refused.settings = db.settings
    exact updateJobs_settings hrefused
  · obtain ⟨refused, hrefused, h⟩ := Transaction.ok_of_bind h
    obtain rfl := Except.ok.inj h
    exact updateJobs_settings hrefused

theorem revalidateSwapJob_settings {jobId : Nat} {allowManual enter : Bool}
    {out : Db × SwapDecision}
    (h : revalidateSwapJob db jobId current allowManual claimToken enter = .ok out) :
    out.1.settings = db.settings := by
  unfold revalidateSwapJob at h
  split at h
  · cases h
  · split at h
    · cases h
    · obtain ⟨decision, -, h⟩ := Transaction.ok_of_bind h
      split at h
      · obtain ⟨entered, hentered, h⟩ := Transaction.ok_of_bind h
        obtain rfl := Except.ok.inj h
        split at hentered
        · exact enterMutation_settings hentered
        · rw [Except.ok.inj hentered]
      · exact refuseSwap_settings h

theorem markProviderApplied_settings {jobId : Nat} {oldExternal : String}
    {newExternal newAddress : Option String}
    (h : markProviderApplied db jobId oldExternal newExternal newAddress claimToken current =
      .ok db') : db'.settings = db.settings := by
  obtain ⟨_, _, _, _, _, _, _, hempties, h⟩ := markProviderApplied_ok h
  rw [updateJobs_settings h]
  cases hempties <;> rfl

theorem markReconciliationRequired_settings {jobId : Nat} {errorCode : String}
    (h : markReconciliationRequired db jobId errorCode claimToken current = .ok db') :
    db'.settings = db.settings.paused := by
  unfold markReconciliationRequired at h
  replace h := (Transaction.ok_of_check h).2
  dsimp only at h
  split at h
  · cases h
  replace h := (Transaction.ok_of_check h).2
  replace h := (Transaction.ok_of_check h).2
  obtain ⟨marked, hmarked, h⟩ := Transaction.ok_of_bind h
  obtain rfl := Except.ok.inj h
  show marked.settings.paused = db.settings.paused
  rw [updateJobs_settings hmarked]

theorem markSwapSuccess_settings {jobId : Nat} {oldExternal : String} {newExternal : Option String}
    {newAddress : Option (Option Endpoint)} {profile : Profile}
    (h : markSwapSuccess db jobId oldExternal newExternal newAddress claimToken current profile =
      .ok db') : db'.settings = db.settings := by
  obtain ⟨_, _, _, _, _, _, _, _, h⟩ := markSwapSuccess_ok h
  obtain ⟨_, _, _, rfl⟩ := closeSuccess_ok h
  rfl

theorem markSwapBlocked_settings {jobId : Nat} {errorCode : String}
    (h : markSwapBlocked db jobId errorCode claimToken current = .ok db') :
    db'.settings = db.settings ∨ db'.settings = db.settings.paused := by
  unfold markSwapBlocked at h
  dsimp only at h
  replace h := (Transaction.ok_of_check h).2
  obtain ⟨blocked, hblocked, h⟩ := Transaction.ok_of_bind h
  obtain rfl := Except.ok.inj h
  have hsame := updateJobsOr_settings hblocked
  split
  · exact .inr (congrArg Settings.paused hsame)
  · exact .inl hsame

theorem markSwapFailed_settings {jobId : Nat} {errorCode : String} {retryable : Bool}
    {retryLimit : Option Int} {out : Db × JobState}
    (h : markSwapFailed db jobId errorCode retryable retryLimit claimToken current = .ok out) :
    out.1.settings = db.settings ∨ out.1.settings = db.settings.paused := by
  unfold markSwapFailed at h
  dsimp only at h
  split at h
  · cases h
  replace h := (Transaction.ok_of_check h).2
  replace h := (Transaction.ok_of_check h).2
  obtain ⟨failed, hfailed, h⟩ := Transaction.ok_of_bind h
  obtain rfl := Except.ok.inj h
  have hsame := updateJobs_settings hfailed
  split
  · exact .inr (congrArg Settings.paused hsame)
  · exact .inl hsame

theorem retrySwap_settings {jobId : Nat} (h : retrySwap db jobId current = .ok db') :
    db'.settings = db.settings := by
  unfold retrySwap at h
  split at h
  · cases h
  · exact updateJobs_settings (Transaction.ok_of_check h).2

theorem requestManualSwap_settings {jobId : Nat}
    (h : requestManualSwap db jobId current = .ok db') : db'.settings = db.settings := by
  unfold requestManualSwap at h
  replace h := (Transaction.ok_of_check h).2
  dsimp only at h
  split at h
  · cases h
  · replace h := (Transaction.ok_of_check h).2
    obtain ⟨_, _, h⟩ := Transaction.ok_of_bind h
    exact updateJobs_settings (Transaction.ok_of_check h).2

theorem closeUnchanged_settings {jobId subscriptionId : Nat} {closed : Option Db}
    (h : closeUnchanged db jobId subscriptionId current = .ok closed) :
    (closed.getD db).settings = db.settings := by
  unfold closeUnchanged at h
  split at h
  · obtain ⟨updated, hupdated, h⟩ := Transaction.ok_of_bind h
    obtain rfl := Except.ok.inj h
    show updated.settings = db.settings
    exact updateJobs_settings hupdated
  · obtain rfl := Except.ok.inj h
    rfl

theorem recordReplacement_settings {jobId : Nat} {newExternal : String} {recorded : Option Db}
    (h : recordReplacement db jobId newExternal current = .ok recorded) :
    (recorded.getD db).settings = db.settings := by
  unfold recordReplacement at h
  dsimp only at h
  split at h
  · obtain ⟨updated, hupdated, rfl⟩ := Transaction.ok_of_map h
    exact updateJobs_settings hupdated
  · obtain rfl := Except.ok.inj h
    rfl

theorem syncSubscription_settings (db : Db) (profile : Profile) (now : Timestamp)
    (payload : RawSubscription × List RawProxy) :
    (syncSubscription profile now db payload).settings = db.settings := by
  unfold syncSubscription
  split
  · rfl
  · rename_i externalId _
    have hupsert : (upsertSubscription db payload.1 externalId now).1.settings = db.settings := by
      obtain ⟨subscriptions, hsubscriptions⟩ := upsertSubscription_eq db payload.1 externalId now
      rw [hsubscriptions]
    refine (foldl_settings (fun db raw => ?_) payload.2 _).trans hupsert
    unfold syncProxy
    split
    · rfl
    · split <;> rfl

theorem applyDashboardSnapshot_settings (db : Db) (subscriptionId : String)
    (snapshots : List DashboardAssignment) (current : Timestamp) (maxAgeSeconds : Int) :
    (applyDashboardSnapshot db subscriptionId snapshots current maxAgeSeconds).1.settings =
      db.settings := by
  unfold applyDashboardSnapshot
  split
  · rfl
  · rename_i requested _
    split
    · rfl
    · split
      · rename_i hwrite
        unfold writeSnapshot at hwrite
        obtain ⟨resolved, -, hwrite⟩ := Transaction.ok_of_bind hwrite
        obtain rfl := Except.ok.inj hwrite
        refine foldl_settings ?_ resolved (clearDashboard db requested current)
        exact fun _ _ => rfl
      · rfl

/-- A transaction pauses auto-swap or leaves the settings alone. -/
theorem transact_settings {e : Event} (hkeeps : ∀ settings, e.call ≠ .configure settings)
    (h : db.transact e = .ok db') :
    db'.settings = db.settings ∨ db'.settings = db.settings.paused := by
  unfold Db.transact at h
  cases hcall : e.call with
  | configure settings => exact absurd hcall (hkeeps settings)
  | bootstrap =>
    rw [hcall] at h
    exact .inl (Except.ok.inj h ▸ ensureProxiwareSwapSchema_settings db e.now)
  | queue threshold rows =>
    rw [hcall] at h
    exact .inl (queueRows_settings h)
  | claim claimSeconds jobId token =>
    rw [hcall] at h
    obtain ⟨out, hout, rfl⟩ := Transaction.ok_of_map h
    exact .inl (claimNextSwap_settings hout)
  | revalidate jobId allowManual claimToken enter =>
    rw [hcall] at h
    obtain ⟨out, hout, rfl⟩ := Transaction.ok_of_map h
    exact .inl (revalidateSwapJob_settings hout)
  | providerApplied jobId oldExternal newExternal newAddress claimToken =>
    rw [hcall] at h
    exact .inl (markProviderApplied_settings h)
  | reconciliationRequired jobId errorCode claimToken =>
    rw [hcall] at h
    exact .inr (markReconciliationRequired_settings h)
  | succeed jobId oldExternal newExternal newAddress claimToken =>
    rw [hcall] at h
    exact .inl (markSwapSuccess_settings h)
  | block jobId errorCode claimToken =>
    rw [hcall] at h
    exact markSwapBlocked_settings h
  | fail jobId errorCode retryable retryLimit claimToken =>
    rw [hcall] at h
    obtain ⟨out, hout, rfl⟩ := Transaction.ok_of_map h
    exact markSwapFailed_settings hout
  | cancel jobId =>
    rw [hcall] at h
    exact .inl (updateJobsOr_settings h)
  | retry jobId =>
    rw [hcall] at h
    exact .inl (retrySwap_settings h)
  | requestManual jobId =>
    rw [hcall] at h
    exact .inl (requestManualSwap_settings h)
  | closeUnchanged row old =>
    rw [hcall] at h
    obtain ⟨closed, hclosed, rfl⟩ := Transaction.ok_of_map h
    exact .inl (closeUnchanged_settings hclosed)
  | recordReplacement row newExternal =>
    rw [hcall] at h
    obtain ⟨recorded, hrecorded, rfl⟩ := Transaction.ok_of_map h
    exact .inl (recordReplacement_settings hrecorded)
  | syncSubscription payload =>
    rw [hcall] at h
    exact .inl (Except.ok.inj h ▸ syncSubscription_settings db e.profile e.now payload)
  | observe snapshot maxAgeSeconds =>
    rw [hcall] at h
    obtain ⟨row, -, h⟩ := Transaction.ok_of_bind h
    exact .inl (Except.ok.inj h ▸ rfl)
  | snapshot subscriptionId snapshots maxAgeSeconds =>
    rw [hcall] at h
    exact .inl (Except.ok.inj h ▸
      applyDashboardSnapshot_settings db subscriptionId snapshots e.now maxAgeSeconds)
  | syncMissing _ | qualify _ | readSwaps _ | proveUnchanged _ | inferReplacement _ =>
    rw [hcall] at h
    exact .inl (Except.ok.inj h ▸ rfl)

end Services

/-! ## The gate stays off -/

/-- A worker that resumes auto-swap of its own once its session is renewed. -/
def Caller.Resumes (intent : Bool) : Caller → Prop
  | .runner manual remembered => intent = true ∧ manual = false ∧ remembered = true
  | .browser | .admin => False

instance (intent : Bool) (caller : Caller) : Decidable (caller.Resumes intent) := by
  rcases caller with ⟨⟩ <;> unfold Caller.Resumes <;> infer_instance

/-- With the intent `intent` in the settings, the process is on its way to switch the gate on. -/
def Process.Armed (intent : Bool) : Process → Prop
  | .gated manual enabled => intent = true ∧ manual = false ∧ enabled = true
  | .entered manual enabled remembered =>
    intent = true ∧ manual = false ∧ enabled = true ∧ remembered = true
  | .stored _ => intent = true
  | .renewed manual remembered | .passed manual remembered =>
    intent = true ∧ manual = false ∧ remembered = true
  | .restoring caller enabled => enabled = true ∨ caller.Resumes intent
  | .resuming enabled => enabled = true
  | _ => False

instance (intent : Bool) (process : Process) : Decidable (process.Armed intent) := by
  rcases process with ⟨⟩ <;> unfold Process.Armed <;> infer_instance

/-- A change of the preference of the administrator. -/
def GateAction.Prefers : GateAction → Prop
  | .preferIntent _ | .preferGate _ => True
  | _ => False

instance (action : GateAction) : Decidable action.Prefers := by
  rcases action with ⟨⟩ <;> unfold GateAction.Prefers <;> infer_instance

/-- No mutation becomes uncertain while a process is on its way to switch the gate on, and no
session is renewed while the intent is on. -/
def GateSpares (s : GateState) : GateAction → Prop
  | .swap e =>
    match e.call with
    | .reconciliationRequired .. => ∀ process,
        ¬ (s.processes process).Armed (s.settings.autoSwapIntent.getD s.settings.autoSwap)
    | _ => True
  | .renewalSucceeds .. => s.settings.intends = false
  | _ => True

/-- The gate is off, and no process is on its way to switch it on. -/
structure GateState.Off (s : GateState) (intent : Bool) : Prop where
  gate : s.settings.autoSwap = false
  retained : s.settings.autoSwapIntent = some intent
  unarmed : ∀ process, ¬ (s.processes process).Armed intent

section Off

variable {s s' : GateState} {intent : Bool} {process : Nat}

theorem GateState.Off.intends (h : s.Off intent) : s.settings.intends = intent := by
  simp [Settings.intends, h.retained]

theorem GateState.Off.move (h : s.Off intent) {place : Process} (hplace : ¬ place.Armed intent) :
    (s.move process place).Off intent := by
  refine ⟨h.gate, h.retained, fun other => ?_⟩
  by_cases hother : other = process
  · subst hother
    simpa [GateState.move] using hplace
  · simpa [GateState.move, hother] using h.unarmed other

/-- Other settings under the same processes. -/
theorem GateState.Off.withSettings (h : s.Off intent) {settings : Settings}
    (hgate : settings.autoSwap = false) (hintent : settings.autoSwapIntent = some intent) :
    (s.withSettings settings).Off intent :=
  ⟨hgate, hintent, h.unarmed⟩

theorem GateState.Off.markManual (h : s.Off intent) (error : String) (now : Timestamp) :
    (s.markManual error now).Off intent := by
  refine ⟨rfl, ?_, h.unarmed⟩
  show some (s.settings.autoSwapIntent.getD s.settings.autoSwap) = some intent
  rw [h.retained, Option.getD_some]

theorem swap_off {e : Event} (h : s.Off intent) (hkeeps : e.call.KeepsGate s.settings)
    {swap : State} (hstep : s.swap.next e = some swap) :
    ({ s with swap } : GateState).Off intent := by
  have hsettings : swap.db.settings.autoSwap = false ∧
      swap.db.settings.autoSwapIntent = some intent := by
    unfold State.next at hstep
    split at hstep
    · dsimp only at hstep
      split at hstep
      · rename_i db hdb
        obtain rfl := Option.some.inj hstep
        by_cases hconfigure : ∃ settings, e.call = .configure settings
        · obtain ⟨settings, hcall⟩ := hconfigure
          unfold Db.transact at hdb
          rw [hcall] at hdb hkeeps
          obtain rfl := Except.ok.inj hdb
          exact ⟨hkeeps.1.trans h.gate, hkeeps.2.trans h.retained⟩
        · rcases transact_settings (fun settings hcall => hconfigure ⟨settings, hcall⟩) hdb with
            hsame | hpaused
          · exact ⟨(congrArg Settings.autoSwap hsame).trans h.gate,
              (congrArg Settings.autoSwapIntent hsame).trans h.retained⟩
          · refine ⟨congrArg Settings.autoSwap hpaused,
              (congrArg Settings.autoSwapIntent hpaused).trans ?_⟩
            show some (s.settings.autoSwapIntent.getD s.settings.autoSwap) = some intent
            rw [h.retained, Option.getD_some]
      · obtain rfl := Option.some.inj hstep
        have hread : (s.swap.read e).db = s.swap.db := by
          unfold State.read
          split <;> rfl
        rw [hread]
        exact ⟨h.gate, h.retained⟩
    · cases hstep
  exact ⟨hsettings.1, hsettings.2, h.unarmed⟩

theorem refused_unarmed (caller : Caller) (error : String) :
    ¬ (caller.refused error).Armed intent := by
  cases caller <;> exact id

theorem start_off {manual : Bool} (h : s.Off intent)
    (hnext : s.next (.start process manual) = some s') : s'.Off intent := by
  unfold GateState.next at hnext
  dsimp only at hnext
  split at hnext
  · split at hnext <;> obtain rfl := Option.some.inj hnext
    · exact h
    · exact h.move id
  · cases hnext

theorem readGate_off (h : s.Off intent)
    (hnext : s.next (.readGate process) = some s') : s'.Off intent := by
  unfold GateState.next at hnext
  dsimp only at hnext
  split at hnext
  · obtain rfl := Option.some.inj hnext
    refine h.move ?_
    simp [Process.Armed, h.gate]
  · cases hnext

theorem readIntent_off (h : s.Off intent)
    (hnext : s.next (.readIntent process) = some s') : s'.Off intent := by
  unfold GateState.next at hnext
  dsimp only at hnext
  split at hnext
  · rename_i manual enabled hprocess
    obtain rfl := Option.some.inj hnext
    have hunarmed := h.unarmed process
    rw [hprocess] at hunarmed
    refine h.move ?_
    split
    · exact id
    · rintro ⟨hintent, hmanual, henabled, -⟩
      exact hunarmed ⟨hintent, hmanual, henabled⟩
  · cases hnext

theorem readSession_off {profile : Profile} {wall : Timestamp} (h : s.Off intent)
    (hnext : s.next (.readSession process profile wall) = some s') : s'.Off intent := by
  unfold GateState.next at hnext
  dsimp only at hnext
  split at hnext
  · rename_i manual enabled remembered hprocess
    obtain rfl := Option.some.inj hnext
    have hunarmed := h.unarmed process
    rw [hprocess] at hunarmed
    refine h.move ?_
    split
    · exact id
    · split
      · -- a live session behind a gate that is off ends the run
        rintro ⟨hintent, hmanual, hremembered⟩
        exact hunarmed ⟨hintent, hmanual, by grind, hremembered⟩
      · exact id
  · rename_i manual remembered hprocess
    obtain rfl := Option.some.inj hnext
    have hunarmed := h.unarmed process
    rw [hprocess] at hunarmed
    refine h.move ?_
    split
    · exact hunarmed
    · exact id
  · cases hnext

theorem request_off {caller : Caller} (h : s.Off intent)
    (hnext : s.next (.request process caller) = some s') : s'.Off intent := by
  unfold GateState.next at hnext
  dsimp only at hnext
  split at hnext
  · obtain rfl := Option.some.inj hnext
    exact h.move id
  · obtain rfl := Option.some.inj hnext
    exact h.move id
  · cases hnext

theorem tryRenewal_off {configured : Bool} {wall : Timestamp} (h : s.Off intent)
    (hnext : s.next (.tryRenewal process configured wall) = some s') : s'.Off intent := by
  unfold GateState.next at hnext
  dsimp only at hnext
  split at hnext
  · obtain rfl := Option.some.inj hnext
    refine h.move ?_
    split
    · exact id
    · split <;> exact id
  · cases hnext

theorem renewalSucceeds_off {profile : Profile} {expiresAt : Expiry} {now : Timestamp}
    (h : s.Off intent) (hspares : s.settings.intends = false)
    (hnext : s.next (.renewalSucceeds process profile expiresAt now) = some s') :
    s'.Off intent := by
  unfold GateState.next at hnext
  dsimp only at hnext
  split at hnext
  · obtain rfl := Option.some.inj hnext
    have hstored : ({ s with session := some (storedSession profile expiresAt now) } :
        GateState).Off intent := ⟨h.gate, h.retained, h.unarmed⟩
    refine hstored.move fun hintent : intent = true => ?_
    have hoff : s.settings.intends = false := hspares
    rw [h.intends, hintent] at hoff
    cases hoff
  · cases hnext

theorem renewalFails_off {error : String} {now : Timestamp} (h : s.Off intent)
    (hnext : s.next (.renewalFails process error now) = some s') : s'.Off intent := by
  unfold GateState.next at hnext
  dsimp only at hnext
  split at hnext
  case h_4 => cases hnext
  all_goals
    obtain rfl := Option.some.inj hnext
    exact (h.markManual error now).move (refused_unarmed _ error)

theorem recordFailure_off {cooldownSeconds : Int} {now : Timestamp} (h : s.Off intent)
    (hnext : s.next (.recordFailure process cooldownSeconds now) = some s') : s'.Off intent := by
  unfold GateState.next at hnext
  dsimp only at hnext
  split at hnext
  · obtain rfl := Option.some.inj hnext
    rename_i caller error _
    obtain ⟨hgate, hretained, hunarmed⟩ := h.markManual error now
    have hmarked : GateState.Off { s.markManual error now with
        session := some ((manualSession s.session error now).renewalFailed cooldownSeconds now) }
        intent := ⟨hgate, hretained, hunarmed⟩
    exact hmarked.move id
  · cases hnext

theorem fail_off {now : Timestamp} (h : s.Off intent)
    (hnext : s.next (.fail process now) = some s') : s'.Off intent := by
  unfold GateState.next at hnext
  dsimp only at hnext
  split at hnext
  · obtain rfl := Option.some.inj hnext
    exact (h.markManual _ now).move id
  · cases hnext

theorem readRestored_off (h : s.Off intent)
    (hnext : s.next (.readRestored process) = some s') : s'.Off intent := by
  unfold GateState.next at hnext
  dsimp only at hnext
  split at hnext
  · rename_i caller hprocess
    obtain rfl := Option.some.inj hnext
    have hunarmed := h.unarmed process
    rw [hprocess] at hunarmed
    refine h.move ?_
    rw [h.intends]
    rintro (hintent | hresumes)
    · exact hunarmed hintent
    · cases caller with
      | runner manual remembered => exact hunarmed hresumes.1
      | browser | admin => exact hresumes
  · rename_i manual remembered hprocess
    obtain rfl := Option.some.inj hnext
    have hunarmed := h.unarmed process
    rw [hprocess] at hunarmed
    refine h.move ?_
    split
    · rename_i hresumes
      rw [h.intends]
      rintro hintent
      exact hunarmed ⟨hintent, by grind⟩
    · exact id
  · cases hnext

theorem writeRestored_off (h : s.Off intent)
    (hnext : s.next (.writeRestored process) = some s') : s'.Off intent := by
  unfold GateState.next at hnext
  dsimp only at hnext
  split at hnext
  · rename_i caller enabled hprocess
    obtain rfl := Option.some.inj hnext
    have hunarmed := h.unarmed process
    rw [hprocess] at hunarmed
    obtain ⟨henabled, hresumes⟩ := not_or.mp hunarmed
    obtain rfl : enabled = false := Bool.eq_false_iff.mpr henabled
    have hwritten : (s.withSettings { s.settings with autoSwap := false }).Off intent :=
      h.withSettings rfl h.retained
    refine hwritten.move ?_
    cases caller with
    | runner manual remembered => exact hresumes
    | browser | admin => exact id
  · rename_i enabled hprocess
    obtain rfl := Option.some.inj hnext
    have hunarmed := h.unarmed process
    rw [hprocess] at hunarmed
    obtain rfl : enabled = false := Bool.eq_false_iff.mpr hunarmed
    have hwritten : (s.withSettings { s.settings with autoSwap := false }).Off intent :=
      h.withSettings rfl h.retained
    exact hwritten.move id
  · cases hnext

theorem adapterFails_off {error : String} (h : s.Off intent)
    (hnext : s.next (.adapterFails process error) = some s') : s'.Off intent := by
  unfold GateState.next at hnext
  dsimp only at hnext
  split at hnext
  case h_3 => cases hnext
  all_goals
    obtain rfl := Option.some.inj hnext
    exact h.move id

/-- One action keeps the gate off, unless it changes the preference or renews the session while the
intent is on. -/
theorem next_off {action : GateAction} (h : s.Off intent) (hprefers : ¬ action.Prefers)
    (hspares : GateSpares s action) (hnext : s.next action = some s') : s'.Off intent := by
  cases action with
  | preferIntent | preferGate => exact absurd trivial hprefers
  | swap e =>
    unfold GateState.next at hnext
    dsimp only at hnext
    split at hnext
    · obtain ⟨swap, hstep, rfl⟩ := Option.map_eq_some_iff.mp hnext
      exact swap_off h ‹_› hstep
    · cases hnext
  | seed =>
    obtain rfl := Option.some.inj hnext
    refine h.withSettings h.gate ?_
    show some (s.settings.autoSwapIntent.getD s.settings.autoSwap) = some intent
    rw [h.retained, Option.getD_some]
  | markManual error now =>
    obtain rfl := Option.some.inj hnext
    exact h.markManual error now
  | start => exact start_off h hnext
  | readGate => exact readGate_off h hnext
  | readIntent => exact readIntent_off h hnext
  | readSession => exact readSession_off h hnext
  | request => exact request_off h hnext
  | tryRenewal => exact tryRenewal_off h hnext
  | renewalSucceeds => exact renewalSucceeds_off h hspares hnext
  | renewalFails => exact renewalFails_off h hnext
  | recordFailure => exact recordFailure_off h hnext
  | fail => exact fail_off h hnext
  | readRestored => exact readRestored_off h hnext
  | writeRestored => exact writeRestored_off h hnext
  | adapterFails => exact adapterFails_off h hnext
  | crash process =>
    obtain rfl := Option.some.inj hnext
    exact h.move id

/-- The gate is off once a mutation has become uncertain. -/
theorem reconciliationRequired_off {e : Event} {jobId : Nat} {errorCode : String}
    {claimToken : Option String} {db : Db}
    (hcall : e.call = .reconciliationRequired jobId errorCode claimToken)
    (happlies : s.swap.db.transact e = .ok db) (hspares : GateSpares s (.swap e))
    (hnext : s.next (.swap e) = some s') :
    s'.Off (s.settings.autoSwapIntent.getD s.settings.autoSwap) := by
  unfold GateState.next at hnext
  dsimp only at hnext
  split at hnext
  · obtain ⟨swap, hstep, rfl⟩ := Option.map_eq_some_iff.mp hnext
    unfold State.next at hstep
    split at hstep
    · rw [happlies] at hstep
      obtain rfl := Option.some.inj hstep
      unfold Db.transact at happlies
      simp only [GateSpares, hcall] at happlies hspares
      have hpaused : db.settings = s.swap.db.settings.paused :=
        markReconciliationRequired_settings happlies
      exact ⟨congrArg Settings.autoSwap hpaused, congrArg Settings.autoSwapIntent hpaused, hspares⟩
    · cases hstep
  · cases hnext

end Off

/-- A mutation becomes uncertain while no process is on its way to switch auto-swap on. Then
auto-swap stays off, until the administrator changes the preference or a session is renewed while
the intent is on. -/
theorem uncertain_mutation_gated {s s₁ s' : GateState} {e : Event} {jobId : Nat}
    {errorCode : String} {claimToken : Option String} {db : Db}
    {h : List (GateAction × GateState)}
    (hcall : e.call = .reconciliationRequired jobId errorCode claimToken)
    (happlies : s.swap.db.transact e = .ok db) (hspares : GateSpares s (.swap e))
    (hnext : s.next (.swap e) = some s₁) (run : GateRuns s₁ h s')
    (hafter : History.Throughout (fun s a => ¬ a.Prefers ∧ GateSpares s a) s₁ h) :
    s'.settings.autoSwap = false := by
  have hoff := reconciliationRequired_off hcall happlies hspares hnext
  have hstays : s'.Off (s.settings.autoSwapIntent.getD s.settings.autoSwap) := by
    refine (run.throughout hafter).always
      (P := fun t => t.Off (s.settings.autoSwapIntent.getD s.settings.autoSwap)) hoff ?_
    intro t action t' ht ⟨hstep, hprefers, hspared⟩
    exact next_off ht hprefers hspared hstep
  exact hstays.gate

namespace Scenario

/-- The provider does not answer in time. -/
def uncertain : Event := second 16 (.reconciliationRequired 1 "provider_timeout" (some "token"))

/-- A session that runs until the twentieth second. -/
def liveSession : Session := storedSession .worker (.moment (seconds 20)) 0

/-- A swap in its mutation. -/
def mutating : GateState := { swap := { db := swapStarted.db }, session := some liveSession }

def uncertainState : GateState := (mutating.next (.swap uncertain)).getD mutating

/-- A worker comes to its session. -/
def workerRun (wall : Int) : List GateAction :=
  [.start 0 false, .readGate 0, .readIntent 0, .readSession 0 .worker (seconds wall)]

/-- The session is over, and the worker renews it. -/
def workerRenews : List GateAction :=
  workerRun 30 ++ [.tryRenewal 0 true (seconds 30),
    .renewalSucceeds 0 .worker (.moment (seconds 90)) (seconds 31), .readRestored 0,
    .writeRestored 0]

def gateHistory (actions : List GateAction) : List (GateAction × GateState) :=
  History.replay (fun s a => (s.next a).getD s) uncertainState actions

def gateAfter (actions : List GateAction) : GateState :=
  History.current uncertainState (gateHistory actions)

theorem mutating_uncertain : mutating.next (.swap uncertain) = some uncertainState := by
  have hsome : (mutating.next (.swap uncertain)).isSome := by decide +kernel
  obtain ⟨s, hs⟩ := Option.isSome_iff_exists.mp hsome
  rw [uncertainState, hs, Option.getD_some]

end Scenario

open EarnProxy.Swap.Scenario in
/-- A worker that finds the session live leaves the gate alone. -/
theorem uncertain_mutation_gated_liveSession :
    (gateAfter (workerRun 17)).settings.autoSwap = false ∧
      (gateAfter (workerRun 17)).settings.autoSwapIntent = some true := by
  have run : GateRuns uncertainState (gateHistory (workerRun 17)) (gateAfter (workerRun 17)) :=
    History.run_replay_accepted (by decide +kernel)
  have hafter : History.Throughout (fun s a => ¬ a.Prefers ∧ GateSpares s a) uncertainState
      (gateHistory (workerRun 17)) :=
    ⟨⟨id, trivial⟩, ⟨id, trivial⟩, ⟨id, trivial⟩, ⟨id, trivial⟩, trivial⟩
  have happlies : ∃ db, mutating.swap.db.transact uncertain = .ok db := ⟨_, rfl⟩
  obtain ⟨db, hdb⟩ := happlies
  exact ⟨uncertain_mutation_gated rfl hdb (fun _ => id) mutating_uncertain run hafter,
    by decide +kernel⟩

open EarnProxy.Swap.Scenario in
/-- A worker that renews the session switches the gate on, while the outcome of the mutation is
still unknown. -/
theorem uncertain_mutation_ungated :
    ∃ s₁ h s, mutating.next (.swap uncertain) = some s₁ ∧ GateRuns s₁ h s ∧
      (∀ x ∈ h, ¬ x.1.Prefers) ∧ s.settings.autoSwap = true ∧
      ∃ j ∈ s.swap.db.jobs, j.id = 1 ∧ j.state = .reconciliationRequired := by
  have run : GateRuns uncertainState (gateHistory workerRenews) (gateAfter workerRenews) :=
    History.run_replay_accepted (by decide +kernel)
  exact ⟨_, _, _, mutating_uncertain, run, by decide +kernel, by decide +kernel, by decide +kernel⟩

end EarnProxy.Swap

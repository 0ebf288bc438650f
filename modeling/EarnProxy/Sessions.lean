import Mathlib.Logic.Function.Basic
import EarnProxy.AdminRequests

/-!
# The sessions of `app/auth.py`

The cookie is signed and the server keeps no copy of it: it carries the user and the
`session_version` that `login` has read, and `load_logged_in_user` compares both with the row before
every request. A request reads and writes in transactions of its own, so a logout, a block and a
pause can be on their way while others commit. `Moves` says once what a step does to one user.
-/

namespace EarnProxy.Auth

open History

structure Session where
  userId : Option Nat := none
  sessionVersion : Nat := 0
  deriving DecidableEq, Repr

structure FormError where
  message : String
  status : Nat
  field : String
  deriving DecidableEq, Repr

/-- `load_logged_in_user`: `g.user`, and the session that the answer sets. -/
def loadLoggedInUser (db : Db) (session : Session) : Option User × Session :=
  match session.userId with
  | none => (none, session)
  | some userId =>
    match db.user? userId with
    | none => (none, {})
    | some user =>
      if user.status ≠ .active ∨ session.sessionVersion ≠ user.sessionVersion then (none, {})
      else (some user, session)

/-- `login` from its `SELECT` by the e-mail address on. -/
def login (email : String) (user : Option User) (passwordValid : Bool) :
    Except FormError Session :=
  match user with
  | some user =>
    if ¬ passwordValid then invalid
    else if user.status ≠ .active then
      .error ⟨"Account is awaiting approval or blocked", 403, "email"⟩
    else .ok { userId := some user.id, sessionVersion := user.sessionVersion }
  | none => invalid
where
  invalid : Except FormError Session :=
    .error ⟨"Invalid email or password", 401,
      if '@' ∈ email.toList then "password" else "email"⟩

/-- What a request asks for. -/
inductive Visit where
  | logout
  | admin (q : AdminRequest) (userId : Nat)
  deriving DecidableEq, Repr

/-- Where a request stands: `logout` and `update` before their `UPDATE`, `select` before the
`SELECT` of the user that an administrator has named. -/
inductive Phase where
  | logout (userId : Nat)
  | select (q : AdminRequest) (userId : Nat)
  | update (q : AdminRequest) (userId : Nat) (row : User)
  deriving DecidableEq, Repr

/-- The view after `load_logged_in_user`; `admin_required` answers 403. -/
def Visit.start (visit : Visit) (user : Option User) : Option Phase :=
  match visit, user with
  | .logout, some user => some (.logout user.id)
  | .admin q userId, some user => if user.role = .admin then some (.select q userId) else none
  | _, none => none

def logoutUpdate (db : Db) (userId : Nat) : Db :=
  db.updateUser userId fun u => { u with sessionVersion := u.sessionVersion + 1 }

/-- The next transaction of a request, and where it stands after it. -/
def Phase.proceed (phase : Phase) (db : Db) : Db × Option Phase :=
  match phase with
  | .logout userId => (logoutUpdate db userId, none)
  | .select q userId => (db, (managedUser? db userId).map (.update q userId))
  | .update q userId row => ((q.request userId).write (some row) db, none)

structure Site where
  db : Db
  requests : Nat → Option Phase := fun _ => none

inductive SiteEvent where
  /-- A request comes with a session and is let in or turned away. -/
  | arrive (k : Nat) (session : Session) (visit : Visit)
  | proceed (k : Nat)
  /-- An exception, or the end of the process. -/
  | abandon (k : Nat)
  | createUser (status : UserStatus) (role : Role)
  deriving DecidableEq, Repr

def Site.next (s : Site) : SiteEvent → Option Site
  | .arrive k session visit =>
    if (s.requests k).isSome then none
    else some { s with
      requests := Function.update s.requests k (visit.start (loadLoggedInUser s.db session).1) }
  | .proceed k => (s.requests k).map fun phase =>
    { db := (phase.proceed s.db).1
      requests := Function.update s.requests k (phase.proceed s.db).2 }
  | .abandon k => some { s with requests := Function.update s.requests k none }
  | .createUser status role => some { s with db := EarnProxy.createUser s.db status role }

/-- The transaction ends every session that the user has: a logout, a delete, and every request that
writes the status `blocked`, which a pause or a resume writes back when it has read it. -/
def Phase.Revokes (userId : Nat) : Phase → Prop
  | .logout i => i = userId
  | .select _ _ => False
  | .update q i row =>
    i = userId ∧ (q = .deleteUser ∨ q.status?.getD row.status = .blocked)

instance (userId : Nat) : DecidablePred (Phase.Revokes userId)
  | .logout _ => inferInstanceAs (Decidable (_ = _))
  | .select _ _ => inferInstanceAs (Decidable False)
  | .update _ _ _ => inferInstanceAs (Decidable (_ ∧ _))

/-- The event commits a revocation. -/
def Site.Revokes (userId : Nat) (s : Site) : SiteEvent → Prop
  | .proceed k => ∃ phase ∈ s.requests k, phase.Revokes userId
  | _ => False

instance (userId : Nat) (s : Site) (e : SiteEvent) : Decidable (s.Revokes userId e) := by
  cases e <;> unfold Site.Revokes <;> infer_instance

/-! ## What one step does to a user -/

/-- The row keeps its id and its role, and its version counts the revocations. -/
def Moved (revocations : Nat) (u u' : User) : Prop :=
  u'.id = u.id ∧ u'.role = u.role ∧ u'.sessionVersion = u.sessionVersion + revocations

theorem Moved.refl (u : User) : Moved 0 u u := ⟨rfl, rfl, rfl⟩

theorem Moved.trans {m n : Nat} {u u' u'' : User} (h : Moved m u u') (h' : Moved n u' u'') :
    Moved (n + m) u u'' := by
  obtain ⟨hid, hrole, hversion⟩ := h
  obtain ⟨hid', hrole', hversion'⟩ := h'
  exact ⟨hid'.trans hid, hrole'.trans hrole, by omega⟩

theorem update_moved (q : AdminRequest) (row u : User) :
    Moved (if q = .deleteUser ∨ q.status?.getD row.status = .blocked then 1 else 0) u
      (q.update row u) := by
  refine ⟨q.update_id row u, q.update_role row u, ?_⟩
  by_cases hblocked : row.status = .blocked <;> cases q <;>
    simp [AdminRequest.update, User.changed, AdminRequest.status?, hblocked]

theorem user?_updateUser_moved {db : Db} {i userId n : Nat} {f : User → User} {u : User}
    (hf : ∀ v, Moved n v (f v)) (hu : db.user? userId = some u) :
    ∃ u', (db.updateUser i f).user? userId = some u' ∧
      Moved (if i = userId then n else 0) u u' := by
  have hid : u.id = userId := Table.key_of_lookup hu
  rw [Db.user?_updateUser fun v => (hf v).1, hu]
  by_cases hi : i = userId
  · subst hi
    exact ⟨f u, by simp [hid], by simpa using hf u⟩
  · exact ⟨u, by simp [hid, Ne.symm hi], by simpa [hi] using Moved.refl u⟩

theorem proceed_moved {db : Db} {userId : Nat} {u : User} (phase : Phase)
    (hu : db.user? userId = some u) :
    ∃ u', (phase.proceed db).1.user? userId = some u' ∧
      Moved (if phase.Revokes userId then 1 else 0) u u' := by
  cases phase with
  | logout i => exact user?_updateUser_moved (fun v => ⟨rfl, rfl, rfl⟩) hu
  | select q i => exact ⟨u, hu, Moved.refl u⟩
  | update q i row =>
    obtain ⟨u', hu', hmoved⟩ := user?_updateUser_moved (i := i) (update_moved q row) hu
    refine ⟨u', hu', ?_⟩
    by_cases hi : i = userId
    · simpa [Phase.Revokes, hi] using hmoved
    · simpa [Phase.Revokes, hi] using hmoved

theorem user?_createUser {db : Db} {status : UserStatus} {role : Role} {userId : Nat} {u : User}
    (hu : db.user? userId = some u) :
    (EarnProxy.createUser db status role).user? userId = some u := by
  have hu' : Table.lookup User.id userId db.users = some u := hu
  simp [EarnProxy.createUser, Db.user?, Table.lookup_append_singleton, hu']

/-- A step leaves the user's row with its id and its role; its version rises by one when the step
revokes the user's sessions, and stays when it does not. -/
theorem next_moved {s s' : Site} {e : SiteEvent} {userId : Nat} {u : User}
    (hstep : s.next e = some s') (hu : s.db.user? userId = some u) :
    ∃ u', s'.db.user? userId = some u' ∧ Moved (if s.Revokes userId e then 1 else 0) u u' := by
  cases e with
  | arrive k session visit =>
    obtain ⟨-, rfl⟩ : _ ∧ _ = s' := by simpa [Site.next] using hstep
    exact ⟨u, hu, Moved.refl u⟩
  | proceed k =>
    obtain ⟨phase, hphase, rfl⟩ := Option.map_eq_some_iff.mp hstep
    have hrevokes : s.Revokes userId (.proceed k) ↔ phase.Revokes userId := by
      simp [Site.Revokes, hphase]
    simpa only [hrevokes] using proceed_moved phase hu
  | abandon k =>
    obtain rfl := Option.some.inj hstep
    exact ⟨u, hu, Moved.refl u⟩
  | createUser status role =>
    obtain rfl := Option.some.inj hstep
    exact ⟨u, user?_createUser hu, Moved.refl u⟩

/-! ## Whole runs -/

abbrev SiteRun : Site → List (SiteEvent × Site) → Site → Prop :=
  Run fun s e s' => s.next e = some s'

/-- Over a run the version of a user counts the revocations. -/
theorem run_moved {s₀ s : Site} {h : List (SiteEvent × Site)} {userId : Nat} {u : User}
    (run : SiteRun s₀ h s) (hu : s₀.db.user? userId = some u) :
    ∃ u', s.db.user? userId = some u' ∧
      Moved (occurrences (Site.Revokes userId) s₀ h) u u' := by
  induction run with
  | nil => exact ⟨u, hu, Moved.refl u⟩
  | snoc run hstep ih =>
    obtain ⟨v, hv, hmoved⟩ := ih
    obtain ⟨w, hw, hstepMoved⟩ := next_moved hstep hv
    refine ⟨w, hw, ?_⟩
    rw [run.occurrences_snoc (C := Site.Revokes userId)]
    exact hmoved.trans hstepMoved

theorem login_ok {email : String} {user : Option User} {passwordValid : Bool} {session : Session}
    (h : login email user passwordValid = .ok session) :
    ∃ u, user = some u ∧ u.status = .active ∧
      session = { userId := some u.id, sessionVersion := u.sessionVersion } := by
  cases user with
  | none => cases h
  | some u =>
    simp only [login] at h
    split at h
    · cases h
    · split at h
      · cases h
      · exact ⟨u, rfl, by simp_all, (Except.ok.inj h).symm⟩

theorem loadLoggedInUser_eq_some {db : Db} {userId version : Nat} {u : User} :
    (loadLoggedInUser db { userId := some userId, sessionVersion := version }).1 = some u ↔
      db.user? userId = some u ∧ u.status = .active ∧ u.sessionVersion = version := by
  cases hu : db.user? userId with
  | none => simp [loadLoggedInUser, hu]
  | some v =>
    by_cases hv : v.status = .active ∧ v.sessionVersion = version
    · grind [loadLoggedInUser]
    · grind [loadLoggedInUser]

/-- Exactly when a session is good: from the moment `login` has read the user, whatever requests are
on their way then and come later, a session admits its user as long as the user is active and no
logout, block or delete of the user has committed since. A session that such a transaction has ended
never comes back, not even when the user is approved again, and the user that it stands for keeps
the role that `login` has read. -/
theorem session_admits_iff {s₀ s : Site} {h : List (SiteEvent × Site)} {email : String}
    {userId : Nat} {passwordValid : Bool} {session : Session} (run : SiteRun s₀ h s)
    (hlogin : login email (s₀.db.user? userId) passwordValid = .ok session) (u : User) :
    (loadLoggedInUser s.db session).1 = some u ↔
      s.db.user? userId = some u ∧ u.status = .active ∧
        some u.role = (s₀.db.user? userId).map User.role ∧
          ¬ Sometime (Site.Revokes userId) s₀ h := by
  obtain ⟨v, hv, -, rfl⟩ := login_ok hlogin
  obtain ⟨w, hw, hid, hrole, hversion⟩ := run_moved run hv
  have hkey : v.id = userId := Table.key_of_lookup hv
  rw [hkey, loadLoggedInUser_eq_some, ← occurrences_eq_zero]
  simp only [hv, hw, Option.map_some, Option.some.injEq]
  constructor
  · rintro ⟨rfl, hactive, hsame⟩
    exact ⟨rfl, hactive, hrole, by omega⟩
  · rintro ⟨rfl, hactive, -, hnone⟩
    exact ⟨rfl, hactive, by omega⟩

/-- A user and an administrator, both active. -/
def oneAdmin : Site :=
  let user : User := { id := 1, status := .active }
  { db := { users := [user, { id := 2, role := .admin, status := .active }] } }

/-- A pause reads the user, a block of the user commits, and the pause writes back what it read. -/
def pauseOverBlock : List (SiteEvent × Site) :=
  let adminSession : Session := { userId := some 2, sessionVersion := 1 }
  replay (fun s e => (s.next e).getD s) oneAdmin
    [.arrive 0 adminSession (.admin .pauseEarn 1), .arrive 1 adminSession (.admin .blockUser 1),
      .proceed 0, .proceed 1, .proceed 1, .proceed 0]

/-- The user is active again, and the session from before the block is still refused. -/
theorem session_admits_iff_pauseOverBlock :
    (current oneAdmin pauseOverBlock).db.user? 1 =
        some { id := 1, status := .active, earnPaused := true, sessionVersion := 2 } ∧
      ∀ u, (loadLoggedInUser (current oneAdmin pauseOverBlock).db
        { userId := some 1, sessionVersion := 1 }).1 ≠ some u := by
  have hlogin : login "user@example.test" (oneAdmin.db.user? 1) true =
      .ok { userId := some 1, sessionVersion := 1 } := rfl
  refine ⟨by decide, fun u hu => ?_⟩
  have hadmits := (session_admits_iff (run_replay_accepted (by decide)) hlogin u).mp hu
  exact hadmits.2.2.2 (by decide)

end EarnProxy.Auth

import EarnProxy.Library.Overlap
import EarnProxy.Users

/-!
# Overlapping user requests of `app/routes/admin.py`

The requests on a user are one `SELECT` and one committed `UPDATE`, with no lock between the two.
`_change_user` writes both `status` and `earn_paused`, the one it was not asked to change from its
`SELECT`; two overlapping requests therefore keep both changes exactly when what the later one
writes back is still what the row holds.
-/

namespace EarnProxy

open History Overlap

inductive AdminRequest where
  | approveUser | pauseEarn | resumeEarn | blockUser | deleteUser
  deriving DecidableEq, Repr

namespace AdminRequest

/-- The request as a single call. -/
def handle (q : AdminRequest) (db : Db) (userId : Nat) : Tx Db :=
  match q with
  | .approveUser => EarnProxy.approveUser db userId
  | .pauseEarn => EarnProxy.pauseEarn db userId
  | .resumeEarn => EarnProxy.resumeEarn db userId
  | .blockUser => EarnProxy.blockUser db userId
  | .deleteUser => EarnProxy.deleteUser db userId

/-- The status that the request sets, whatever it has read. -/
def status? : AdminRequest → Option UserStatus
  | .approveUser => some .active
  | .blockUser => some .blocked
  | .deleteUser => some .deleted
  | .pauseEarn | .resumeEarn => none

/-- The flag that the request sets, whatever it has read. -/
def earnPaused? : AdminRequest → Option Bool
  | .pauseEarn | .deleteUser => some true
  | .resumeEarn => some false
  | .approveUser | .blockUser => none

/-- The `UPDATE`, from the row that the `SELECT` returned. -/
def update (q : AdminRequest) (read u : User) : User :=
  match q with
  | .deleteUser =>
    { u with status := .deleted, sessionVersion := u.sessionVersion + 1, earnPaused := true }
  | _ => read.changed q.status? q.earnPaused? u

/-- The two transactions; a request that finds no user answers 404. -/
def request (q : AdminRequest) (userId : Nat) : Request Db (Option User) where
  read db := managedUser? db userId
  write read db :=
    match read with
    | none => db
    | some row => db.updateUser userId (q.update row)

/-- The columns that the request writes back hold what it has read. -/
def UpToDate (q : AdminRequest) (userId : Nat) (read : Option User) (db : Db) : Prop :=
  ∀ row ∈ read, ∀ u ∈ db.user? userId,
    (q.status? = none → u.status = row.status) ∧
      (q.earnPaused? = none → u.earnPaused = row.earnPaused)

instance (q : AdminRequest) (userId : Nat) (read : Option User) (db : Db) :
    Decidable (q.UpToDate userId read db) :=
  inferInstanceAs (Decidable (∀ row ∈ read, _))

@[simp] theorem update_id (q : AdminRequest) (read u : User) : (q.update read u).id = u.id := by
  cases q <;> rfl

@[simp] theorem update_role (q : AdminRequest) (read u : User) :
    (q.update read u).role = u.role := by
  cases q <;> rfl

/-- The later of two updates from one snapshot keeps the earlier one if and only if the columns
that it writes back have not been changed. -/
theorem update_serial_iff (q q' : AdminRequest) (row : User) :
    ((q'.status? = none → (q.update row row).status = row.status) ∧
      (q'.earnPaused? = none → (q.update row row).earnPaused = row.earnPaused)) ↔
    q'.update row (q.update row row) = q'.update (q.update row row) (q.update row row) ∨
      q'.update row (q.update row row) = q.update (q'.update row row) (q'.update row row) := by
  obtain ⟨id, role, status, earnPaused, sessionVersion⟩ := row
  cases q <;> cases q' <;> cases status <;> cases earnPaused <;>
    simp [update, status?, earnPaused?, User.changed]

variable {db : Db} {userId : Nat}

/-- The row that a request leaves. -/
theorem user?_write (q : AdminRequest) {read u : User} (hu : db.user? userId = some u) :
    ((q.request userId).write (some read) db).user? userId = some (q.update read u) := by
  have hid : u.id = userId := Table.key_of_lookup hu
  simp [request, Db.user?_updateUser, hu, hid]

theorem managedUser?_write (q : AdminRequest) {read u : User}
    (hu : managedUser? db userId = some u) :
    managedUser? ((q.request userId).write (some read) db) userId = some (q.update read u) := by
  obtain ⟨huser, hrole⟩ := Option.filter_eq_some_iff.mp hu
  exact Option.filter_eq_some_iff.mpr ⟨q.user?_write huser, by simpa using hrole⟩

theorem user?_of_managedUser? {u : User} (hu : managedUser? db userId = some u) :
    db.user? userId = some u :=
  (Option.filter_eq_some_iff.mp hu).1

theorem managedUser?_run (q : AdminRequest) {u : User} (hu : managedUser? db userId = some u) :
    managedUser? ((q.request userId).run db) userId = some (q.update u u) := by
  have hread : (q.request userId).read db = some u := hu
  rw [Request.run, hread]
  exact q.managedUser?_write hu

/-- A request that finds no user changes nothing. -/
theorem run_of_none (q : AdminRequest) (hu : managedUser? db userId = none) :
    (q.request userId).run db = db := by
  simp [Request.run, request, hu]

/-- After one request has run, a second one that has read the user before it leaves a serial row
if and only if what it writes back is up to date. -/
theorem late_write_iff (q : Side → AdminRequest) (side : Side) :
    (q side.other).UpToDate userId (((q side.other).request userId).read db)
        (((q side).request userId).run db) ↔
      Serial (fun side => (q side).request userId) (fun db => db.user? userId) db
        (((q side.other).request userId).write (((q side.other).request userId).read db)
          (((q side).request userId).run db)) := by
  have hread : ((q side.other).request userId).read db = managedUser? db userId := rfl
  rw [hread]
  cases hu : managedUser? db userId with
  | none =>
    refine iff_of_true (by simp [UpToDate]) ⟨side, ?_⟩
    rw [run_of_none _ hu, run_of_none _ hu]
    rfl
  | some u =>
    have hrun (q : AdminRequest) := managedUser?_run q hu
    have hboth (q q' : AdminRequest) :=
      user?_of_managedUser? (managedUser?_run q' (managedUser?_run q hu))
    have hlate : (((q side.other).request userId).write (some u)
        (((q side).request userId).run db)).user? userId =
          some ((q side.other).update u ((q side).update u u)) :=
      user?_write _ (user?_of_managedUser? (hrun (q side)))
    have huptodate : (q side.other).UpToDate userId (some u) (((q side).request userId).run db) ↔
        ((q side.other).status? = none → ((q side).update u u).status = u.status) ∧
          ((q side.other).earnPaused? = none →
            ((q side).update u u).earnPaused = u.earnPaused) := by
      simp [UpToDate, user?_of_managedUser? (hrun (q side))]
    rw [huptodate, update_serial_iff, Serial]
    simp only [hlate, hboth, Option.some.injEq]
    constructor
    · rintro (h | h)
      · exact ⟨side, h⟩
      · exact ⟨side.other, by simpa using h⟩
    · rintro ⟨side', h⟩
      rcases side.eq_or_other side' with rfl | rfl
      · exact .inl h
      · exact .inr (by simpa using h)

/-- A request meets its own condition when nothing has come between its transactions. -/
theorem upToDate_read (q : AdminRequest) (db : Db) :
    q.UpToDate userId ((q.request userId).read db) db := by
  intro row hrow u hu
  obtain rfl : row = u := by
    have hrow : db.user? userId = some row := user?_of_managedUser? hrow
    grind
  exact ⟨fun _ => rfl, fun _ => rfl⟩

end AdminRequest

/-- Two requests on one user, with their transactions in the order of `h`, newest first. -/
def AdminRuns (q : Side → AdminRequest) (userId : Nat) (db : Db)
    (h : List (Access × Config Db (Option User))) (c : Config Db (Option User)) : Prop :=
  Runs (fun side => (q side).request userId) db h c

/-- Both changes are in the row: it is what one request after the other makes of it, and a block or
a delete is not undone by a pause or a resume. -/
structure ChangesKept (q : Side → AdminRequest) (userId : Nat) (db final : Db) : Prop where
  serial : Serial (fun side => (q side).request userId) (fun db => db.user? userId) db final
  closed : ∀ side, (q side).status? = some .blocked ∨ (q side).status? = some .deleted →
    (q side.other).status? = none → ∀ u ∈ managedUser? db userId,
    ∀ u' ∈ final.user? userId, some u'.status = (q side).status?

namespace AdminRequest

theorem update_status (q : AdminRequest) (u : User) :
    (q.update u u).status = q.status?.getD u.status := by
  cases q <;> rfl

/-- In a serial row a block or a delete survives a pause or a resume. -/
theorem closed_of_serial {q : Side → AdminRequest} {userId : Nat} {db final : Db}
    (hserial : Serial (fun side => (q side).request userId) (fun db => db.user? userId) db final) :
    ChangesKept q userId db final := by
  refine ⟨hserial, fun side hcloses hpauses u hu u' hu' => ?_⟩
  obtain ⟨first, hfirst⟩ := hserial
  have hfinal := user?_of_managedUser?
    (managedUser?_run (q first.other) (managedUser?_run (q first) hu))
  have hrow : (q first.other).update ((q first).update u u) ((q first).update u u) = u' := by
    grind
  rw [← hrow, update_status, update_status]
  rcases first.eq_or_other side with rfl | rfl
  · grind
  · grind [Side.other_other]

end AdminRequest

/-- The `SELECT`s and `UPDATE`s of two requests on one user, in any order, keep both changes if and
only if no request writes back a column that has changed since it read it. -/
theorem admin_changes_kept {q : Side → AdminRequest} {userId : Nat} {db : Db}
    {h : List (Access × Config Db (Option User))} {c : Config Db (Option User)}
    (run : AdminRuns q userId db h c) (hdone : c.Complete) :
    ChangesKept q userId db c.shared ↔
      Throughout (WritesMeet fun side => (q side).UpToDate userId) { shared := db } h := by
  have hiff : Throughout (WritesMeet fun side => (q side).UpToDate userId) { shared := db } h ↔
      Serial (fun side => (q side).request userId) (fun db => db.user? userId) db c.shared :=
    complete_iff (fun side => (q side).upToDate_read) (AdminRequest.late_write_iff q) run hdone
  exact ⟨fun hkept => hiff.mpr hkept.serial, fun h => AdminRequest.closed_of_serial (hiff.mp h)⟩

/-! ## Two runs -/

def requests (left right : AdminRequest) : Side → AdminRequest
  | .left => left
  | .right => right

def accessHistory (q : Side → AdminRequest) (userId : Nat) (db : Db) (accesses : List Access) :
    List (Access × Config Db (Option User)) :=
  replay (fun c a => (c.next (fun side => (q side).request userId) a).getD c)
    { shared := db } accesses

def userIn (status : UserStatus) : Db := { users := [{ id := 1, status }] }

/-- Both requests read, and the left one writes last. -/
def leftLast : List Access := [.read .left, .read .right, .write .right, .write .left]

/-- An approval that overlaps a block: neither writes back what the other changed. -/
theorem admin_changes_kept_approveOverBlock :
    let q := requests .approveUser .blockUser
    let h := accessHistory q 1 (userIn .pending) leftLast
    let c := current { shared := userIn .pending } h
    c.shared.users = [{ id := 1, status := .active, sessionVersion := 2 }] ∧
      ChangesKept q 1 (userIn .pending) c.shared :=
  ⟨by decide, (admin_changes_kept (run_replay_accepted (by decide)) fun side => by
    cases side <;> rfl).mpr (by decide)⟩

/-- A pause that has read the user before a block commits makes the user active again. -/
theorem admin_block_undoneByPause :
    let q := requests .pauseEarn .blockUser
    let h := accessHistory q 1 (userIn .active) leftLast
    let c := current { shared := userIn .active } h
    AdminRuns q 1 (userIn .active) h c ∧ c.Complete ∧
      c.shared.users =
        [{ id := 1, status := .active, earnPaused := true, sessionVersion := 2 }] ∧
      ¬ Serial (fun side => (q side).request 1) (fun db => db.user? 1)
        (userIn .active) c.shared := by
  refine ⟨run_replay_accepted (by decide), fun side => by cases side <;> rfl, by decide, ?_⟩
  rintro ⟨side, h⟩
  cases side <;> exact absurd h (by decide)

end EarnProxy

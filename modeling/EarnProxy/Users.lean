import EarnProxy.Schema

/-!
# User administration of `app/routes/admin.py`

Each request reads one user row and updates it. None of them touches a proxy row, so an accrual
cursor keeps its place across every change of a user.
-/

namespace EarnProxy

/-- The `SELECT` of the user requests; administrators are not found by it. -/
def managedUser? (db : Db) (userId : Nat) : Option User :=
  (db.user? userId).filter fun u => u.role = .user

def Db.updateUser (db : Db) (userId : Nat) (f : User → User) : Db :=
  { db with users := Table.update (fun u => u.id = userId) f db.users }

theorem Db.user?_updateUser {db : Db} {userId u : Nat} {f : User → User}
    (hf : ∀ v, (f v).id = v.id) : (db.updateUser userId f).user? u =
      (db.user? u).map fun v => if v.id = userId then f v else v := by
  refine Table.lookup_map fun v _ => ?_
  split
  · exact hf v
  · rfl

/-- The row `_change_user` writes, from the row it read. -/
def User.changed (read : User) (status : Option UserStatus) (earnPaused : Option Bool) (u : User) :
    User :=
  let newStatus := status.getD read.status
  { u with
    status := newStatus, earnPaused := earnPaused.getD read.earnPaused
    sessionVersion := u.sessionVersion + if newStatus = .blocked then 1 else 0 }

/-- `_change_user`. -/
def changeUser (db : Db) (userId : Nat) (status : Option UserStatus) (earnPaused : Option Bool) :
    Tx Db :=
  match managedUser? db userId with
  | none => .error (.lookupError "User not found")
  | some row => .ok (db.updateUser userId (row.changed status earnPaused))

def approveUser (db : Db) (userId : Nat) : Tx Db := changeUser db userId (some .active) none
def pauseEarn (db : Db) (userId : Nat) : Tx Db := changeUser db userId none (some true)
def resumeEarn (db : Db) (userId : Nat) : Tx Db := changeUser db userId none (some false)
def blockUser (db : Db) (userId : Nat) : Tx Db := changeUser db userId (some .blocked) none

/-- `delete_user`: the row stays, with its history. -/
def deleteUser (db : Db) (userId : Nat) : Tx Db :=
  match managedUser? db userId with
  | none => .error (.lookupError "User not found")
  | some _ => .ok (db.updateUser userId fun u =>
      { u with status := .deleted, sessionVersion := u.sessionVersion + 1, earnPaused := true })

theorem changeUser_ok {db db' : Db} {userId : Nat} {status : Option UserStatus}
    {earnPaused : Option Bool} (h : changeUser db userId status earnPaused = .ok db') :
    ∃ users, db' = { db with users := users } := by
  unfold changeUser at h
  split at h
  · cases h
  · exact ⟨_, (Except.ok.inj h).symm⟩

theorem deleteUser_ok {db db' : Db} {userId : Nat} (h : deleteUser db userId = .ok db') :
    ∃ users, db' = { db with users := users } := by
  unfold deleteUser at h
  split at h
  · cases h
  · exact ⟨_, (Except.ok.inj h).symm⟩

/-- `create_user`; the password and the unique e-mail address are not modelled. -/
def createUser (db : Db) (status : UserStatus) (role : Role) : Db :=
  { db with users := db.users ++ [{ id := Table.nextKey User.id db.users, role, status }] }

end EarnProxy

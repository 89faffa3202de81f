import CortenDesk.Database.Rows

/-!
The authority of an account over the console areas. It answers what an account may
use, never which rows it sees.
-/
namespace CortenDesk
open Permissions

namespace User

/-- The delegated role, if the account holds one. -/
def role (db : Database) (user : User) : Option Role := user.roleId.bind db.roles.find?

def consoleAllows (db : Database) (user : User) (resource : Resource) (level : Level) : Bool :=
  if user.isAdmin then true
  else match user.role db with
    | some role => satisfies (role.permissions resource) level
    | none => satisfies (legacyUser resource) level

def consoleLevel (db : Database) (user : User) (resource : Resource) : Level :=
  if user.isAdmin then .rw
  else match user.role db with
    | some role => role.permissions resource
    | none => legacyUser resource

theorem consoleAllows_eq (db : Database) (user : User) (resource : Resource) (level : Level) :
    user.consoleAllows db resource level = satisfies (user.consoleLevel db resource) level := by
  unfold consoleAllows consoleLevel
  split
  · exact (decide_eq_true (rank_le_rw level)).symm
  · split <;> rfl

end User
end CortenDesk

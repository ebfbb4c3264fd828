import Rooti.Core.Pagination

/-!
# Accounts

## Main definitions

* `UserService.search` — the accounts
-/

namespace Rooti

variable {V D : Type}

/-- `UserDTO`. -/
structure UserDTO where
  id : ℤ
  username : String
  email : Option String
  name : String
  phoneNumber : Option String
  role : UserRole
  enabled : Bool
  lastLoginAt : Option DateTime
  deriving DecidableEq

namespace UserService

/-- `UserDTO` of an account. -/
def toDTO (user : User) : UserDTO where
  id := user.id
  username := user.username
  email := user.email
  name := user.name
  phoneNumber := user.phoneNumber
  role := user.role
  enabled := user.enabled
  lastLoginAt := user.lastLoginAt

/-- The accounts that a search finds. -/
def searchRows (ilike : String → String → Bool) (keyword : Option String) (role : Option UserRole)
    (db : Db) : List User :=
  (db.rows .user).filter fun user =>
    role.all (user.role = ·) &&
      keywordMatches ilike keyword [some user.name, some user.username, user.email]

/-- `search`. -/
def search (ilike : String → String → Bool) (keyword : Option String) (role : Option UserRole)
    (params : PageParams) : Async V D (Page UserDTO) :=
  listPage (keywordBinds keyword) (searchRows ilike keyword role)
    (fun o => o.orderBy fun user => user.id) (fun user => .ok (toDTO user)) params

end UserService

end Rooti

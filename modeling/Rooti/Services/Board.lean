import Rooti.Core.Pagination

/-!
# The board of the caregivers

Posts on the board are shown with the name of their author, the latest first.  Their
bodies are stored with the markup escaped.

## Main definitions

* `CaregiverBoardService.list` — the published posts
* `CaregiverBoardService.get` — any post
* `CaregiverBoardService.create`, `update`, `delete`
-/

namespace Rooti

open Program

variable {V D : Type}

/-- `BoardWriteRequest`. -/
structure BoardWriteRequest where
  title : String
  body : String
  published : Option Bool := none
  title_length : 1 ≤ title.length ∧ title.length ≤ 255 := by decide
  body_length : 1 ≤ body.length := by decide

/-- `BoardResponse`. -/
structure BoardResponse where
  id : ℤ
  title : String
  body : String
  authorName : Option String
  authorId : ℤ
  published : Bool
  createdAt : DateTime
  updatedAt : DateTime
  deriving DecidableEq

namespace CaregiverBoardService

/-- `_to_response`. -/
def toResponse (b : CaregiverBoard) (authorName : Option String) : BoardResponse where
  id := b.id
  title := b.title
  body := b.body
  authorName := authorName
  authorId := b.authorId
  published := b.isPublished
  createdAt := b.createdAt
  updatedAt := b.updatedAt

/-- A post with the name of its author. -/
def withAuthor (db : Db) (b : CaregiverBoard) : Option (CaregiverBoard × String) :=
  (db.find? .user b.authorId).map fun user => (b, user.name)

/-- The published posts that a search finds. -/
def listRows (ilike : String → String → Bool) (keyword : Option String) (db : Db) :
    List (CaregiverBoard × String) :=
  ((db.rows .caregiverBoard).filterMap (withAuthor db)).filter fun row =>
    row.1.isPublished && keywordMatches ilike keyword [some row.1.title, some row.1.body]

/-- `list`. -/
def list (ilike : String → String → Bool) (keyword : Option String) (params : PageParams) :
    Async V D (Page BoardResponse) :=
  listPage (keywordBinds keyword) (listRows ilike keyword)
    (fun o => o.orderByDesc fun row => row.1.createdAt.micros)
    (fun row => .ok (toResponse row.1 (some row.2))) params

/-- `html.escape` of one character. -/
def escapeChar : Char → String
  | '&' => "&amp;"
  | '<' => "&lt;"
  | '>' => "&gt;"
  | '"' => "&quot;"
  | '\'' => "&#x27;"
  | c => String.singleton c

/-- `_sanitize`: `html.escape`. -/
def sanitize (body : String) : String := String.join (body.toList.map escapeChar)

/-- `_get_or_throw`. -/
def getOrThrow (boardId : ℤ) : Async V D CaregiverBoard :=
  (dbGet .caregiverBoard boardId).bind (Prog.orRaise (businessException .boardNotFound))

/-- `_author_name`. -/
def authorName (authorId : ℤ) : Async V D (Option String) := do
  return (← dbGet .user authorId).map User.name

/-- `get`: no matter whether the post is published, or who asks for it. -/
def get (boardId : ℤ) : Async V D BoardResponse := do
  let b ← getOrThrow boardId
  return toResponse b (← authorName b.authorId)

/-- The post a `create` adds. -/
def newBoard (authorUserId : ℤ) (req : BoardWriteRequest) (new : NewRow) : CaregiverBoard where
  id := new.id
  authorId := authorUserId
  title := req.title
  body := sanitize req.body
  isPublished := req.published.getD true
  createdAt := new.createdAt
  updatedAt := new.createdAt
  createdBy := some authorUserId
  updatedBy := some authorUserId

/-- The assignments of an `update`. -/
def assign (authorUserId : ℤ) (req : BoardWriteRequest) (b : CaregiverBoard) : CaregiverBoard :=
  { b with
    title := req.title
    body := sanitize req.body
    isPublished := req.published.getD b.isPublished
    updatedBy := some authorUserId }

/-- `create`. -/
def create (authorUserId : ℤ) (req : BoardWriteRequest) : Async V D BoardResponse := do
  let new ← add .caregiverBoard (newBoard authorUserId req)
  flush
  return toResponse (newBoard authorUserId req new) (← authorName authorUserId)

/-- `update`: by the author only. -/
def update (authorUserId boardId : ℤ) (req : BoardWriteRequest) : Async V D BoardResponse := do
  let b ← getOrThrow boardId
  Prog.raiseIf (decide (b.authorId ≠ authorUserId))
    (authForbiddenExceptionWith "not the author")
  modify .caregiverBoard b (assign authorUserId req)
  return toResponse (assign authorUserId req b) (← authorName b.authorId)

/-- `delete`: by the author only. -/
def delete (authorUserId boardId : ℤ) : Async V D Unit := do
  let b ← getOrThrow boardId
  Prog.raiseIf (decide (b.authorId ≠ authorUserId))
    (authForbiddenExceptionWith "not the author")
  Rooti.delete .caregiverBoard b

end CaregiverBoardService

end Rooti

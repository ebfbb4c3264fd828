import Rooti.Core.Holding
import Rooti.Lib.Runs
import Rooti.Services.Board

/-!
# Who sees a draft

The listing of the board shows published posts only.  A post fetched by its id is shown to
everybody, published or not.  So a draft stays with its author exactly as long as nobody
else asks for it.

## Main definitions

* `BoardResponse.VisibleTo` — a post the reader may see
* `BoardRequest.Discreet` — a request shows its reader no other post
* `BoardRequest.Permitted` — the request asks for no draft of somebody else
* `drafts_hidden_iff` — when a run shows no drafts
* `draft_shown` — a draft shown to a reader
-/

namespace Rooti

open Relational Program

variable {V D : Type} {env : Env} {ilike : String → String → Bool} {w : World V D}

/-- **A post the reader may see**: it is published, or the reader's own. -/
def BoardResponse.VisibleTo (reader : ℤ) (b : BoardResponse) : Prop :=
  b.published = true ∨ b.authorId = reader

/-- The requests on the board. -/
inductive BoardRequest
  | create (authorUserId : ℤ) (req : BoardWriteRequest)
  | update (authorUserId boardId : ℤ) (req : BoardWriteRequest)
  | delete (authorUserId boardId : ℤ)
  | get (reader boardId : ℤ)
  | list (reader : ℤ) (keyword : Option String) (params : PageParams)

namespace BoardRequest

/-- The state after a request. -/
def step (env : Env) (ilike : String → String → Bool) (request : BoardRequest) (w : World V D) :
    World V D :=
  match request with
  | .create authorUserId req => (serve env (CaregiverBoardService.create authorUserId req) w).2
  | .update authorUserId boardId req =>
      (serve env (CaregiverBoardService.update authorUserId boardId req) w).2
  | .delete authorUserId boardId =>
      (serve env (CaregiverBoardService.delete authorUserId boardId) w).2
  | .get _ boardId => (serve env (CaregiverBoardService.get boardId) w).2
  | .list _ keyword params => (serve env (CaregiverBoardService.list ilike keyword params) w).2

/-- **A request shows its reader no post the reader may not see.** -/
def Discreet (env : Env) (ilike : String → String → Bool) (request : BoardRequest)
    (w : World V D) : Prop :=
  match request with
  | .get reader boardId => ∀ b,
      (serve env (CaregiverBoardService.get boardId) w).1 = .ok b → b.VisibleTo reader
  | .list reader keyword params => ∀ page,
      (serve env (CaregiverBoardService.list ilike keyword params) w).1 = .ok page →
        ∀ b ∈ page.content, b.VisibleTo reader
  | _ => True

/-- **A post that is asked for by its id** is published, or the reader's own. -/
def Permitted (request : BoardRequest) (w : World V D) : Prop :=
  match request with
  | .get reader boardId => ∀ b, w.db.find? .caregiverBoard boardId = some b →
      b.isPublished = true ∨ b.authorId = reader
  | _ => True

end BoardRequest

/-! ## Reading -/

/-- A post that exists is fetched. -/
theorem run_get_visible {boardId : ℤ} {b : CaregiverBoard}
    (h : w.db.find? .caregiverBoard boardId = some b) :
    (server env).run (CaregiverBoardService.get boardId) {} w =
      (.ok (CaregiverBoardService.toResponse b ((w.db.find? .user b.authorId).map User.name)), {},
        w.tick.tick) := by
  have hauthor : bigint b.authorId := bigint_of_ref (Table.find?_mem h) (.head _)
  rw [CaregiverBoardService.get, CaregiverBoardService.getOrThrow, Prog.bind_eq, Prog.bind_assoc,
    run_dbGet_found env _ h, Prog.orRaise_some, Prog.ret_bind, CaregiverBoardService.authorName,
    Prog.bind_eq, Prog.bind_eq, Prog.bind_assoc, run_dbGet_bind_clean, if_pos hauthor]
  rfl

/-- **A post fetched by its id** is shown as it is. -/
theorem serve_get_eq_ok_iff {boardId : ℤ} {resp : BoardResponse} :
    (serve env (CaregiverBoardService.get boardId) w).1 = .ok resp ↔
      ∃ b, w.db.find? .caregiverBoard boardId = some b ∧
        resp = CaregiverBoardService.toResponse b
          ((w.db.find? .user b.authorId).map User.name) := by
  cases hfound : w.db.find? .caregiverBoard boardId with
  | none =>
      refine iff_of_false (fun h => ?_) fun ⟨b, hb, _⟩ => nomatch hb
      obtain ⟨s', w', hrun⟩ := run_of_serve_ok env w h
      rw [CaregiverBoardService.get, CaregiverBoardService.getOrThrow, Prog.bind_eq,
        Prog.bind_assoc, run_dbGet_bind_clean, hfound] at hrun
      split at hrun <;> cases hrun
  | some b =>
      rw [serve_eq, run_get_visible hfound]
      by_cases hro : env.settings.appReadOnly <;> simp [hro, eq_comm]

/-- The listing shows published posts. -/
theorem serve_list_published {keyword : Option String} {params : PageParams}
    {page : Page BoardResponse}
    (h : (serve env (CaregiverBoardService.list ilike keyword params) w).1 = .ok page) :
    ∀ b ∈ page.content, b.published = true := by
  have hscript : (server env).Ensures (Holds w w.db [])
      (CaregiverBoardService.list ilike keyword params)
      (fun page _ _ => ∀ b ∈ page.content, b.published = true) (Uncommitted w) := by
    refine holds_query.bind fun total => .of_and fun _ => ?_
    refine holds_query.bind fun rows => .of_and ?_
    rintro ⟨-, o, rfl⟩
    refine holds_ofExcept.bind fun content => .of_and fun hcontent => .ret fun _ _ _ b hb => ?_
    obtain ⟨-, rfl⟩ := mapM_eq_ok_iff.mp hcontent
    obtain ⟨row, hrow, hresponse⟩ := List.mem_filterMap.mp hb
    have hlisted : row ∈ CaregiverBoardService.listRows ilike keyword w.db :=
      (o.mem_orderByDesc).mp (List.mem_of_mem_drop (List.mem_of_mem_take hrow))
    have hfilter := (List.mem_filter.mp hlisted).2
    rw [Bool.and_eq_true] at hfilter
    cases hresponse
    exact hfilter.1
  obtain ⟨s', w', hrun⟩ := run_of_serve_ok env w h
  exact hscript.run_ok holds_start hrun

/-! ## Runs -/

/-- **A request shows no drafts** exactly if it asks for none. -/
theorem discreet_iff (request : BoardRequest) (w : World V D) :
    request.Discreet env ilike w ↔ request.Permitted w := by
  cases request with
  | get reader boardId =>
      show (∀ resp, (serve env (CaregiverBoardService.get boardId) w).1 = .ok resp →
        resp.VisibleTo reader) ↔ _
      simp only [serve_get_eq_ok_iff]
      constructor
      · exact fun h b hb => h _ ⟨b, hb, rfl⟩
      · rintro h _ ⟨b, hb, rfl⟩
        exact h b hb
  | list reader keyword params =>
      exact iff_of_true (fun page h b hb => .inl (serve_list_published h b hb)) trivial
  | _ => exact Iff.rfl

/-- **When drafts are hidden**: in a run, whatever is posted, changed and deleted, every
request shows its reader only published posts and the reader's own exactly if no post is
asked for by its id that is neither. -/
theorem drafts_hidden_iff (env : Env) (ilike : String → String → Bool)
    (requests : List BoardRequest) (w₀ : World V D) :
    Runs.Guarded (BoardRequest.step env ilike) (BoardRequest.Discreet env ilike) requests w₀ ↔
      Runs.Guarded (BoardRequest.step env ilike) BoardRequest.Permitted requests w₀ :=
  Runs.Guarded.congr discreet_iff

/-- The worker of the sample installation writes a draft, and the charger asks for it. -/
def draftAskedFor : List BoardRequest :=
  [.create 1 { title := "Draft", body := "not yet", published := some false }, .get 2 1]

/-- **A draft is shown** to somebody who did not write it. -/
theorem draft_shown :
    ¬Runs.Guarded (BoardRequest.step still fun _ _ => true)
      (BoardRequest.Discreet still fun _ _ => true) draftAskedFor
      (World.fresh Db.sample () : World Unit Unit) := by
  rintro ⟨-, hget, -⟩
  have hshown := hget ⟨1, "Draft", "not yet", some "Worker", 1, false, ⟨0, none⟩, ⟨0, none⟩⟩
    (by decide +kernel)
  revert hshown
  unfold BoardResponse.VisibleTo
  decide

end Rooti

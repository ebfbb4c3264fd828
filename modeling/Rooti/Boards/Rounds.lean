import Rooti.Boards.Drafts
import Rooti.Lib.Escaping

/-!
# Saving a post again

A post is stored with its markup escaped, and is read as it is stored.  What its author reads
and sends back is escaped once more, so the ampersands of the first escape are escaped by the
second, and the post grows each time.

## Main definitions

* `CaregiverBoardService.markup` — the characters that are escaped
* `Saves`, `Rounds` — the author reads a post and sends it back
* `rounds_stable_iff` — when that leaves the post alone
* `ampersand_grows` — a post that is not left alone

## What carries the proof

Each round applies `sanitize` to the body once more (`Rounds.stored`), so the question
is when a second escape leaves a text alone. `Lib.Escaping` answers it for every escape
whose entities contain a character that is escaped itself: only when there is nothing to
escape (`flatMap_twice_iff`). For the other direction a round has to be possible
(`exists_saves`): the title and the body that are sent back are those that are stored, so
they are not empty and fit their columns, and the author is the one who wrote the post.
-/

namespace Rooti

open Relational Program Escaping

variable {V D : Type} {env : Env}

namespace CaregiverBoardService

/-! ## Escaping twice -/

/-- The characters that `html.escape` replaces. -/
def markup : List Char := ['&', '<', '>', '"', '\'']

section Escape

variable {s : String} {c : Char}

/-- What stands for a character. -/
def entity (c : Char) : List Char := (escapeChar c).toList

/-- A text is escaped character by character. -/
theorem toList_sanitize : (sanitize s).toList = s.toList.flatMap entity := by
  rw [sanitize, String.toList_join, List.flatMap_map]
  rfl

/-- Other characters stay. -/
theorem entity_of_not_mem (h : c ∉ markup) : entity c = [c] := by
  simp only [markup, List.mem_cons, List.not_mem_nil, or_false, not_or] at h
  rw [entity, escapeChar]
  · exact String.toList_singleton c
  all_goals tauto

/-- What the five characters have in common. -/
theorem forall_markup {P : Char → Prop} (h : P '&' ∧ P '<' ∧ P '>' ∧ P '"' ∧ P '\'') :
    ∀ c ∈ markup, P c := by
  intro c hc
  simp only [markup, List.mem_cons, List.not_mem_nil, or_false] at hc
  obtain rfl | rfl | rfl | rfl | rfl := hc
  · exact h.1
  · exact h.2.1
  · exact h.2.2.1
  · exact h.2.2.2.1
  · exact h.2.2.2.2

/-- The characters that stay are the others. -/
theorem plain_iff : Plain entity c ↔ c ∉ markup := by
  have hmarkup : ∀ c ∈ markup, ¬Plain entity c := forall_markup (by unfold Plain; decide)
  exact ⟨fun h hc => hmarkup c hc h, entity_of_not_mem⟩

/-- **An ampersand stands in every entity.** -/
theorem nests_entity : Nests entity := by
  have hmarkup : ∀ c ∈ markup, 1 < (entity c).length ∧ '&' ∈ entity c :=
    forall_markup (by decide)
  have hamp : ¬Plain entity '&' := fun h => plain_iff.mp h (by decide)
  constructor <;> intro c <;> by_cases hc : c ∈ markup
  · exact .inr (hmarkup c hc).1
  · exact .inl (plain_iff.mpr hc)
  · exact .inr ⟨'&', (hmarkup c hc).2, hamp⟩
  · exact .inl (plain_iff.mpr hc)

/-- **A text that a second escape leaves alone** has nothing to escape. -/
theorem sanitize_twice_iff : sanitize (sanitize s) = sanitize s ↔ ∀ c ∈ s.toList, c ∉ markup := by
  rw [← String.toList_inj, toList_sanitize, toList_sanitize, flatMap_twice_iff nests_entity]
  exact forall₂_congr fun _ _ => plain_iff

/-- A text that is not empty is not escaped to nothing. -/
theorem length_sanitize (h : 1 ≤ s.length) : 1 ≤ (sanitize s).length := by
  rw [← String.length_toList] at h ⊢
  rw [toList_sanitize]
  exact Nat.le_trans h (length_le_flatMap nests_entity)

/-- The entities have no NUL. -/
theorem text_sanitize (h : text s) : text (sanitize s) := by
  have hmarkup : ∀ c ∈ markup, (entity c).all (· ≠ Char.ofNat 0) :=
    forall_markup (by decide)
  unfold text at h ⊢
  rw [toList_sanitize, List.all_flatMap, List.all_eq_true]
  intro c hc
  by_cases hmem : c ∈ markup
  · exact hmarkup c hmem
  · have hne := List.all_eq_true.mp h c hc
    rw [entity_of_not_mem hmem]
    simpa using hne

end Escape

/-! ## The requests -/

/-- **The post is stored** with this author, title and body. -/
def Stored (db : Db) (boardId authorId : ℤ) (title body : String) : Prop :=
  ∃ b, db.find? .caregiverBoard boardId = some b ∧ b.authorId = authorId ∧ b.title = title ∧
    b.body = body

section Requests

variable {w : World V D} {authorId boardId : ℤ} {req : BoardWriteRequest}

/-- **What a `create` stores.** -/
theorem create_stored {resp : BoardResponse}
    (hok : (serve env (create authorId req) w).1 = .ok resp) :
    env.settings.appReadOnly = false ∧ resp.body = sanitize req.body ∧
      Stored (serve env (create authorId req) w).2.db resp.id authorId req.title
        (sanitize req.body) := by
  have hscript : (server env).Ensures (Holds w w.db []) (create authorId req)
      (fun resp s w' => ∃ d ps, (ps = [] ∧ ∃ new name,
        resp = toResponse (newBoard authorId req new) name ∧
        (Dml.insert .caregiverBoard (newBoard authorId req new) : Statement).apply w.db = .ok d) ∧
        Holds w d ps s w') (Uncommitted w) := by
    refine holds_insert fun new d hd => ?_
    refine Machine.Ensures.bind (Q := fun _ s w' => Holds w d [] s w') ?_ fun name =>
      .ret fun _ _ h => ⟨d, [], ⟨rfl, new, name, rfl, hd⟩, h⟩
    exact holds_dbGet.bind fun _ => .of_and fun _ => .ret fun _ _ h => h
  obtain ⟨⟨e, he⟩, -⟩ | ⟨resp', d, ps, hresp, ⟨rfl, new, name, hshown, hd⟩, hkept⟩ :=
    serve_holds hscript
  · cases he.symm.trans hok
  cases hresp.symm.trans hok
  obtain ⟨hrows, -, -⟩ := Dml.insert_ok hd
  have hmem : newBoard authorId req new ∈ d.rows .caregiverBoard := by
    rw [hrows]
    exact List.mem_append_right _ (List.mem_singleton_self _)
  rw [hshown, hkept.eq]
  refine ⟨Bool.eq_false_of_not_eq_true fun hro => ?_, rfl, newBoard authorId req new,
    Table.find?_eq_some.mpr ⟨hmem, rfl⟩, rfl, rfl, rfl⟩
  -- in read-only mode the table would be as it was
  have hsame := db_of_readOnly hro (create authorId req) w
  rw [hkept.eq] at hsame
  rw [hsame] at hrows
  exact absurd (List.self_eq_append_right.mp hrows) (List.cons_ne_nil _ _)

/-- The assignments of an `update` with the title that is stored. -/
theorem exists_update_assign {b : CaregiverBoard} {now : DateTime} {d : Db}
    (hnow : timestamp now) (hb : d.find? .caregiverBoard boardId = some b)
    (htitle : req.title = b.title) (hbody : text req.body) :
    ∃ d', (Dml.update .caregiverBoard boardId
      (setUpdatedAt now .caregiverBoard ∘ assign b.authorId req) : Statement).apply d = .ok d' := by
  refine Dml.update_of_find? hb (fun _ => rfl) (fun _ _ => ⟨rfl, rfl⟩) ?_ rfl
  have hcheck := Table.check_of_mem (Table.find?_mem hb)
  have htext := text_sanitize hbody
  simp only [schema, shape, Function.comp_apply, setUpdatedAt, assign, Bool.and_eq_true,
    Option.all_some] at hcheck ⊢
  rw [htitle]
  tauto

/-- What becomes of a post that is assigned to. -/
theorem stored_of_changes {b : CaregiverBoard} {now : DateTime} {d d' : Db}
    (hb : d.find? .caregiverBoard boardId = some b)
    (hd' : Dml.applyAll (Session.flushOrder
      (changes .caregiverBoard b (assign authorId req) now)) d = .ok d') :
    Stored d' boardId b.authorId req.title (sanitize req.body) := by
  have hkey : b.id = boardId := Table.find?_key hb
  rw [flushOrder_changes, changes] at hd'
  split at hd'
  · next hsame =>
      cases hd'
      exact ⟨b, hb, rfl, (congrArg CaregiverBoard.title hsame).symm,
        (congrArg CaregiverBoard.body hsame).symm⟩
  · rw [Dml.applyAll_singleton] at hd'
    obtain ⟨-, hrows, -⟩ := Dml.update_ok hd'
    refine ⟨setUpdatedAt now .caregiverBoard (assign authorId req b),
      Table.find?_eq_some.mpr ⟨?_, hkey⟩, rfl, rfl, rfl⟩
    show _ ∈ d'.rows .caregiverBoard
    rw [hrows]
    exact List.mem_map.mpr ⟨b, Table.find?_mem hb, if_pos rfl⟩

variable (env authorId req) in
/-- **What an `update` does**: the post is stored anew.  The author's is, if the title is that
of before. -/
theorem update_stored {b : CaregiverBoard} (hb : w.db.find? .caregiverBoard boardId = some b) :
    (¬(b.authorId = authorId ∧ env.settings.appReadOnly = false ∧ req.title = b.title ∧
        text req.body) ∧ (∃ e, (serve env (update authorId boardId req) w).1 = .error e) ∧
        (serve env (update authorId boardId req) w).2.db = w.db) ∨
      ∃ answer, (serve env (update authorId boardId req) w).1 = .ok answer ∧
        Stored (serve env (update authorId boardId req) w).2.db boardId b.authorId req.title
          (sanitize req.body) := by
  have hauthor : bigint b.authorId := bigint_of_ref (Table.find?_mem hb) (.head _)
  have hload : (server env).Ensures (Holds w w.db []) (getOrThrow boardId)
      (fun b' s w' => b' = b ∧ Holds w w.db [] s w')
      (Failing w (¬(b.authorId = authorId ∧ env.settings.appReadOnly = false ∧
        req.title = b.title ∧ text req.body))) := by
    refine (failing_dbGet fun _ => bigint_of_find? hb).bind fun found => .of_and ?_
    rintro ⟨rfl, -⟩
    rw [hb]
    exact .ret fun _ _ h => ⟨rfl, h⟩
  refine serve_settled (φ := fun _ d => Stored d boardId b.authorId req.title (sanitize req.body))
    holds_start ?_
  refine hload.bind fun b' => .of_and ?_
  rintro rfl
  refine Machine.Ensures.bind (Q := fun _ => Holds w w.db []) (.raiseIf (fun _ _ _ h => h) ?_)
    fun _ => ?_
  · exact fun hother s w' h => ⟨h.uncommitted, fun hok => of_decide_eq_true hother hok.1⟩
  refine ensures_modify.bind fun _ => .of_exists fun n => ?_
  have hflushed : ¬¬(b'.authorId = authorId ∧ env.settings.appReadOnly = false ∧
      req.title = b'.title ∧ text req.body) → ∃ d', Dml.applyAll (Session.flushOrder
        ([] ++ changes .caregiverBoard b' (assign authorId req) ⟨env.dbClock n, none⟩)) w.db =
          .ok d' := by
    intro hok
    obtain ⟨rfl, -, htitle, hbody⟩ := not_not.mp hok
    rw [List.nil_append, flushOrder_changes, changes]
    split
    · exact ⟨w.db, rfl⟩
    · rw [Dml.applyAll_singleton, show keyOf .caregiverBoard b' = boardId from Table.find?_key hb]
      exact exists_update_assign rfl hb htitle hbody
  refine Machine.Ensures.bind (Q := fun _ s w' => ∃ d,
    Stored d boardId b'.authorId req.title (sanitize req.body) ∧ Holds w d [] s w') ?_
    fun name => .ret fun _ _ h => h
  refine (failing_select fun hok => ⟨fun _ => ?_, ?_, hflushed hok⟩).bind fun user =>
    .of_exists fun d => .of_and ?_
  · exact (not_not.mp hok).2.1
  · simpa [Bind.fits] using hauthor
  · rintro ⟨hd, -⟩
    exact .ret fun _ _ h => ⟨d, stored_of_changes hb hd, h⟩

end Requests

end CaregiverBoardService

/-! ## Rounds -/

open CaregiverBoardService

/-- **The author reads the post and sends back what was read.** -/
def Saves (env : Env) (authorId boardId : ℤ) (w w' : World V D) : Prop :=
  ∃ shown answer, ∃ req : BoardWriteRequest, (serve env (get boardId) w).1 = .ok shown ∧
    req.title = shown.title ∧ req.body = shown.body ∧
    serve env (update authorId boardId req) (serve env (get boardId) w).2 = (.ok answer, w')

/-- Some such rounds, one after another. -/
inductive Rounds (env : Env) (authorId boardId : ℤ) (w : World V D) : ℕ → World V D → Prop
  | zero : Rounds env authorId boardId w 0 w
  | succ {n : ℕ} {w' w'' : World V D} (h : Rounds env authorId boardId w n w')
      (hsaves : Saves env authorId boardId w' w'') : Rounds env authorId boardId w (n + 1) w''

section Rounds

variable {w w' : World V D} {authorId boardId : ℤ} {title body : String} {n : ℕ}

/-- A post that was read is saved again. -/
theorem saves_of {shown answer : BoardResponse} {req : BoardWriteRequest}
    (hget : (serve env (get boardId) w).1 = .ok shown) (htitle : req.title = shown.title)
    (hbody : req.body = shown.body)
    (hupdate : (serve env (update authorId boardId req) (serve env (get boardId) w).2).1 =
      .ok answer) :
    Saves env authorId boardId w
      (serve env (update authorId boardId req) (serve env (get boardId) w).2).2 :=
  ⟨shown, answer, req, hget, htitle, hbody, Prod.ext hupdate rfl⟩

/-- **A round escapes the body once more.** -/
theorem Saves.stored (h : Saves env authorId boardId w w')
    (hstored : Stored w.db boardId authorId title body) :
    Stored w'.db boardId authorId title (sanitize body) := by
  obtain ⟨shown, answer, req, hget, htitle, hbody, hupdate⟩ := h
  obtain ⟨b, hb, rfl, rfl, rfl⟩ := hstored
  obtain ⟨b', hb', rfl⟩ := serve_get_eq_ok_iff.mp hget
  cases hb.symm.trans hb'
  have hread : (serve env (get boardId) w).2.db = w.db := by
    rw [serve_of_clean (run_get_visible hb)]
    rfl
  rw [← hread] at hb
  obtain ⟨-, ⟨e, he⟩, -⟩ | ⟨answer', hanswer, hnew⟩ :=
    update_stored env b.authorId req hb
  · rw [hupdate] at he
    cases he
  · rw [hupdate, htitle, hbody] at hnew
    exact hnew

/-- **After some rounds** the body has been escaped as often. -/
theorem Rounds.stored (h : Rounds env authorId boardId w n w')
    (hstored : Stored w.db boardId authorId title body) :
    Stored w'.db boardId authorId title (sanitize^[n] body) := by
  induction h with
  | zero => exact hstored
  | succ h hsaves ih =>
      rw [Function.iterate_succ_apply']
      exact hsaves.stored ih

/-- A post that is stored can be saved again. -/
theorem exists_saves (hro : env.settings.appReadOnly = false)
    (hstored : Stored w.db boardId authorId title body) (htitle : 1 ≤ title.length)
    (hbody : 1 ≤ body.length) : ∃ w', Saves env authorId boardId w w' := by
  obtain ⟨b, hb, rfl, rfl, rfl⟩ := hstored
  have hcheck := Table.check_of_mem (Table.find?_mem hb)
  have hvalid : varchar 255 b.title ∧ text b.body := by
    simp only [schema, shape, Bool.and_eq_true] at hcheck
    tauto
  have hlength : b.title.length ≤ 255 := of_decide_eq_true (Bool.and_eq_true_iff.mp hvalid.1).2
  let req : BoardWriteRequest :=
    { title := b.title, body := b.body, title_length := ⟨htitle, hlength⟩, body_length := hbody }
  have hget := serve_of_clean (run_get_visible hb : (server env).run (get boardId) {} w = _)
  obtain ⟨hnot, -⟩ | ⟨answer, hanswer, -⟩ := update_stored (w := w.tick.tick.tick) env
    b.authorId req hb
  · exact absurd ⟨rfl, hro, rfl, hvalid.2⟩ hnot
  · have hupdate : (serve env (update b.authorId boardId req)
        (serve env (get boardId) w).2).1 = .ok answer := by
      rw [hget]
      exact hanswer
    exact ⟨_, saves_of (congrArg Prod.fst hget) rfl rfl hupdate⟩

end Rounds

/-- **Saving a post unchanged** leaves it alone, in any number of rounds, exactly if its
body has nothing to escape. One round is enough to see it: a text that a second escape
leaves alone has nothing that the first one replaced. -/
theorem rounds_stable_iff {w : World V D} {authorId : ℤ} {req : BoardWriteRequest}
    {resp : BoardResponse} (hok : (serve env (create authorId req) w).1 = .ok resp) :
    (∀ n w', Rounds env authorId resp.id (serve env (create authorId req) w).2 n w' →
        ∃ b, w'.db.find? .caregiverBoard resp.id = some b ∧ b.body = resp.body) ↔
      ∀ c ∈ req.body.toList, c ∉ markup := by
  obtain ⟨hro, hbody, hstored⟩ := create_stored hok
  constructor
  · intro hstable
    obtain ⟨w', hsaves⟩ := exists_saves hro hstored req.title_length.1
      (length_sanitize req.body_length)
    obtain ⟨b, hb, hsame⟩ := hstable 1 w' (.succ .zero hsaves)
    obtain ⟨b', hb', -, -, hescaped⟩ := hsaves.stored hstored
    cases hb.symm.trans hb'
    exact sanitize_twice_iff.mp (hescaped.symm.trans (hsame.trans hbody))
  · intro hplain n w' hrounds
    obtain ⟨b, hb, -, -, hescaped⟩ := hrounds.stored hstored
    have hfixed : sanitize (sanitize req.body) = sanitize req.body :=
      sanitize_twice_iff.mpr hplain
    rw [Function.iterate_fixed hfixed] at hescaped
    exact ⟨b, hb, hescaped.trans hbody.symm⟩

/-- A greeting without markup. -/
def greeting : BoardWriteRequest := { title := "Hello", body := "good morning" }

/-- The greeting has nothing to escape. -/
theorem rounds_stable_greeting :
    (∀ n (w' : World Unit Unit), Rounds still 1 1
        (serve still (create 1 greeting) (World.fresh Db.sample ())).2 n w' →
        ∃ b, w'.db.find? .caregiverBoard 1 = some b ∧ b.body = "good morning") ↔
      ∀ c ∈ greeting.body.toList, c ∉ markup := by
  have hok : (serve still (create 1 greeting) (World.fresh Db.sample () : World Unit Unit)).1 =
      .ok ⟨1, "Hello", "good morning", some "Worker", 1, true, ⟨0, none⟩, ⟨0, none⟩⟩ := by
    decide +kernel
  exact rounds_stable_iff hok

/-- A post with an ampersand. -/
def research : BoardWriteRequest := { title := "R&D", body := "R&D" }

/-- The post as it is read. -/
def researchRead : BoardWriteRequest := { title := "R&D", body := "R&amp;D" }

/-- **An ampersand grows**: it is stored as an entity, and the entity's ampersand as one more. -/
theorem ampersand_grows :
    (serve still (create 1 research) (World.fresh Db.sample () : World Unit Unit)).1 =
        .ok ⟨1, "R&D", "R&amp;D", some "Worker", 1, true, ⟨0, none⟩, ⟨0, none⟩⟩ ∧
      ∃ w', Saves still 1 1
          (serve still (create 1 research) (World.fresh Db.sample () : World Unit Unit)).2 w' ∧
        (w'.db.find? .caregiverBoard 1).map CaregiverBoard.body = some "R&amp;amp;D" := by
  have hget : (serve still (get 1)
      (serve still (create 1 research) (World.fresh Db.sample () : World Unit Unit)).2).1 =
        .ok ⟨1, "R&D", "R&amp;D", some "Worker", 1, true, ⟨0, none⟩, ⟨0, none⟩⟩ := by
    decide +kernel
  have hupdate : (serve still (update 1 1 researchRead) (serve still (get 1)
      (serve still (create 1 research) (World.fresh Db.sample () : World Unit Unit)).2).2).1 =
        .ok ⟨1, "R&D", "R&amp;amp;D", some "Worker", 1, true, ⟨0, none⟩, ⟨0, none⟩⟩ := by
    decide +kernel
  exact ⟨by decide +kernel, _, saves_of hget rfl rfl hupdate, by decide +kernel⟩

end Rooti

import Mathlib.Algebra.Order.Ring.Int
import Mathlib.Data.List.Perm.Subperm
import Rooti.Core.Database

/-!
# What commands do to transactions

The changes of a session are the statements it has sent or recorded
(`Session.statements`).  A command adds at most the change it records; a flush
only moves statements from one part to the other, or drops them.  The committed
database changes in one place: a commit applies the statements of its session.

## Main definitions

* `Session.statements`, `Cmd.recorded` — the changes of a session and a command
* `exec_statements` — a session's changes after a command
* `exec_db` — the committed database after a command

## Why statements, and not states

A session is followed by the list of its statements alone, up to their order. Whether a
statement has been sent or is still recorded makes no difference to what the commit does
with it, and a flush that fails leaves fewer of them. A property of the database that
every statement keeps is therefore kept by every command of every session
(`exec_maintained`), however sessions interleave and whenever they flush.
-/

namespace Rooti

open Relational Program

variable {V D α : Type}

/-! ## The changes of a session -/

namespace Session

/-- What a session has sent or recorded. -/
def statements (s : Session) : List Statement := s.written ++ s.pending

/-- A new session has no changes. -/
@[simp] theorem statements_empty : ({} : Session).statements = [] := rfl

/-- Inserts, updates and deletes are all there is. -/
theorem filter_kinds_perm (pending : List Statement) :
    (pending.filter (fun d => d matches .insert ..) ++
      (pending.filter (fun d => d matches .update ..) ++
        pending.filter fun d => d matches .delete ..)).Perm pending := by
  induction pending with
  | nil => rfl
  | cons d ds ih =>
      cases d with
      | insert t r => simpa using ih
      | update t k f =>
          refine .trans ?_ (ih.cons _)
          simp
      | delete t k =>
          refine .trans ?_ (ih.cons _)
          simp only [List.filter_cons_of_neg, Bool.false_eq_true, not_false_eq_true,
            List.filter_cons_of_pos, ← List.append_assoc]
          exact List.perm_middle

/-- A flush sends what was recorded, in its own order. -/
theorem flushOrder_perm (pending : List Statement) : (flushOrder pending).Perm pending :=
  (((List.perm_insertionSort _ _).append (List.perm_insertionSort _ _)).append_left _).trans
    (filter_kinds_perm pending)

/-- A flush that succeeds sends everything; one that fails adds nothing. -/
theorem flush_statements (readOnly : Bool) (db : Db) (s : Session) :
    (s.flush readOnly db).2.statements.Subperm s.statements ∧
      ((s.flush readOnly db).1 = .ok () →
        (s.flush readOnly db).2.statements.Perm s.statements ∧
          (s.flush readOnly db).2.pending = []) := by
  have hdrop : List.Subperm ({ s with pending := [], failed := true } : Session).statements
      s.statements := by
    simp only [statements, List.append_nil]
    exact (List.sublist_append_left _ _).subperm
  unfold flush
  split
  · exact ⟨.refl _, fun h => nomatch h⟩
  · split
    · next hpending => exact ⟨.refl _, fun _ => ⟨.refl _, List.isEmpty_iff.mp hpending⟩⟩
    · split
      · exact ⟨hdrop, fun h => nomatch h⟩
      · split
        · exact ⟨hdrop, fun h => nomatch h⟩
        · have hsent : (s.written ++ flushOrder s.pending ++ []).Perm s.statements := by
            rw [List.append_nil]
            exact (flushOrder_perm s.pending).append_left _
          exact ⟨hsent.subperm, fun _ => ⟨hsent, rfl⟩⟩

end Session

/-- The change a command records. -/
def Cmd.recorded (env : Env) (w : World V D) : Cmd V D α → List Statement
  | .add t mk => [.insert t (mk (env.newRow t w))]
  | .modify t row f =>
      if f row = row then []
      else [.update t (keyOf t row) (setUpdatedAt ⟨env.dbClock w.ticks, none⟩ t ∘ f)]
  | .delete t row => [.delete t (keyOf t row)]
  | _ => []

/-- The command is a commit. -/
def Cmd.isCommit : Cmd V D α → Bool
  | .commit => true
  | _ => false

/-- The next command of a script is a commit. -/
def nextIsCommit {α : Type} : Async V D α → Bool
  | .call c _ => c.isCommit
  | _ => false

section Exec

variable (env : Env) (c : Cmd V D α) (s : Session) (w : World V D)

/-- What a commit applies, if it succeeds: the changes of its session. -/
theorem execCommit_db :
    (execCommit env s w).2.2.db = w.db ∨
      ∃ ds, ds.Perm s.statements ∧
        Dml.applyAll ds w.db = .ok (execCommit env s w).2.2.db := by
  have hflush := (s.flush_statements env.settings.appReadOnly w.db).2
  unfold execCommit
  split
  · exact .inl rfl
  · next s' hs =>
      rw [hs] at hflush
      split
      · exact .inl rfl
      · next db hdb =>
          obtain ⟨hperm, hpending⟩ := hflush rfl
          refine .inr ⟨s'.written, ?_, hdb⟩
          rwa [Session.statements, hpending, List.append_nil] at hperm

variable {env c s w} in
/-- A commit that fails leaves the database alone. -/
theorem execCommit_error {e : Err} {s' : Session} {w' : World V D}
    (h : execCommit env s w = (.error e, s', w')) : w'.db = w.db := by
  rcases hflush : s.flush env.settings.appReadOnly w.db with ⟨e' | _, s''⟩ <;>
    simp only [execCommit, hflush] at h
  · cases h
    rfl
  · cases hsent : Dml.applyAll s''.written w.db <;> rw [hsent] at h <;> cases h
    rfl

/-- **The committed database changes by commits only**, and a commit applies the
changes of its session. -/
theorem exec_db :
    (exec env c s w).2.2.db = w.db ∨
      c.isCommit ∧ ∃ ds, ds.Perm s.statements ∧
        Dml.applyAll ds w.db = .ok (exec env c s w).2.2.db := by
  cases c with
  | select binds q =>
      left
      simp only [exec, execSelect]
      split
      · rfl
      · split <;> rfl
  | modify t row f =>
      left
      simp only [exec]
      split <;> rfl
  | redisSet key value ex =>
      left
      simp only [exec]
      split <;> rfl
  | commit => exact (execCommit_db env s w).imp_right fun h => ⟨rfl, h⟩
  | _ => exact .inl rfl

/-- The id sequences only move forward. -/
theorem exec_seq_le (t : Entity) : w.seq t ≤ (exec env c s w).2.2.seq t := by
  cases c with
  | select binds q =>
      simp only [exec, execSelect]
      split
      · exact Int.le_refl _
      · split <;> exact Int.le_refl _
  | add t' mk =>
      show w.seq t ≤ Function.update w.seq t' (w.seq t' + 1) t
      by_cases h : t = t'
      · subst h
        rw [Function.update_self]
        omega
      · rw [Function.update_of_ne h]
  | modify t' row f =>
      simp only [exec]
      split <;> exact Int.le_refl _
  | commit =>
      simp only [exec, execCommit]
      split
      · exact Int.le_refl _
      · split <;> exact Int.le_refl _
  | redisSet key value ex =>
      simp only [exec]
      split <;> exact Int.le_refl _
  | _ => exact Int.le_refl _

/-- **The changes of a session after a command**: at most those before and the
one the command records. -/
theorem exec_statements :
    (exec env c s w).2.1.statements.Subperm (s.statements ++ c.recorded env w) := by
  have hflush := (s.flush_statements env.settings.appReadOnly w.db).1
  have hrecord : ∀ d : Statement,
      ({ s with pending := s.pending ++ [d] } : Session).statements.Subperm
        (s.statements ++ [d]) := fun d => by
    simp [Session.statements, List.Subperm.refl]
  cases c with
  | select binds q =>
      simp only [Cmd.recorded, List.append_nil, exec, execSelect]
      split
      · next h => simpa [h] using hflush
      · next s' h =>
          rw [h] at hflush
          split
          · exact hflush
          · exact hflush
  | add t mk => exact hrecord _
  | modify t row f =>
      simp only [Cmd.recorded, exec]
      split
      · simp [List.Subperm.refl]
      · exact hrecord _
  | delete t row => exact hrecord _
  | flush => simpa [Cmd.recorded, exec] using hflush
  | commit =>
      simp only [Cmd.recorded, List.append_nil, exec, execCommit]
      split
      · next h => simpa [h] using hflush
      · split <;> exact (List.nil_sublist _).subperm
  | rollback => exact (List.nil_sublist _).subperm
  | redisSet key value ex =>
      simp only [Cmd.recorded, List.append_nil, exec]
      split <;> exact .refl _
  | _ => simp [Cmd.recorded, exec, List.Subperm.refl]

end Exec

/-! ## Invariants of the database -/

section Invariant

variable {I : Db → Prop}

/-- The statement keeps the property of the database. -/
def Maintains (I : Db → Prop) (d : Statement) : Prop :=
  ∀ db db', I db → d.apply db = .ok db' → I db'

/-- What each statement keeps, all of them keep. -/
theorem applyAll_maintains {ds : List Statement} (hds : ∀ d ∈ ds, Maintains I d) {db db' : Db}
    (h : Dml.applyAll ds db = .ok db') (hdb : I db) : I db' := by
  induction ds generalizing db with
  | nil =>
      cases h
      exact hdb
  | cons d ds ih =>
      rw [List.forall_mem_cons] at hds
      obtain ⟨db₁, hd, hrest⟩ := Dml.applyAll_cons_eq_ok.mp h
      exact ih hds.2 hrest (hds.1 db db₁ hdb hd)

/-- The committed database has the property, and the session's changes keep it. -/
def Maintained (I : Db → Prop) (s : Session) (w : World V D) : Prop :=
  (∀ d ∈ s.statements, Maintains I d) ∧ I w.db

/-- **A command that records only what keeps the property** keeps it. -/
theorem exec_maintained {env : Env} {c : Cmd V D α} {s : Session} {w : World V D}
    (hc : ∀ d ∈ c.recorded env w, Maintains I d) (h : Maintained I s w) :
    Maintained I (exec env c s w).2.1 (exec env c s w).2.2 := by
  obtain ⟨hstatements, hdb⟩ := h
  constructor
  · intro d hd
    exact (List.mem_append.mp ((exec_statements env c s w).subset hd)).elim (hstatements d) (hc d)
  · obtain hsame | ⟨-, ds, hperm, happly⟩ := exec_db env c s w
    · rw [hsame]
      exact hdb
    · exact applyAll_maintains (fun d hd => hstatements d (hperm.mem_iff.mp hd)) happly hdb

end Invariant

/-- A flush read backwards: it sent everything that was recorded. -/
theorem run_flush_eq_ok {env : Env} {s s' : Session} {w w' : World V D} {u : Unit}
    (h : (server env).run flush s w = (.ok u, s', w')) :
    s'.statements.Perm s.statements ∧ s'.pending = [] ∧ w' = w.tick := by
  rw [flush, Machine.run_lift, server_exec, exec] at h
  obtain ⟨hok, rfl, rfl⟩ : _ ∧ _ ∧ _ := by simpa [Prod.ext_iff] using h
  obtain ⟨hperm, hpending⟩ := (s.flush_statements env.settings.appReadOnly w.db).2 hok
  exact ⟨hperm, hpending, rfl⟩

/-- The flush of a single change. -/
theorem flush_single {d : Statement} {db db' : Db} (h : d.apply db = .ok db') :
    ({ pending := [d] } : Session).flush false db = (.ok (), { written := [d] }) := by
  have horder : Session.flushOrder [d] = [d] := by cases d <;> rfl
  simp [Session.flush, horder, Session.view, h]

/-- The commit of a single change already sent. -/
theorem execCommit_single (env : Env) {d : Statement} {w : World V D} {db' : Db}
    (h : d.apply w.db = .ok db') :
    execCommit env { written := [d] } w = (.ok (), {}, { w.tick with db := db' }) := by
  simp [execCommit, Session.flush, h]

/-- The flush of a single change that is refused. -/
theorem flush_single_refused {d : Statement} {db : Db} {v : Violation}
    (h : d.apply db = .error v) :
    ({ pending := [d] } : Session).flush false db =
      (.error (violationError v), { failed := true }) := by
  have horder : Session.flushOrder [d] = [d] := by cases d <;> rfl
  simp [Session.flush, horder, Session.view, h]

/-- A flush whose statements all succeed. -/
theorem flush_pending {s : Session} {db db₁ db₂ : Db} (hfailed : s.failed = false)
    (hwritten : Dml.applyAll s.written db = .ok db₁)
    (hpending : Dml.applyAll (Session.flushOrder s.pending) db₁ = .ok db₂) :
    s.flush false db = (.ok (),
      { s with written := s.written ++ Session.flushOrder s.pending, pending := [] }) := by
  obtain ⟨written, pending, failed⟩ := s
  dsimp only at hfailed hwritten hpending
  subst hfailed
  cases pending with
  | nil => simp [Session.flush, Session.flushOrder, Session.byKey]
  | cons d ds => simp [Session.flush, Session.view, hwritten, hpending]

/-- A flush with a statement that is refused. -/
theorem flush_refused {s : Session} {db db₁ : Db} {v : Violation} (hfailed : s.failed = false)
    (hwritten : Dml.applyAll s.written db = .ok db₁)
    (hpending : Dml.applyAll (Session.flushOrder s.pending) db₁ = .error v) :
    s.flush false db = (.error (violationError v), { s with pending := [], failed := true }) := by
  obtain ⟨written, pending, failed⟩ := s
  dsimp only at hfailed hwritten hpending
  subst hfailed
  cases pending with
  | nil => simp [Session.flushOrder, Session.byKey] at hpending
  | cons d ds => simp [Session.flush, Session.view, hwritten, hpending]

/-- The commit of changes sent and recorded. -/
theorem execCommit_pending {env : Env} (hro : env.settings.appReadOnly = false) {s : Session}
    {w : World V D} {db₁ db₂ : Db} (hfailed : s.failed = false)
    (hwritten : Dml.applyAll s.written w.db = .ok db₁)
    (hpending : Dml.applyAll (Session.flushOrder s.pending) db₁ = .ok db₂) :
    execCommit env s w = (.ok (), {}, { w.tick with db := db₂ }) := by
  have hall : Dml.applyAll (s.written ++ Session.flushOrder s.pending) w.db = .ok db₂ := by
    rw [Dml.applyAll_append, hwritten]
    exact hpending
  rw [execCommit, hro, flush_pending hfailed hwritten hpending]
  simp only [hall]

/-- A commit with a recorded change that is refused. -/
theorem execCommit_refused {env : Env} (hro : env.settings.appReadOnly = false) {s : Session}
    {w : World V D} {db₁ : Db} {v : Violation} (hfailed : s.failed = false)
    (hwritten : Dml.applyAll s.written w.db = .ok db₁)
    (hpending : Dml.applyAll (Session.flushOrder s.pending) db₁ = .error v) :
    execCommit env s w =
      (.error (violationError v), { s with pending := [], failed := true }, w.tick) := by
  rw [execCommit, hro, flush_refused hfailed hwritten hpending]

/-- A script that does not commit leaves the committed database alone. -/
theorem keeps_committed (env : Env) {p : Async V D α} (hp : p.Only fun c => !c.isCommit)
    (w : World V D) : (server env).Keeps (fun _ w' => w'.db = w.db) p := by
  refine .of_only hp fun c hc s w' hw => ?_
  obtain hdb | ⟨hcommit, -⟩ := exec_db env c s w'
  · exact hdb.trans hw
  · simp [hcommit] at hc

/-- **The database after a request** whose script does not commit by itself: as
before, or with the changes of the session the script returned with. -/
theorem serve_db {env : Env} {p : Async V D α} (hp : p.Only fun c => !c.isCommit)
    (w : World V D) :
    (serve env p w).2.db = w.db ∨
      ∃ a s w', (server env).run p {} w = (.ok a, s, w') ∧ w'.db = w.db ∧
        ∃ ds, ds.Perm s.statements ∧ Dml.applyAll ds w.db = .ok (serve env p w).2.db := by
  have hdb := (keeps_committed env hp w).run (l := {}) (s := w) rfl
  rw [serve_eq]
  rcases hrun : (server env).run p {} w with ⟨e | a, s, w'⟩ <;> rw [hrun] at hdb
  · exact .inl hdb
  · by_cases hro : env.settings.appReadOnly
    · simp only [hro, if_true]
      exact .inl hdb
    · simp only [hro, Bool.false_eq_true, if_false]
      obtain hsame | ⟨ds, hperm, happly⟩ := execCommit_db env s w'
      · left
        rcases hc : execCommit env s w' with ⟨e | _, s', w''⟩ <;> rw [hc] at hsame <;>
          exact hsame.trans hdb
      · right
        refine ⟨a, s, w', rfl, hdb, ds, hperm, ?_⟩
        rw [← show w'.db = w.db from hdb, happly]
        rcases execCommit env s w' with ⟨e | _, s', w''⟩ <;> rfl

/-- **A request that fails is rolled back.** -/
theorem db_of_serve_error {env : Env} {p : Async V D α} (hp : p.Only fun c => !c.isCommit)
    {w : World V D} {e : Err} (h : (serve env p w).1 = .error e) :
    (serve env p w).2.db = w.db := by
  have hdb := (keeps_committed env hp w).run (l := {}) (s := w) rfl
  rw [serve_eq] at h ⊢
  rcases hrun : (server env).run p {} w with ⟨e' | a, s, w'⟩ <;> rw [hrun] at hdb h
  · exact hdb
  · by_cases hro : env.settings.appReadOnly
    · simp only [hro, if_true] at h
      cases h
    · simp only [hro, Bool.false_eq_true, if_false] at h ⊢
      rcases hcommit : execCommit env s w' with ⟨e' | _, s', w''⟩ <;> rw [hcommit] at h
      · exact (execCommit_error hcommit).trans hdb
      · cases h

/-- The end of a request that has recorded nothing. -/
theorem serve_of_clean {env : Env} {p : Async V D α} {a : α} {w w' : World V D}
    (h : (server env).run p {} w = (.ok a, {}, w')) : serve env p w = (.ok a, w'.tick) := by
  rw [serve_eq, h]
  by_cases hro : env.settings.appReadOnly <;> simp [hro]

/-- The end of a request whose script fails. -/
theorem serve_of_error {env : Env} {p : Async V D α} {e : Err} {s : Session} {w w' : World V D}
    (h : (server env).run p {} w = (.error e, s, w')) : serve env p w = (.error e, w'.tick) := by
  rw [serve_eq, h]

/-- The end of a request that adds one row. -/
theorem serve_of_insert {env : Env} (hro : env.settings.appReadOnly = false) {p : Async V D α}
    {t : Entity} {mk : NewRow → Row t} {f : NewRow → α} {w w' : World V D} {db' : Db}
    (hrun : (server env).run p {} w =
      (server env).run (Prog.bind (add t mk) fun new => Prog.bind flush fun _ => .ret (f new)) {} w')
    (happly : (Dml.insert t (mk (env.newRow t w')) : Statement).apply w'.db = .ok db') :
    (serve env p w).1 = .ok (f (env.newRow t w')) ∧ (serve env p w).2.db = db' := by
  rw [run_add_bind, run_flush_bind, hro, List.nil_append, World.tick_db, flush_single happly] at hrun
  rw [serve_eq, hrun]
  simp only [hro, Machine.run_ret, Bool.false_eq_true, if_false]
  have hcommit := execCommit_single env (w := ({ w'.tick with
    seq := Function.update w'.seq t (w'.seq t + 1) } : World V D).tick) happly
  rw [hcommit]
  exact ⟨rfl, rfl⟩

/-- The end of a request that changes one row. -/
theorem serve_of_modify {env : Env} (hro : env.settings.appReadOnly = false) {p : Async V D α}
    {t : Entity} {row : Row t} {f : Row t → Row t} {a : α} {w w' : World V D} {db' : Db}
    (hrun : (server env).run p {} w =
      (server env).run (Prog.bind (modify t row f) fun _ => .ret a) {} w') (hne : f row ≠ row)
    (happly : (Dml.update t (keyOf t row) (setUpdatedAt ⟨env.dbClock w'.ticks, none⟩ t ∘ f) :
      Statement).apply w'.db = .ok db') :
    (serve env p w).1 = .ok a ∧ (serve env p w).2.db = db' := by
  rw [run_modify_bind, if_neg hne, List.nil_append] at hrun
  have hcommit : execCommit env { pending := [.update t (keyOf t row)
      (setUpdatedAt ⟨env.dbClock w'.ticks, none⟩ t ∘ f)] } w'.tick =
      (.ok (), {}, { w'.tick.tick with db := db' }) :=
    execCommit_pending hro rfl rfl ((Dml.applyAll_singleton _ _).trans happly)
  rw [serve_eq, hrun]
  simp only [hro, Machine.run_ret, Bool.false_eq_true, if_false]
  rw [hcommit]
  exact ⟨rfl, rfl⟩

/-- The end of a transaction leaves Redis alone. -/
theorem serve_redis (env : Env) (p : Async V D α) (w : World V D) :
    (serve env p w).2.redis = ((server env).run p {} w).2.2.redis ∧
      ((server env).run p {} w).2.2.ticks ≤ (serve env p w).2.ticks := by
  rw [serve_eq]
  rcases (server env).run p {} w with ⟨e | a, s, w'⟩
  · exact ⟨rfl, Nat.le_succ _⟩
  · by_cases hro : env.settings.appReadOnly
    · simp [hro]
    · have hcommit : (execCommit env s w').2.2.redis = w'.redis ∧
          (execCommit env s w').2.2.ticks = w'.ticks + 1 := by
        unfold execCommit
        split
        · exact ⟨rfl, rfl⟩
        · split <;> exact ⟨rfl, rfl⟩
      simp only [hro, Bool.false_eq_true, if_false]
      rcases hc : execCommit env s w' with ⟨e | _, s', w''⟩ <;> rw [hc] at hcommit <;>
        exact ⟨hcommit.1, by simp only [World.tick_ticks] at hcommit ⊢; omega⟩

/-- A query of a session without changes reads the committed database. -/
theorem execSelect_clean {env : Env} {binds : List Bind} {q : RowOrder → Db → α} {s : Session}
    {w : World V D} {a : α} (hs : s.statements = [])
    (h : (execSelect env binds q s w).1 = .ok a) : a = q (env.rowOrder w.ticks) w.db := by
  obtain ⟨hwritten, hpending⟩ := List.append_eq_nil_iff.mp hs
  unfold execSelect Session.flush at h
  simp only [hpending, List.isEmpty_nil, if_true] at h
  split at h
  · cases h
  · next s' hs' =>
      split at hs'
      · cases hs'
      · cases hs'
        split at h
        · rw [← Except.ok.inj h, Session.view, hwritten]
          rfl
        · cases h

end Rooti

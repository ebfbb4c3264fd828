import Mathlib.Data.Fintype.Basic
import Mathlib.Data.List.Permutation
import Rooti.Core.Holding
import Rooti.Lib.Protocol
import Rooti.Services.Leave

/-!
# Comments of concurrent decisions

A decision loads its leave, computes a new reason from the one it has read, and writes it
when it commits; nothing locks the row in between.  Two decisions that both load the leave
before either commits leave one comment (`comment_lost`).

While no decision commits between another's read and commit, the decisions take effect one
after the other in the order of their commits (`comments_kept`).

## Main definitions

* `Decision`, `Decision.pool` — concurrent decisions with comments
* `joinedReason` — a reason followed by comments
* `CommentsKept` — what the leave says after all have committed
* `DecideStage`, `decideProtocol` — how far a decision is
* `CommitsAlone` — commits with no other decision between its read and its commit

## What carries the proof

`Serial` says that the decisions committed so far can be put in an order in which they
have been taken one after the other, and that whoever has loaded the leave has loaded
the one of now. The second part is what a commit by somebody else breaks: the reason
that is written has been computed from what was loaded. `CommitsAlone` excludes just
these commits, so a step either leaves the leave alone or adds its decision to the end
of the order.

A comment that is not empty changes the reason (`decidedReason_ne`), so every decision
writes, and the comments can be told apart in what is stored (`foldl_reason`).
-/

namespace Rooti

open Relational Program

variable {V D ι : Type}

/-! ## Reasons -/

/-- A reason followed by comments, which are separated by dots. -/
def joinedReason (reason : Option String) (comments : List String) : Option String :=
  if comments = [] then reason
  else some (" · ".intercalate (reason.toList.filter (· ≠ "") ++ comments))

/-- The parts of a joined reason. -/
theorem joinedReason_concat (reason : Option String) (cs : List String) (c : String) :
    joinedReason reason (cs ++ [c]) =
      some (" · ".intercalate (reason.toList.filter (· ≠ "") ++ cs ++ [c])) := by
  rw [joinedReason, if_neg (List.append_ne_nil_of_right_ne_nil _ (List.cons_ne_nil c []))]
  rw [List.append_assoc]

/-- **A comment is appended** to a reason that has been joined. -/
theorem decidedReason_joined {reason : Option String} {cs : List String} {c : String}
    (hcs : ∀ s ∈ cs, s ≠ "") (hc : c ≠ "") :
    decidedReason (some c) (joinedReason reason cs) = joinedReason reason (cs ++ [c]) := by
  have htruthy : Py.truthy (some c) = true := decide_eq_true hc
  rw [joinedReason_concat, decidedReason, if_pos htruthy]
  obtain rfl | ⟨cs, s, rfl⟩ := List.eq_nil_or_concat' cs
  · rw [joinedReason, if_pos rfl, List.append_nil]
    cases reason with
    | none => rfl
    | some r =>
        by_cases hr : r = ""
        · subst hr
          rfl
        · have hfilter : [r].filter (· ≠ "") = [r] := List.filter_eq_self.mpr (by simpa using hr)
          simp only [Py.truthy, Option.any_some, Option.toList_some, hfilter, hr, ne_eq,
            not_false_eq_true, decide_true, if_true, Option.getD_some, List.cons_append,
            List.nil_append, String.intercalate_cons_cons, String.intercalate_singleton]
  · have hs : s ≠ "" := hcs s (List.mem_append_right _ (List.mem_singleton_self s))
    -- the reason so far ends with a comment, so it is not empty
    have hjoined : Py.truthy (joinedReason reason (cs ++ [s])) = true := by
      rw [joinedReason_concat, Py.truthy, Option.any_some, decide_eq_true_eq]
      by_cases hempty : reason.toList.filter (· ≠ "") ++ cs = []
      · rw [hempty, List.nil_append, String.intercalate_singleton]
        exact hs
      · rw [String.intercalate_append_of_ne_nil hempty (List.cons_ne_nil s []),
          String.intercalate_singleton]
        exact fun h => hs (String.append_eq_empty_iff.mp h).2
    rw [if_pos hjoined, joinedReason_concat, ← List.append_assoc,
      String.intercalate_append_of_ne_nil (m := [c]) (by simp) (List.cons_ne_nil c []),
      String.intercalate_singleton]
    rfl

/-- A comment changes the reason. -/
theorem decidedReason_ne {reason : Option String} {c : String} (hc : c ≠ "") :
    decidedReason (some c) reason ≠ reason := by
  have htruthy : Py.truthy (some c) = true := decide_eq_true hc
  rw [decidedReason, if_pos htruthy]
  split
  · next hreason =>
      obtain _ | r := reason
      · cases hreason
      · intro h
        have hlength := congrArg String.length (Option.some.inj h)
        simp only [Option.getD_some, String.length_append] at hlength
        have hdot : (" · " : String).length = 3 := by decide
        omega
  · next hreason => exact fun h => hreason (h ▸ htruthy)

/-! ## Decisions -/

/-- **A decision with a comment.** -/
structure Decision where
  status : LeaveStatus
  comment : String
  nonempty : comment ≠ ""
  companyScope : CompanyScopeValue := none

namespace Decision

/-- What a decision makes of a leave nobody else writes. -/
def apply (d : Decision) (l : Leave) : Leave := l.decided d.status (some d.comment) l

variable (d : Decision) (l : Leave)

/-- The leave has the status of the last decision. -/
theorem apply_status : (d.apply l).status = d.status := by
  show (if d.status = l.status then l.status else d.status) = d.status
  split
  · next h => exact h.symm
  · rfl

/-- Its reason is computed from the one before. -/
theorem apply_reason : (d.apply l).reason = decidedReason (some d.comment) l.reason :=
  if_pos (decide_eq_true d.nonempty)

/-- Decisions one after the other join their comments. -/
theorem foldl_reason (ds : List Decision) (l : Leave) :
    (ds.foldl (fun l d => d.apply l) l).reason = joinedReason l.reason (ds.map comment) := by
  induction ds using List.reverseRecOn with
  | nil => rfl
  | append_singleton ds d ih =>
      rw [List.foldl_concat, apply_reason, ih, List.map_append]
      refine decidedReason_joined (fun s hs => ?_) d.nonempty
      obtain ⟨d', -, rfl⟩ := List.mem_map.mp hs
      exact d'.nonempty

/-- Concurrent decisions on a leave, none of which has done anything yet. -/
def pool (env : Env) (leaveId : ℤ) (ds : ι → Decision) (w : World V D) :
    Pool (Cmd V D) Err Session (World V D) ι LeaveResponse where
  prog := fun i => getDbSession env
    (LeaveService.decide leaveId (ds i).status (some (ds i).comment) (ds i).companyScope)
  loc := fun _ => {}
  shared := w

end Decision

/-- **No comment is lost**: the leave says what it said before and then all comments in
some order, and has the status of the decision whose comment comes last. -/
def CommentsKept (ds : ι → Decision) (before after : Leave) : Prop :=
  ∃ order : List ι, order.Nodup ∧ (∀ i, i ∈ order) ∧
    after.reason = joinedReason before.reason (order.map fun i => (ds i).comment) ∧
    ∀ i, order.getLast? = some i → after.status = (ds i).status

/-! ## How far a decision is -/

/-- **How far a decision is.** -/
inductive DecideStage
  /-- the leave has not been loaded -/
  | reading (d : Decision)
  /-- the leave has been loaded -/
  | loaded (d : Decision) (l : Leave)
  /-- the assignments to the loaded leave have been recorded -/
  | deciding (d : Decision) (l : Leave)
  /-- the decision has been committed -/
  | decided
  /-- nothing will be committed any more -/
  | gone

namespace DecideStage

/-- The decision a stage is about. -/
def decision : DecideStage → Option Decision
  | reading d | loaded d _ | deciding d _ => some d
  | decided | gone => none

/-- The leave that has been loaded and is not written yet. -/
def leave : DecideStage → Option Leave
  | loaded _ l | deciding _ l => some l
  | reading _ | decided | gone => none

/-- The stage after the leave was looked up. -/
def afterLoad (d : Decision) : Option Leave → DecideStage
  | some l => loaded d l
  | none => gone

variable (leaveId : ℤ) {β : Type}

/-- The stage after a command met a state of the database and was answered. -/
def next (q : DecideStage) (c : Cmd V D β) (w : World V D) (r : Except Err β) : DecideStage :=
  match q, c, r with
  | .deciding _ _, .commit, .ok _ => .decided
  | .reading d, .select .., .ok _ => afterLoad d (w.db.find? .leave leaveId)
  | .loaded d l, .modify .., .ok _ => .deciding d l
  | .deciding d l, .select .., .ok _ => .deciding d l
  | .decided, _, _ => .decided
  | _, _, _ => .gone

/-- The statement of a decision. -/
def statement (d : Decision) (l : Leave) : Statement :=
  .update .leave leaveId (l.decided d.status (some d.comment))

/-- The commands allowed in a stage. -/
def allowed (q : DecideStage) (c : Cmd V D β) : Prop :=
  match c with
  | .select .. => (∃ d, q = .reading d) ∨ ∃ d l, q = .deciding d l
  | .modify t row f => f row ≠ row ∧ ∃ d l, q = .loaded d l ∧ ∀ now,
      (.update t (keyOf t row) (setUpdatedAt now t ∘ f) : Statement) = statement leaveId d l
  | .commit => ∃ d l, q = .deciding d l
  | .rollback => q ≠ .decided
  | _ => False

/-- The changes a session holds in a stage. -/
def holds (q : DecideStage) (s : Session) : Prop :=
  match q with
  | reading _ | loaded _ _ => s.statements = []
  | deciding d l => s.statements = [statement leaveId d l]
  | decided | gone => True

end DecideStage

/-- **The protocol of decisions.** -/
def decideProtocol (leaveId : ℤ) : Protocol (Cmd V D) Err (World V D) DecideStage where
  next := DecideStage.next leaveId
  allowed := DecideStage.allowed leaveId

/-- What a decision may rely on: its session holds what its stage says. -/
def DecideInv (leaveId : ℤ) (q : DecideStage) (s : Session) (_ : World V D) : Prop :=
  q.holds leaveId s

/-- A commit that succeeds applies the changes of its session. -/
theorem execCommit_ok {env : Env} {s s' : Session} {w w' : World V D} {u : Unit}
    (h : execCommit env s w = (.ok u, s', w')) :
    ∃ ds, ds.Perm s.statements ∧ Dml.applyAll ds w.db = .ok w'.db := by
  have hflush := (s.flush_statements env.settings.appReadOnly w.db).2
  unfold execCommit at h
  split at h
  · cases h
  · next s'' hs =>
      rw [hs] at hflush
      split at h
      · cases h
      · next db hdb =>
          cases h
          obtain ⟨hperm, hpending⟩ := hflush rfl
          rw [Session.statements, hpending, List.append_nil] at hperm
          exact ⟨_, hperm, hdb⟩

/-- A query that succeeds has sent what its session held back. -/
theorem exec_select_ok {env : Env} {α : Type} {binds : List Bind} {qry : RowOrder → Db → α}
    {s : Session} {w : World V D} {a : α} (h : (exec env (.select binds qry) s w).1 = .ok a) :
    (exec env (.select binds qry) s w).2.1.statements.Perm s.statements := by
  have hflush := (s.flush_statements env.settings.appReadOnly w.db).2
  simp only [exec, execSelect] at h ⊢
  split at h
  · cases h
  · next s' hs =>
      rw [hs] at hflush
      split at h
      · next hbinds =>
          simp only [hbinds, if_true]
          exact (hflush rfl).1
      · cases h

/-! ## The scripts follow the protocol -/

section Follows

variable {env : Env} {leaveId : ℤ}

/-- A script that has returned has recorded its decision. -/
def DecideStage.done {α : Type} (q : DecideStage) (r : Except Err α) : Prop :=
  match r with
  | .ok _ => ∃ d l, q = .deciding d l
  | .error _ => q ≠ .decided

/-- The part of a decision after its leave has been loaded. -/
theorem follows_assign (d : Decision) (l : Leave) (hid : l.id = leaveId) :
    (server env).Follows (decideProtocol leaveId) (DecideInv leaveId)
      (Prog.bind (assertCompany d.companyScope (some l.companyId)) fun _ =>
        Prog.bind (modify .leave l (l.decided d.status (some d.comment))) fun _ =>
          LeaveService.getResponse leaveId : Async V D LeaveResponse)
      (.loaded d l) DecideStage.done := by
  refine .bind (.raiseIf (fun _ => .bind ?_) fun _ h => by cases h)
  have hchanges : l.decided d.status (some d.comment) l ≠ l := by
    intro hsame
    exact decidedReason_ne d.nonempty ((d.apply_reason l).symm.trans (congrArg Leave.reason hsame))
  refine .lift ⟨hchanges, d, l, rfl, fun now => by rw [← hid]; rfl⟩ fun s w _ => ?_
  rw [server_exec, exec, if_neg hchanges]
  refine .bind (.lift (.inr ⟨d, l, rfl⟩) fun s w _ => ?_)
  rw [server_exec]
  cases (exec env (.select [.int leaveId] fun o db =>
    o.scan (leaveRows db fun row => row.leave.id = leaveId)) s w).1 with
  | error e => exact fun h => by cases h
  | ok rows =>
      rcases rows with _ | ⟨row, _ | ⟨_, _⟩⟩
      · exact fun h => by cases h
      · exact ⟨d, l, rfl⟩
      · exact fun h => by cases h

/-- A decision loads its leave, and assigns to what it has loaded. -/
theorem follows_decide (d : Decision) :
    (server env).Follows (decideProtocol leaveId) (DecideInv leaveId)
      (LeaveService.decide leaveId d.status (some d.comment) d.companyScope :
        Async V D LeaveResponse) (.reading d) DecideStage.done := by
  refine .bind (.lift (.inl ⟨d, rfl⟩) fun s w h => ?_)
  rw [server_exec]
  cases hr : (exec env (.select [.int leaveId] fun _ db => db.find? .leave leaveId) s w).1 with
  | error e => exact nofun
  | ok found =>
      have hfound : found = w.db.find? .leave leaveId := execSelect_clean h hr
      change (server env).Follows _ _ _ (DecideStage.afterLoad d (w.db.find? .leave leaveId)) _
      rw [← hfound]
      cases found with
      | none => exact nofun
      | some l => exact follows_assign d l (Table.find?_key hfound.symm)

/-- A request ends with its decision committed, or with none. -/
theorem follows_request (hro : env.settings.appReadOnly = false) (d : Decision) :
    (server env).Follows (decideProtocol leaveId) (DecideInv leaveId)
      (getDbSession env
        (LeaveService.decide leaveId d.status (some d.comment) d.companyScope) :
        Async V D LeaveResponse) (.reading d) fun q r => ∀ a, r = .ok a → q = .decided := by
  have hrollback : ∀ (q : DecideStage) e, q ≠ .decided →
      (server env).Follows (decideProtocol leaveId) (DecideInv leaveId)
        (Prog.bind rollback fun _ => Prog.raise e : Async V D LeaveResponse) q
        fun q r => ∀ a, r = .ok a → q = .decided :=
    fun q e hq => ⟨hq, fun _ _ _ => Machine.Follows.raise fun _ h => nomatch h⟩
  refine .handle (.bind ((follows_decide d).weaken fun q r h => ?_))
  cases r with
  | error e => exact hrollback q e h
  | ok a =>
      obtain ⟨d, l, rfl⟩ := h
      have hend : (endTransaction env : Async V D Unit) = commit := if_neg (by rw [hro]; decide)
      rw [hend]
      refine .bind ?_
      refine .lift ⟨d, l, rfl⟩ fun s w _ => ?_
      rw [server_exec]
      cases (exec env .commit s w).1 with
      | error e => exact hrollback _ e nofun
      | ok _ => exact fun _ _ => rfl

end Follows

/-! ## What one command does -/

section Step

variable {env : Env} {leaveId : ℤ} {β : Type} {c : Cmd V D β} {q : DecideStage} {s : Session}
  {w : World V D}

variable (env) in
/-- **The session holds what the next stage says.** -/
theorem DecideStage.holds_next (h : q.holds leaveId s) (hc : q.allowed leaveId c) :
    (q.next leaveId c w (exec env c s w).1).holds leaveId (exec env c s w).2.1 := by
  have hs := exec_statements env c s w
  cases c with
  | select binds qry =>
      obtain ⟨d, rfl⟩ | ⟨d, l, rfl⟩ := hc
      · cases (exec env (.select binds qry) s w).1 with
        | error e => trivial
        | ok a =>
            show (afterLoad d _).holds leaveId _
            cases w.db.find? .leave leaveId with
            | none => trivial
            | some l => exact List.subperm_nil.mp (by simpa [Cmd.recorded, show _ = [] from h] using hs)
      · cases hr : (exec env (.select binds qry) s w).1 with
        | error e => trivial
        | ok a => exact List.perm_singleton.mp ((exec_select_ok hr).trans (.of_eq h))
  | modify t row f =>
      obtain ⟨hne, d, l, rfl, hstatement⟩ := hc
      have hnil : s.statements = [] := h
      rw [Session.statements, List.append_eq_nil_iff] at hnil
      rw [exec, if_neg hne]
      show s.written ++ (s.pending ++ [_]) = [statement leaveId d l]
      rw [hnil.1, hnil.2, hstatement]
      rfl
  | commit =>
      obtain ⟨d, l, rfl⟩ := hc
      cases (exec env .commit s w).1 <;> trivial
  | rollback => cases q <;> trivial
  | _ => exact hc.elim

/-- A decision stays the request's own. -/
theorem DecideStage.decision_next {r : Except Err β} {d : Decision}
    (h : (q.next leaveId c w r).decision = some d) : q.decision = some d := by
  unfold next at h
  split at h
  · cases h
  · cases hfound : w.db.find? .leave leaveId <;> rw [hfound] at h
    · cases h
    · exact h
  · exact h
  · exact h
  · cases h
  · cases h

/-- A leave that is held has been held, or is the current one. -/
theorem DecideStage.leave_next {r : Except Err β} {l : Leave}
    (h : (q.next leaveId c w r).leave = some l) :
    q.leave = some l ∨ w.db.find? .leave leaveId = some l := by
  unfold next at h
  split at h
  · cases h
  · right
    cases hfound : w.db.find? .leave leaveId <;> rw [hfound] at h <;> cases h
    rfl
  · exact .inl h
  · exact .inl h
  · cases h
  · cases h

/-- What is committed stays so. -/
theorem DecideStage.next_decided {r : Except Err β} :
    (DecideStage.decided).next leaveId c w r = .decided := by
  cases c <;> rfl

variable (env) in
/-- **The leave after a command**: nothing has been committed, or a decision has, and then
the assignments to the leave it had loaded. -/
theorem exec_decided (h : q.holds leaveId s) (hc : q.allowed leaveId c) :
    ((exec env c s w).2.2.db = w.db ∧
      (q.next leaveId c w (exec env c s w).1 = .decided → q = .decided)) ∨
    ∃ d l, q = .deciding d l ∧ c.isCommit ∧ q.next leaveId c w (exec env c s w).1 = .decided ∧
      Changed .leave leaveId (l.decided d.status (some d.comment)) w.db
        (exec env c s w).2.2.db := by
  cases c with
  | commit =>
      obtain ⟨d, l, rfl⟩ := hc
      rcases hrun : exec env .commit s w with ⟨e | u, s', w'⟩
      · exact .inl ⟨execCommit_error hrun, fun hnext => by cases hnext⟩
      · refine .inr ⟨d, l, rfl, rfl, rfl, ?_⟩
        obtain ⟨ds, hperm, happly⟩ := execCommit_ok hrun
        obtain rfl := List.perm_singleton.mp (hperm.trans (.of_eq h))
        rw [Dml.applyAll_singleton] at happly
        obtain ⟨-, hrows, hothers⟩ := Dml.update_ok happly
        exact ⟨hrows, hothers⟩
  | select binds qry =>
      left
      obtain hdb | ⟨hcommit, -⟩ := exec_db env (.select binds qry) s w
      · refine ⟨hdb, ?_⟩
        obtain ⟨d, rfl⟩ | ⟨d, l, rfl⟩ := hc <;> cases (exec env (.select binds qry) s w).1
        · exact fun hnext => by cases hnext
        · show DecideStage.afterLoad d _ = .decided → _
          cases w.db.find? .leave leaveId <;> exact fun hnext => by cases hnext
        · exact fun hnext => by cases hnext
        · exact fun hnext => by cases hnext
      · cases hcommit
  | modify t row f =>
      left
      obtain ⟨hne, d, l, rfl, -⟩ := hc
      obtain hdb | ⟨hcommit, -⟩ := exec_db env (.modify t row f) s w
      · rw [exec, if_neg hne] at hdb ⊢
        exact ⟨rfl, fun hnext => by cases hnext⟩
      · cases hcommit
  | rollback =>
      refine .inl ⟨rfl, ?_⟩
      cases q with
      | decided => exact fun _ => rfl
      | _ => exact fun hnext => by cases hnext
  | _ => exact hc.elim

end Step

/-! ## Concurrent decisions -/

section Pool

/-- The same decisions with their stages recorded. -/
def Decision.watched (env : Env) (leaveId : ℤ) (ds : ι → Decision) (w : World V D) :
    Pool (Cmd V D) Err (Session × DecideStage) (World V D) ι LeaveResponse where
  prog := (Decision.pool env leaveId ds w).prog
  loc := fun i => ({}, .reading (ds i))
  shared := w

/-- **A decision commits while no other is between its read and its commit.** -/
def CommitsAlone (p : Pool (Cmd V D) Err (Session × DecideStage) (World V D) ι LeaveResponse)
    (i : ι) : Prop :=
  nextIsCommit (p.prog i) → ∀ j, j ≠ i → (p.stage j).leave = none

instance [Fintype ι] [DecidableEq ι]
    (p : Pool (Cmd V D) Err (Session × DecideStage) (World V D) ι LeaveResponse) (i : ι) :
    Decidable (CommitsAlone p i) :=
  inferInstanceAs (Decidable (nextIsCommit (p.prog i) → ∀ j, j ≠ i → (p.stage j).leave = none))

/-- **The invariant of concurrent decisions**: a leave that is held is the current one, and
that is what the committed decisions make of the first one, one after the other. -/
structure Serial (env : Env) (leaveId : ℤ) (ds : ι → Decision) (l₀ : Leave)
    (p : Pool (Cmd V D) Err (Session × DecideStage) (World V D) ι LeaveResponse) : Prop where
  follows : p.Follows (server env) (decideProtocol leaveId) (DecideInv leaveId)
    fun _ q r => ∀ a, r = .ok a → q = .decided
  own : ∀ i d, (p.stage i).decision = some d → d = ds i
  current : ∀ i l, (p.stage i).leave = some l → p.shared.db.find? .leave leaveId = some l
  order : ∃ order : List ι, order.Nodup ∧ (∀ i, i ∈ order ↔ p.stage i = .decided) ∧
    p.shared.db.find? .leave leaveId = some ((order.map ds).foldl (fun l d => d.apply l) l₀)

variable {env : Env} {leaveId : ℤ} {ds : ι → Decision} {l₀ : Leave} [DecidableEq ι]
  {p : Pool (Cmd V D) Err (Session × DecideStage) (World V D) ι LeaveResponse}

/-- **A step of a decision** whose commit meets no other decision. -/
theorem Serial.step {i : ι} (hok : CommitsAlone p i) (h : Serial env leaveId ds l₀ p) :
    Serial env leaveId ds l₀
      (Pool.step ((server env).watch (decideProtocol leaveId)) p i) := by
  obtain ⟨-, hp⟩ | ⟨β, c, cont, hprog, hallowed, hshared, hloc, hstage⟩ := h.follows.step_cases i
  · rwa [hp]
  have hholds : (p.stage i).holds leaveId (p.loc i).1 := (h.follows i).1
  have heffect := exec_decided env (w := p.shared) hholds hallowed
  have hnext := DecideStage.holds_next env (w := p.shared) hholds hallowed
  rw [server_exec] at hshared hstage
  rw [← hshared] at heffect
  have hothers : ∀ j, j ≠ i →
      (Pool.step ((server env).watch (decideProtocol leaveId)) p i).stage j = p.stage j :=
    fun j hj => by rw [hstage, Function.update_of_ne hj]
  have hself : (Pool.step ((server env).watch (decideProtocol leaveId)) p i).stage i =
      (p.stage i).next leaveId c p.shared (exec env c (p.loc i).1 p.shared).1 := by
    rw [hstage, Function.update_self]
    rfl
  -- first what the others keep: their stages, and with them what their sessions hold
  refine ⟨h.follows.step fun j => ?_, fun j d hd => ?_, fun j l hl => ?_, ?_⟩
  · rw [hloc j]
    by_cases hj : j = i
    · subst hj
      rw [if_pos rfl, hself]
      exact hnext
    · rw [if_neg hj, hothers j hj]
      exact (h.follows j).1
  · by_cases hj : j = i
    · subst hj
      rw [hself] at hd
      exact h.own j d (DecideStage.decision_next hd)
    · rw [hothers j hj] at hd
      exact h.own j d hd
  · obtain ⟨hdb, -⟩ | ⟨d, l', -, hcommit, hdecided, -⟩ := heffect
    · rw [hdb]
      by_cases hj : j = i
      · subst hj
        rw [hself] at hl
        exact (DecideStage.leave_next hl).elim (h.current j l) id
      · rw [hothers j hj] at hl
        exact h.current j l hl
    · -- nobody holds a leave after a commit
      by_cases hj : j = i
      · subst hj
        rw [hself, hdecided] at hl
        cases hl
      · have hnone := hok (by rw [hprog]; exact hcommit) j hj
        rw [hothers j hj, hnone] at hl
        cases hl
  -- the order grows by the decision that has just committed, and by nothing else
  · obtain ⟨order, hnodup, hmem, hfound⟩ := h.order
    obtain ⟨hdb, hold⟩ | ⟨d, l, hi, -, hdecided, hchanged⟩ := heffect
    · refine ⟨order, hnodup, fun j => ?_, hdb ▸ hfound⟩
      by_cases hj : j = i
      · subst hj
        rw [hself, hmem]
        refine ⟨fun hd => ?_, hold⟩
        rw [hd]
        exact DecideStage.next_decided
      · rw [hothers j hj]
        exact hmem j
    · obtain rfl : d = ds i := h.own i d (by rw [hi]; rfl)
      -- what it had loaded is still what the table has, so nothing decided before is
      -- overwritten
      have hl : l = (order.map ds).foldl (fun l d => d.apply l) l₀ :=
        Option.some.inj ((h.current i l (by rw [hi]; rfl)).symm.trans hfound)
      have hnew : i ∉ order := by
        rw [hmem, hi]
        exact nofun
      refine ⟨order ++ [i], ?_, fun j => ?_, ?_⟩
      · exact List.nodup_append.mpr ⟨hnodup, List.nodup_singleton i, fun j hj k hk => by
          rintro rfl
          exact hnew (List.mem_singleton.mp hk ▸ hj)⟩
      · rw [List.mem_append, List.mem_singleton]
        by_cases hj : j = i
        · subst hj
          rw [hself, hdecided]
          exact iff_of_true (.inr rfl) rfl
        · rw [hothers j hj, hmem j]
          exact or_iff_left hj
      · rw [hchanged.find? (fun _ => rfl), hfound, Option.map_some, if_pos rfl, ← hl,
          List.map_append, List.foldl_append, ← hl]
        rfl

/-- Concurrent decisions after the commands of a schedule. -/
abbrev Decision.playAll (env : Env) (leaveId : ℤ) (ds : ι → Decision) (w : World V D)
    (sched : List ι) : Pool (Cmd V D) Err Session (World V D) ι LeaveResponse :=
  Pool.play (server env) (Decision.pool env leaveId ds w) sched

/-- **No comment is lost** in a schedule in which every decision commits while no other one
is between its read and its commit. -/
theorem comments_kept (hro : env.settings.appReadOnly = false) (ds : ι → Decision)
    {w₀ : World V D} (hleave : w₀.db.find? .leave leaveId = some l₀) {sched : List ι}
    (hsched : Pool.Guarded ((server env).watch (decideProtocol leaveId)) CommitsAlone
      (Decision.watched env leaveId ds w₀) sched)
    (hall : ∀ i, ∃ a, (Decision.playAll env leaveId ds w₀ sched).Returned i a) :
    ∃ l, (Decision.playAll env leaveId ds w₀ sched).shared.db.find? .leave leaveId = some l ∧
      CommentsKept ds l₀ l := by
  have hinit : Serial env leaveId ds l₀ (Decision.watched env leaveId ds w₀) := by
    refine ⟨fun i => ⟨rfl, follows_request hro (ds i)⟩, fun i d hd => ?_, fun i l hl => ?_, ?_⟩
    · exact (Option.some.inj hd).symm
    · cases hl
    · exact ⟨[], List.nodup_nil, fun i => iff_of_false List.not_mem_nil nofun, hleave⟩
  have h := Pool.Guarded.invariant (I := Serial env leaveId ds l₀) (fun p i hok hp => hp.step hok)
    hinit hsched
  obtain ⟨order, hnodup, hmem, hfound⟩ := h.order
  rw [Pool.play_watch_shared] at hfound
  refine ⟨_, hfound, order, hnodup, fun i => ?_, ?_, fun i hi => ?_⟩
  · obtain ⟨a, ha⟩ := hall i
    rw [hmem]
    exact h.follows.returned ((Pool.play_watch_prog sched i).trans ha) a rfl
  · rw [Decision.foldl_reason, List.map_map]
    rfl
  · obtain ⟨front, rfl⟩ := List.getLast?_eq_some_iff.mp hi
    rw [List.map_append, List.foldl_append]
    exact (ds i).apply_status _

/-- A leave that is waiting for a decision. -/
def waitingLeave : Leave :=
  ⟨1, 1, 1, .annual, ⟨0⟩, ⟨1⟩, 2, .pending, some "wedding", none, ⟨0, none⟩⟩

/-- A company, a worker and the leave. -/
def Db.waiting : Db := Db.ofStatements
  [.insert .company ⟨1, "Workshop", none, true, none, none, none, none, none⟩,
    .insert .user ⟨1, "worker", none, "", "Worker", none, .worker, true, none⟩,
    .insert .challengedWorker ⟨1, 1, none, none⟩,
    .insert .leave waitingLeave]

/-- One approves, one rejects. -/
def twoDecisions : Fin 2 → Decision
  | 0 => { status := .approved, comment := "fine", nonempty := by decide }
  | 1 => { status := .rejected, comment := "too short", nonempty := by decide }

/-- The leave is there. -/
theorem waiting_found : (World.fresh Db.waiting () : World Unit Unit).db.find? .leave 1 =
    some waitingLeave := by decide +kernel

/-- Two decisions, one after the other. -/
theorem comments_kept_two :
    ∃ l, (Decision.playAll still 1 twoDecisions (World.fresh Db.waiting () : World Unit Unit)
        [0, 0, 0, 0, 1, 1, 1, 1]).shared.db.find? .leave 1 = some l ∧
      CommentsKept twoDecisions waitingLeave l := by
  refine comments_kept rfl twoDecisions waiting_found (by decide +kernel) fun i => ?_
  refine Pool.returned_of_answer? ?_
  revert i
  decide +kernel

/-- **A comment is lost**: both decisions load the leave before either commits, and the one
that commits last writes its own comment only. -/
theorem comment_lost :
    ¬∀ (w : World Unit Unit) (sched : List (Fin 2)), w.db.find? .leave 1 = some waitingLeave →
      (∀ i, ∃ a, (Decision.playAll still 1 twoDecisions w sched).Returned i a) →
      ∃ l, (Decision.playAll still 1 twoDecisions w sched).shared.db.find? .leave 1 = some l ∧
        CommentsKept twoDecisions waitingLeave l := by
  intro h
  obtain ⟨l, hl, order, hnodup, hmem, hreason, -⟩ := h (World.fresh Db.waiting ())
    [0, 1, 0, 0, 0, 1, 1, 1] waiting_found fun i => Pool.returned_of_answer? (by
      revert i
      decide +kernel)
  have hlost : ((Decision.playAll still 1 twoDecisions
      (World.fresh Db.waiting () : World Unit Unit) [0, 1, 0, 0, 0, 1, 1, 1]).shared.db.find?
      .leave 1).map Leave.reason = some (some "wedding · too short") := by decide +kernel
  rw [hl, Option.map_some, hreason] at hlost
  have hperm : order.Perm [0, 1] := by
    refine (List.perm_ext_iff_of_nodup hnodup (by decide)).mpr fun i => ?_
    refine iff_of_true (hmem i) ?_
    revert i
    decide
  obtain rfl | rfl := List.perm_pair.mp hperm <;> revert hlost <;> decide +kernel

end Pool

end Rooti

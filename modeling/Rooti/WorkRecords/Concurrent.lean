import Mathlib.Data.Fintype.Basic
import Rooti.Core.Transactions
import Rooti.Lib.Protocol
import Rooti.Services.WorkRecord

/-!
# Open work records under concurrency

A `begin` reads the open records of its shift and type and inserts a new one if
there is none; the two statements are separate, and the partial index on open
records is not unique.  Two requests that both read before either commits leave
two open records (`two_open_records`), and then every `begin` and `end` for that
shift and type fails.

While no `begin` reads between another's read and commit, every committed state
has at most one open record per shift and type, and no request ever meets
several (`openRecord_unique`).

## Main definitions

* `openCount` — the open records of a shift and type
* `RecordOp`, `RecordOp.pool` — concurrent requests
* `RecordStage`, `recordProtocol` — how far a request is
* `FindsAlone` — reads that find no open record, taken alone

## What carries the proof

`openCount` is what the statements are measured by: a statement of an `end` adds no open
record (`Closes`), and that of a `begin` adds one, of its own shift and type (`Opens`).
A session that has found no open record and not committed yet is pending, and the
invariant (`OpenInv`) says that for each shift and type at most one record is open, at
most one session is pending, and not both. A `begin` that finds no open record becomes
pending; this is the step that `FindsAlone` restricts.

Then whatever reads the open records finds at most one (`findOpenRecord_eq`), and
`scalar_one_or_none` does not raise.
-/

namespace Rooti

open Relational Program

variable {V D ι : Type}

/-! ## Counting open records -/

/-- A shift and a type of record. -/
abbrev RecordKey := ℤ × WorkRecordType

/-- The open records of a shift and type. -/
def openCount (db : Db) (k : RecordKey) : ℕ :=
  (db.rows .workRecord).countP (WorkRecord.opens k.1 k.2)

/-- At most one open record for every shift and type. -/
def OpenUnique (db : Db) : Prop := ∀ k, openCount db k ≤ 1

/-- The statement never adds an open record. -/
def Closes (d : Statement) : Prop :=
  ∀ db db' : Db, d.apply db = .ok db' → ∀ k, openCount db' k ≤ openCount db k

/-- The statement adds one open record, of shift and type `k`. -/
def Opens (k : RecordKey) (d : Statement) : Prop :=
  ∀ db db' : Db, d.apply db = .ok db' →
    ∀ k', openCount db' k' = openCount db k' + if k' = k then 1 else 0

/-- A record without an end is open. -/
theorem opens_insert {r : WorkRecord} (h : r.endAt = none) :
    Opens (r.workScheduleId, r.type) (.insert .workRecord r) := by
  intro db db' hd k'
  have hrows := (Dml.insert_ok hd).1
  rw [openCount, openCount, hrows, List.countP_append, List.countP_singleton]
  congr 1
  obtain ⟨scheduleId, type⟩ := k'
  have hopens : r.opens scheduleId type ↔ (scheduleId, type) = (r.workScheduleId, r.type) := by
    rw [WorkRecord.opens, decide_eq_true_eq, Prod.mk.injEq]
    exact ⟨fun e => ⟨e.1.symm, e.2.1.symm⟩, fun e => ⟨e.1.symm, e.2.symm, h⟩⟩
  exact if_congr hopens rfl rfl

/-- Assignments that open no record. -/
theorem closes_update {k : ℤ} {f : WorkRecord → WorkRecord}
    (hf : ∀ r (key : RecordKey), (f r).opens key.1 key.2 → r.opens key.1 key.2) :
    Closes (.update .workRecord k f) := by
  intro db db' hd key
  have hrows := (Dml.update_ok hd).2.1
  rw [openCount, openCount, hrows, List.countP_map]
  refine List.countP_mono_left fun r _ h => ?_
  simp only [Function.comp_apply] at h
  split at h
  · exact hf r key h
  · exact h

/-- Changes in other tables. -/
theorem closes_update_of_ne {t : Entity} (ht : t ≠ .workRecord) {k : ℤ} {f : Row t → Row t} :
    Closes (.update t k f) := by
  intro db db' hd key
  have htable := (Dml.update_ok hd).2.2 .workRecord ht.symm
  exact Nat.le_of_eq (by rw [openCount, openCount, Database.rows, Database.rows, htable])

/-- Several statements that add no open record. -/
theorem applyAll_closes {ds : List Statement} (hds : ∀ d ∈ ds, Closes d) {db db' : Db}
    (h : Dml.applyAll ds db = .ok db') (k : RecordKey) : openCount db' k ≤ openCount db k := by
  induction ds generalizing db with
  | nil =>
      cases h
      exact Nat.le_refl _
  | cons d ds ih =>
      rw [Dml.applyAll_cons] at h
      cases hd : d.apply db with
      | error v => simp [hd, bind, Except.bind] at h
      | ok db₁ =>
          rw [hd] at h
          exact Nat.le_trans (ih (fun d' hd' => hds d' (List.mem_cons_of_mem _ hd')) h)
            (hds d (List.mem_cons_self ..) db db₁ hd k)

/-! ## The requests -/

/-- **The requests on work records.** -/
inductive RecordOp
  | begin (req : RecordStartRequest)
  | «end» (req : RecordEndRequest)

/-- The script of a request. -/
def RecordOp.script (env : Env) : RecordOp → Async V D RecordResponse
  | .begin req => WorkRecordService.begin env req
  | .end req => WorkRecordService.end env req

/-- **How far a request is.** -/
inductive RecordStage
  /-- a `begin` that has not read its schedule -/
  | starting (k : RecordKey)
  /-- a `begin` that has not read the open records -/
  | checking (k : RecordKey)
  /-- a `begin` that found no open record -/
  | clear (k : RecordKey)
  /-- a `begin` that has recorded its own -/
  | opening (k : RecordKey)
  /-- an `end` that has not read the open records -/
  | seeking
  /-- an `end` that found its record -/
  | closing
  /-- nothing will be committed any more -/
  | finished
  deriving DecidableEq

/-- The stage a request starts in. -/
def RecordOp.stage : RecordOp → RecordStage
  | .begin req => .starting (req.workScheduleId, req.type)
  | .end _ => .seeking

/-- A `begin` between a read that found no open record and its commit. -/
def RecordStage.pending (k : RecordKey) : RecordStage → Bool
  | clear k' => k' = k
  | opening k' => k' = k
  | _ => false

/-- The command is a query. -/
def Cmd.isSelect {β : Type} : Cmd V D β → Bool
  | .select .. => true
  | _ => false

/-- The stage after a command met a state of the database and was answered. -/
def RecordStage.next {β : Type} (q : RecordStage) (c : Cmd V D β) (w : World V D)
    (r : Except Err β) : RecordStage :=
  match q, c, r with
  | _, .rollback, _ => .finished
  | _, .commit, _ => .finished
  | .starting k, .select .., .ok _ => .checking k
  | .checking k, .select .., .ok _ => if openCount w.db k = 0 then .clear k else .finished
  | .seeking, .select .., .ok _ => .closing
  | .clear k, .add .., _ => .opening k
  | .starting _, .select .., .error _ => .finished
  | .checking _, .select .., .error _ => .finished
  | .seeking, .select .., .error _ => .finished
  | q, _, _ => q

/-- The commands allowed in a stage. -/
def RecordStage.allowed {β : Type} (q : RecordStage) (c : Cmd V D β) : Prop :=
  match c with
  | .select .. => ∀ k, q ≠ .clear k ∧ q ≠ .opening k
  | .add t mk => ∃ k, q = .clear k ∧ ∀ new, Opens k (.insert t (mk new))
  | .modify t row f => q = .closing ∧ ∀ now, Closes (.update t (keyOf t row) (setUpdatedAt now t ∘ f))
  | .flush => ∃ k, q = .opening k
  | .commit => q = .closing ∨ ∃ k, q = .opening k
  | .delete .. => False
  | _ => True

/-- **The protocol of work records.** -/
def recordProtocol : Protocol (Cmd V D) Err (World V D) RecordStage where
  next := RecordStage.next
  allowed := RecordStage.allowed

/-- The changes a session holds in a stage. -/
def RecordStage.holds (q : RecordStage) (s : Session) : Prop :=
  match q with
  | starting _ | checking _ | clear _ | seeking => s.statements = []
  | opening k => s.statements.length ≤ 1 ∧ ∀ d ∈ s.statements, Opens k d
  | closing => ∀ d ∈ s.statements, Closes d
  | finished => True

/-- What a request may rely on: its session holds what its stage says, and no two
records are open for one shift and type. -/
def RecordInv (q : RecordStage) (s : Session) (w : World V D) : Prop :=
  q.holds s ∧ OpenUnique w.db

/-! ## The scripts follow the protocol -/

section Follows

variable {env : Env}

variable (env) in
/-- No command meets several rows where one was required. -/
theorem exec_ne_multiple {β : Type} (c : Cmd V D β) (s : Session) (w : World V D) :
    (exec env c s w).1 ≠ .error multipleResultsFound := by
  have hflush : ∀ db, (s.flush env.settings.appReadOnly db).1 ≠ .error multipleResultsFound := by
    intro db
    unfold Session.flush
    split
    · simp [pendingRollbackError, multipleResultsFound]
    · split
      · simp
      · split
        · simp [multipleResultsFound]
        · split <;> simp [violationError, multipleResultsFound]
  cases c with
  | select binds q =>
      simp only [exec, execSelect]
      split
      · next h => simpa [h] using hflush w.db
      · split <;> simp [multipleResultsFound]
  | modify t row f =>
      simp only [exec]
      split <;> simp
  | flush => simpa [exec] using hflush w.db
  | commit =>
      simp only [exec, execCommit]
      split
      · next h => simpa [h] using hflush w.db
      · split <;> simp [violationError, multipleResultsFound]
  | redisSet key value ex =>
      simp only [exec]
      split <;> simp [multipleResultsFound]
  | storage op =>
      simp only [exec]
      cases (op w.disk).1 <;> simp [Except.mapError, multipleResultsFound]
  | sendEmail mail =>
      simp only [exec]
      cases env.mailer w.ticks mail <;> simp [Except.mapError, multipleResultsFound]
  | _ => simp [exec]

/-- How the script of a request ends: ready to commit, or with another error than
several open records. -/
def RecordStage.done {α : Type} (q : RecordStage) (r : Except Err α) : Prop :=
  match r with
  | .ok _ => q = .closing ∨ ∃ k, q = .opening k
  | .error e => e ≠ multipleResultsFound

/-- A request ends with its transaction. -/
theorem follows_getDbSession' {α : Type} {p : Async V D α} {q : RecordStage}
    (hp : (server env).Follows recordProtocol RecordInv p q RecordStage.done) :
    (server env).Follows recordProtocol RecordInv (getDbSession env p) q
      fun _ r => r ≠ .error multipleResultsFound := by
  have hrollback : ∀ (q₁ : RecordStage) e, e ≠ multipleResultsFound →
      (server env).Follows recordProtocol RecordInv
        (Prog.bind rollback fun _ => Prog.raise e : Async V D α) q₁
        fun _ r => r ≠ .error multipleResultsFound :=
    fun q₁ e he => ⟨trivial, fun _ _ _ h => he (Except.error.inj h)⟩
  refine .handle (.bind (hp.weaken fun q₁ r h => ?_))
  cases r with
  | error e => exact hrollback q₁ e h
  | ok a =>
      refine .bind (.ite (fun _ => .lift trivial fun _ _ _ => ?_)
        fun _ => .lift h fun l w _ => ?_)
      · exact fun h => nomatch h
      · have hne := exec_ne_multiple env .commit l w
        revert hne
        rw [server_exec]
        cases (exec env .commit l w).1 with
        | error e => exact fun hne => hrollback _ e fun he => hne (he ▸ rfl)
        | ok _ => exact fun _ h => nomatch h

/-- A query, and the stage it leads to. -/
theorem follows_select {α : Type} {binds : List Bind} {qry : RowOrder → Db → α} {q : RecordStage}
    (hq : ∀ k, q ≠ .clear k ∧ q ≠ .opening k) {done : RecordStage → Except Err α → Prop}
    (hok : ∀ s (w : World V D), RecordInv q s w → ∀ a, (execSelect env binds qry s w).1 = .ok a →
      done (q.next (.select binds qry) w (.ok a)) (.ok a))
    (herror : ∀ q' e, e ≠ multipleResultsFound → done q' (.error e)) :
    (server env).Follows recordProtocol RecordInv (select binds qry : Async V D α) q done := by
  refine .lift hq fun s w h => ?_
  have hne := exec_ne_multiple env (.select binds qry) s w
  revert hne
  rw [server_exec]
  cases hr : (exec env (.select binds qry) s w).1 with
  | error e => exact fun hne => herror _ e fun he => hne (he ▸ rfl)
  | ok a => exact fun _ => hok s w h a hr

/-- The open records a `begin` or `end` reads, while at most one is open. -/
theorem findOpenRecord_eq {s : Session} {w : World V D} {k : RecordKey}
    {rows : List WorkRecord} (hs : s.statements = []) (hw : OpenUnique w.db)
    (h : (execSelect env [.int k.1] (fun o db =>
      o.orderByDesc (fun r => r.startAt.micros)
        ((db.rows .workRecord).filter (WorkRecord.opens k.1 k.2))) s w).1 = .ok rows) :
    rows.length = openCount w.db k ∧ rows.length ≤ 1 := by
  have hlength : rows.length = openCount w.db k := by
    rw [execSelect_clean hs h, openCount, List.countP_eq_length_filter, RowOrder.orderByDesc,
      List.length_mergeSort, (RowOrder.perm _ _).length_eq]
  exact ⟨hlength, hlength ▸ hw k⟩

/-- The clock keeps a stage that has read the open records. -/
theorem follows_atOrNow (t : Option DateTime) {q : RecordStage}
    (hq : (∃ k, q = .clear k) ∨ q = .closing) :
    (server env).Follows recordProtocol RecordInv (atOrNow env t : Async V D DateTime) q
      fun q' r => q' = q ∧ ∃ a, r = .ok a := by
  cases t with
  | some t => exact ⟨rfl, t, rfl⟩
  | none =>
      refine ⟨trivial, fun _ w _ => ⟨?_, _, rfl⟩⟩
      obtain ⟨k, rfl⟩ | rfl := hq <;> rfl

/-- The part of a `begin` after it found no open record. -/
theorem follows_open (req : RecordStartRequest) :
    (server env).Follows recordProtocol RecordInv
      (Prog.bind (atOrNow env req.at') fun startAt =>
        Prog.bind (add .workRecord (req.row startAt)) fun new =>
          Prog.bind flush fun _ => Prog.ret (toRecord (req.row startAt new)) :
        Async V D RecordResponse)
      (.clear (req.workScheduleId, req.type)) RecordStage.done := by
  refine .bind ((follows_atOrNow req.at' (.inl ⟨_, rfl⟩)).weaken ?_)
  rintro _ _ ⟨rfl, startAt, rfl⟩
  refine ⟨⟨_, rfl, fun new => opens_insert rfl⟩, fun _ _ _ => ⟨⟨_, rfl⟩, fun s w _ => ?_⟩⟩
  have hne := exec_ne_multiple env .flush s w
  revert hne
  rw [server_exec]
  cases (exec env .flush s w).1 with
  | error e => exact fun hne he => hne (he ▸ rfl)
  | ok _ => exact fun _ => .inr ⟨_, rfl⟩

/-- A `begin` reads its schedule and the open records, and adds one if there is none. -/
theorem follows_begin (req : RecordStartRequest) :
    (server env).Follows recordProtocol RecordInv
      (WorkRecordService.begin env req : Async V D RecordResponse)
      (.starting (req.workScheduleId, req.type)) RecordStage.done := by
  refine .bind (.bind (follows_select (by simp) (fun s w _ found _ => ?_) fun _ e he => he))
  cases found with
  | none => exact fun h => nomatch h
  | some schedule =>
      refine .bind (.bind (follows_select (by simp [RecordStage.next])
        (fun s w h rows hrows => ?_) fun _ e he => he))
      obtain ⟨hcount, hone⟩ := findOpenRecord_eq (k := (req.workScheduleId, req.type)) h.1 h.2 hrows
      rcases rows with _ | ⟨r, _ | ⟨r', rows⟩⟩
      · have hzero : openCount w.db (req.workScheduleId, req.type) = 0 := hcount.symm
        simp only [RecordStage.next, hzero, if_true]
        exact follows_open req
      · exact fun h => nomatch h
      · simp at hone

/-- The part of an `end` after it found its record. -/
theorem follows_close (req : RecordEndRequest) (r : WorkRecord) :
    (server env).Follows recordProtocol RecordInv
      (Prog.bind (atOrNow env req.at') fun endAt =>
        Prog.bind (modify .workRecord r fun r => { r with endAt := some endAt }) fun _ =>
          Prog.bind (WorkRecordService.closeSchedule r req.type endAt) fun _ =>
            Prog.ret (toRecord { r with endAt := some endAt }) : Async V D RecordResponse)
      .closing RecordStage.done := by
  refine .bind ((follows_atOrNow req.at' (.inr rfl)).weaken ?_)
  rintro _ _ ⟨rfl, endAt, rfl⟩
  have hmodify : ∀ (t : Entity) (row : Row t) (f : Row t → Row t),
      (∀ now, Closes (.update t (keyOf t row) (setUpdatedAt now t ∘ f))) →
      (server env).Follows recordProtocol RecordInv (modify t row f : Async V D Unit) .closing
        fun q r => q = .closing ∧ ∃ a, r = .ok a := by
    intro t row f hf
    refine .lift ⟨rfl, hf⟩ fun s w _ => ⟨rfl, ?_⟩
    simp only [server_exec, exec]
    split <;> exact ⟨(), rfl⟩
  refine .bind ((hmodify _ _ _ fun now => closes_update fun r key h => ?_).weaken ?_)
  · simp [WorkRecord.opens, setUpdatedAt] at h
  rintro _ _ ⟨rfl, _, rfl⟩
  refine Machine.Follows.bind (.ite (fun _ => .bind (follows_select (by simp)
    (fun s w _ found _ => ?_) fun _ e he => he)) fun _ => .inl rfl)
  cases found with
  | none => exact .inl rfl
  | some schedule =>
      refine (hmodify _ _ _ fun now => closes_update_of_ne (by simp)).weaken ?_
      rintro _ _ ⟨rfl, _, rfl⟩
      exact .inl rfl

/-- An `end` reads the open records and closes the one there is. -/
theorem follows_end (req : RecordEndRequest) :
    (server env).Follows recordProtocol RecordInv
      (WorkRecordService.end env req : Async V D RecordResponse) .seeking RecordStage.done := by
  refine .bind (.bind (follows_select (by simp) (fun s w h rows hrows => ?_) fun _ e he => he))
  obtain ⟨-, hone⟩ := findOpenRecord_eq (k := (req.workScheduleId, req.type)) h.1 h.2 hrows
  rcases rows with _ | ⟨r, _ | ⟨r', rows⟩⟩
  · exact fun h => nomatch h
  · exact follows_close req r
  · simp at hone

/-- **The requests follow the protocol**, and none of them meets several open
records. -/
theorem RecordOp.follows (op : RecordOp) :
    (server env).Follows recordProtocol RecordInv
      (getDbSession env (op.script env) : Async V D RecordResponse) op.stage
      fun _ r => r ≠ .error multipleResultsFound := by
  refine follows_getDbSession' ?_
  cases op with
  | begin req => exact follows_begin req
  | «end» req => exact follows_end req

end Follows

/-! ## What one command does -/

section Step

variable {env : Env} {β : Type} {c : Cmd V D β} {q : RecordStage} {s : Session} {w : World V D}

/-- Fewer changes still are what a stage says. -/
theorem RecordStage.holds_of_subperm {s' : Session} (h : q.holds s)
    (hs : s'.statements.Subperm s.statements) : q.holds s' := by
  cases q with
  | opening k => exact ⟨Nat.le_trans hs.length_le h.1, fun d hd => h.2 d (hs.subset hd)⟩
  | closing => exact fun d hd => h d (hs.subset hd)
  | finished => trivial
  | _ => exact List.subperm_nil.mp (h ▸ hs)

/-- **The session holds what the next stage says.** -/
theorem RecordStage.holds_next (h : q.holds s) (hc : q.allowed c) (r : Except Err β) :
    (q.next c w r).holds (exec env c s w).2.1 := by
  have hs := exec_statements env c s w
  -- a command that records nothing leaves no more statements than were held
  have hsame : c.recorded env w = [] → q.holds (exec env c s w).2.1 := fun hr => by
    rw [hr, List.append_nil] at hs
    exact RecordStage.holds_of_subperm h hs
  cases c with
  | select binds qry =>
      have hnil : s.statements = [] → (exec env (.select binds qry) s w).2.1.statements = [] :=
        fun e => List.subperm_nil.mp (by simpa [Cmd.recorded, e] using hs)
      cases q with
      | starting k => cases r <;> first | trivial | exact hnil h
      | checking k =>
          cases r with
          | error e => trivial
          | ok a =>
              simp only [RecordStage.next]
              split
              · exact hnil h
              · trivial
      | seeking =>
          cases r with
          | error e => trivial
          | ok a =>
              show ∀ d ∈ _, Closes d
              rw [hnil h]
              simp
      | clear k => exact absurd rfl (hc k).1
      | opening k => exact absurd rfl (hc k).2
      | closing => exact hsame rfl
      | finished => trivial
  | add t mk =>
      obtain ⟨k, rfl, hopens⟩ := hc
      have hnil : s.statements = [] := h
      simp only [Cmd.recorded, hnil, List.nil_append] at hs
      refine ⟨by simpa using hs.length_le, fun d hd => ?_⟩
      obtain rfl := List.mem_singleton.mp (hs.subset hd)
      exact hopens _
  | modify t row f =>
      obtain ⟨rfl, hcloses⟩ := hc
      show ∀ d ∈ _, Closes d
      intro d hd
      rcases List.mem_append.mp (hs.subset hd) with hd | hd
      · exact h d hd
      · simp only [Cmd.recorded] at hd
        split at hd
        · cases hd
        · rw [List.mem_singleton.mp hd]
          exact hcloses _
  | delete t row => exact hc.elim
  | commit => cases q <;> trivial
  | rollback => cases q <;> trivial
  | _ => cases q <;> exact hsame rfl

/-- Only a read that finds no open record makes a request pending. -/
theorem RecordStage.pending_next {k : RecordKey} {r : Except Err β}
    (h : (q.next c w r).pending k) :
    q.pending k ∨ q = .checking k ∧ openCount w.db k = 0 ∧ c.isSelect := by
  cases c with
  | select binds qry =>
      cases q with
      | checking k' =>
          cases r with
          | error e => cases h
          | ok a =>
              simp only [RecordStage.next] at h
              split at h
              · next hzero =>
                  obtain rfl : k' = k := of_decide_eq_true h
                  exact .inr ⟨rfl, hzero, rfl⟩
              · cases h
      | starting k' => cases r <;> cases h
      | seeking => cases r <;> cases h
      | clear k' => exact .inl h
      | opening k' => exact .inl h
      | closing => cases h
      | finished => cases h
  | add t mk => cases q <;> exact .inl h
  | commit => cases q <;> cases h
  | rollback => cases q <;> cases h
  | _ => cases q <;> exact .inl h

variable (env) in
/-- **The open records after a command**: no more than before, or the one record
of an opening request more. -/
theorem exec_openCount (h : q.holds s) (hc : q.allowed c) :
    (∀ k, openCount (exec env c s w).2.2.db k ≤ openCount w.db k) ∨
      ∃ k, q = .opening k ∧ c.isCommit ∧ ∀ k', openCount (exec env c s w).2.2.db k' =
        openCount w.db k' + if k' = k then 1 else 0 := by
  obtain hdb | ⟨hcommit, ds, hperm, hdb⟩ := exec_db env c s w
  · exact .inl fun k => Nat.le_of_eq (by rw [hdb])
  · cases c with
    | commit =>
        obtain rfl | ⟨k, rfl⟩ := hc
        · exact .inl fun k => applyAll_closes (fun d hd => h d (hperm.subset hd)) hdb k
        · obtain ⟨hlength, hopens⟩ := h
          rw [← hperm.length_eq] at hlength
          rcases ds with _ | ⟨d, _ | ⟨d', ds⟩⟩
          · exact .inl fun k' => Nat.le_of_eq (by rw [Except.ok.inj hdb])
          · refine .inr ⟨k, rfl, rfl, hopens d (hperm.subset (List.mem_singleton_self d)) _ _ ?_⟩
            rwa [Dml.applyAll_singleton] at hdb
          · simp at hlength
    | _ => cases hcommit

end Step

/-! ## Concurrent requests -/

section Pool

variable (env : Env)

/-- **Concurrent requests**, none of which has done anything yet. -/
def RecordOp.pool (ops : ι → RecordOp) (w : World V D) :
    Pool (Cmd V D) Err Session (World V D) ι RecordResponse where
  prog := fun i => getDbSession env ((ops i).script env)
  loc := fun _ => {}
  shared := w

/-- The same requests with their stages recorded. -/
def RecordOp.watched (ops : ι → RecordOp) (w : World V D) :
    Pool (Cmd V D) Err (Session × RecordStage) (World V D) ι RecordResponse where
  prog := fun i => getDbSession env ((ops i).script env)
  loc := fun i => ({}, (ops i).stage)
  shared := w

/-- The next command of a script is a query. -/
def nextIsSelect {α : Type} : Async V D α → Bool
  | .call c _ => c.isSelect
  | _ => false

/-- A `begin` reads that no record is open only while no other `begin` for the
same shift and type is between such a read and its commit. -/
def FindsAlone (p : Pool (Cmd V D) Err (Session × RecordStage) (World V D) ι RecordResponse)
    (i : ι) : Prop :=
  ∀ k, p.stage i = .checking k → nextIsSelect (p.prog i) → openCount p.shared.db k = 0 →
    ∀ j, j ≠ i → (p.stage j).pending k = false

/-- **The invariant of concurrent requests**: at most one record is open for every
shift and type; at most one request is about to open one, and then none is
open. -/
structure OpenInv (env : Env)
    (p : Pool (Cmd V D) Err (Session × RecordStage) (World V D) ι RecordResponse) : Prop where
  follows : p.Follows (server env) recordProtocol RecordInv
    fun _ _ r => r ≠ .error multipleResultsFound
  unique : OpenUnique p.shared.db
  alone : ∀ i j k, (p.stage i).pending k → (p.stage j).pending k → i = j
  none_open : ∀ i k, (p.stage i).pending k → openCount p.shared.db k = 0

variable {env} [DecidableEq ι]
  {p : Pool (Cmd V D) Err (Session × RecordStage) (World V D) ι RecordResponse}

/-- A step of one request, where it reads alone. -/
theorem OpenInv.step {i : ι} (hok : FindsAlone p i) (h : OpenInv env p) :
    OpenInv env (Pool.step ((server env).watch recordProtocol) p i) := by
  obtain ⟨-, hp⟩ | ⟨β, c, cont, hprog, hallowed, hshared, hloc, hstage⟩ := h.follows.step_cases i
  · rwa [hp]
  have hcount := exec_openCount (w := p.shared) env (h.follows i).1.1 hallowed
  rw [server_exec] at hshared hstage
  rw [← hshared] at hcount
  generalize hq : recordProtocol.next (p.stage i) c p.shared (exec env c (p.loc i).1 p.shared).1 =
    q at hstage
  -- what makes the moving request pending
  have hpending : ∀ k, q.pending k → openCount p.shared.db k = 0 ∧
      (∀ j, j ≠ i → (p.stage j).pending k = false) ∧ ¬ c.isCommit := by
    intro k hk
    have hcommit : ¬ c.isCommit := fun hc => by
      cases c <;> cases hc
      subst hq
      revert hk
      cases p.stage i <;> exact fun hk => nomatch hk
    subst hq
    rcases RecordStage.pending_next hk with hi | ⟨hi, hzero, hselect⟩
    · refine ⟨h.none_open i k hi, fun j hj => ?_, hcommit⟩
      by_contra hpend
      exact hj (h.alone j i k (by simpa using hpend) hi)
    · refine ⟨hzero, hok k hi ?_ hzero, hcommit⟩
      rw [hprog]
      exact hselect
  have hothers : ∀ j, j ≠ i →
      (Pool.step ((server env).watch recordProtocol) p i).stage j = p.stage j := fun j hj => by
    rw [hstage, Function.update_of_ne hj]
  have hself : (Pool.step ((server env).watch recordProtocol) p i).stage i = q := by
    rw [hstage, Function.update_self]
  have hunique : OpenUnique (Pool.step ((server env).watch recordProtocol) p i).shared.db := by
    intro k
    rcases hcount with hle | ⟨k₀, hi, -, hadd⟩
    · exact Nat.le_trans (hle k) (h.unique k)
    · rw [hadd k]
      split
      · next hk => simp [hk, h.none_open i k₀ (by simp [hi, RecordStage.pending])]
      · exact h.unique k
  refine ⟨h.follows.step fun j => ⟨?_, hunique⟩, hunique, fun j j' k hj hj' => ?_, fun j k hj => ?_⟩
  · rw [hloc j]
    by_cases hj : j = i
    · subst hj
      rw [if_pos rfl, hself, ← hq]
      exact RecordStage.holds_next (h.follows j).1.1 hallowed _
    · rw [if_neg hj, hothers j hj]
      exact (h.follows j).1.1
  · by_cases hji : j = i <;> by_cases hj'i : j' = i
    · rw [hji, hj'i]
    · subst hji
      rw [hself] at hj
      rw [hothers j' hj'i, (hpending k hj).2.1 j' hj'i] at hj'
      cases hj'
    · subst hj'i
      rw [hself] at hj'
      rw [hothers j hji, (hpending k hj').2.1 j hji] at hj
      cases hj
    · rw [hothers j hji] at hj
      rw [hothers j' hj'i] at hj'
      exact h.alone j j' k hj hj'
  · by_cases hji : j = i
    · subst hji
      rw [hself] at hj
      obtain ⟨hzero, -, hcommit⟩ := hpending k hj
      rcases hcount with hle | ⟨-, -, hc, -⟩
      · exact Nat.le_zero.mp (hzero ▸ hle k)
      · exact absurd hc hcommit
    · rw [hothers j hji] at hj
      have hzero := h.none_open j k hj
      rcases hcount with hle | ⟨k₀, hi, -, hadd⟩
      · exact Nat.le_zero.mp (hzero ▸ hle k)
      · have hk : k ≠ k₀ := by
          rintro rfl
          exact hji (h.alone j i k hj (by simp [hi, RecordStage.pending]))
        rw [hadd k, hzero, if_neg hk]

/-- Concurrent requests after the commands of a schedule. -/
abbrev RecordOp.playAll (env : Env) (ops : ι → RecordOp) (w : World V D) (sched : List ι) :
    Pool (Cmd V D) Err Session (World V D) ι RecordResponse :=
  Pool.play (server env) (RecordOp.pool env ops w) sched

/-- **At most one open record per shift and type** in every state committed by a
schedule in which every `begin` that finds no open record reads while no other
one for the same shift and type is between its read and its commit; and no
request fails on meeting several. -/
theorem openRecord_unique (ops : ι → RecordOp) (w₀ : World V D) (h₀ : OpenUnique w₀.db)
    (sched : List ι)
    (hsched : Pool.Guarded ((server env).watch recordProtocol) FindsAlone
      (RecordOp.watched env ops w₀) sched) :
    OpenUnique (RecordOp.playAll env ops w₀ sched).shared.db ∧
      ∀ i, (RecordOp.playAll env ops w₀ sched).prog i ≠ .raise multipleResultsFound := by
  have hinit : OpenInv env (RecordOp.watched env ops w₀) := by
    refine ⟨fun i => ⟨⟨?_, h₀⟩, (ops i).follows⟩, h₀, fun i _ k hi => ?_, fun i k hi => ?_⟩
    · show (ops i).stage.holds {}
      cases ops i <;> rfl
    · have hi : (ops i).stage.pending k := hi
      cases hop : ops i <;> simp [hop, RecordOp.stage, RecordStage.pending] at hi
    · have hi : (ops i).stage.pending k := hi
      cases hop : ops i <;> simp [hop, RecordOp.stage, RecordStage.pending] at hi
  have h := Pool.Guarded.invariant (I := OpenInv env) (fun p i hok hp => hp.step hok) hinit hsched
  refine ⟨?_, fun i hi => ?_⟩
  · have hshared := Pool.play_watch_shared (m := server env) (P := recordProtocol)
      (p := RecordOp.watched env ops w₀) sched
    exact hshared ▸ h.unique
  · have hraise := (h.follows i).2
    rw [(Pool.play_watch_prog sched i).trans hi] at hraise
    exact hraise rfl

instance [Fintype ι] (p : Pool (Cmd V D) Err (Session × RecordStage) (World V D) ι RecordResponse)
    (i : ι) : Decidable (FindsAlone p i) :=
  decidable_of_iff
    (∀ k ∈ (match p.stage i with | .checking k => some k | _ => none : Option RecordKey),
      nextIsSelect (p.prog i) → openCount p.shared.db k = 0 →
        ∀ j, j ≠ i → (p.stage j).pending k = false) <| by
    unfold FindsAlone
    cases p.stage i <;> simp

/-- A `begin` of the shift of the sample installation. -/
def sampleBegin : RecordOp := .begin { workScheduleId := 1, type := .on, at' := some ⟨0, none⟩ }

/-- No record is open in the sample installation. -/
theorem openUnique_sample : OpenUnique Db.sample := by
  intro k
  have hrows : Db.sample.rows .workRecord = [] := by decide +kernel
  rw [openCount, hrows]
  simp

/-- Two `begin`s, one after the other. -/
theorem openRecord_unique_two :
    OpenUnique (RecordOp.playAll still (fun _ : Fin 2 => sampleBegin)
      (World.fresh Db.sample () : World Unit Unit) [0, 0, 0, 0, 0, 1, 1, 1]).shared.db :=
  (openRecord_unique _ _ openUnique_sample _ (by decide +kernel)).1

/-- **Two open records.**  Two `begin`s read the open records before either
commits its own. -/
theorem two_open_records :
    ¬∀ (w : World Unit Unit) (sched : List (Fin 2)), OpenUnique w.db →
      OpenUnique (RecordOp.playAll still (fun _ => sampleBegin) w sched).shared.db := by
  intro h
  have hunique := h (World.fresh Db.sample ()) [0, 0, 1, 1, 0, 0, 0, 1, 1, 1] openUnique_sample
    (1, .on)
  revert hunique
  decide +kernel

end Pool

end Rooti

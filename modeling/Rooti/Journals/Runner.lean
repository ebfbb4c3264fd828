import Rooti.Journals.Preview

/-!
# The background runner of bulk mails

`runBulkEmailJob` marks its job as sending, commits, sends the mail and records the
outcome.  What `send` raises is recorded in the same transaction, which works as
long as that transaction is intact and the text of the exception can be stored:
otherwise the record is lost with the rollback and the job is left sending
(`runner_finishes_iff`, `runner_strands_job`).

## Main definitions

* `BulkEmailJob.Finished` — a success or a failure
* `runnerDb` — the database the runner leaves behind
* `sendingWorld` — the state in which the runner sends
* `Recordable` — outcomes that fit the columns of a job

## What carries the proof

Up to `send` everything is a computation: with no fault that early, the runner marks the
job and commits, and goes on in `sendingWorld` with an empty session
(`run_runBulkEmailJob`). `send` itself only reads, so a session that is intact
afterwards is still empty (`untouched_send`). The outcome is then one UPDATE and a
flush, and it fails in two ways. The transaction may be aborted already, by a query of
`send` that the database refused: this is what comparing the run with and without the
fault expresses. Or the row may not fit its columns (`Recordable`): the text of an
exception is cut to 1000 characters, but PostgreSQL takes no NUL in it, and the id of a
mail has 255 characters.

The equivalence is for one run of the runner. A fault is any one, from the first command
of `send` on; an earlier one leaves the job queued.
-/

namespace Rooti

open Relational Program WorkJournalBulkEmailService

variable {V D α : Type}

/-- The job is a success or a failure. -/
def BulkEmailJob.Finished (job : BulkEmailJob) : Prop :=
  job.status = .success ∨ job.status = .failed

instance (job : BulkEmailJob) : Decidable job.Finished :=
  inferInstanceAs (Decidable (_ ∨ _))

/-- The database after the runner, on a database that may fail. -/
def runnerDb (env : Env) (fault : Option Fault) (r : Renderers) (jobId : ℤ) (w : World V D) :
    Db :=
  ((faulty env fault).run (runBulkEmailJob r jobId) {} w).2.2.db

/-- The number of the first command of `send` in the runner. -/
def sendTick (w : World V D) : ℕ := w.ticks + 6

/-- The database once the job is marked as sending. -/
def sendingDb (job : BulkEmailJob) (startedAt : DateTime) (db : Db) : Db :=
  match (Dml.update .bulkEmailJob job.id (BulkEmailJob.sending startedAt) : Statement).apply db with
  | .ok db' => db'
  | .error _ => db

/-- **The state in which the runner sends.** -/
def sendingWorld (env : Env) (job : BulkEmailJob) (w : World V D) : World V D :=
  { w with
    db := sendingDb job ⟨env.clock (w.ticks + 1), none⟩ w.db
    ticks := sendTick w }

/-- The outcome fits the columns in which it is recorded: the text of an exception, cut
to 1000 characters, and the id of a mail. -/
def Recordable : Except Err SendResult → Prop
  | .ok result => result.messageId.all (varchar 255) = true
  | .error e => text (String.ofList (e.text.toList.take 1000)) = true

instance : (outcome : Except Err SendResult) → Decidable (Recordable outcome)
  | .ok _ => inferInstanceAs (Decidable (_ = true))
  | .error _ => inferInstanceAs (Decidable (_ = true))

/-! ## Sending from a clean session -/

/-- The session has changed nothing. -/
def Untouched (w : World V D) (s : Session) (w' : World V D) : Prop := s = {} ∧ w'.db = w.db

section Send

variable {env : Env} {w : World V D} {r : Renderers}

/-- A query of a clean session is answered from the committed database. -/
theorem untouched_select {binds : List Bind} {q : RowOrder → Db → α}
    (hbinds : binds.all Bind.fits) :
    (server env).Ensures (Untouched w) (select binds q)
      (fun a s w' => (∃ o, a = q o w.db) ∧ Untouched w s w') (Untouched w) := by
  refine Machine.Ensures.lift ?_
  rintro s w' ⟨rfl, hdb⟩
  rw [server_exec]
  simp only [exec, execSelect, flush_empty, view_empty, hdb, hbinds, if_true]
  exact ⟨⟨_, rfl⟩, rfl, hdb⟩

/-- Rendering a shift of the table reads on; a library may raise. -/
theorem untouched_render {fmt : JournalFormat} {ws : WorkSchedule}
    (hws : ws ∈ w.db.rows .workSchedule) :
    (server env).Ensures (Untouched w) (WorkJournalRenderService.render r ws.id fmt)
      (fun _ => Untouched w) (Untouched w) := by
  have hfound : w.db.find? .workSchedule ws.id = some ws := Table.find?_eq_some.mpr ⟨hws, rfl⟩
  have hid := bigint_of_find? hfound
  have hstandard : bigint ws.jobStandardId := bigint_of_ref hws (.tail _ (.head _))
  have hdocument : ∀ title rows, (server env).Keeps (Untouched w)
      (WorkJournalRenderService.document r fmt title rows : Async V D Bytes) := by
    intro title rows
    cases fmt
    · exact .ofExcept
    · exact .ret
    · exact .ofExcept
  refine (untouched_select (by simpa [Bind.fits] using hid)).bind fun found =>
    .of_and ?_
  rintro ⟨o, rfl⟩
  rw [hfound]
  refine Machine.Ensures.bind (Q := fun schedule s w' => schedule = ws ∧ Untouched w s w')
    (.ret fun _ _ h => ⟨rfl, h⟩) fun schedule => .of_and ?_
  rintro rfl
  refine Machine.Ensures.bind (Q := fun _ => Untouched w) (.ret fun _ _ h => h) fun _ => ?_
  refine ((untouched_select (by simpa [Bind.fits] using hstandard)).weaken (fun _ _ h => h)
    (fun _ _ _ h => h.2) fun _ _ h => h).bind fun standard => ?_
  exact ((untouched_select (by simpa [Bind.fits] using hid)).weaken (fun _ _ h => h)
    (fun _ _ _ h => h.2) fun _ _ h => h).bind fun records => hdocument _ _

/-- So does rendering all of them, by induction on the list. -/
theorem untouched_renderAll {fmt : JournalFormat} {schedules : List WorkSchedule}
    (hall : ∀ ws ∈ schedules, ws ∈ w.db.rows .workSchedule) :
    (server env).Keeps (Untouched w) (renderAll r fmt schedules) := by
  induction schedules with
  | nil => exact .ret
  | cons ws rest ih =>
      obtain ⟨hws, hrest⟩ := List.forall_mem_cons.mp hall
      exact .bind (untouched_render hws) fun _ => .bind (ih hrest) fun _ => .ret

/-- **Sending leaves a clean session clean**, whether it returns or raises. -/
theorem untouched_send {companyId : ℤ} {day : Date} {recipientEmail : String}
    {fmt : JournalFormat} (hid : bigint companyId) :
    (server env).Keeps (Untouched w) (send r companyId day recipientEmail fmt) := by
  refine (untouched_select (by simpa [Bind.fits] using hid)).bind fun schedules => .of_and ?_
  rintro ⟨o, rfl⟩
  have hall : ∀ ws ∈ (schedulesOf companyId day o w.db).take maxBulkSchedules,
      ws ∈ w.db.rows .workSchedule := fun ws hws =>
    (List.mem_filter.mp (schedulesOf_perm.mem_iff.mp (List.mem_of_mem_take hws))).1
  refine .ite (fun _ => .ret fun _ _ h => h) fun _ => ?_
  refine .bind (untouched_renderAll hall) fun files => .bind ?_ fun _ => .ret fun _ _ h => h
  refine .lift fun s w' h => ?_
  rw [server_exec, exec]
  cases env.mailer w'.ticks _ <;> exact h

end Send

/-! ## The way to `send` -/

section Runner

variable {env : Env} {fault : Option Fault} {w : World V D} {r : Renderers} {jobId : ℤ}
  {job : BulkEmailJob}

/-- Marking a job passes all checks: status and instant fit. -/
theorem apply_sending (startedAt : DateTime) {db : Db}
    (hjob : db.find? .bulkEmailJob job.id = some job) (ht : timestamp startedAt) :
    (Dml.update .bulkEmailJob job.id (BulkEmailJob.sending startedAt) : Statement).apply db =
      .ok (sendingDb job startedAt db) := by
  have hcheck := Table.check_of_mem (Table.find?_mem hjob)
  obtain ⟨db', hdb'⟩ : ∃ db', (Dml.update .bulkEmailJob job.id (BulkEmailJob.sending startedAt) :
      Statement).apply db = .ok db' := by
    refine Dml.update_of_find? hjob (fun _ => rfl) (fun _ _ => ⟨rfl, rfl⟩) ?_ rfl
    simp only [schema, shape, BulkEmailJob.sending, Bool.and_eq_true, Option.all_some] at hcheck ⊢
    tauto
  rw [sendingDb, hdb']

/-- And it leaves a database in which the job is sending, and everything else as it was.
-/
theorem savedJob_sendingDb (startedAt : DateTime) {db : Db}
    (hjob : db.find? .bulkEmailJob job.id = some job) (ht : timestamp startedAt) :
    SavedJob job (BulkEmailJob.sending startedAt) db (sendingDb job startedAt db) :=
  (Dml.update_ok (apply_sending startedAt hjob ht)).2.1

/-- A query before `send` is answered. -/
theorem run_early {binds : List Bind} {q : RowOrder → Db → α}
    (hfault : StrikesFrom fault (sendTick w)) {w' : World V D} (hearly : w'.ticks < sendTick w)
    (hbinds : binds.all Bind.fits) :
    (faulty env fault).run (select binds q) {} w' =
      (.ok (q (env.rowOrder w'.ticks) w'.db), {}, w'.tick) := by
  rw [select, Machine.run_lift, faulty_exec, execFaulty_of_early _ hfault hearly]
  simp only [exec, execSelect, flush_empty, view_empty, hbinds, if_true]

/-- **The job is marked.** -/
theorem run_markSending (hro : env.settings.appReadOnly = false)
    (hfault : StrikesFrom fault (sendTick w)) (hjob : w.db.find? .bulkEmailJob jobId = some job) :
    ∃ s found, (faulty env fault).run (markSending jobId) {} w = (.ok (some found), s, w.after 4) ∧
      Sees w (sendingDb job ⟨env.clock (w.ticks + 1), none⟩ w.db) s (w.after 4) := by
  obtain rfl : job.id = jobId := Table.find?_key hjob
  have hid : ([.int job.id] : List Bind).all Bind.fits := by
    simpa [Bind.fits] using bigint_of_find? hjob
  have hnow : (faulty env fault).run utcNow {} (w.after 1) =
      (.ok ⟨env.clock (w.ticks + 1), none⟩, {}, w.after 2) := by
    simp only [utcNow, now, Prog.bind_eq, Machine.run_bind, Machine.run_lift, faulty_exec,
      execFaulty_of_strikesFrom _ hfault (c := (.now : Cmd V D ℤ)) (by simp)]
    rfl
  have happly := apply_sending ⟨env.clock (w.ticks + 1), none⟩ hjob rfl
  have hstart : Sees w w.db {} (w.after 2) := ⟨rfl, rfl, rfl, rfl⟩
  obtain ⟨s, hsave, hsees⟩ := run_save hro hfault hstart
    (fun hf => Except.ok.inj (happly.symm.trans (Dml.update_self hjob hf))) happly
  refine ⟨s, job.sending ⟨env.clock (w.ticks + 1), none⟩, ?_, hsees⟩
  rw [markSending, Prog.bind_eq, Machine.run_bind, dbGet, run_early hfault (by simp [sendTick]) hid]
  simp only [hjob]
  change (faulty env fault).run (Prog.bind utcNow fun startedAt =>
    (modify .bulkEmailJob job (BulkEmailJob.sending startedAt)).bind fun _ =>
      flush.bind fun _ => .ret (some (job.sending startedAt))) {} (w.after 1) = _
  rw [Machine.run_bind, hnow]
  dsimp only
  rw [← Prog.bind_assoc, Machine.run_bind]
  exact hsave ▸ rfl

/-- **The runner, up to `send`.** -/
theorem run_runBulkEmailJob (hro : env.settings.appReadOnly = false)
    (hfault : StrikesFrom fault (sendTick w)) (hjob : w.db.find? .bulkEmailJob jobId = some job) :
    (faulty env fault).run (runBulkEmailJob r jobId) {} w =
      (faulty env fault).run
        (Prog.handle
          ((conclude r (job.sending ⟨env.clock (w.ticks + 1), none⟩)).bind fun _ => commit)
          fun _ => rollback) {} (sendingWorld env job w) := by
  obtain ⟨s, found, hmark, hsees⟩ := run_markSending hro hfault hjob
  have hid : job.id = jobId := Table.find?_key hjob
  have hcommit : (faulty env fault).run commit s (w.after 4) =
      (.ok (), {}, { w.after 5 with db := sendingDb job ⟨env.clock (w.ticks + 1), none⟩ w.db }) := by
    rw [commit, Machine.run_lift, faulty_exec, execFaulty_of_strikesFrom _ hfault (by simp)]
    exact execCommit_sees hro hsees
  have hget : (faulty env fault).run (dbGet .bulkEmailJob jobId) {}
      { w.after 5 with db := sendingDb job ⟨env.clock (w.ticks + 1), none⟩ w.db } =
        (.ok (some (job.sending ⟨env.clock (w.ticks + 1), none⟩)), {}, sendingWorld env job w) := by
    rw [dbGet, run_early hfault (by simp [sendTick])
      (by simpa [Bind.fits] using bigint_of_find? hjob)]
    have hfound := (savedJob_sendingDb ⟨env.clock (w.ticks + 1), none⟩ (hid ▸ hjob) rfl).find?
      (Table.find?_mem hjob) rfl
    simp only [hid ▸ hfound]
    rfl
  have hinner : (faulty env fault).run
      (do
        let job ← markSending jobId
        if job.isNone then rollback else runMarked r jobId) {} w =
      (faulty env fault).run
        ((conclude r (job.sending ⟨env.clock (w.ticks + 1), none⟩)).bind fun _ => commit) {}
        (sendingWorld env job w) := by
    rw [Prog.bind_eq, Machine.run_bind, hmark]
    change (faulty env fault).run (Prog.bind commit fun _ => Prog.bind (completeJob r jobId)
      fun _ => commit) s (w.after 4) = _
    rw [Machine.run_bind, hcommit]
    dsimp only
    rw [completeJob, Prog.bind_eq, Prog.bind_assoc, Machine.run_bind, hget]
  rw [runBulkEmailJob, Machine.run_handle, Machine.run_handle, hinner]

/-! ## Recording the outcome -/

/-- The mail of the job. -/
abbrev sendOf (r : Renderers) (job : BulkEmailJob) : Async V D SendResult :=
  send r job.companyId job.targetDate job.recipientEmail job.format

/-- `conclude`, once `send` has ended. -/
theorem run_conclude (hfault : StrikesFrom fault (sendTick w)) {W w' : World V D}
    {outcome : Except Err SendResult} {s : Session}
    (hsend : (faulty env fault).run (sendOf r job) {} W = (outcome, s, w')) :
    (faulty env fault).run (conclude r job) {} W =
      (faulty env fault).run ((modify .bulkEmailJob job
        (BulkEmailJob.concluded outcome ⟨env.clock w'.ticks, none⟩)).bind fun _ => flush) s
        w'.tick := by
  have hnow : (faulty env fault).run utcNow s w' =
      (.ok ⟨env.clock w'.ticks, none⟩, s, w'.tick) := by
    simp only [utcNow, now, Prog.bind_eq, Machine.run_bind, Machine.run_lift, faulty_exec,
      execFaulty_of_strikesFrom _ hfault (c := (.now : Cmd V D ℤ)) (by simp)]
    rfl
  have hattempt := (faulty env fault).run_attempt (sendOf r job) {} W
  rw [hsend] at hattempt
  have hscript : (conclude r job : Async V D Unit) =
      Prog.bind (Prog.handle ((sendOf r job).bind fun result => .ret (Except.ok result))
        fun e => .ret (Except.error e)) fun outcome => Prog.bind utcNow fun finishedAt =>
          (modify .bulkEmailJob job (BulkEmailJob.concluded outcome finishedAt)).bind
            fun _ => flush := rfl
  rw [hscript, Machine.run_bind, hattempt]
  dsimp only
  rw [Machine.run_bind, hnow]

/-- The outcomes whose record passes the column checks. -/
theorem check_concluded {outcome : Except Err SendResult} {finishedAt : DateTime}
    (hcheck : (shape .bulkEmailJob).check job = true) (ht : timestamp finishedAt)
    (hcount : ∀ result, outcome = .ok result → integer result.count) :
    (shape .bulkEmailJob).check (job.concluded outcome finishedAt) = true ↔
      Recordable outcome := by
  simp only [shape, Bool.and_eq_true] at hcheck
  obtain ⟨⟨⟨⟨⟨⟨⟨⟨⟨hid, hcompany⟩, hrecipient⟩, hinteger⟩, hmessage⟩, herror⟩, hrequester⟩,
    hstarted⟩, hfinished⟩, hcreated⟩ := hcheck
  cases outcome with
  | ok result =>
      simp [shape, BulkEmailJob.concluded, Recordable, hid, hcompany, hrecipient, herror,
        hrequester, hstarted, hcreated, ht, hcount result rfl]
  | error e =>
      simp [shape, BulkEmailJob.concluded, Recordable, hid, hcompany, hrecipient, hinteger,
        hmessage, hrequester, hstarted, hcreated, ht]

/-- Whatever the outcome, the row that is recorded is a success or a failure. -/
theorem concluded_finished (job : BulkEmailJob) (outcome : Except Err SendResult)
    (finishedAt : DateTime) : (job.concluded outcome finishedAt).Finished := by
  cases outcome with
  | ok result => exact .inl rfl
  | error e => exact .inr rfl

/-- Until its second commit the runner changes nothing. -/
theorem conclude_keeps_db {W : World V D} :
    (faulty env fault).Keeps (fun _ (w' : World V D) => w'.db = W.db) (conclude r job) := by
  have honly : (conclude r job : Async V D Unit).Only fun c => !c.isCommit := by
    refine .bind (.handle (.bind ((send_reports ..).mono fun c hc => ?_) fun _ => .ret)
      fun _ => .ret) fun _ => .bind (.bind (.lift rfl) fun _ => .ret) fun _ =>
        .bind (.lift rfl) fun _ => .lift rfl
    cases c <;> first | rfl | cases hc
  refine .of_only honly fun c hc s w' h => ?_
  rw [faulty_exec, execFaulty]
  split
  · exact h
  · obtain hdb | ⟨hcommit, -⟩ := exec_db env c s w'
    · exact hdb.trans h
    · simp [hcommit] at hc

/-- An outcome that is not recorded is rolled back. -/
theorem run_conclude_error (hfault : StrikesFrom fault (sendTick w)) {W w' : World V D} {e : Err}
    {s : Session} (h : (faulty env fault).run (conclude r job) {} W = (.error e, s, w')) :
    ((faulty env fault).run (Prog.handle ((conclude r job).bind fun _ => commit)
      fun _ => rollback) {} W).2.2.db = W.db := by
  have hdb := (conclude_keeps_db (W := W)).run_error rfl h
  rw [Machine.run_handle, Machine.run_bind, h]
  dsimp only
  rw [rollback, Machine.run_lift, faulty_exec, execFaulty_of_strikesFrom _ hfault (by simp)]
  exact hdb

/-- A job that is sent from a transaction that has failed stays as it is. -/
theorem runner_of_failed (hfault : StrikesFrom fault (sendTick w)) {W : World V D}
    (hfailed : ((faulty env fault).run (sendOf r job) {} W).2.1.failed = true) :
    ((faulty env fault).run (Prog.handle ((conclude r job).bind fun _ => commit)
      fun _ => rollback) {} W).2.2.db = W.db := by
  rcases hsend : (faulty env fault).run (sendOf r job) {} W with ⟨outcome, s, w'⟩
  rw [hsend] at hfailed
  have hconclude := run_conclude hfault hsend
  have hbroken : Broken w'.tick s w'.tick := ⟨hfailed, rfl⟩
  have hsave : (faulty env fault).Ensures (Broken w'.tick)
      ((modify .bulkEmailJob job (BulkEmailJob.concluded outcome ⟨env.clock w'.ticks, none⟩)).bind
        fun _ => flush) (fun _ _ _ => False) (Broken w'.tick) := ensures_save_broken
  obtain ⟨e, s', w'', hrun, -⟩ | ⟨-, -, -, -, hfalse⟩ := hsave.run_cases hbroken
  · exact run_conclude_error hfault (hconclude.trans hrun)
  · exact hfalse.elim

/-- **The outcome of a send that the database did not fail**: it is recorded if it fits
the columns, and otherwise the job stays as it is. -/
theorem runner_of_spared (hro : env.settings.appReadOnly = false)
    (hfault : StrikesFrom fault (sendTick w)) {W : World V D}
    (hjob : W.db.find? .bulkEmailJob job.id = some job) (hsending : job.status = .sending)
    (hspared : (faulty env fault).run (sendOf r job) {} W = (server env).run (sendOf r job) {} W) :
    if Recordable ((server env).run (sendOf r job) {} W).1 then
      ∃ job', ((faulty env fault).run (Prog.handle ((conclude r job).bind fun _ => commit)
        fun _ => rollback) {} W).2.2.db.find? .bulkEmailJob job.id = some job' ∧ job'.Finished
    else ((faulty env fault).run (Prog.handle ((conclude r job).bind fun _ => commit)
        fun _ => rollback) {} W).2.2.db = W.db := by
  rcases hsend : (server env).run (sendOf r job) {} W with ⟨outcome, s, w'⟩
  rw [hsend] at hspared
  have hrow := Table.check_of_mem (Table.find?_mem hjob)
  have hid : bigint job.companyId := by
    simp only [schema, shape, Bool.and_eq_true] at hrow
    tauto
  -- `send` reads and mails, so the row of the job is as it was when it was marked
  obtain ⟨rfl, hdb⟩ : Untouched W s w' := by
    have hkeeps : (server env).Keeps (Untouched W) (sendOf r job) := untouched_send hid
    have huntouched := hkeeps.run (l := {}) (s := W) ⟨rfl, rfl⟩
    rwa [hsend] at huntouched
  have hsees : Sees W W.db {} w'.tick := ⟨rfl, rfl, rfl, hdb⟩
  have hconclude := run_conclude hfault hspared
  have hcount : ∀ result, outcome = .ok result → integer result.count := by
    rintro result rfl
    rw [(send_eq_ok hsend).1, length_attached, integer, maxBulkSchedules]
    simp only [decide_eq_true_eq]
    omega
  have hcheck : (shape .bulkEmailJob).check (job.concluded outcome ⟨env.clock w'.ticks, none⟩) =
      true ↔ Recordable outcome := check_concluded hrow rfl hcount
  -- the status changes, so there is an update to send
  have hne : job.concluded outcome ⟨env.clock w'.ticks, none⟩ ≠ job := by
    intro h
    have hfinished := concluded_finished job outcome ⟨env.clock w'.ticks, none⟩
    rw [h, BulkEmailJob.Finished, hsending] at hfinished
    obtain h | h := hfinished <;> cases h
  split
  · next hrecordable =>
      obtain ⟨db', happly⟩ : ∃ db', (Dml.update .bulkEmailJob job.id
          (BulkEmailJob.concluded outcome ⟨env.clock w'.ticks, none⟩) : Statement).apply W.db =
          .ok db' :=
        Dml.update_of_find? hjob (fun x => concluded_id x outcome _) (fun _ _ => ⟨rfl, rfl⟩)
          (hcheck.mpr hrecordable) (by cases outcome <;> rfl)
      obtain ⟨s', hrun, hsees'⟩ := run_save (t := .bulkEmailJob)
        (f := BulkEmailJob.concluded outcome ⟨env.clock w'.ticks, none⟩) hro hfault hsees
        (fun hf => absurd hf hne) happly
      rw [Machine.run_handle, Machine.run_bind, hconclude, hrun]
      dsimp only
      rw [commit, Machine.run_lift, faulty_exec, execFaulty_of_strikesFrom _ hfault (by simp), exec,
        execCommit_sees hro hsees']
      have hsaved : SavedJob job (BulkEmailJob.concluded outcome ⟨env.clock w'.ticks, none⟩)
          W.db db' := (Dml.update_ok happly).2.1
      exact ⟨_, hsaved.find? (Table.find?_mem hjob) (concluded_id ..), concluded_finished ..⟩
  · next hrecordable =>
      obtain ⟨v, happly⟩ : ∃ v, (Dml.update .bulkEmailJob job.id
          (BulkEmailJob.concluded outcome ⟨env.clock w'.ticks, none⟩) : Statement).apply W.db =
          .error v :=
        Dml.update_refused hjob (Bool.eq_false_iff.mpr (mt hcheck.mp hrecordable))
      obtain ⟨e, s', hrun⟩ := run_save_refused hro hfault hsees hne happly
      exact run_conclude_error hfault (hconclude.trans hrun)

end Runner

/-! ## Whether the job ends -/

/-- **The runner ends a job exactly if** no query of `send` fails in the database and
what is to be recorded fits its column; in read-only mode it changes nothing. -/
theorem runner_finishes_iff {env : Env} {fault : Option Fault} {r : Renderers} {jobId : ℤ}
    {w : World V D} {job : BulkEmailJob} (hjob : w.db.find? .bulkEmailJob jobId = some job)
    (hfault : StrikesFrom fault (sendTick w)) :
    (∃ job', (runnerDb env fault r jobId w).find? .bulkEmailJob jobId = some job' ∧
        job'.Finished) ↔
      (env.settings.appReadOnly = true ∧ job.Finished) ∨
        env.settings.appReadOnly = false ∧
          (faulty env fault).run (sendOf r job) {} (sendingWorld env job w) =
            (server env).run (sendOf r job) {} (sendingWorld env job w) ∧
          Recordable ((server env).run (sendOf r job) {} (sendingWorld env job w)).1 := by
  cases hro : env.settings.appReadOnly with
  | true =>
      have hdb : runnerDb env fault r jobId w = w.db :=
        ((keeps_readOnly hro _).run (l := {}) ⟨rfl, rfl⟩).2
      simp [hdb, hjob]
  | false =>
      obtain rfl : job.id = jobId := Table.find?_key hjob
      have hsent : ((sendingWorld env job w).db.find? .bulkEmailJob job.id) =
          some (job.sending ⟨env.clock (w.ticks + 1), none⟩) :=
        (savedJob_sendingDb _ hjob rfl).find? (Table.find?_mem hjob) rfl
      have hrunner := runner_of_spared (r := r) hro hfault
        (show _ = some (job.sending ⟨env.clock (w.ticks + 1), none⟩) from hsent) rfl
      rw [show (sendOf r (job.sending ⟨env.clock (w.ticks + 1), none⟩) : Async V D SendResult) =
        sendOf r job from rfl] at hrunner
      rw [runnerDb, run_runBulkEmailJob hro hfault hjob]
      constructor
      · rintro ⟨job', hfound, hfinished⟩
        -- a job that has ended is not the one that was marked `SENDING`
        have hstranded : ((faulty env fault).run (Prog.handle
            ((conclude r (job.sending ⟨env.clock (w.ticks + 1), none⟩)).bind fun _ => commit)
              fun _ => rollback) {} (sendingWorld env job w)).2.2.db ≠
            (sendingWorld env job w).db := by
          intro hdb
          rw [hdb, hsent] at hfound
          cases hfound
          obtain h | h := hfinished <;> cases h
        obtain hspared | hfailed := faulty_run_cases env fault
          (send_reports r job.companyId job.targetDate job.recipientEmail job.format) {}
          (sendingWorld env job w)
        · refine .inr ⟨rfl, hspared, ?_⟩
          by_contra hrecordable
          have hdb := hrunner hspared
          rw [if_neg hrecordable] at hdb
          exact hstranded hdb
        · exact (hstranded (runner_of_failed hfault hfailed)).elim
      · rintro (⟨hreadOnly, -⟩ | ⟨-, hspared, hrecordable⟩)
        · cases hreadOnly
        · have hfinished := hrunner hspared
          rwa [if_pos hrecordable] at hfinished

/-- The sample company with a job queued for the day of its shift. -/
def queuedWorld : World Unit Unit :=
  JobCall.step still .plain (.create 1 ⟨0⟩ "office@example.org" .pdf none)
    (World.fresh Db.sample ())

/-- The job that is queued. -/
def queuedJob : BulkEmailJob where
  id := 1
  companyId := 1
  recipientEmail := "office@example.org"
  targetDate := ⟨0⟩
  format := .pdf
  status := .queued
  scheduleCount := 0
  truncated := false
  messageId := none
  errorMessage := none
  requestedBy := none
  startedAt := none
  finishedAt := none
  createdAt := ⟨0, none⟩

/-- The queued job is sent. -/
theorem runner_finishes_sample :
    ∃ job', (runnerDb still none .plain 1 queuedWorld).find? .bulkEmailJob 1 = some job' ∧
      job'.Finished := by
  have hjob : queuedWorld.db.find? .bulkEmailJob 1 = some queuedJob := by decide +kernel
  have hfault : StrikesFrom none (sendTick queuedWorld) := fun _ h => (by cases h)
  exact (runner_finishes_iff hjob hfault).mpr (.inr ⟨rfl, rfl, by decide +kernel⟩)

/-- A PDF library whose exception holds a NUL. -/
def Renderers.broken : Renderers :=
  { Renderers.plain with htmlToPdf := fun _ => .error "invalid byte \x00" }

/-- **The runner strands a job**: the first query of `send` fails in the database, or the
text of an exception cannot be stored. -/
theorem runner_strands_job :
    ((runnerDb still (some (.query (sendTick queuedWorld) (.database "57014"))) .plain 1
        queuedWorld).find? .bulkEmailJob 1).map BulkEmailJob.status = some .sending ∧
      ((runnerDb still none .broken 1 queuedWorld).find? .bulkEmailJob 1).map
        BulkEmailJob.status = some .sending := by
  decide +kernel

end Rooti

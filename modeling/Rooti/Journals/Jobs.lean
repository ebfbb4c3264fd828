import Mathlib.Logic.Relation
import Rooti.Core.Visible
import Rooti.Lib.Runs
import Rooti.Services.WorkJournal

/-!
# The life of a bulk-mail job

A job is queued, sending, and then a success or a failure.  Nothing in the code
checks where a job is: `markSending` puts a finished job back to sending, and
`completeJob` mails again (`bulk_job_restarted`).

While the calls arrive in order — `markSending` and `runJob` at jobs that are not
finished, `completeJob` at jobs that are sending — every job moves along the edges
of `JobEdge` only, and its record always fits its status (`bulk_job_lifecycle`).

## Main definitions

* `JobEdge`, `JobMoves` — the states of a job
* `BulkEmailJob.WellFormed` — a record that fits its status
* `JobCall`, `InOrder` — the calls, and when they may arrive

## What carries the proof

Every call ends in one of three ways: nothing is saved, one job is saved by `sending`,
or one job is saved by `concluded`. `SavedJob` says what the table is afterwards, and
the two facts a call needs are read off the function that saves: that it keeps a record
well formed, and that it moves the status along an edge. Both need the status the job
had, and this is what `InOrder` provides.

Whether rendering, mailing or a command fails does not matter here: a failure of `send`
concludes the job as failed, and a failure elsewhere rolls the call back.
-/

namespace Rooti

open Relational Program WorkJournalBulkEmailService

variable {V D : Type}

/-! ## The states of a job -/

/-- The steps of a job: `QUEUED → SENDING → SUCCESS | FAILED`. -/
inductive JobEdge : BulkEmailJobStatus → BulkEmailJobStatus → Prop
  | start : JobEdge .queued .sending
  | succeed : JobEdge .sending .success
  | fail : JobEdge .sending .failed

/-- A job moves along the edges, any number of them. -/
abbrev JobMoves : BulkEmailJobStatus → BulkEmailJobStatus → Prop :=
  Relation.ReflTransGen JobEdge

/-- A finished job stays what it is. -/
theorem JobMoves.eq_of_finished {s s' : BulkEmailJobStatus} (h : JobMoves s s')
    (hs : s = .success ∨ s = .failed) : s' = s := by
  induction h with
  | refl => rfl
  | tail _ hedge ih =>
      subst ih
      obtain rfl | rfl := hs <;> cases hedge

/-- **The record of a job fits its status.** -/
def BulkEmailJob.WellFormed (job : BulkEmailJob) : Prop :=
  match job.status with
  | .queued => job.messageId = none ∧ job.errorMessage = none
  | .sending => job.startedAt ≠ none ∧ job.messageId = none ∧ job.errorMessage = none
  | .success => job.startedAt ≠ none ∧ job.finishedAt ≠ none ∧ job.errorMessage = none
  | .failed => job.finishedAt ≠ none ∧ job.errorMessage ≠ none ∧ job.messageId = none

/-- The jobs of a state are well formed. -/
def JobsWellFormed (db : Db) : Prop := ∀ job ∈ db.rows .bulkEmailJob, job.WellFormed

/-- No job is lost, and every job has moved along the edges. -/
def JobsMove (db db' : Db) : Prop :=
  ∀ job ∈ db.rows .bulkEmailJob, ∃ job' ∈ db'.rows .bulkEmailJob,
    job'.id = job.id ∧ JobMoves job.status job'.status

theorem JobsMove.refl (db : Db) : JobsMove db db := fun job hjob => ⟨job, hjob, rfl, .refl⟩

theorem JobsMove.trans {db db' db'' : Db} (h : JobsMove db db') (h' : JobsMove db' db'') :
    JobsMove db db'' := by
  intro job hjob
  obtain ⟨job', hjob', hid, hmoves⟩ := h job hjob
  obtain ⟨job'', hjob'', hid', hmoves'⟩ := h' job' hjob'
  exact ⟨job'', hjob'', hid'.trans hid, hmoves.trans hmoves'⟩

/-! ## Saving a job -/

/-- The job `job` has been saved as `f job`. -/
def SavedJob (job : BulkEmailJob) (f : BulkEmailJob → BulkEmailJob) (db db' : Db) : Prop :=
  db'.rows .bulkEmailJob = (db.rows .bulkEmailJob).map fun r => if r.id = job.id then f r else r

/-- Saving an object that is as it was sends nothing, and leaves the table as `SavedJob`
says. -/
theorem savedJob_of_save {job : BulkEmailJob} {f : BulkEmailJob → BulkEmailJob} {db db' : Db}
    (hjob : job ∈ db.rows .bulkEmailJob)
    (h : (f job = job ∧ db' = db) ∨ ∃ now, (Dml.update .bulkEmailJob (keyOf .bulkEmailJob job)
      (setUpdatedAt now .bulkEmailJob ∘ f) : Statement).apply db = .ok db') :
    SavedJob job f db db' := by
  obtain ⟨hf, rfl⟩ | ⟨now, h⟩ := h
  · refine (List.map_id _).symm.trans (List.map_congr_left fun r hr => ?_)
    split
    · next hid => rw [Table.eq_of_key hr hjob hid, hf, id]
    · rfl
  · exact (Dml.update_ok h).2.1

/-- A save moves every job along the edges if it moves the one that is saved. -/
theorem SavedJob.move {job : BulkEmailJob} {f : BulkEmailJob → BulkEmailJob} {db db' : Db}
    (h : SavedJob job f db db') (hjob : job ∈ db.rows .bulkEmailJob)
    (hid : (f job).id = job.id) (hmoves : JobMoves job.status (f job).status) :
    JobsMove db db' := by
  intro r hr
  refine ⟨if r.id = job.id then f r else r, ?_, ?_⟩
  · rw [h]
    exact List.mem_map.mpr ⟨r, hr, rfl⟩
  · split
    · next hr' =>
        obtain rfl := Table.eq_of_key hr hjob hr'
        exact ⟨hid, hmoves⟩
    · exact ⟨rfl, .refl⟩

/-- A save leaves every record well formed if it leaves the one that is saved so. -/
theorem SavedJob.wellFormed {job : BulkEmailJob} {f : BulkEmailJob → BulkEmailJob} {db db' : Db}
    (h : SavedJob job f db db') (hjob : job ∈ db.rows .bulkEmailJob)
    (hf : job.WellFormed → (f job).WellFormed) (hdb : JobsWellFormed db) :
    JobsWellFormed db' := by
  intro r hr
  rw [h] at hr
  obtain ⟨r', hr', rfl⟩ := List.mem_map.mp hr
  split
  · next hid =>
      obtain rfl := Table.eq_of_key hr' hjob hid
      exact hf (hdb r' hr')
  · exact hdb r' hr'

/-- The saved job is what is found under its id. -/
theorem SavedJob.find? {job : BulkEmailJob} {f : BulkEmailJob → BulkEmailJob} {db db' : Db}
    (h : SavedJob job f db db') (hjob : job ∈ db.rows .bulkEmailJob)
    (hid : (f job).id = job.id) : db'.find? .bulkEmailJob job.id = some (f job) := by
  refine Table.find?_eq_some.mpr ⟨?_, hid⟩
  show f job ∈ db'.rows .bulkEmailJob
  rw [h]
  exact List.mem_map.mpr ⟨job, hjob, if_pos rfl⟩

/-- A job that is started has no message and no error yet. -/
theorem sending_wellFormed {job : BulkEmailJob} (startedAt : DateTime)
    (hstatus : job.status = .queued ∨ job.status = .sending) (h : job.WellFormed) :
    (job.sending startedAt).WellFormed := by
  unfold BulkEmailJob.WellFormed at h
  obtain hstatus | hstatus := hstatus
  · rw [hstatus] at h
    exact ⟨fun e => (by cases e), h.1, h.2⟩
  · rw [hstatus] at h
    exact ⟨fun e => (by cases e), h.2.1, h.2.2⟩

/-- Starting a job that is sending already moves it nowhere. -/
theorem sending_moves {job : BulkEmailJob} (startedAt : DateTime)
    (hstatus : job.status = .queued ∨ job.status = .sending) :
    JobMoves job.status (job.sending startedAt).status := by
  obtain hstatus | hstatus := hstatus
  · rw [hstatus]
    exact .single .start
  · rw [hstatus]
    exact .refl

/-- A result goes with a message, a failure with the text of its error. -/
theorem concluded_wellFormed {job : BulkEmailJob} (outcome : Except Err SendResult)
    (finishedAt : DateTime) (hstatus : job.status = .sending) (h : job.WellFormed) :
    (job.concluded outcome finishedAt).WellFormed := by
  unfold BulkEmailJob.WellFormed at h
  rw [hstatus] at h
  cases outcome with
  | ok result => exact ⟨h.1, fun e => (by cases e), h.2.2⟩
  | error e => exact ⟨fun e => (by cases e), fun e => (by cases e), h.2.1⟩

/-- A job that is sending ends as a success or a failure. -/
theorem concluded_moves {job : BulkEmailJob} (outcome : Except Err SendResult)
    (finishedAt : DateTime) (hstatus : job.status = .sending) :
    JobMoves job.status (job.concluded outcome finishedAt).status := by
  rw [hstatus]
  cases outcome with
  | ok result => exact .single .succeed
  | error e => exact .single .fail

theorem concluded_id (job : BulkEmailJob) (outcome : Except Err SendResult)
    (finishedAt : DateTime) : (job.concluded outcome finishedAt).id = job.id := by
  cases outcome <;> rfl

/-! ## The calls -/

/-- **The calls** on jobs. -/
inductive JobCall
  | create (companyId : ℤ) (day : Date) (recipientEmail : String) (fmt : JournalFormat)
      (requestedBy : Option ℤ)
  | markSending (jobId : ℤ)
  | completeJob (jobId : ℤ)
  | runJob (jobId : ℤ)

/-- The script of a call. -/
def JobCall.script (r : Renderers) : JobCall → Async V D Unit
  | .create companyId day recipientEmail fmt requestedBy =>
      (createJob companyId day recipientEmail fmt requestedBy).bind fun _ => .ret ()
  | .markSending jobId => (WorkJournalBulkEmailService.markSending jobId).bind fun _ => .ret ()
  | .completeJob jobId => WorkJournalBulkEmailService.completeJob r jobId
  | .runJob jobId => WorkJournalBulkEmailService.runJob r jobId

/-- The state after a call. -/
def JobCall.step (env : Env) (r : Renderers) (call : JobCall) (w : World V D) : World V D :=
  (serve env (call.script r) w).2

/-- **The call arrives in order**: a job is started before it is finished, and
completed while it is sending. -/
def InOrder (call : JobCall) (w : World V D) : Prop :=
  match call with
  | .create .. => True
  | .markSending jobId | .runJob jobId =>
      ∀ job ∈ w.db.find? .bulkEmailJob jobId, job.status = .queued ∨ job.status = .sending
  | .completeJob jobId => ∀ job ∈ w.db.find? .bulkEmailJob jobId, job.status = .sending

instance (w : World V D) : (call : JobCall) → Decidable (InOrder call w)
  | .create .. => isTrue trivial
  | .markSending jobId | .runJob jobId =>
      inferInstanceAs (Decidable (∀ job ∈ w.db.find? .bulkEmailJob jobId,
        job.status = .queued ∨ job.status = .sending))
  | .completeJob jobId =>
      inferInstanceAs (Decidable (∀ job ∈ w.db.find? .bulkEmailJob jobId, job.status = .sending))

section Calls

variable {env : Env} {fault : Option Fault} {w : World V D} {d : Db} {r : Renderers}
  {jobId : ℤ} {job : BulkEmailJob}

/-- Rendering asks the database only. -/
theorem render_selects (r : Renderers) (scheduleId : ℤ) (fmt : JournalFormat) :
    (WorkJournalRenderService.render r scheduleId fmt : Async V D Bytes).Only
      fun c => c matches .select .. := by
  refine .bind (.lift rfl) fun _ => .bind .orRaise fun _ => .bind .ret fun _ =>
    .bind (.lift rfl) fun _ => .bind (.lift rfl) fun _ => ?_
  cases fmt
  · exact .ofExcept
  · exact .ret
  · exact .ofExcept

/-- Rendering all journals of a day asks the database only. -/
theorem renderAll_selects (r : Renderers) (fmt : JournalFormat) (schedules : List WorkSchedule) :
    (renderAll r fmt schedules : Async V D (List (String × Bytes))).Only
      fun c => c matches .select .. := by
  induction schedules with
  | nil => exact .ret
  | cons ws rest ih => exact .bind (render_selects r ws.id fmt) fun _ => .bind ih fun _ => .ret

/-- Sending asks the database, and mails. -/
theorem send_reports (r : Renderers) (companyId : ℤ) (day : Date) (recipientEmail : String)
    (fmt : JournalFormat) :
    (send r companyId day recipientEmail fmt : Async V D SendResult).Only
      fun c => c.reports := by
  refine .bind (.lift rfl) fun schedules => .ite (fun _ => .ret) fun _ => ?_
  refine .bind ((renderAll_selects r fmt _).mono fun c hc => ?_) fun _ =>
    .bind (.lift rfl) fun _ => .ret
  cases c <;> first | rfl | cases hc

/-- A job that is found has been saved as sending; otherwise nothing has happened. -/
theorem ensures_markSending :
    (faulty env fault).Ensures (Sees w d) (WorkJournalBulkEmailService.markSending jobId)
      (fun found s w' => ∃ d', ((found = none ∧ d' = d ∧ d.find? .bulkEmailJob jobId = none) ∨
        ∃ job startedAt, found.isSome ∧ d.find? .bulkEmailJob jobId = some job ∧
          SavedJob job (BulkEmailJob.sending startedAt) d d') ∧ Sees w d' s w')
      (Uncommitted w) := by
  refine (ensures_find.weaken (fun _ _ h => h) (fun _ _ _ h => h)
    fun _ _ h => h.uncommitted).bind fun found => .of_and ?_
  rintro rfl
  cases hfound : d.find? .bulkEmailJob jobId with
  | none => exact .ret fun s w' h => ⟨d, .inl ⟨rfl, rfl, rfl⟩, h⟩
  | some job =>
      refine (ensures_utcNow.weaken (fun _ _ h => h) (fun _ _ _ h => h)
        fun _ _ h => h).bind fun startedAt => .of_and fun _ => ?_
      refine Machine.Ensures.weaken (P := Sees w d) (R := Uncommitted w) (Q := fun found s w' =>
        ∃ d', (found.isSome ∧ SavedJob job (BulkEmailJob.sending startedAt) d d') ∧ Sees w d' s w')
        ?_ (fun _ _ h => h) (fun found s w' ⟨d', ⟨hsome, hsaved⟩, h⟩ =>
          ⟨d', .inr ⟨job, startedAt, hsome, rfl, hsaved⟩, h⟩) fun _ _ h => h
      show (faulty env fault).Ensures (Sees w d) ((modify .bulkEmailJob job
        (BulkEmailJob.sending startedAt)).bind fun _ => flush.bind fun _ =>
          .ret (some (job.sending startedAt))) _ _
      rw [← Prog.bind_assoc]
      refine ensures_save.bind fun _ => .ret ?_
      rintro s w' ⟨d', hsave, h⟩
      exact ⟨d', ⟨rfl, savedJob_of_save (Table.find?_mem hfound) hsave⟩, h⟩

/-- Whatever becomes of the mail, the job has been saved as concluded. -/
theorem ensures_conclude (hjob : job ∈ d.rows .bulkEmailJob) :
    (faulty env fault).Ensures (Sees w d) (conclude r job)
      (fun _ s w' => ∃ outcome finishedAt d',
        SavedJob job (BulkEmailJob.concluded outcome finishedAt) d d' ∧ Sees w d' s w')
      (Uncommitted w) := by
  have hsend : (faulty env fault).Keeps (SeesOrBroken w d) (Prog.handle
      (do
        let result ← send r job.companyId job.targetDate job.recipientEmail job.format
        return Except.ok result)
      fun e => return Except.error e : Async V D (Except Err SendResult)) :=
    .handle (.bind (keeps_of_reports (send_reports ..)) fun _ => .ret) fun _ => .ret
  refine Machine.Ensures.bind (Q := fun _ => SeesOrBroken w d)
    (hsend.weaken (fun _ _ h => .inl h) (fun _ _ _ h => h) fun _ _ h =>
      h.elim Sees.uncommitted Broken.uncommitted) fun outcome => ?_
  refine Machine.Ensures.bind (Q := fun _ => SeesOrBroken w d) ?_ fun finishedAt => ?_
  · refine Machine.Ensures.bind (Q := fun _ => SeesOrBroken w d) (.lift fun s w' h => ?_)
      fun _ => .ret fun _ _ h => h
    rw [faulty_exec, execFaulty_of_quiet _ (by simp)]
    exact h
  · rintro s w' (h | h)
    · refine ensures_save.weaken (fun _ _ h => h) ?_ (fun _ _ h => h) s w' h
      rintro _ s w' ⟨d', hsave, h⟩
      exact ⟨outcome, finishedAt, d', savedJob_of_save hjob hsave, h⟩
    · exact ensures_save_broken.weaken (fun _ _ h => h) (fun _ _ _ h => h.elim)
        (fun _ _ h => h.uncommitted) s w' h

/-- A job that is not found is left alone. -/
theorem ensures_completeJob :
    (faulty env fault).Ensures (Sees w d) (WorkJournalBulkEmailService.completeJob r jobId)
      (fun _ s w' => ∃ d', (d' = d ∨ ∃ job outcome finishedAt,
        d.find? .bulkEmailJob jobId = some job ∧
          SavedJob job (BulkEmailJob.concluded outcome finishedAt) d d') ∧ Sees w d' s w')
      (Uncommitted w) := by
  refine (ensures_find.weaken (fun _ _ h => h) (fun _ _ _ h => h)
    fun _ _ h => h.uncommitted).bind fun found => .of_and ?_
  rintro rfl
  cases hfound : d.find? .bulkEmailJob jobId with
  | none => exact .ret fun s w' h => ⟨d, .inl rfl, h⟩
  | some job =>
      refine (ensures_conclude (Table.find?_mem hfound)).weaken (fun _ _ h => h) ?_
        fun _ _ h => h
      rintro _ s w' ⟨outcome, finishedAt, d', hsaved, h⟩
      exact ⟨d', .inr ⟨job, outcome, finishedAt, rfl, hsaved⟩, h⟩

/-! ## Runs -/

/-- The state of the jobs before and after a call. -/
def JobStep (db db' : Db) : Prop :=
  JobsMove db db' ∧ (JobsWellFormed db → JobsWellFormed db')

theorem JobStep.refl (db : Db) : JobStep db db := ⟨.refl db, id⟩

/-- Starting a job that is not finished. -/
theorem jobStep_sending {db db' : Db} {startedAt : DateTime} (hjob : job ∈ db.rows .bulkEmailJob)
    (hstatus : job.status = .queued ∨ job.status = .sending)
    (h : SavedJob job (BulkEmailJob.sending startedAt) db db') : JobStep db db' :=
  ⟨h.move hjob rfl (sending_moves startedAt hstatus),
    h.wellFormed hjob (sending_wellFormed startedAt hstatus)⟩

/-- Concluding a job that is sending. -/
theorem jobStep_concluded {db db' : Db} {outcome : Except Err SendResult}
    {finishedAt : DateTime} (hjob : job ∈ db.rows .bulkEmailJob)
    (hstatus : job.status = .sending)
    (h : SavedJob job (BulkEmailJob.concluded outcome finishedAt) db db') : JobStep db db' :=
  ⟨h.move hjob (concluded_id ..) (concluded_moves outcome finishedAt hstatus),
    h.wellFormed hjob (concluded_wellFormed outcome finishedAt hstatus)⟩

/-- A job that is started and completed at once. -/
theorem ensures_runJob (horder : ∀ job, d.find? .bulkEmailJob jobId = some job →
      job.status = .queued ∨ job.status = .sending) :
    (faulty env fault).Ensures (Sees w d) (WorkJournalBulkEmailService.runJob r jobId)
      (fun _ s w' => ∃ d', JobStep d d' ∧ Sees w d' s w') (Uncommitted w) := by
  refine ensures_markSending.bind fun found s w' h => ?_
  obtain ⟨d₁, ⟨rfl, rfl, -⟩ | ⟨job, startedAt, hsome, hfound, hsaved⟩, h⟩ := h
  · exact ⟨d₁, .refl d₁, h⟩
  · obtain ⟨hjob, hid⟩ := Table.find?_eq_some.mp hfound
    have hfirst := jobStep_sending hjob (horder job hfound) hsaved
    have hfound₁ : d₁.find? .bulkEmailJob jobId = some (job.sending startedAt) := by
      rw [← hid]
      exact hsaved.find? hjob rfl
    obtain ⟨found, rfl⟩ := Option.isSome_iff_exists.mp hsome
    refine ensures_completeJob.weaken (fun _ _ h => h) (fun _ s w' h => ?_) (fun _ _ h => h)
      s w' h
    obtain ⟨d', rfl | ⟨job', outcome, finishedAt, hfound', hsaved'⟩, hview⟩ := h
    · exact ⟨d', hfirst, hview⟩
    · obtain rfl : job.sending startedAt = job' := by
        simpa using hfound₁.symm.trans hfound'
      have hsecond := jobStep_concluded (Table.find?_mem hfound') rfl hsaved'
      exact ⟨d', ⟨hfirst.1.trans hsecond.1, fun hdb => hsecond.2 (hfirst.2 hdb)⟩, hview⟩

/-- **One call in order** moves the jobs along the edges. -/
theorem jobStep_of_inOrder {call : JobCall} (horder : InOrder call w) :
    JobStep w.db (call.step env r w).db := by
  have hcall : (faulty env none).Ensures (Sees w w.db) (call.script r)
      (fun _ s w' => ∃ d, JobStep w.db d ∧ Sees w d s w') (Uncommitted w) := by
    cases call with
    | create companyId day recipientEmail fmt requestedBy =>
        refine Machine.Ensures.bind (Q := fun _ s w' => ∃ d, JobStep w.db d ∧ Sees w d s w')
          (ensures_insert (fun new d hnaive hinsert => ?_) fun _ _ h => h)
          fun _ => .ret fun _ _ h => h
        refine (ensures_find.weaken (fun _ _ h => h) (fun _ _ _ h => h)
          fun _ _ h => h.uncommitted).bind fun company => .ret fun s w' h => ⟨d, ?_, h.2⟩
        have hrows := (Dml.insert_ok hinsert).1
        refine ⟨fun job hjob => ⟨job, ?_, rfl, .refl⟩, fun hdb job hjob => ?_⟩
        · rw [hrows]
          exact List.mem_append_left _ hjob
        · rw [hrows] at hjob
          obtain hjob | hjob := List.mem_append.mp hjob
          · exact hdb job hjob
          · rw [List.mem_singleton.mp hjob]
            exact ⟨rfl, rfl⟩
    | markSending jobId =>
        refine ensures_markSending.bind fun _ => .ret ?_
        rintro s w' ⟨d, ⟨rfl, rfl, -⟩ | ⟨job, startedAt, -, hfound, hsaved⟩, h⟩
        · exact ⟨_, .refl _, h⟩
        · exact ⟨d, jobStep_sending (Table.find?_mem hfound) (horder job hfound) hsaved, h⟩
    | completeJob jobId =>
        refine ensures_completeJob.weaken (fun _ _ h => h) ?_ fun _ _ h => h
        rintro _ s w' ⟨d, rfl | ⟨job, outcome, finishedAt, hfound, hsaved⟩, h⟩
        · exact ⟨_, .refl _, h⟩
        · exact ⟨d, jobStep_concluded (Table.find?_mem hfound) (horder job hfound) hsaved, h⟩
    | runJob jobId => exact ensures_runJob horder
  obtain hdb | ⟨-, -, hstep⟩ := serveFaulty_sees hcall
  · rw [show (call.step env r w).db = w.db from hdb]
    exact .refl _
  · exact hstep

end Calls

/-- **The life of a bulk-mail job**: as long as the calls arrive in order, every job
moves along the edges between any two states of the run, and its record fits its
status in every state. -/
theorem bulk_job_lifecycle (env : Env) (r : Renderers) (w₀ : World V D)
    (h₀ : JobsWellFormed w₀.db) (earlier later : List JobCall)
    (horder : Runs.Guarded (JobCall.step env r) InOrder (earlier ++ later) w₀) :
    JobsWellFormed (Runs.run (JobCall.step env r) earlier w₀).db ∧
      JobsMove (Runs.run (JobCall.step env r) earlier w₀).db
        (Runs.run (JobCall.step env r) (earlier ++ later) w₀).db := by
  obtain ⟨hearlier, hlater⟩ := Runs.Guarded.of_append horder
  refine ⟨Runs.Guarded.invariant (I := fun w : World V D => JobsWellFormed w.db)
    (fun call w hok h => (jobStep_of_inOrder hok).2 h) h₀ hearlier, ?_⟩
  rw [Runs.run_append]
  exact Runs.Guarded.invariant (I := fun w : World V D =>
    JobsMove (Runs.run (JobCall.step env r) earlier w₀).db w.db)
    (fun call w hok h => h.trans (jobStep_of_inOrder hok).1) (.refl _) hlater

/-- A job of the sample company for a day without shifts. -/
def sampleCreate : JobCall := .create 1 ⟨1⟩ "office@example.org" .pdf none

/-- A job created, started and completed. -/
theorem bulk_job_lifecycle_sample :
    JobsWellFormed (Runs.run (JobCall.step still .plain) [sampleCreate]
        (World.fresh Db.sample () : World Unit Unit)).db ∧
      JobsMove
        (Runs.run (JobCall.step still .plain) [sampleCreate]
          (World.fresh Db.sample () : World Unit Unit)).db
        (Runs.run (JobCall.step still .plain)
          ([sampleCreate] ++ [.markSending 1, .completeJob 1])
          (World.fresh Db.sample () : World Unit Unit)).db := by
  have hnone : JobsWellFormed (World.fresh Db.sample () : World Unit Unit).db := by
    intro job hjob
    have hrows : Db.sample.rows .bulkEmailJob = [] := by decide +kernel
    cases hrows ▸ hjob
  exact bulk_job_lifecycle still .plain _ hnone _ _
    ⟨trivial, by decide +kernel, by decide +kernel, trivial⟩

/-- **A finished job is restarted**: `markSending` takes a success back to sending,
and `completeJob` finishes a job that was never started. -/
theorem bulk_job_restarted :
    ¬JobsMove
        (Runs.run (JobCall.step still .plain) [sampleCreate, .runJob 1]
          (World.fresh Db.sample () : World Unit Unit)).db
        (Runs.run (JobCall.step still .plain) [sampleCreate, .runJob 1, .markSending 1]
          (World.fresh Db.sample () : World Unit Unit)).db ∧
      ¬JobsWellFormed (Runs.run (JobCall.step still .plain) [sampleCreate, .completeJob 1]
        (World.fresh Db.sample () : World Unit Unit)).db := by
  constructor
  · intro hmove
    have hbefore : ∃ job ∈ (Runs.run (JobCall.step still .plain) [sampleCreate, .runJob 1]
        (World.fresh Db.sample () : World Unit Unit)).db.rows .bulkEmailJob,
        job.status = .success := by decide +kernel
    have hafter : ∀ job ∈ (Runs.run (JobCall.step still .plain)
        [sampleCreate, .runJob 1, .markSending 1]
        (World.fresh Db.sample () : World Unit Unit)).db.rows .bulkEmailJob,
        job.status = .sending := by decide +kernel
    obtain ⟨job, hjob, hsuccess⟩ := hbefore
    obtain ⟨job', hjob', -, hmoves⟩ := hmove job hjob
    have hsame := hmoves.eq_of_finished (.inl hsuccess)
    rw [hafter job' hjob', hsuccess] at hsame
    cases hsame
  · intro hwell
    have hfinished : ∃ job ∈ (Runs.run (JobCall.step still .plain)
        [sampleCreate, .completeJob 1]
        (World.fresh Db.sample () : World Unit Unit)).db.rows .bulkEmailJob,
        job.status = .success ∧ job.startedAt = none := by decide +kernel
    obtain ⟨job, hjob, hstatus, hstarted⟩ := hfinished
    have hfits := hwell job hjob
    rw [BulkEmailJob.WellFormed, hstatus] at hfits
    exact hfits.1 hstarted

end Rooti

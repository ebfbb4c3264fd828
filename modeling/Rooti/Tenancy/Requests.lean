import Rooti.Journals.Runner
import Rooti.Tenancy.Endpoints
import Rooti.Tenancy.Scopes

/-!
# Requests of a charger

A charger whose scope is a company sees and changes what belongs to the company, by any of the
requests that are confined to one (`tenant_isolation`).  A bulk mail leaves a task behind, which
runs after the response in a session of its own: it writes the one job that was asked for.

## Main definitions

* `TaskOf` — tasks about the company
* `ScopedResponse.Within` — what a response shows is the company's
* `tenant_isolation` — every request

## What carries the proof

Each endpoint was shown to keep to the company of its scope in `Tenancy.Endpoints`. Two
things are added here. The scope itself is looked up first, by a query that writes
nothing, and the request goes on from the state this leaves. And the tasks that run
after the response have no scope at all: they are given the id of a job, or the company
itself, and act on it. That the job is the company's is part of what the response
promises (`TaskOf`), and since a task changes the progress of its job and not its
company, the job stays the company's while the task runs.
-/

namespace Rooti

open Relational Program WorkJournalBulkEmailService

variable {V D α β : Type} {env : Env} {c : ℤ} {w : World V D} {r : Renderers}

/-- **A task about the company**: its job is the company's. -/
def TaskOf (c : ℤ) (db : Db) : BackgroundTask → Prop
  | .bulkEmailJob jobId => ∃ job ∈ db.rows .bulkEmailJob, job.id = jobId ∧ job.companyId = c
  | .bulkEmailInert companyId _ _ _ => companyId = c

/-- **What a response shows is the company's.** -/
def ScopedResponse.Within (r : Renderers) (c : ℤ) (db : Db) : ScopedResponse → Prop
  | leavePage page => ∀ l ∈ page.content, LeaveOf c db l
  | leaves rows => ∀ l ∈ rows, LeaveOf c db l
  | leave row => LeaveOf c db row
  | kioskPage page => ∀ k ∈ page.content, KioskOf c db k
  | kiosks rows => ∀ k ∈ rows, KioskOf c db k
  | kiosk row => KioskOf c db row
  | journal scheduleId fmt body => JournalOf r c db scheduleId fmt body
  | queued result task => TaskOf c db task ∧
      ∀ jobId ∈ result.jobId, ∃ job ∈ db.rows .bulkEmailJob, job.id = jobId ∧ job.companyId = c
  | jobs rows => ∀ job ∈ rows, JobOf c db job
  | job row => JobOf c db row
  | preview rows => rows.companyId = c ∧
      ∀ item ∈ rows.items, ∃ ws, ShiftOf c db ws ∧ ws.id = item.scheduleId
  | schedules rows => ∀ s ∈ rows, EmailScheduleOf c db s
  | schedule row => EmailScheduleOf c db row
  | done => True

/-! ## Bulk mails -/

/-- The commit of a session that has sent everything. -/
theorem Holds.commit {d : Db} {s : Session} {w' : World V D} (h : Holds w d [] s w') :
    execCommit env s w' = (.ok (), {}, { w'.tick with db := d }) := by
  have hflush : s.flush env.settings.appReadOnly w'.db = (.ok (), s) := by
    simp [Session.flush, h.failed, h.pending]
  have hsent : Dml.applyAll s.written w'.db = .ok d := by
    rw [h.db]
    exact h.written
  simp only [execCommit, hflush, hsent]

/-- A request that commits what it has sent before it answers. -/
theorem confined_of_committed {p : Async V D α} {f : α → β} {shown : β → Db → Prop}
    (hp : ∀ w, (server env).Ensures (Holds w w.db []) p
      (fun a s w' => ∃ d, (Isolated c w.db d ∧ shown (f a) d) ∧ Holds w d [] s w')
      (Uncommitted w)) :
    Confined env c shown (p.bind fun a => Prog.bind commit fun _ => .ret (f a)) := by
  intro w
  obtain ⟨e, s, w', hrun, hdb⟩ | ⟨a, s, w', hrun, d, ⟨hisolated, hshown⟩, hholds⟩ :=
    (hp w).run_cases holds_start
  · have hfails : (server env).run (p.bind fun a => Prog.bind commit fun _ => .ret (f a)) {} w =
        (.error e, s, w') := by
      rw [Machine.run_bind, hrun]
    rw [serve_of_error hfails, World.tick_db, show w'.db = w.db from hdb]
    exact ⟨.refl c w.db, fun b hb => by cases hb⟩
  · have hreturns : (server env).run (p.bind fun a => Prog.bind commit fun _ => .ret (f a)) {} w =
        (.ok (f a), {}, { w'.tick with db := d }) := by
      rw [Machine.run_bind, hrun]
      show (server env).run (Prog.bind commit fun _ => .ret (f a)) s w' = _
      rw [commit, Machine.run_lift_bind, server_exec, exec, hholds.commit]
      rfl
    rw [serve_of_clean hreturns]
    refine ⟨hisolated, fun b hb => ?_⟩
    cases hb
    exact hshown

/-- A bulk mail records its job, commits it, and answers with its id. In read-only mode
no job is recorded, and the task is given the company itself. -/
theorem confined_bulkEmail {req : BulkEmailRequest} {me : PrincipalDetails} :
    Confined env c (fun answer db => (ScopedResponse.queued answer.1 answer.2).Within r c db)
      (WorkJournalApi.bulkEmail env req me (some c) : Async V D _) := by
  unfold WorkJournalApi.bulkEmail
  cases hro : env.settings.appReadOnly with
  | true =>
      refine confined_of_reads fun w => holds_assertCompany.bind fun _ => .of_and fun hscope => ?_
      have hcompany : req.companyId = c := by simpa using hscope
      exact .ret fun _ _ h => ⟨⟨hcompany, fun jobId hjob => by cases hjob⟩, h⟩
  | false =>
      have hscript : ∀ {γ : Type} (p : Async V D Unit) (q : Async V D BulkEmailJobResponse)
          (k : BulkEmailJobResponse → Async V D γ),
          (p.bind fun _ => q.bind k) = (p.bind fun _ => q).bind k :=
        fun p q k => (Prog.bind_assoc p (fun _ => q) k).symm
      simp only [Prog.bind_eq, Bool.false_eq_true, if_false]
      rw [hscript]
      refine confined_of_committed fun w => holds_assertCompany.bind fun _ =>
        .of_and fun hscope => ?_
      have hcompany : req.companyId = c := by simpa using hscope
      refine holds_insert fun new d hinsert => holds_dbGet.bind fun company => .of_and fun _ =>
        .ret fun _ _ h => ⟨d, ⟨isolated_insert hinsert (congrArg some hcompany), ?_⟩, h⟩
      have hjob : newJob req.companyId req.date req.recipientEmail req.format (some me.userId) new ∈
          d.rows .bulkEmailJob := by
        rw [(Dml.insert_ok hinsert).1]
        exact List.mem_append_right _ List.mem_cons_self
      refine ⟨⟨_, hjob, rfl, hcompany⟩, fun jobId hid => ?_⟩
      cases hid
      exact ⟨_, hjob, rfl, hcompany⟩

/-! ## Tasks -/

section Tasks

variable {db₀ : Db} {p : Async V D α}

/-- A script that records nothing. -/
theorem maintained_of_unrecorded {I : Db → Prop}
    (hp : p.Only fun cmd => ∀ w, cmd.recorded env w = []) :
    (server env).Keeps (Maintained I) p := by
  refine .of_only hp fun cmd hcmd s w h => exec_maintained ?_ h
  rw [hcmd w]
  exact fun d hd => by cases hd

/-- The job of the company is assigned to. -/
theorem maintained_modifyJob {jobId : ℤ} {job : BulkEmailJob}
    {f : BulkEmailJob → BulkEmailJob} (howns : Owns c db₀ .bulkEmailJob jobId)
    (hkey : job.id = jobId) (hf : ∀ job, (f job).companyId = job.companyId) :
    (server env).Keeps (Maintained (Isolated c db₀))
      (modify .bulkEmailJob job f : Async V D Unit) := by
  refine .lift fun s w h => exec_maintained (fun d hd => ?_) h
  simp only [Cmd.recorded] at hd
  split at hd
  · cases hd
  obtain rfl := List.mem_singleton.mp hd
  intro db db' hdb happly
  refine hdb.trans (isolated_update happly ?_ fun r hr => (congrArg some (hf r)).trans hr)
  show Owns c db .bulkEmailJob job.id
  rw [hkey]
  exact howns.of_isolated hdb.symm

/-- A job that is loaded has the key asked for. -/
theorem maintained_dbGet {I : Db → Prop} {t : Entity} {id : ℤ} :
    (server env).Ensures (Maintained I) (dbGet t id : Async V D (Option (Row t)))
      (fun found s w' => (∀ row ∈ found, keyOf t row = id) ∧ Maintained I s w')
      (Maintained I) := by
  refine .lift fun s w h => ?_
  have hkeeps : Maintained I
      (exec env (.select [.int id] fun _ db => db.find? t id : Cmd V D _) s w).2.1
      (exec env (.select [.int id] fun _ db => db.find? t id : Cmd V D _) s w).2.2 :=
    exec_maintained (fun d hd => by cases hd) h
  rw [server_exec]
  rcases hexec : exec env (.select [.int id] fun _ db => db.find? t id : Cmd V D _) s w with
    ⟨e | found, s', w'⟩ <;> rw [hexec] at hkeeps
  · exact hkeeps
  · refine ⟨fun row hrow => ?_, hkeeps⟩
    cases hrow
    exact keyOf_of_dbGet env s w (congrArg Prod.fst hexec)

variable {jobId : ℤ}

/-- Marking changes the job that was asked for. -/
theorem maintained_markSending (howns : Owns c db₀ .bulkEmailJob jobId) :
    (server env).Keeps (Maintained (Isolated c db₀))
      (markSending jobId : Async V D (Option BulkEmailJob)) := by
  refine maintained_dbGet.bind fun found => .of_and fun hkey => ?_
  cases found with
  | none => exact .ret fun _ _ h => h
  | some job =>
      refine .bind (maintained_of_unrecorded (.bind (.lift fun _ => rfl) fun _ => .ret))
        fun startedAt => ?_
      refine .bind (maintained_modifyJob howns (hkey job rfl) fun _ => rfl) fun _ => ?_
      exact .bind (maintained_of_unrecorded (.lift fun _ => rfl)) fun _ => .ret fun _ _ h => h

/-- So does recording the outcome; what `send` reads is not recorded. -/
theorem maintained_completeJob (howns : Owns c db₀ .bulkEmailJob jobId) :
    (server env).Keeps (Maintained (Isolated c db₀)) (completeJob r jobId : Async V D Unit) := by
  refine maintained_dbGet.bind fun found => .of_and fun hkey => ?_
  cases found with
  | none => exact .ret fun _ _ h => h
  | some job =>
      have hsend : (server env).Keeps (Maintained (Isolated c db₀))
          (send r job.companyId job.targetDate job.recipientEmail job.format :
            Async V D SendResult) := by
        refine maintained_of_unrecorded ((send_reports ..).mono fun cmd hcmd _ => ?_)
        cases cmd <;> first | rfl | cases hcmd
      have houtcome : (server env).Keeps (Maintained (Isolated c db₀)) (Prog.handle
          (do
            let result ← send r job.companyId job.targetDate job.recipientEmail job.format
            return Except.ok result)
          fun e => return Except.error e : Async V D (Except Err SendResult)) :=
        .handle (.bind hsend fun _ => .ret) fun _ => .ret
      refine .bind houtcome fun outcome => ?_
      refine .bind (maintained_of_unrecorded (.bind (.lift fun _ => rfl) fun _ => .ret))
        fun finishedAt => ?_
      refine .bind (maintained_modifyJob howns (hkey job rfl) fun job => ?_) fun _ =>
        maintained_of_unrecorded (.lift fun _ => rfl)
      cases outcome <;> rfl

/-- **A task about the company leaves the others alone.** -/
theorem maintained_task {task : BackgroundTask} (htask : TaskOf c db₀ task) :
    (server env).Keeps (Maintained (Isolated c db₀)) (task.script r : Async V D Unit) := by
  have hrollback : (server env).Keeps (Maintained (Isolated c db₀))
      (rollback : Async V D Unit) := maintained_of_unrecorded (.lift fun _ => rfl)
  have hcommit : (server env).Keeps (Maintained (Isolated c db₀)) (commit : Async V D Unit) :=
    maintained_of_unrecorded (.lift fun _ => rfl)
  cases task with
  | bulkEmailJob jobId =>
      obtain ⟨job, hjob, rfl, hcompany⟩ := htask
      have howns : Owns c db₀ .bulkEmailJob job.id := owns_of_mem hjob (congrArg some hcompany)
      refine .handle (.bind (maintained_markSending howns) fun marked => ?_) fun _ => hrollback
      refine .ite (fun _ => hrollback) fun _ => ?_
      exact .bind hcommit fun _ => .bind (maintained_completeJob howns) fun _ => hcommit
  | bulkEmailInert companyId day recipientEmail fmt =>
      have hsend : (server env).Keeps (Maintained (Isolated c db₀))
          (send r companyId day recipientEmail fmt : Async V D SendResult) := by
        refine maintained_of_unrecorded ((send_reports ..).mono fun cmd hcmd _ => ?_)
        cases cmd <;> first | rfl | cases hcmd
      exact .handle (.bind hsend fun _ => hrollback) fun _ => .bind hrollback fun _ => .raise

end Tasks

/-! ## Every request -/

/-- The endpoint of every request keeps to the company in scope. -/
theorem confined_endpoint {ilike : String → String → Bool} {me : PrincipalDetails}
    (request : ScopedRequest) :
    Confined env c (fun response db => response.Within r c db)
      (request.endpoint env r ilike me (some c) : Async V D ScopedResponse) := by
  cases request with
  | listLeaves filter page => exact confined_listLeaves.map fun _ _ h => h
  | listApproved companyId from_ to_ => exact confined_listApproved.map fun _ _ h => h
  | listByWorker workerId from_ to_ => exact confined_listByWorker.map fun _ _ h => h
  | createLeave req => exact confined_createLeave.map fun _ _ h => h
  | decideLeave leaveId req => exact confined_decideLeave.map fun _ _ h => h
  | deleteLeave leaveId => exact confined_deleteLeave.map fun _ _ h => h
  | listKiosks keyword companyId status page => exact confined_listKiosks.map fun _ _ h => h
  | kiosksOfCompany companyId => exact confined_kiosksByCompany.map fun _ _ h => h
  | bindKiosk req => exact confined_bindKiosk.map fun _ _ h => h
  | setAssignee kioskId req => exact confined_setAssignee.map fun _ _ h => h
  | unbind kioskId => exact confined_unbind.map fun _ _ h => h
  | downloadPdf scheduleId =>
      exact (confined_downloadFile scheduleId .pdf).map fun _ _ h => h
  | downloadFile scheduleId format =>
      exact (confined_downloadFile scheduleId format).map fun _ _ h => h
  | bulkEmail req => exact confined_bulkEmail.map fun _ _ h => h
  | listBulkEmailJobs companyId limit => exact confined_listBulkEmailJobs.map fun _ _ h => h
  | getBulkEmailJob jobId => exact confined_getBulkEmailJob.map fun _ _ h => h
  | bulkPreview companyId day => exact confined_bulkPreview.map fun _ _ h => h
  | listEmailSchedules companyId => exact confined_listEmailSchedules.map fun _ _ h => h
  | createEmailSchedule req => exact confined_createEmailSchedule.map fun _ _ h => h
  | updateEmailSchedule scheduleId req =>
      exact confined_updateEmailSchedule.map fun _ _ h => h
  | deleteEmailSchedule scheduleId => exact confined_deleteEmailSchedule.map fun _ _ h => h

/-- A request that begins by reading goes on from the state it has left. -/
theorem serve_bind_of_run {p : Async V D α} {k : α → Async V D β} {a : α} {w' : World V D}
    (h : (server env).run p {} w = (.ok a, {}, w')) :
    serve env (p.bind k) w = serve env (k a) w' := by
  rw [serve_eq, serve_eq, Machine.run_bind, h]

/-- The scope is looked up without changing anything. -/
theorem untouched_getCompanyScope (env : Env) (crypto : Crypto V) (me : PrincipalDetails) :
    (server env).Ensures (Untouched w) (getCompanyScope crypto me : Async V D CompanyScopeValue)
      (fun _ => Untouched w) (fun _ _ => True) := by
  refine Machine.Ensures.bind (Q := fun _ => Untouched w) ?_ fun me => .ite ?_ fun _ => ?_
  · exact Machine.Ensures.bind (Q := fun _ => Untouched w)
      (.raiseIf (fun _ _ _ h => h) fun _ _ _ _ => trivial) fun _ => .ret fun _ _ h => h
  · exact fun _ => .ret fun _ _ h => h
  · refine Machine.Ensures.bind (Q := fun _ => Untouched w) (.lift ?_) fun rows => ?_
    · rintro s w' ⟨rfl, hdb⟩
      rw [server_exec]
      by_cases hbinds : [Bind.int me.userId].all Bind.fits = true
      · simp only [exec, execSelect, flush_empty, hbinds, if_true]
        exact ⟨rfl, hdb⟩
      · simp only [exec, execSelect, flush_empty, hbinds]
        trivial
    · refine Machine.Ensures.bind (Q := fun _ => Untouched w)
        (ensures_scalarOneOrNone (fun _ _ _ _ h => h) fun _ _ _ => trivial) fun found => ?_
      exact Machine.Ensures.bind (Q := fun _ => Untouched w)
        (.orRaise (fun _ _ _ _ h => h) fun _ _ _ _ => trivial) fun _ => .ret fun _ _ h => h

/-- **Companies are apart from each other.**  When the scope of a principal is a company, no
request changes, removes or adds what is not of the company, nor does the task it leaves
behind, and what is shown is the company's. -/
theorem tenant_isolation {r : Renderers} {ilike : String → String → Bool} {crypto : Crypto V}
    {me : PrincipalDetails} {request : ScopedRequest} {w : World V D} {c : ℤ}
    (hscope : ((server env).run (getCompanyScope crypto me) {} w).1 = .ok (some c))
    {served : Except Err ScopedResponse × World V D}
    (hserved : served = request.serve env r ilike crypto me w) :
    Isolated c w.db served.2.db ∧
      Isolated c w.db (afterTasks env r served.1 served.2).db ∧
      ∀ response, served.1 = .ok response → response.Within r c served.2.db := by
  obtain ⟨w₁, hrun, hdb⟩ : ∃ w₁, (server env).run (getCompanyScope crypto me) {} w =
      (.ok (some c), {}, w₁) ∧ w₁.db = w.db := by
    have huntouched := untouched_getCompanyScope env crypto me {} w ⟨rfl, rfl⟩
    rcases hrun : (server env).run (getCompanyScope crypto me) {} w with ⟨e | a, s, w₁⟩ <;>
      rw [hrun] at hscope huntouched
    · cases hscope
    · cases hscope
      obtain ⟨rfl, hdb⟩ := huntouched
      exact ⟨w₁, rfl, hdb⟩
  have hendpoint : served = serve env (request.endpoint env r ilike me (some c)) w₁ := by
    rw [hserved, ScopedRequest.serve, Prog.bind_eq, serve_bind_of_run hrun]
  obtain ⟨hisolated, hshown⟩ := confined_endpoint request w₁
  rw [← hendpoint, hdb] at hisolated
  rw [← hendpoint] at hshown
  refine ⟨hisolated, hisolated.trans ?_, hshown⟩
  unfold afterTasks
  split
  · next result task hresponse =>
      have htask : TaskOf c served.2.db task := (hshown _ hresponse).1
      exact ((maintained_task htask).run ⟨fun d hd => (by cases hd), .refl c _⟩).2
  · exact .refl c _

/-- The charger of the sample company. -/
def sampleCharger : PrincipalDetails := ⟨2, "charger", ["CHARGER"], true, true⟩

/-- The charger mails the journals of a day. -/
def sampleBulkEmail : ScopedRequest := .bulkEmail ⟨1, ⟨0⟩, "office@example.org", .pdf⟩

/-- Nothing of the other company is touched or shown. -/
theorem tenant_isolation_sample :
    let w : World Json Unit := World.fresh Db.branches ()
    let served := sampleBulkEmail.serve still .plain (fun _ _ => true) .plain sampleCharger w
    ((server still).run (getCompanyScope .plain sampleCharger) {} w).1 = .ok (some 1) ∧
      Isolated 1 w.db served.2.db ∧
      Isolated 1 w.db (afterTasks still .plain served.1 served.2).db ∧
      ∀ response, served.1 = .ok response → response.Within .plain 1 served.2.db := by
  intro w served
  have hscope : ((server still).run (getCompanyScope .plain sampleCharger) {} w).1 =
      .ok (some 1) := by decide +kernel
  exact ⟨hscope, tenant_isolation hscope rfl⟩

end Rooti

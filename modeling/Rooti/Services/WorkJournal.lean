import Rooti.Core.Tenant

/-!
# Work journals

The journal of a shift lists its work records.  One journal is rendered at a time
(`WorkJournalRenderService.render`); the bulk mail of a company and a day renders
the journals of all shifts, up to a limit, into one archive and mails it
(`WorkJournalBulkEmailService.send`).  A bulk mail is a job: queued when asked
for, sending while it is rendered, and then a success or a failure.

The libraries that produce the bytes of a document are parameters (`Renderers`).

## Main definitions

* `Renderers` — the libraries
* `WorkJournalRenderService.render`
* `WorkJournalBulkEmailService.send`, `preview`, `createJob`, `markSending`,
  `completeJob`, `runJob`, `getJob`, `listJobs`
* `runBulkEmailJob`, `runBulkEmailInert` — the background runners
-/

namespace Rooti

open Relational Program

variable {V D : Type}

/-! ## Rendering -/

/-- The libraries that produce documents: a page as PDF, a table as spreadsheet, and
files as an archive. -/
structure Renderers where
  htmlToPdf : String → Except String Bytes
  workbook : List (List String) → Except String Bytes
  zip : List (String × Bytes) → Bytes

/-- Libraries that pass on what they are given. -/
def Renderers.plain : Renderers where
  htmlToPdf page := .ok page.toUTF8.toList
  workbook _ := .ok []
  zip files := files.flatMap Prod.snd

/-- One line of a journal. -/
structure JournalRow where
  type : String
  startAt : String
  endAt : String

/-- The line of a work record. -/
def JournalRow.ofRecord (r : WorkRecord) : JournalRow where
  type := r.type.value
  startAt := r.startAt.isoformat
  endAt := match r.endAt with
    | some t => t.isoformat
    | none => ""

namespace WorkJournalRenderService

/-- The error of a library. -/
def renderError (text : String) : Err := .python "Exception" text

/-- The page `_render_pdf` prints. -/
def journalHtml (title : String) (rows : List JournalRow) : String :=
  let rowsHtml := String.join (rows.map fun r =>
    "<tr><td>" ++ r.type ++ "</td><td>" ++ r.startAt ++ "</td><td>" ++ r.endAt ++ "</td></tr>")
  "\n        <!doctype html>\n        <html lang=\"ko\">\n        " ++
    "<head><meta charset=\"utf-8\"><title>" ++ title ++ "</title>\n        " ++
    "<style>body\x7bfont-family:sans-serif\x7dtable\x7bborder-collapse:collapse;width:100%\x7d" ++
    "\n        th,td\x7bborder:1px solid #999;padding:6px\x7d</style></head>\n        " ++
    "<body><h1>" ++ title ++ "</h1>\n        " ++
    "<table><thead><tr><th>type</th><th>start</th><th>end</th></tr></thead>\n        " ++
    "<tbody>" ++ rowsHtml ++ "</tbody></table></body></html>\n        "

/-- `_render_pdf`. -/
def renderPdf (r : Renderers) (title : String) (rows : List JournalRow) : Async V D Bytes :=
  Prog.ofExcept ((r.htmlToPdf (journalHtml title rows)).mapError renderError)

/-- `render_journal_xlsx`. -/
def renderJournalXlsx (r : Renderers) (rows : List JournalRow) : Async V D Bytes :=
  Prog.ofExcept ((r.workbook (["type", "start_at", "end_at"] ::
    rows.map fun row => [row.type, row.startAt, row.endAt])).mapError renderError)

/-- The document of a journal in a format. -/
def document (r : Renderers) (fmt : JournalFormat) (title : String) (rows : List JournalRow) :
    Async V D Bytes :=
  match fmt with
  | .pdf => renderPdf r title rows
  | .xlsx => renderJournalXlsx r rows
  | .hwp => .ret ("[HWP placeholder] " ++ title ++ "\n(렌더러 미구현)\n").toUTF8.toList

/-- The company a shift belongs to, through its job worker. -/
def ownerCompanies (schedule : WorkSchedule) (o : RowOrder) (db : Db) : List ℤ :=
  (o.scan ((db.rows .jobWorker).filter fun jw => jw.id = schedule.jobWorkerId)).filterMap
    fun jw => (db.find? .companyWorker jw.companyWorkerId).map CompanyWorker.companyId

/-- A shift outside a company's scope is not rendered; without a scope nothing is
asked. -/
def assertOwner (scope : CompanyScopeValue) (schedule : WorkSchedule) : Async V D Unit :=
  match scope with
  | none => .ret ()
  | some _ => do
      let rows ← select [.int schedule.jobWorkerId] (ownerCompanies schedule)
      let owner ← scalarOneOrNone rows
      assertCompany scope owner

/-- The records of a shift, by start. -/
def recordsOf (scheduleId : ℤ) (o : RowOrder) (db : Db) : List WorkRecord :=
  o.orderBy (fun r => r.startAt.micros)
    ((db.rows .workRecord).filter fun r => r.workScheduleId = scheduleId)

/-- `render`. -/
def render (r : Renderers) (scheduleId : ℤ) (fmt : JournalFormat)
    (companyScope : CompanyScopeValue := none) : Async V D Bytes := do
  let found ← dbGet .workSchedule scheduleId
  let schedule ← Prog.orRaise (businessException .workScheduleNotFound) found
  assertOwner companyScope schedule
  let standard ← dbGet .jobStandard schedule.jobStandardId
  let records ← select [.int scheduleId] (recordsOf scheduleId)
  document r fmt
    ("근무일지 - schedule=" ++ toString scheduleId ++ " - " ++
      (standard.elim "" fun s => s.name))
    (records.map JournalRow.ofRecord)

end WorkJournalRenderService

/-! ## Bulk mails -/

/-- What `send` answers. -/
structure SendResult where
  count : ℤ
  messageId : Option String
  truncated : Bool
  deriving DecidableEq

/-- `BulkPreviewItem`. -/
structure BulkPreviewItem where
  scheduleId : ℤ
  workerId : ℤ
  workerName : String
  jobStandardId : ℤ
  jobStandardName : String
  startAt : DateTime
  endAt : Option DateTime
  recordCount : ℤ
  deriving DecidableEq

/-- `BulkPreviewResponse`. -/
structure BulkPreviewResponse where
  companyId : ℤ
  companyName : String
  date : Date
  journalCount : ℤ
  items : List BulkPreviewItem
  deriving DecidableEq

/-- `BulkEmailJobResponse`. -/
structure BulkEmailJobResponse where
  id : ℤ
  companyId : ℤ
  companyName : Option String
  recipientEmail : String
  targetDate : Date
  format : JournalFormat
  status : BulkEmailJobStatus
  scheduleCount : ℤ
  truncated : Bool
  messageId : Option String
  errorMessage : Option String
  requestedBy : Option ℤ
  requestedByName : Option String
  startedAt : Option DateTime
  finishedAt : Option DateTime
  createdAt : DateTime
  deriving DecidableEq

/-- `_to_job_response`. -/
def toJobResponse (job : BulkEmailJob) (companyName requesterName : Option String) :
    BulkEmailJobResponse where
  id := job.id
  companyId := job.companyId
  companyName := companyName
  recipientEmail := job.recipientEmail
  targetDate := job.targetDate
  format := job.format
  status := job.status
  scheduleCount := job.scheduleCount
  truncated := job.truncated
  messageId := job.messageId
  errorMessage := job.errorMessage
  requestedBy := job.requestedBy
  requestedByName := requesterName
  startedAt := job.startedAt
  finishedAt := job.finishedAt
  createdAt := job.createdAt

namespace BulkEmailJob

/-- A job whose rendering begins. -/
def sending (startedAt : DateTime) (job : BulkEmailJob) : BulkEmailJob :=
  { job with status := .sending, startedAt := some startedAt }

/-- A job whose mail was sent, or failed. -/
def concluded (outcome : Except Err SendResult) (finishedAt : DateTime) (job : BulkEmailJob) :
    BulkEmailJob :=
  match outcome with
  | .ok result =>
      { job with
        scheduleCount := result.count
        messageId := result.messageId
        truncated := result.truncated
        status := .success
        finishedAt := some finishedAt }
  | .error e =>
      { job with
        status := .failed
        errorMessage := some (String.ofList (e.text.toList.take 1000))
        finishedAt := some finishedAt }

end BulkEmailJob

namespace WorkJournalBulkEmailService

/-- `_MAX_BULK_SCHEDULES`. -/
def maxBulkSchedules : ℕ := 300

/-- The company of the worker of a shift, through the inner joins of the queries. -/
def companyOf (db : Db) (ws : WorkSchedule) : Option CompanyWorker :=
  (db.find? .jobWorker ws.jobWorkerId).bind fun jw => db.find? .companyWorker jw.companyWorkerId

/-- The shift is one of the company, and starts on the day. -/
def inBulk (companyId : ℤ) (day : Date) (db : Db) (ws : WorkSchedule) : Bool :=
  (companyOf db ws).any (fun cw => cw.companyId = companyId) &&
    decide ((DateTime.dayStart day).micros ≤ ws.startAt.micros ∧
      ws.startAt.micros ≤ (DateTime.dayEnd day).micros)

/-- The shifts a bulk mail is about, by start. -/
def schedulesOf (companyId : ℤ) (day : Date) (o : RowOrder) (db : Db) : List WorkSchedule :=
  o.orderBy (fun ws => ws.startAt.micros)
    ((db.rows .workSchedule).filter (inBulk companyId day db))

/-- The name of a journal in the archive. -/
def journalFilename (scheduleId : ℤ) (fmt : JournalFormat) : String :=
  "work-journal-" ++ toString scheduleId ++ "." ++ fmt.extension

/-- The files of an archive, rendered one after another. -/
def renderAll (r : Renderers) (fmt : JournalFormat) :
    List WorkSchedule → Async V D (List (String × Bytes))
  | [] => .ret []
  | ws :: rest =>
      (WorkJournalRenderService.render r ws.id fmt).bind fun body =>
        (renderAll r fmt rest).bind fun files =>
          .ret ((journalFilename ws.id fmt, body) :: files)

/-- The mail with an archive of `attached` out of `total` journals. -/
def bulkMail (r : Renderers) (day : Date) (recipientEmail : String) (total attached : ℕ)
    (files : List (String × Bytes)) : Mail where
  recipient := recipientEmail
  subject := "근무일지 일괄 (" ++ day.isoformat ++ ") — " ++ toString attached ++ "건"
  html := "<p>" ++ day.isoformat ++ " 자 근무일지 " ++ toString attached ++
    "건을 첨부합니다.</p>" ++
    (if maxBulkSchedules < total then
      "<p>주의: 상한(" ++ toString maxBulkSchedules ++ "건)을 초과해 전체 " ++ toString total ++
        "건 중 " ++ toString attached ++
        "건만 첨부했습니다. 날짜·회사 범위를 좁혀 다시 보내세요.</p>"
    else "")
  attachments := [{
    filename := "work-journals-" ++ day.isoformat ++ ".zip"
    content := r.zip files
    contentType := "application/zip" }]

/-- The journals of the shifts, rendered and mailed. -/
def sendSchedules (r : Renderers) (day : Date) (recipientEmail : String) (fmt : JournalFormat)
    (schedules : List WorkSchedule) : Async V D SendResult := do
  let filtered := schedules.take maxBulkSchedules
  let files ← renderAll r fmt filtered
  let messageId ← sendEmail (bulkMail r day recipientEmail schedules.length filtered.length files)
  return ⟨filtered.length, messageId, decide (maxBulkSchedules < schedules.length)⟩

/-- `send`. -/
def send (r : Renderers) (companyId : ℤ) (day : Date) (recipientEmail : String)
    (fmt : JournalFormat) : Async V D SendResult := do
  let schedules ← select [.int companyId] (schedulesOf companyId day)
  if schedules.isEmpty then return ⟨0, none, false⟩
  else sendSchedules r day recipientEmail fmt schedules

/-- A row of the query of `preview`: a shift with its worker, the user of the worker
and its standard, all through inner joins, and the number of its records. -/
def previewRow (db : Db) (ws : WorkSchedule) : Option BulkPreviewItem := do
  let cw ← companyOf db ws
  let worker ← db.find? .challengedWorker cw.challengedWorkerId
  let user ← db.find? .user worker.userId
  let standard ← db.find? .jobStandard ws.jobStandardId
  return {
    scheduleId := ws.id
    workerId := worker.id
    workerName := user.name
    jobStandardId := ws.jobStandardId
    jobStandardName := standard.name
    startAt := ws.startAt
    endAt := ws.endAt
    recordCount := (db.rows .workRecord).countP fun r => r.workScheduleId = ws.id }

/-- The rows of the query of `preview`, by worker and start. -/
def previewRows (companyId : ℤ) (day : Date) (o : RowOrder) (db : Db) : List BulkPreviewItem :=
  (o.scan (((db.rows .workSchedule).filter (inBulk companyId day db)).filterMap
    (previewRow db))).mergeSort fun a b =>
      decide (a.workerName < b.workerName) ||
        (decide (a.workerName = b.workerName) && decide (a.startAt.micros ≤ b.startAt.micros))

/-- `preview`. -/
def preview (companyId : ℤ) (day : Date) : Async V D BulkPreviewResponse := do
  let company ← dbGet .company companyId
  let items ← select [.int companyId] (previewRows companyId day)
  return {
    companyId := companyId
    companyName := company.elim "" fun c => c.name
    date := day
    journalCount := items.length
    items := items }

/-! ### Jobs -/

/-- The row a `create_job` adds. -/
def newJob (companyId : ℤ) (day : Date) (recipientEmail : String) (fmt : JournalFormat)
    (requestedBy : Option ℤ) (new : NewRow) : BulkEmailJob where
  id := new.id
  companyId := companyId
  recipientEmail := recipientEmail
  targetDate := day
  format := fmt
  status := .queued
  scheduleCount := 0
  truncated := false
  messageId := none
  errorMessage := none
  requestedBy := requestedBy
  startedAt := none
  finishedAt := none
  createdAt := new.createdAt

/-- `create_job`. -/
def createJob (companyId : ℤ) (day : Date) (recipientEmail : String) (fmt : JournalFormat)
    (requestedBy : Option ℤ) : Async V D BulkEmailJobResponse := do
  let new ← add .bulkEmailJob (newJob companyId day recipientEmail fmt requestedBy)
  flush
  let company ← dbGet .company companyId
  return toJobResponse (newJob companyId day recipientEmail fmt requestedBy new)
    (company.map Company.name) none

/-- The job is marked as sending. -/
def startSending (job : BulkEmailJob) : Async V D (Option BulkEmailJob) := do
  let startedAt ← utcNow
  modify .bulkEmailJob job (BulkEmailJob.sending startedAt)
  flush
  return some (job.sending startedAt)

/-- `mark_sending`. -/
def markSending (jobId : ℤ) : Async V D (Option BulkEmailJob) := do
  let found ← dbGet .bulkEmailJob jobId
  match found with
  | none => return none
  | some job => startSending job

/-- The mail of the job is sent and its outcome recorded. -/
def conclude (r : Renderers) (job : BulkEmailJob) : Async V D Unit := do
  let outcome ← Prog.handle
    (do
      let result ← send r job.companyId job.targetDate job.recipientEmail job.format
      return Except.ok result)
    fun e => return Except.error e
  let finishedAt ← utcNow
  modify .bulkEmailJob job (BulkEmailJob.concluded outcome finishedAt)
  flush

/-- `complete_job`. -/
def completeJob (r : Renderers) (jobId : ℤ) : Async V D Unit := do
  let found ← dbGet .bulkEmailJob jobId
  match found with
  | none => return ()
  | some job => conclude r job

/-- `run_job`. -/
def runJob (r : Renderers) (jobId : ℤ) : Async V D Unit := do
  let job ← markSending jobId
  if job.isNone then return () else completeJob r jobId

/-- A job with the names of its company and of who asked for it. -/
def jobRow (db : Db) (job : BulkEmailJob) : Option (BulkEmailJob × String × Option String) :=
  (db.find? .company job.companyId).map fun company =>
    (job, company.name, (job.requestedBy.bind (db.find? .user)).map User.name)

/-- `get_job`. -/
def getJob (jobId : ℤ) (companyScope : CompanyScopeValue := none) :
    Async V D BulkEmailJobResponse := do
  let rows ← select [.int jobId] fun o db =>
    (o.scan ((db.rows .bulkEmailJob).filter fun j => j.id = jobId)).filterMap (jobRow db)
  let row ← Prog.orRaise (businessException .resourceNotFound) rows.head?
  assertCompany companyScope (some row.1.companyId)
  return toJobResponse row.1 (some row.2.1) row.2.2

/-- The newest jobs, of one company or of all. -/
def newestJobs (companyId : Option ℤ) (limit : ℕ) (o : RowOrder) (db : Db) :
    List (BulkEmailJob × String × Option String) :=
  ((o.orderByDesc BulkEmailJob.id ((db.rows .bulkEmailJob).filter fun j =>
    companyId.all (· = j.companyId))).filterMap (jobRow db)).take limit

/-- `list_jobs`. -/
def listJobs (companyId : Option ℤ) (limit : ℕ := 50) :
    Async V D (List BulkEmailJobResponse) := do
  let rows ← select (companyId.toList.map Bind.int) (newestJobs companyId limit)
  return rows.map fun row => toJobResponse row.1 (some row.2.1) row.2.2

end WorkJournalBulkEmailService

/-! ## Background runners -/

open WorkJournalBulkEmailService in
/-- A job that exists is marked as sending, and then completed, each with a commit of
its own. -/
def runMarked (r : Renderers) (jobId : ℤ) : Async V D Unit := do
  commit
  completeJob r jobId
  commit

open WorkJournalBulkEmailService in
/-- `run_bulk_email_job`. -/
def runBulkEmailJob (r : Renderers) (jobId : ℤ) : Async V D Unit :=
  Prog.handle
    (do
      let job ← markSending jobId
      if job.isNone then rollback else runMarked r jobId)
    fun _ => rollback

/-- `run_bulk_email_inert`: the session is rolled back in any case. -/
def runBulkEmailInert (r : Renderers) (companyId : ℤ) (day : Date) (recipientEmail : String)
    (fmt : JournalFormat) : Async V D Unit :=
  Prog.handle
    (do
      let _ ← WorkJournalBulkEmailService.send r companyId day recipientEmail fmt
      rollback)
    fun e => do
      rollback
      Prog.raise e

end Rooti

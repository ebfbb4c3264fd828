import Rooti.Core.Decimal
import Rooti.Journals.Runner

/-!
# What a bulk mail attaches

The shifts of a day are found through their workers, sorted by start and cut off after the
first 300.  Each that remains is rendered into a file named after it, so no two files of an
archive have one name, and what is cut off starts no earlier than what is sent.

## Main definitions

* `StartsOn` — the shifts of a company and a day
* `Renders` — what `render` makes of a shift
* `Attaches` — the files of an archive
* `bulkMail_attaches` — what `send` mails and `complete_job` records

## What carries the proof

The query joins a shift with the assignment and the worker and sorts by the start, so
what is left of it is a list in order without repetitions, from which the first 300 are
taken; everything said of the archive follows from that list. Nothing is committed
between the rendering of two journals, and the session has no changes, so all of them
are rendered from the same database (`renderAll_renders`).

The three parts of `bulkMail_attaches` are separate on purpose: what is mailed if `send`
returns, that it does where the libraries succeed, and what `complete_job` records of
it.
-/

namespace Rooti

open Relational Program WorkJournalBulkEmailService

variable {V D : Type}

/-- The shift is one of the company's workers, and starts on the day. -/
def StartsOn (companyId : ℤ) (day : Date) (db : Db) (ws : WorkSchedule) : Prop :=
  (∃ jw cw, db.find? .jobWorker ws.jobWorkerId = some jw ∧
    db.find? .companyWorker jw.companyWorkerId = some cw ∧ cw.companyId = companyId) ∧
  ws.startAt.date = day

/-- **What `render` makes of a shift** of a database. -/
def Renders (V D : Type) (env : Env) (r : Renderers) (fmt : JournalFormat) (db : Db)
    (ws : WorkSchedule) (body : Bytes) : Prop :=
  ∃ (w : World V D) (s : Session) (w' : World V D), w.db = db ∧
    (server env).run (WorkJournalRenderService.render r ws.id fmt) {} w = (.ok body, s, w')

/-- **The files of an archive**: one for every shift in `included`, which are the first of
`shifts`. -/
structure Attaches (V D : Type) (env : Env) (r : Renderers) (fmt : JournalFormat) (db : Db)
    (shifts included : List WorkSchedule) (files : List (String × Bytes)) : Prop where
  length : files.length = min shifts.length maxBulkSchedules
  names : (files.map Prod.fst).Nodup
  nodup : included.Nodup
  subset : ∀ ws ∈ included, ws ∈ shifts
  first : ∀ ws ∈ included, ∀ ws' ∈ shifts, ws' ∉ included → ws.startAt.micros ≤ ws'.startAt.micros
  rendered : List.Forall₂ (fun ws file => Renders V D env r fmt db ws file.2) included files

/-- **What a bulk mail does**: without shifts nothing is sent; otherwise one mail, with the
journals of the first shifts. -/
def BulkMailed (env : Env) (r : Renderers) (companyId : ℤ) (day : Date) (recipientEmail : String)
    (fmt : JournalFormat) (w w' : World V D) (result : SendResult) : Prop :=
  ∃ shifts : List WorkSchedule, shifts.Nodup ∧
    (∀ ws, ws ∈ shifts ↔ ws ∈ w.db.rows .workSchedule ∧ StartsOn companyId day w.db ws) ∧
    (result.truncated = true ↔ maxBulkSchedules < shifts.length) ∧
    (shifts = [] → result.count = 0 ∧ w'.outbox = w.outbox) ∧
    (shifts ≠ [] → ∃ included files mail, Attaches V D env r fmt w.db shifts included files ∧
      mail.recipient = recipientEmail ∧ mail.attachments.map Attachment.content = [r.zip files] ∧
      w'.outbox = w.outbox ++ [mail] ∧ result.count = files.length)

/-! ## The shifts of a day -/

section Selection

variable {companyId : ℤ} {day : Date} {o : RowOrder} {db : Db} {ws ws' : WorkSchedule}

/-- The instants of a day. -/
theorem between_iff_date (t : DateTime) :
    ((DateTime.dayStart day).micros ≤ t.micros ∧ t.micros ≤ (DateTime.dayEnd day).micros) ↔
      t.date = day := by
  obtain ⟨days⟩ := day
  simp only [DateTime.dayStart, DateTime.dayEnd, DateTime.date, DateTime.dayMicros, Date.mk.injEq]
  omega

/-- **The query finds the shifts of the company and the day.** -/
theorem mem_shiftsOf : ws ∈ shiftsOf companyId day db ↔
    ws ∈ db.rows .workSchedule ∧ StartsOn companyId day db ws := by
  have hcompany : (companyOf db ws).any (fun cw => cw.companyId = companyId) = true ↔
      ∃ jw cw, db.find? .jobWorker ws.jobWorkerId = some jw ∧
        db.find? .companyWorker jw.companyWorkerId = some cw ∧ cw.companyId = companyId := by
    rw [Option.any_eq_true]
    constructor
    · rintro ⟨cw, hcw, hid⟩
      obtain ⟨jw, hjw, hfound⟩ := Option.bind_eq_some_iff.mp hcw
      exact ⟨jw, cw, hjw, hfound, of_decide_eq_true hid⟩
    · rintro ⟨jw, cw, hjw, hfound, hid⟩
      exact ⟨cw, Option.bind_eq_some_iff.mpr ⟨jw, hjw, hfound⟩, decide_eq_true hid⟩
  rw [shiftsOf, List.mem_filter, inBulk, Bool.and_eq_true, hcompany, decide_eq_true_iff,
    between_iff_date]
  rfl

/-- No shift is found twice. -/
theorem nodup_shiftsOf : (shiftsOf companyId day db).Nodup :=
  (List.Nodup.of_map _ (Table.nodup_key (db.table .workSchedule))).filter _

/-- No shift that is attached starts after one that is left out. -/
theorem attached_first (hws : ws ∈ attached companyId day o db)
    (hws' : ws' ∈ shiftsOf companyId day db) (hout : ws' ∉ attached companyId day o db) :
    ws.startAt.micros ≤ ws'.startAt.micros := by
  have hsorted : (schedulesOf companyId day o db).Pairwise fun a b =>
      decide (a.startAt.micros ≤ b.startAt.micros) = true := by
    refine List.pairwise_mergeSort (fun a b c => ?_) (fun a b => ?_) _
    · simp only [decide_eq_true_eq]
      exact Int.le_trans
    · simp only [Bool.or_eq_true, decide_eq_true_eq]
      exact Int.le_total _ _
  rw [← List.take_append_drop maxBulkSchedules (schedulesOf companyId day o db),
    List.pairwise_append] at hsorted
  have hmem : ws' ∈ schedulesOf companyId day o db := schedulesOf_perm.mem_iff.mpr hws'
  rw [← List.take_append_drop maxBulkSchedules (schedulesOf companyId day o db),
    List.mem_append] at hmem
  exact of_decide_eq_true (hsorted.2.2 ws hws ws' (hmem.resolve_left hout))

/-- Journals of different shifts have different names. -/
theorem journalFilename_injective {fmt : JournalFormat} {m n : ℤ}
    (h : journalFilename m fmt = journalFilename n fmt) : m = n := by
  rw [journalFilename, journalFilename, String.append_left_inj, String.append_left_inj,
    String.append_right_inj] at h
  exact Py.toString_injective h

end Selection

/-! ## The archive -/

section Archive

variable {env : Env} {r : Renderers} {companyId : ℤ} {day : Date} {recipientEmail : String}
  {fmt : JournalFormat} {w w' : World V D} {s : Session}

/-- **The files of an archive are the journals of its shifts**, rendered one after another from
the same database. -/
theorem renderAll_renders {schedules : List WorkSchedule} {files : List (String × Bytes)}
    {w₁ : World V D} (hdb : w₁.db = w.db) (hall : ∀ ws ∈ schedules, ws ∈ w.db.rows .workSchedule)
    (h : (server env).run (renderAll r fmt schedules) {} w₁ = (.ok files, s, w')) :
    List.Forall₂ (fun ws file => Renders V D env r fmt w.db ws file.2) schedules files := by
  induction schedules generalizing files w₁ with
  | nil =>
      cases h
      exact .nil
  | cons ws rest ih =>
      obtain ⟨hws, hrest⟩ := List.forall_mem_cons.mp hall
      obtain ⟨body, s₁, w₂, hrender, h⟩ := Machine.run_bind_eq_ok h
      obtain ⟨files', s₂, w₃, hfiles, h⟩ := Machine.run_bind_eq_ok h
      cases h
      -- a journal leaves the session as it was
      obtain ⟨rfl, hdb'⟩ : Untouched w s₁ w₂ := (untouched_render hws).run_ok ⟨rfl, hdb⟩ hrender
      exact .cons ⟨w₁, {}, w₂, hdb, hrender⟩ (ih hdb' hrest hfiles)

/-- **What `send` does**, if it returns. -/
theorem send_mailed {result : SendResult}
    (h : (server env).run (send r companyId day recipientEmail fmt) {} w = (.ok result, s, w')) :
    BulkMailed env r companyId day recipientEmail fmt w w' result := by
  obtain ⟨schedules, s₁, w₁, hselect, h⟩ := Machine.run_bind_eq_ok h
  obtain ⟨-, rfl, rfl, rfl⟩ := run_select_clean_eq_ok hselect
  have hperm : (schedulesOf companyId day (env.rowOrder w.ticks) w.db).Perm
      (shiftsOf companyId day w.db) := schedulesOf_perm
  refine ⟨shiftsOf companyId day w.db, nodup_shiftsOf, fun ws => mem_shiftsOf, ?_⟩
  by_cases hnone : schedulesOf companyId day (env.rowOrder w.ticks) w.db = []
  · have hshifts : shiftsOf companyId day w.db = [] := by
      rw [hnone] at hperm
      exact List.nil_perm.mp hperm
    rw [hnone] at h
    cases h
    rw [hshifts]
    refine ⟨⟨fun h => ?_, fun h => ?_⟩, fun _ => ⟨rfl, rfl⟩, fun h => absurd rfl h⟩ <;> cases h
  · rw [if_neg (by simpa using hnone)] at h
    obtain ⟨files, s₂, w₂, hfiles, h⟩ := Machine.run_bind_eq_ok h
    obtain ⟨messageId, s₃, w₃, hmail, h⟩ := Machine.run_bind_eq_ok h
    have hquiet := (renderAll_quiet _).run_eq hfiles
    have hout := run_sendEmail_eq_ok hmail
    -- the names of the entries tell the shifts apart, since they contain the ids
    have hnames := renderAll_eq_ok hfiles
    have hne : shiftsOf companyId day w.db ≠ [] := by
      intro hempty
      rw [hempty] at hperm
      exact hnone (List.perm_nil.mp hperm)
    have hnodup : (attached companyId day (env.rowOrder w.ticks) w.db).Nodup :=
      (hperm.nodup_iff.mpr nodup_shiftsOf).sublist (List.take_sublist _ _)
    have hsubset : ∀ ws ∈ attached companyId day (env.rowOrder w.ticks) w.db,
        ws ∈ shiftsOf companyId day w.db :=
      fun ws hws => hperm.mem_iff.mp (List.mem_of_mem_take hws)
    have hlength : files.length =
        (attached companyId day (env.rowOrder w.ticks) w.db).length :=
      (List.length_map _).symm.trans ((congrArg List.length hnames).trans (List.length_map _))
    have hdistinct : (files.map Prod.fst).Nodup := by
      rw [hnames]
      refine hnodup.map_on fun ws hws ws' hws' hname => ?_
      exact Table.eq_of_key (mem_shiftsOf.mp (hsubset ws hws)).1
        (mem_shiftsOf.mp (hsubset ws' hws')).1 (journalFilename_injective hname)
    have hrendered := renderAll_renders (w := w) w.tick_db
      (fun ws hws => (mem_shiftsOf.mp (hsubset ws hws)).1) hfiles
    cases h
    refine ⟨?_, fun h => absurd h hne, fun _ => ⟨attached companyId day (env.rowOrder w.ticks) w.db,
      files, bulkMail r day recipientEmail
        (schedulesOf companyId day (env.rowOrder w.ticks) w.db).length
        (attached companyId day (env.rowOrder w.ticks) w.db).length files,
      ⟨?_, hdistinct, hnodup, hsubset, fun ws hws ws' hws' => attached_first hws hws', hrendered⟩,
      rfl, rfl, hout.trans ?_, ?_⟩⟩
    · rw [decide_eq_true_iff, hperm.length_eq]
    · rw [hlength, length_attached, Nat.min_comm]
    · rw [hquiet.outbox]
      rfl
    · rw [hlength]
      rfl

end Archive

/-! ## The record of the job -/

section Record

variable {env : Env} {r : Renderers} {w w' : World V D} {s : Session} {jobId : ℤ}
  {job : BulkEmailJob} {result : SendResult}

/-- **`complete_job` mails what `send` does and records its answer.** -/
theorem completeJob_records (hro : env.settings.appReadOnly = false)
    (hjob : w.db.find? .bulkEmailJob jobId = some job)
    (hsend : (server env).run (sendOf r job) {} w.tick = (.ok result, s, w'))
    (hfits : result.messageId.all (varchar 255) = true) :
    ∃ job' s' w'', (server env).run (completeJob r jobId) {} w = (.ok (), s', w'') ∧
      BulkMailed env r job.companyId job.targetDate job.recipientEmail job.format w w'' result ∧
      (s'.view w''.db).find? .bulkEmailJob jobId = some job' ∧ job'.status = .success ∧
      job'.scheduleCount = result.count ∧ job'.truncated = result.truncated := by
  obtain rfl : job.id = jobId := Table.find?_key hjob
  have hfault : StrikesFrom none (sendTick w) := fun f hf => by cases hf
  have hrow := Table.check_of_mem (Table.find?_mem hjob)
  have hcompany : bigint job.companyId := by
    simp only [schema, shape, Bool.and_eq_true] at hrow
    tauto
  have hkeeps : (server env).Keeps (Untouched w.tick) (sendOf r job) := untouched_send hcompany
  obtain ⟨rfl, hdb⟩ : Untouched w.tick s w' := hkeeps.run_ok ⟨rfl, rfl⟩ hsend
  have hcount : integer result.count := by
    rw [(send_eq_ok hsend).1, length_attached, integer, maxBulkSchedules]
    simp only [decide_eq_true_eq]
    omega
  -- the assignments that record the answer
  let record : BulkEmailJob → BulkEmailJob :=
    BulkEmailJob.concluded (.ok result) ⟨env.clock w'.ticks, none⟩
  obtain ⟨db', happly⟩ : ∃ db', (Dml.update .bulkEmailJob job.id record : Statement).apply w.db =
      .ok db' := by
    refine Dml.update_of_find? hjob (fun x => rfl) (fun _ _ => ⟨rfl, rfl⟩)
      ((check_concluded hrow rfl ?_).mpr hfits) rfl
    rintro result' ⟨⟩
    exact hcount
  have hsaved : SavedJob job record w.db db' := (Dml.update_ok happly).2.1
  have hsees : Sees w w.db {} w'.tick := ⟨rfl, rfl, rfl, hdb⟩
  have hsame : record job = job → db' = w.db := fun hf =>
    Except.ok.inj (happly.symm.trans (Dml.update_self hjob hf))
  obtain ⟨s', hrun, hsees'⟩ := run_save (t := .bulkEmailJob) (f := record) hro hfault hsees hsame
    happly
  have hsend' : (faulty env none).run (sendOf r job) {} w.tick = (.ok result, {}, w') := hsend
  have hconclude := (run_conclude hfault hsend').trans hrun
  have hcomplete : (server env).run (completeJob r job.id) {} w =
      (.ok (), s', w'.tick.after 2) := by
    rw [completeJob, Prog.bind_eq, run_dbGet_found env w hjob]
    exact hconclude
  have hmailed : BulkMailed env r job.companyId job.targetDate job.recipientEmail job.format w.tick
      w' result := send_mailed hsend
  refine ⟨record job, s', w'.tick.after 2, hcomplete, hmailed, ?_, rfl, rfl, rfl⟩
  rw [hsees'.view]
  exact hsaved.find? (Table.find?_mem hjob) rfl

end Record

/-- **The bulk mail**: what it mails whenever `send` returns, that `send` returns where
documents are produced and mails delivered, and that `complete_job` records its answer. -/
theorem bulkMail_attaches (env : Env) (r : Renderers) (companyId : ℤ) (day : Date)
    (recipientEmail : String) (fmt : JournalFormat) (w : World V D) :
    (∀ result s w', (server env).run (send r companyId day recipientEmail fmt) {} w =
        (.ok result, s, w') →
      BulkMailed env r companyId day recipientEmail fmt w w' result) ∧
    (r.Succeed → (∀ n mail, ∃ messageId, env.mailer n mail = .ok messageId) → bigint companyId →
      ∃ result s w', (server env).run (send r companyId day recipientEmail fmt) {} w =
        (.ok result, s, w')) ∧
    ∀ jobId job result s w', env.settings.appReadOnly = false →
      w.db.find? .bulkEmailJob jobId = some job →
      (server env).run (sendOf r job) {} w.tick = (.ok result, s, w') →
      result.messageId.all (varchar 255) = true →
      ∃ job' s' w'', (server env).run (completeJob r jobId) {} w = (.ok (), s', w'') ∧
        BulkMailed env r job.companyId job.targetDate job.recipientEmail job.format w w'' result ∧
        (s'.view w''.db).find? .bulkEmailJob jobId = some job' ∧ job'.status = .success ∧
        job'.scheduleCount = result.count ∧ job'.truncated = result.truncated :=
  ⟨fun _ _ _ h => send_mailed h, fun hr hmailer hid => send_returns env hr hid hmailer,
    fun _ _ _ _ _ hro hjob hsend hfits => completeJob_records hro hjob hsend hfits⟩

end Rooti

import Rooti.Core.Reading
import Rooti.Journals.Jobs

/-!
# The preview of a bulk mail

`preview` lists the journals that a bulk mail of the same company and day would
attach.  Both queries select the same shifts (`map_scheduleId_previewRows`), but
the mail stops at its limit and the preview does not: the two agree exactly while
no more shifts start on that day than the limit allows (`preview_agrees`).

## Main definitions

* `attached` — the shifts whose journals are attached
* `Mailed` — the mail of a bulk mail

## What carries the proof

The preview joins a shift with more tables than the mail does: the worker, the account
of the worker and the standard. Inner joins drop rows without a counterpart, and here
the foreign keys say that there are none (`length_previewRows`). So both queries select
the shifts of the company and the day, in different orders, and the comparison of ids is
one of sets.

What remains is the number. The mail takes the first 300 in the order of their start,
the preview takes all, and both count what they have. Libraries that fail would end the
mail before it is sent, hence `Renderers.Succeed`.
-/

namespace Rooti

open Relational Program WorkJournalBulkEmailService

variable {V D : Type}

/-- The shifts whose journals a bulk mail attaches. -/
def attached (companyId : ℤ) (day : Date) (o : RowOrder) (db : Db) : List WorkSchedule :=
  (schedulesOf companyId day o db).take maxBulkSchedules

/-- The shifts that start on the day, in no particular order. -/
def shiftsOf (companyId : ℤ) (day : Date) (db : Db) : List WorkSchedule :=
  (db.rows .workSchedule).filter (inBulk companyId day db)

/-- **The mail of a bulk mail**: its archive holds one journal for every shift, and
without shifts there is no mail. -/
def Mailed (r : Renderers) (day : Date) (recipientEmail : String) (fmt : JournalFormat)
    (shifts : List WorkSchedule) (w w' : World V D) : Prop :=
  (shifts = [] ∧ w'.outbox = w.outbox) ∨
    ∃ total files, files.map Prod.fst = shifts.map (fun ws => journalFilename ws.id fmt) ∧
      w'.outbox = w.outbox ++ [bulkMail r day recipientEmail total shifts.length files]

section Selection

variable {companyId : ℤ} {day : Date} {o : RowOrder} {db : Db}

/-- The mail's query selects the shifts of company and day, in some order. -/
theorem schedulesOf_perm : (schedulesOf companyId day o db).Perm (shiftsOf companyId day db) :=
  (List.mergeSort_perm _ _).trans (o.perm _)

/-- A shift with its foreign keys met has a row in the preview. -/
theorem previewRow_of_refs (hfk : db.ForeignKeys) {ws : WorkSchedule}
    (hws : ws ∈ shiftsOf companyId day db) :
    ∃ item, previewRow db ws = some item ∧ item.scheduleId = ws.id := by
  obtain ⟨hrow, hin⟩ := List.mem_filter.mp hws
  have hmet : ∀ (t : Entity) (row : Row t), row ∈ db.rows t → ∀ ref ∈ refs t row,
      ∃ r', db.find? ref.table ref.key = some r' :=
    fun t row hmem ref href => Option.isSome_iff_exists.mp (hfk t row hmem ref href)
  obtain ⟨cw, hcw, -⟩ : ∃ cw, companyOf db ws = some cw ∧ cw.companyId = companyId := by
    simpa [inBulk, Option.any_eq_true] using (Bool.and_eq_true_iff.mp hin).1
  have hcwRow : cw ∈ db.rows .companyWorker := by
    obtain ⟨jw, -, hfound⟩ := Option.bind_eq_some_iff.mp hcw
    exact Table.find?_mem hfound
  obtain ⟨worker, hworker⟩ := hmet .companyWorker cw hcwRow
    ⟨.challengedWorker, cw.challengedWorkerId, .restrict⟩ (by simp [refs])
  obtain ⟨user, huser⟩ := hmet .challengedWorker worker (Table.find?_mem hworker)
    ⟨.user, ChallengedWorker.userId worker, .restrict⟩ (by simp [refs])
  obtain ⟨standard, hstandard⟩ := hmet .workSchedule ws hrow
    ⟨.jobStandard, ws.jobStandardId, .restrict⟩ (by simp [refs])
  dsimp only at hworker huser hstandard
  simp [previewRow, hcw, hworker, huser, hstandard]

/-- **The preview lists every shift once.** -/
theorem map_scheduleId_previewRows (hfk : db.ForeignKeys) :
    ((previewRows companyId day o db).map BulkPreviewItem.scheduleId).Perm
      ((shiftsOf companyId day db).map WorkSchedule.id) := by
  have hall : ∀ shifts : List WorkSchedule,
      (∀ ws ∈ shifts, ∃ item, previewRow db ws = some item ∧ item.scheduleId = ws.id) →
      (shifts.filterMap (previewRow db)).map BulkPreviewItem.scheduleId =
        shifts.map WorkSchedule.id := by
    intro shifts h
    induction shifts with
    | nil => rfl
    | cons ws rest ih =>
        obtain ⟨⟨item, hitem, hid⟩, hrest⟩ := List.forall_mem_cons.mp h
        rw [List.filterMap_cons_some hitem, List.map_cons, List.map_cons, hid, ih hrest]
  rw [← hall _ fun ws hws => previewRow_of_refs hfk hws]
  exact ((List.mergeSort_perm _ _).trans (o.perm _)).map _

/-- Every shift has its row in the preview: no join drops one. -/
theorem length_previewRows (hfk : db.ForeignKeys) :
    (previewRows companyId day o db).length = (shiftsOf companyId day db).length := by
  simpa only [List.length_map] using (map_scheduleId_previewRows (o := o) hfk).length_eq

/-- The mail attaches as many as there are, up to its limit. -/
theorem length_attached :
    (attached companyId day o db).length =
      min maxBulkSchedules (shiftsOf companyId day db).length := by
  rw [attached, List.length_take, schedulesOf_perm.length_eq]

end Selection

/-! ## The two scripts -/

section Scripts

variable {env : Env} {r : Renderers} {companyId : ℤ} {day : Date} {recipientEmail : String}
  {fmt : JournalFormat} {w w' : World V D} {s : Session}

/-- What `preview` answers. -/
theorem preview_eq_ok {response : BulkPreviewResponse}
    (h : (server env).run (preview companyId day) {} w = (.ok response, s, w')) :
    ∃ o, response.items = previewRows companyId day o w.db ∧
      response.journalCount = (previewRows companyId day o w.db).length := by
  obtain ⟨company, s₁, w₁, hrun, h⟩ := Machine.run_bind_eq_ok h
  obtain ⟨-, -, rfl, rfl⟩ := run_select_clean_eq_ok hrun
  obtain ⟨items, s₂, w₂, hrun, h⟩ := Machine.run_bind_eq_ok h
  obtain ⟨-, rfl, rfl, rfl⟩ := run_select_clean_eq_ok hrun
  cases h
  exact ⟨_, rfl, rfl⟩

/-- A mail that was sent is in the outbox, behind those before it. -/
theorem run_sendEmail_eq_ok {mail : Mail} {messageId : Option String} {s s' : Session}
    (h : (server env).run (sendEmail mail) s w = (.ok messageId, s', w')) :
    w'.outbox = w.outbox ++ [mail] := by
  rw [sendEmail, Machine.run_lift, server_exec, exec] at h
  exact (congrArg (fun outcome => outcome.2.2.outbox) h).symm

/-- The files of an archive are named after their shifts. -/
theorem renderAll_eq_ok {schedules : List WorkSchedule} {files : List (String × Bytes)}
    {s s' : Session}
    (h : (server env).run (renderAll r fmt schedules) s w = (.ok files, s', w')) :
    files.map Prod.fst = schedules.map fun ws => journalFilename ws.id fmt := by
  induction schedules generalizing files s w with
  | nil =>
      cases h
      rfl
  | cons ws rest ih =>
      obtain ⟨body, s₁, w₁, -, h⟩ := Machine.run_bind_eq_ok h
      obtain ⟨files', s₂, w₂, hrun, h⟩ := Machine.run_bind_eq_ok h
      cases h
      rw [List.map_cons, List.map_cons, ih hrun]

/-- Rendering only reads. -/
theorem renderAll_quiet (schedules : List WorkSchedule) :
    Quiet (renderAll r fmt schedules : Async V D (List (String × Bytes))) := by
  refine (renderAll_selects r fmt schedules).mono fun c hc => ?_
  cases c <;> first | rfl | cases hc

/-- **What `send` answers and mails.** -/
theorem send_eq_ok {result : SendResult}
    (h : (server env).run (send r companyId day recipientEmail fmt) {} w =
      (.ok result, s, w')) :
    result.count = (attached companyId day (env.rowOrder w.ticks) w.db).length ∧
      Mailed r day recipientEmail fmt (attached companyId day (env.rowOrder w.ticks) w.db)
        w w' := by
  obtain ⟨schedules, s₁, w₁, hrun, h⟩ := Machine.run_bind_eq_ok h
  obtain ⟨-, rfl, rfl, rfl⟩ := run_select_clean_eq_ok hrun
  by_cases hnone : schedulesOf companyId day (env.rowOrder w.ticks) w.db = []
  · have hattached : attached companyId day (env.rowOrder w.ticks) w.db = [] := by
      rw [attached, hnone, List.take_nil]
    rw [hnone] at h
    cases h
    rw [hattached]
    exact ⟨rfl, .inl ⟨rfl, rfl⟩⟩
  · rw [if_neg (by simpa using hnone)] at h
    obtain ⟨files, s₂, w₂, hfiles, h⟩ := Machine.run_bind_eq_ok h
    obtain ⟨messageId, s₃, w₃, hmail, h⟩ := Machine.run_bind_eq_ok h
    have hquiet := (renderAll_quiet _).run_eq hfiles
    cases h
    refine ⟨rfl, .inr ⟨(schedulesOf companyId day (env.rowOrder w.ticks) w.db).length, files,
      renderAll_eq_ok hfiles, ?_⟩⟩
    rw [run_sendEmail_eq_ok hmail, hquiet.outbox]
    rfl

end Scripts

/-- **The preview and the mail agree exactly up to the limit**: they are about the
same shifts, and as many, if and only if no more than the limit start on the day. -/
theorem preview_agrees {env env' : Env} {r : Renderers} {companyId : ℤ} {day : Date}
    {recipientEmail : String} {fmt : JournalFormat} {w wp w' ws : World V D} {sp ss : Session}
    {response : BulkPreviewResponse} {result : SendResult} (hfk : w.db.ForeignKeys)
    (hpreview : (server env).run (preview companyId day) {} w = (.ok response, sp, wp))
    (hsame : w'.db = w.db)
    (hsend : (server env').run (send r companyId day recipientEmail fmt) {} w' =
      (.ok result, ss, ws)) :
    ∃ shifts : List WorkSchedule, Mailed r day recipientEmail fmt shifts w' ws ∧
      (((∀ id, id ∈ response.items.map BulkPreviewItem.scheduleId ↔
            id ∈ shifts.map WorkSchedule.id) ∧
          response.journalCount = result.count) ↔
        (shiftsOf companyId day w.db).length ≤ maxBulkSchedules) := by
  obtain ⟨o, hitems, hcount⟩ := preview_eq_ok hpreview
  obtain ⟨hsent, hmailed⟩ := send_eq_ok hsend
  refine ⟨_, hmailed, ?_⟩
  rw [hsame] at hsent ⊢
  rw [hitems, hcount, hsent, length_previewRows hfk, length_attached]
  constructor
  · rintro ⟨-, hlength⟩
    omega
  · intro hle
    refine ⟨fun id => ?_, by omega⟩
    rw [(map_scheduleId_previewRows hfk).mem_iff, attached, List.take_of_length_le]
    · exact (schedulesOf_perm.map _).mem_iff.symm
    · rw [schedulesOf_perm.length_eq]
      exact hle

/-! ## A crowded day -/

section Returns

variable {env : Env} {companyId : ℤ} {day : Date} {recipientEmail : String} {w : World V D}

variable (env) in
/-- A preview is answered for every id that is one, also if there is no such company. -/
theorem preview_returns (hid : bigint companyId) :
    ∃ response wp, (server env).run (preview companyId day) {} w = (.ok response, {}, wp) := by
  have hreads : ∃ response, Reads env (preview companyId day) w response :=
    (reads_dbGet hid).exists_bind fun _ _ =>
      (reads_select (by simpa [Bind.fits] using hid)).exists_bind fun _ _ => ⟨_, .ret⟩
  obtain ⟨response, wp, hrun, -⟩ := hreads
  exact ⟨response, wp, hrun⟩

/-- The libraries produce every document they are asked for. -/
structure Renderers.Succeed (r : Renderers) : Prop where
  htmlToPdf : ∀ page, ∃ body, r.htmlToPdf page = .ok body
  workbook : ∀ rows, ∃ body, r.workbook rows = .ok body

/-- The plain libraries never fail. -/
theorem Renderers.plain_succeed : Renderers.plain.Succeed :=
  ⟨fun _ => ⟨_, rfl⟩, fun _ => ⟨_, rfl⟩⟩

/-- With libraries that succeed a document is made in every format. -/
theorem reads_document {r : Renderers} (hr : r.Succeed) (fmt : JournalFormat) (title : String)
    (rows : List JournalRow) :
    ∃ body, Reads env (WorkJournalRenderService.document r fmt title rows) w body := by
  cases fmt with
  | pdf =>
      obtain ⟨body, hbody⟩ := hr.htmlToPdf (WorkJournalRenderService.journalHtml title rows)
      refine ⟨body, ?_⟩
      rw [WorkJournalRenderService.document, WorkJournalRenderService.renderPdf, hbody]
      exact .ret
  | hwp => exact ⟨_, .ret⟩
  | xlsx =>
      obtain ⟨body, hbody⟩ := hr.workbook (["type", "start_at", "end_at"] ::
        rows.map fun row => [row.type, row.startAt, row.endAt])
      refine ⟨body, ?_⟩
      rw [WorkJournalRenderService.document, WorkJournalRenderService.renderJournalXlsx, hbody]
      exact .ret

/-- The journal of a shift that exists is rendered. -/
theorem reads_render {r : Renderers} (hr : r.Succeed) {fmt : JournalFormat} {ws : WorkSchedule}
    (hws : ws ∈ w.db.rows .workSchedule) :
    ∃ body, Reads env (WorkJournalRenderService.render r ws.id fmt) w body := by
  have hfound : w.db.find? .workSchedule ws.id = some ws := Table.find?_eq_some.mpr ⟨hws, rfl⟩
  have hstandard : bigint ws.jobStandardId := bigint_of_ref hws (.tail _ (.head _))
  exact (reads_dbGet_of_find? hfound).exists_bind fun _ _ => Reads.orRaise.exists_bind fun _ _ =>
    Reads.ret.exists_bind fun _ _ => (reads_dbGet hstandard).exists_bind fun _ _ =>
      (reads_select (by simpa [Bind.fits] using bigint_of_find? hfound)).exists_bind fun _ _ =>
        reads_document hr _ _ _

variable (env) in
/-- And so are the documents of all shifts of the table, one after the other. -/
theorem reads_renderAll {r : Renderers} (hr : r.Succeed) (fmt : JournalFormat)
    {schedules : List WorkSchedule} (hall : ∀ ws ∈ schedules, ws ∈ w.db.rows .workSchedule) :
    ∃ files, Reads env (renderAll r fmt schedules) w files := by
  induction schedules generalizing w with
  | nil => exact ⟨[], .ret⟩
  | cons ws rest ih =>
      obtain ⟨hws, hrest⟩ := List.forall_mem_cons.mp hall
      obtain ⟨body, hbody⟩ := reads_render hr hws
      refine hbody.exists_bind fun w₁ h₁ => ?_
      obtain ⟨files, hfiles⟩ := ih (w := w₁) fun ws' hws' => by
        rw [h₁.db]
        exact hrest ws' hws'
      exact hfiles.exists_bind fun _ _ => ⟨_, .ret⟩

variable (env) in
/-- Where documents are produced and mails delivered, every bulk mail is. -/
theorem send_returns {r : Renderers} (hr : r.Succeed) {fmt : JournalFormat} (hid : bigint companyId)
    (hmailer : ∀ n mail, ∃ messageId, env.mailer n mail = .ok messageId) :
    ∃ result s ws, (server env).run (send r companyId day recipientEmail fmt) {} w =
      (.ok result, s, ws) := by
  have hread : Reads env (select [.int companyId] (schedulesOf companyId day)) w _ :=
    reads_select (by simpa [Bind.fits] using hid)
  obtain ⟨w₁, hselect, hsame⟩ := hread
  have hall : ∀ ws ∈ attached companyId day (env.rowOrder w.ticks) w.db,
      ws ∈ w₁.db.rows .workSchedule := by
    intro ws hws
    rw [hsame.db]
    exact (List.mem_filter.mp (schedulesOf_perm.mem_iff.mp (List.mem_of_mem_take hws))).1
  obtain ⟨files, w₂, hfiles, -⟩ := reads_renderAll env hr fmt hall
  rw [send, Prog.bind_eq, Machine.run_bind, hselect]
  dsimp only
  split
  · exact ⟨_, _, _, rfl⟩
  · have hmail : ∀ mail, ∃ messageId, (server env).run
        (sendEmail mail : Async V D (Option String)) {} w₂ =
        (.ok messageId, {}, { w₂.tick with outbox := w₂.outbox ++ [mail] }) := by
      intro mail
      obtain ⟨messageId, hmailed⟩ := hmailer w₂.ticks mail
      refine ⟨messageId, ?_⟩
      rw [sendEmail, Machine.run_lift, server_exec, exec, hmailed]
      rfl
    unfold attached at hfiles
    obtain ⟨messageId, hmailed⟩ := hmail (bulkMail r day recipientEmail
      (schedulesOf companyId day (env.rowOrder w.ticks) w.db).length
      ((schedulesOf companyId day (env.rowOrder w.ticks) w.db).take maxBulkSchedules).length files)
    simp only [sendSchedules, Prog.bind_eq, Machine.run_bind, hfiles, hmailed]
    exact ⟨_, _, _, rfl⟩

end Returns

/-- Shifts of the sample worker that all start at once. -/
def crowdedShift (n : ℕ) : WorkSchedule := ⟨n, 1, none, 1, ⟨0, none⟩, none, none, false⟩

/-- The sample database with one shift more than the limit. -/
def Db.crowded : Db :=
  Db.sample.set .workSchedule
    { rows := (List.range (maxBulkSchedules + 1)).map crowdedShift
      valid := by
        refine ⟨List.pairwise_map.mpr ?_, by decide +kernel⟩
        refine List.nodup_range.imp fun {n m} hne => ⟨fun h => hne ?_, rfl, rfl⟩
        exact Int.ofNat.inj h }

/-- The sample database meets its foreign keys. -/
theorem foreignKeys_sample : Db.sample.ForeignKeys := by
  intro t
  cases t <;> decide +kernel

/-- So does the one with a crowded day. -/
theorem foreignKeys_crowded : Db.crowded.ForeignKeys := by
  intro t
  cases t <;> decide +kernel

/-- The one shift of the sample, previewed and mailed. -/
theorem preview_agrees_sample :
    ∃ (response : BulkPreviewResponse) (result : SendResult) (wp ws : World Unit Unit)
      (s : Session) (shifts : List WorkSchedule),
      (server still).run (preview 1 ⟨0⟩) {} (World.fresh Db.sample ()) = (.ok response, {}, wp) ∧
      (server still).run (send .plain 1 ⟨0⟩ "office@example.org" .pdf) {}
        (World.fresh Db.sample ()) = (.ok result, s, ws) ∧
      Mailed .plain ⟨0⟩ "office@example.org" .pdf shifts (World.fresh Db.sample ()) ws ∧
      (((∀ id, id ∈ response.items.map BulkPreviewItem.scheduleId ↔
            id ∈ shifts.map WorkSchedule.id) ∧
          response.journalCount = result.count) ↔
        (shiftsOf 1 ⟨0⟩ Db.sample).length ≤ maxBulkSchedules) := by
  have hid : bigint 1 := by decide
  obtain ⟨response, wp, hpreview⟩ :=
    preview_returns (w := (World.fresh Db.sample () : World Unit Unit)) still hid
  obtain ⟨result, s, ws, hsend⟩ :=
    send_returns (w := (World.fresh Db.sample () : World Unit Unit)) still
      Renderers.plain_succeed hid fun _ _ => ⟨_, rfl⟩
  obtain ⟨shifts, hmailed, hagree⟩ := preview_agrees foreignKeys_sample hpreview rfl hsend
  exact ⟨response, result, wp, ws, s, shifts, hpreview, hsend, hmailed, hagree⟩

/-- **The preview exceeds the mail**: on a crowded day it lists a shift that is not
attached. -/
theorem preview_exceeds :
    Db.crowded.ForeignKeys ∧
      ∃ (response : BulkPreviewResponse) (result : SendResult) (wp ws : World Unit Unit)
        (s : Session),
        (server still).run (preview 1 ⟨0⟩) {} (World.fresh Db.crowded ()) =
          (.ok response, {}, wp) ∧
        (server still).run (send .plain 1 ⟨0⟩ "office@example.org" .pdf) {}
          (World.fresh Db.crowded ()) = (.ok result, s, ws) ∧
        response.journalCount = 301 ∧ result.count = 300 := by
  have hid : bigint 1 := by decide
  obtain ⟨response, wp, hpreview⟩ :=
    preview_returns (w := (World.fresh Db.crowded () : World Unit Unit)) still hid
  obtain ⟨result, s, ws, hsend⟩ :=
    send_returns (w := (World.fresh Db.crowded () : World Unit Unit)) still
      Renderers.plain_succeed hid fun _ _ => ⟨_, rfl⟩
  refine ⟨foreignKeys_crowded, response, result, wp, ws, s, hpreview, hsend, ?_, ?_⟩
  · obtain ⟨o, -, hcount⟩ := preview_eq_ok hpreview
    rw [hcount]
    show ((previewRows 1 ⟨0⟩ o Db.crowded).length : ℤ) = 301
    rw [length_previewRows foreignKeys_crowded]
    decide +kernel
  · rw [(send_eq_ok hsend).1]
    show ((attached 1 ⟨0⟩ _ Db.crowded).length : ℤ) = 300
    rw [length_attached]
    decide +kernel

end Rooti

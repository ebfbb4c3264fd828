import Rooti.ReadOnly.Outcomes
import Rooti.Services.Board
import Rooti.Services.Company
import Rooti.Services.Kiosk
import Rooti.Services.Leave
import Rooti.Standards.Sync

/-!
# Read-only mode and the companies

What the requests on companies, their kiosks, standards and leaves and on the board of the
caregivers let through in read-only mode.

## Main results

* `letsThrough_deleteScoped` — deletions in the scope of a company, which are never sent
* `letsThrough_decide`, `letsThrough_setAssignee`, `letsThrough_updateBoard` — changes that
  are sent
* `SyncChangesNothing`, `letsThrough_syncProcesses` — the processes of a standard

None of these requests calls the document storage, so `LetsThrough` says of each that it
is answered with success. PostgreSQL refuses every statement that writes: a request that
is let through has sent none, and what it was asked to do is not done. Each theorem is
exact. It names the states and arguments for which this happens, by reading the script
once from its end.

## Three ways to send nothing

* A statement that is pending is rolled back before any flush. Services that change a
  loaded row and do not flush, such as `deactivate` and the deletions, are let through
  whenever their checks pass.
* A change that assigns what the row already has is no change: `decide`, `setAssignee`
  and the update of a post send a query afterwards, which flushes, so they are let
  through only when nothing differs.
* An INSERT is always flushed, and every service that creates is refused.
-/

namespace Rooti

open Relational Program

variable {V D : Type} {env : Env} {w : World V D}

/-! ## Changes that are never sent -/

/-- A row that the company in scope may delete, if it exists. -/
theorem letsThrough_deleteScoped {t : Entity} {id : ℤ} {scope : CompanyScopeValue}
    {companyOf : Row t → ℤ} {k : Option (Row t) → Async V D Unit} (hnone : k none = .ret ())
    (hsome : ∀ row, k (some row) =
      (assertCompany scope (some (companyOf row))).bind fun _ => delete t row) :
    LetsThrough env ((dbGet t id).bind k) {} w ↔
      bigint id ∧ ∀ row, w.db.find? t id = some row → scope.all (companyOf row = ·) := by
  refine letsThrough_dbGet_bind.trans (and_congr_right fun _ => ?_)
  cases hfound : w.db.find? t id with
  | none =>
      rw [hnone]
      exact iff_of_true letsThrough_ret fun row h => by cases h
  | some row =>
      rw [hsome, letsThrough_assertCompany_bind, and_iff_left letsThrough_delete]
      exact ⟨fun h row' hrow' => Option.some.inj hrow' ▸ h, fun h => h row rfl⟩

/-- A leave of the scope, or none at all: the DELETE is pending when the request ends.
-/
theorem letsThrough_deleteLeave (leaveId : ℤ) (scope : CompanyScopeValue) :
    LetsThrough env (LeaveService.delete leaveId scope) {} w ↔
      bigint leaveId ∧ ∀ leave, w.db.find? .leave leaveId = some leave →
        scope.all (leave.companyId = ·) :=
  letsThrough_deleteScoped rfl fun _ => rfl

/-- As for a leave; a kiosk that does not exist is passed over, and the answer is the
same. -/
theorem letsThrough_unbind (kioskId : ℤ) (scope : CompanyScopeValue) :
    LetsThrough env (KioskService.unbind kioskId scope) {} w ↔
      bigint kioskId ∧ ∀ kiosk, w.db.find? .companyKiosk kioskId = some kiosk →
        scope.all (kiosk.companyId = ·) :=
  letsThrough_deleteScoped rfl fun _ => rfl

/-- The author's own post. No query follows the DELETE. -/
theorem letsThrough_deleteBoard (authorUserId boardId : ℤ) :
    LetsThrough env (CaregiverBoardService.delete authorUserId boardId) {} w ↔
      ∃ b, w.db.find? .caregiverBoard boardId = some b ∧ b.authorId = authorUserId := by
  simp only [CaregiverBoardService.delete, CaregiverBoardService.getOrThrow, Prog.bind_eq,
    Prog.bind_assoc]
  refine letsThrough_getOrRaise_bind fun b _ => ?_
  rw [letsThrough_raiseIf_bind, decide_eq_false_iff_not, not_not]
  exact and_iff_left letsThrough_delete

/-- Every update of a company is let through whose response can be built. The response
is built from the assigned row, so a template in the request replaces one that does not
validate. -/
theorem letsThrough_updateCompany (companyId : ℤ) (req : CompanyUpdateRequest)
    (actor : Option PrincipalDetails) :
    LetsThrough env (CompanyService.update companyId req actor) {} w ↔
      ∃ company, w.db.find? .company companyId = some company ∧
        (req.templateData = none → ∃ fields, Dict.ofColumn company.templateData = .ok fields) := by
  simp only [CompanyService.update, CompanyService.getOrThrow, Prog.bind_eq, Prog.bind_assoc]
  refine letsThrough_getOrRaise_bind fun company _ => letsThrough_modify_bind.trans
    (letsThrough_evict_bind fun _ => letsThrough_ofExcept.trans ?_)
  rw [CompanyResponse.exists_ofRow_iff]
  cases htemplate : req.templateData with
  | none =>
      have hkept : (CompanyService.assign req actor company).templateData =
          company.templateData := by simp [CompanyService.assign, htemplate]
      rw [hkept]
      exact ⟨fun h _ => h, fun h => h rfl⟩
  | some fields =>
      have hset : (CompanyService.assign req actor company).templateData =
          some (.obj fields) := by simp [CompanyService.assign, htemplate]
      rw [hset]
      exact iff_of_true ⟨some fields, rfl⟩ fun h => by cases h

/-- Nothing but the existence of the company is asked. -/
theorem letsThrough_deactivateCompany (companyId : ℤ) (actor : Option PrincipalDetails) :
    LetsThrough env (CompanyService.deactivate companyId actor) {} w ↔
      (w.db.find? .company companyId).isSome := by
  simp only [CompanyService.deactivate, CompanyService.getOrThrow, Prog.bind_eq, Prog.bind_assoc]
  exact letsThrough_getOrRaise_isSome fun _ => letsThrough_modify_bind.mpr letsThrough_evict

/-- Nothing but the existence of the standard is asked. -/
theorem letsThrough_deactivateStandard (standardId : ℤ) :
    LetsThrough env (JobStandardService.deactivate standardId) {} w ↔
      (w.db.find? .jobStandard standardId).isSome := by
  simp only [JobStandardService.deactivate, JobStandardService.getOrThrow, Prog.bind_eq,
    Prog.bind_assoc]
  exact letsThrough_getOrRaise_isSome fun _ => letsThrough_modify_bind.mpr letsThrough_evict

/-- The answer asks for processes that have not been loaded. -/
theorem not_letsThrough_updateStandard (standardId : ℤ) (req : JobStandardUpdateRequest) :
    ¬LetsThrough env (JobStandardService.update standardId req) {} w := by
  simp only [JobStandardService.update, JobStandardService.getOrThrow, Prog.bind_eq,
    Prog.bind_assoc]
  intro h
  obtain ⟨s, -, h⟩ := (letsThrough_getOrRaise_bind fun s _ => letsThrough_modify_bind.trans
    (letsThrough_evict_bind fun _ => iff_false_intro
      (not_letsThrough_bind_raise (.bind .dbGet fun _ => .ret)))).mp h
  exact h

/-! ## The answer to a decision -/

/-- The rows that a decision answers with. -/
theorem leaveRows_of_id (db : Db) (leaveId : ℤ) :
    (leaveRows db fun row => row.leave.id = leaveId) =
      ((db.find? .leave leaveId).bind (leaveRow db)).toList := by
  have hfilter : ∀ leaves : List Leave,
      (leaves.filterMap (leaveRow db)).filter (fun row => row.leave.id = leaveId) =
        (leaves.filter fun leave => leave.id = leaveId).filterMap (leaveRow db) := by
    intro leaves
    rw [List.filter_filterMap, List.filterMap_filter]
    refine List.filterMap_congr fun leave _ => ?_
    cases hrow : leaveRow db leave with
    | none => simp
    | some row =>
        rw [← leave_of_leaveRow hrow]
        simp [Option.filter]
  have hkey : (db.rows .leave).filter (fun leave => leave.id = leaveId) =
      (db.find? .leave leaveId).toList := (db.table .leave).filter_key leaveId
  rw [leaveRows, hfilter, hkey]
  cases db.find? .leave leaveId with
  | none => rfl
  | some leave =>
      cases hrow : leaveRow db leave <;> simp [hrow]

/-- A read, exact: the leave exists and so do the rows it is joined with. -/
theorem letsThrough_getResponse (leaveId : ℤ) :
    LetsThrough env (LeaveService.getResponse leaveId) {} w ↔
      bigint leaveId ∧ ((w.db.find? .leave leaveId).bind (leaveRow w.db)).isSome := by
  have hbinds : [Bind.int leaveId].all Bind.fits = bigint leaveId := Bool.and_true _
  simp only [LeaveService.getResponse, Prog.bind_eq]
  rw [letsThrough_select_bind, hbinds, leaveRows_of_id, RowOrder.scan_toList]
  refine and_congr_right fun _ => ?_
  cases (w.db.find? .leave leaveId).bind (leaveRow w.db) with
  | none => exact iff_of_false not_letsThrough_raise Bool.false_ne_true
  | some row => exact iff_of_true letsThrough_ret rfl

/-! ## A list of processes that changes nothing -/

/-- **The list a standard is sent is the one it has**: every process is named by an entry that
leaves it as it is, and there are no others. -/
structure SyncChangesNothing (db : Db) (standardId : ℤ) (incoming : List ProcessUpsertRequest) :
    Prop where
  named : ∀ id ∈ JobStandardService.namedIds incoming, ∃ row ∈ db.rows .jobProcess,
    row.jobStandardId = standardId ∧ row.id = id
  kept : ∀ row ∈ db.rows .jobProcess, row.jobStandardId = standardId →
    row.id ∈ JobStandardService.namedIds incoming ∧ finalValues incoming row = row
  noneNew : ∀ entry ∈ incoming, entry.id ≠ none

/-- Then nothing is left for the flush, and otherwise something is. -/
theorem syncChangesNothing_iff {db : Db} {standardId : ℤ} {rows : List JobProcess}
    {incoming : List ProcessUpsertRequest} (hrows : AreProcesses db standardId rows) (last : ℤ) :
    SyncChangesNothing db standardId incoming ↔
      NamesRows incoming rows ∧ syncPending standardId last incoming rows = [] := by
  have hnew : newRows standardId last (newEntries incoming) = [] ↔
      ∀ entry ∈ incoming, entry.id ≠ none := by
    have hnil : newRows standardId last (newEntries incoming) = [] ↔ newEntries incoming = [] := by
      cases newEntries incoming with
      | nil => exact iff_of_true rfl rfl
      | cons p rest => exact iff_of_false (List.cons_ne_nil _ _) (List.cons_ne_nil _ _)
    rw [hnil, newEntries, List.filter_eq_nil_iff]
    exact forall₂_congr fun _ _ => not_congr Option.isNone_iff_eq_none
  have hdropped : droppedRows incoming rows = [] ↔
      ∀ row ∈ rows, row.id ∈ JobStandardService.namedIds incoming := by
    simp only [List.eq_nil_iff_forall_not_mem, mem_droppedRows, not_and, not_not]
  have hchanged : changedRows incoming rows = [] ↔
      ∀ row ∈ keptRows incoming rows, finalValues incoming row = row := by
    simp only [List.eq_nil_iff_forall_not_mem, mem_changedRows, not_and, ne_eq, not_not]
  simp only [syncPending, List.append_eq_nil_iff, List.map_eq_nil_iff, hnew, hdropped, hchanged,
    mem_keptRows]
  constructor
  · rintro ⟨hnamed, hkept, hnone⟩
    refine ⟨fun id hid => ?_, fun row hrow => ?_, fun row hrow => ?_, hnone⟩
    · obtain ⟨row, hrow, hstandard, hrowId⟩ := hnamed id hid
      exact ⟨row, hrows.mem_iff.mpr ⟨hrow, hstandard⟩, hrowId⟩
    · obtain ⟨hmem, hstandard⟩ := hrows.mem_iff.mp hrow
      exact (hkept row hmem hstandard).1
    · obtain ⟨hmem, hstandard⟩ := hrows.mem_iff.mp hrow.1
      exact (hkept row hmem hstandard).2
  · rintro ⟨hnamed, hdropped, hsame, hnone⟩
    refine ⟨fun id hid => ?_, fun row hmem hstandard => ?_, hnone⟩
    · obtain ⟨row, hrow, hrowId⟩ := hnamed id hid
      obtain ⟨hmem, hstandard⟩ := hrows.mem_iff.mp hrow
      exact ⟨row, hmem, hstandard, hrowId⟩
    · have hrow := hrows.mem_iff.mpr ⟨hmem, hstandard⟩
      exact ⟨hdropped row hrow, hsame row ⟨hrow, hdropped row hrow⟩⟩

/-! ## Changes that are sent -/

section Sent

variable (hro : env.settings.appReadOnly = true)

include hro

/-- The INSERT is flushed for the sake of the response. -/
theorem not_letsThrough_createLeave (req : LeaveCreateRequest) (actorUserId : ℤ) :
    ¬LetsThrough env (LeaveService.create req actorUserId) {} w := by
  simp only [LeaveService.create, Prog.bind_eq]
  rw [letsThrough_raiseIf_bind, letsThrough_getOrRaise_bind fun worker _ =>
    letsThrough_getOrRaise_bind fun company _ => iff_false_intro (not_letsThrough_add_flush hro)]
  simp only [and_false, exists_false, not_false_eq_true]

/-- The query for the response flushes first. A decision is let through if it changes
neither status nor reason: one with the status the leave has, and without a comment. -/
theorem letsThrough_decide (leaveId : ℤ) (status : LeaveStatus) (comment : Option String)
    (scope : CompanyScopeValue) :
    LetsThrough env (LeaveService.decide leaveId status comment scope) {} w ↔
      ∃ leave, w.db.find? .leave leaveId = some leave ∧ scope.all (leave.companyId = ·) ∧
        leave.decided status comment leave = leave ∧ (leaveRow w.db leave).isSome := by
  simp only [LeaveService.decide, Prog.bind_eq]
  refine letsThrough_getOrRaise_bind fun leave hfound =>
    letsThrough_assertCompany_bind.trans (and_congr_right fun _ => ?_)
  rw [letsThrough_assign (p := LeaveService.getResponse leaveId)
    fun _ hpending => not_letsThrough_select_bind hro hpending, letsThrough_getResponse]
  simp only [World.tick_db, hfound, Option.bind_some, bigint_of_find? hfound, true_and]

/-- A kiosk is added and flushed. -/
theorem not_letsThrough_bind (req : KioskBindRequest) :
    ¬LetsThrough env (KioskService.bind req) {} w := by
  simp only [KioskService.bind, Prog.bind_eq]
  rw [letsThrough_getOrRaise_bind fun company _ => letsThrough_select_bind.trans
    (and_congr_right fun _ => letsThrough_raiseIf_bind.trans
      (and_congr_right fun _ => iff_false_intro (not_letsThrough_add_flush hro)))]
  simp only [and_false, exists_false, not_false_eq_true]

/-- The name of the company is read afterwards, which flushes: only the same assignee
passes. -/
theorem letsThrough_setAssignee (kioskId : ℤ) (assignee : Option String)
    (scope : CompanyScopeValue) :
    LetsThrough env (KioskService.setAssignee kioskId assignee scope) {} w ↔
      ∃ kiosk, w.db.find? .companyKiosk kioskId = some kiosk ∧
        scope.all (kiosk.companyId = ·) ∧ kiosk.assignee = assignee := by
  simp only [KioskService.setAssignee, Prog.bind_eq]
  refine letsThrough_getOrRaise_bind fun kiosk hfound =>
    letsThrough_assertCompany_bind.trans (and_congr_right fun _ => ?_)
  rw [letsThrough_assign_dbGet hro]
  constructor
  · exact fun h => (congrArg CompanyKiosk.assignee h.1).symm
  · rintro rfl
    exact ⟨rfl, bigint_of_ref (Table.find?_mem hfound) (.head _), letsThrough_ret⟩

/-- A company is added and flushed. -/
theorem not_letsThrough_createCompany (req : CompanyCreateRequest)
    (actor : Option PrincipalDetails) :
    ¬LetsThrough env (CompanyService.create req actor) {} w := by
  simp only [CompanyService.create, Prog.bind_eq]
  rw [letsThrough_select_bind, letsThrough_raiseIf_bind]
  exact fun h => not_letsThrough_add_flush hro h.2.2

/-- A standard is added and flushed, with or without processes. -/
theorem not_letsThrough_createStandard (req : JobStandardCreateRequest) :
    ¬LetsThrough env (JobStandardService.create req) {} w := by
  simp only [JobStandardService.create, Prog.bind_eq]
  intro h
  obtain ⟨company, -, h⟩ := (letsThrough_getOrRaise_bind fun _ _ => Iff.rfl).mp h
  rw [letsThrough_add_bind, letsThrough_bind_of_run (run_addProcesses _ _) rfl] at h
  exact not_letsThrough_flush_bind hro
    (List.append_ne_nil_of_left_ne_nil (List.cons_ne_nil _ _) _) h

/-- The end of the request. -/
theorem letsThrough_finishSync {found : JobStandard} {processes : List JobProcess}
    {pending : List Statement} (hfound : found ∈ w.db.rows .jobStandard)
    (hprocesses : ∀ row ∈ processes, ∃ fields, Dict.ofColumn row.context = .ok fields) :
    LetsThrough env (finishSync found processes) { pending := pending } w ↔
      pending = [] ∧ ∃ fields, Dict.ofColumn found.context = .ok fields := by
  by_cases hpending : pending = []
  · subst hpending
    rw [and_iff_right rfl]
    simp only [finishSync, JobStandardService.companyName, Prog.bind_eq, Prog.pure_eq,
      Prog.bind_assoc, Prog.ret_bind]
    rw [letsThrough_flush_bind, letsThrough_dbGet_bind, letsThrough_ofExcept,
      and_iff_right (bigint_of_ref hfound (.head _))]
    constructor
    · rintro ⟨resp, hresp⟩
      exact context_of_toStandardResponse hresp
    · rintro ⟨fields, hcontext⟩
      exact toStandardResponse_ok hcontext hprocesses _
  · exact iff_of_false (not_letsThrough_flush_bind hro hpending) fun h => hpending h.1

/-- Both directions go through `SyncChangesNothing`: the entries name all processes of
the standard and repeat their values, and none is new. -/
theorem letsThrough_syncProcesses (standardId : ℤ) (incoming : List ProcessUpsertRequest) :
    LetsThrough env (JobStandardService.syncProcesses standardId incoming) {} w ↔
      ∃ found, w.db.find? .jobStandard standardId = some found ∧
        SyncChangesNothing w.db standardId incoming ∧
          ∃ fields, Dict.ofColumn found.context = .ok fields := by
  cases hfound : w.db.find? .jobStandard standardId with
  | none =>
      refine iff_of_false ?_ fun ⟨_, h, _⟩ => Option.some_ne_none _ h.symm
      simp only [JobStandardService.syncProcesses, JobStandardService.loadStandard,
        JobStandardService.getOrThrow, Prog.bind_eq, Prog.bind_assoc]
      intro h
      obtain ⟨found, hrow, -⟩ := (letsThrough_getOrRaise_bind fun _ _ => Iff.rfl).mp h
      cases hfound.symm.trans hrow
  | some found =>
      obtain ⟨rows, hrows⟩ : ∃ rows, rows = JobStandardService.processesOf standardId
          (env.rowOrder (w.ticks + 1)) w.db := ⟨_, rfl⟩
      have hprocesses : AreProcesses w.db standardId rows := hrows ▸ processesOf_perm ..
      simp only [Option.some.injEq, exists_eq_left',
        syncChangesNothing_iff hprocesses (w.seq .jobProcess)]
      by_cases hnames : NamesRows incoming rows
      · unfold LetsThrough
        rw [run_syncProcesses hfound hrows hnames, and_iff_right hnames]
        refine letsThrough_finishSync hro (Table.find?_mem hfound) fun row hrow => ?_
        obtain hkept | hnew := List.mem_append.mp hrow
        · obtain ⟨old, hold, rfl⟩ := List.mem_map.mp hkept
          exact ofColumn_finalValues (mem_keptRows.mp hold).2
        · exact ofColumn_newRows hnew
      · refine iff_of_false ?_ fun h => hnames h.1.1
        rw [hrows] at hnames
        exact not_letsThrough_of_error (run_syncProcesses_unnamed hfound hnames) rfl

/-- A post is added and flushed. -/
theorem not_letsThrough_createBoard (authorUserId : ℤ) (req : BoardWriteRequest) :
    ¬LetsThrough env (CaregiverBoardService.create authorUserId req) {} w :=
  not_letsThrough_add_flush hro

/-- The author's name is read afterwards: only an update that leaves the whole post as
it is, `updated_by` included, passes. -/
theorem letsThrough_updateBoard (authorUserId boardId : ℤ) (req : BoardWriteRequest) :
    LetsThrough env (CaregiverBoardService.update authorUserId boardId req) {} w ↔
      ∃ b, w.db.find? .caregiverBoard boardId = some b ∧ b.authorId = authorUserId ∧
        CaregiverBoardService.assign authorUserId req b = b := by
  simp only [CaregiverBoardService.update, CaregiverBoardService.getOrThrow,
    CaregiverBoardService.authorName, Prog.bind_eq, Prog.bind_assoc]
  refine letsThrough_getOrRaise_bind fun b hfound => ?_
  have hauthor : bigint b.authorId := bigint_of_ref (Table.find?_mem hfound) (.head _)
  rw [letsThrough_raiseIf_bind, letsThrough_assign_dbGet hro, decide_eq_false_iff_not, not_not]
  exact and_congr_right fun _ => and_iff_left ⟨hauthor, letsThrough_ret⟩

end Sent

end Rooti

import Rooti.WorkRecords.Shifts

/-!
# The order of recorded times

The instants of a shift come from the requests, or from the clock where a request names
none, and nothing compares them with those already recorded: a shift may end before it
began.  Where every request keeps the order, so does the run.

## Main definitions

* `TimesInOrder` — nothing ends before it began, nothing begins after its shift
* `ShiftRequest.InTime` — the instant of a request fits those already recorded
* `times_in_order` — every run of such requests
* `times_out_of_order` — a shift that ends before it began

## What carries the proof

A request only ever touches one instant. Adding a row sets its start, and an end if the
request names one; ending a row sets its end. So the invariant has a lemma for each of
the two ways in which a table can change (`add_schedules`, `add_records`,
`add_processes` and `close_record`, `close_schedule`, `close_process`), and the requests
are folded into these.

`TimesInOrder` speaks of a record and its shift by a lookup, which says nothing if the
shift is missing. `Chronology` adds that no record is without its shift. The foreign
keys give this at the start, shifts are never deleted, and without it a shift that is
added could be the missing one of an older record.

The condition `InTime` looks at the state the request finds, not at the one it leaves.
It asks nothing of a request that is refused, and an instant that carries a time zone is
passed over (`NotBefore`), since no `timestamp` column takes it.
-/

namespace Rooti

open Relational Program

variable {V D : Type} {env : Env}

/-- An instant a column can hold is not before another. -/
def NotBefore (s t : DateTime) : Prop := timestamp t → s.micros ≤ t.micros

/-- **The recorded times of a state are in order.** -/
structure TimesInOrder (db : Db) : Prop where
  records : ∀ r ∈ db.rows .workRecord, ∀ t, r.endAt = some t → r.startAt.micros ≤ t.micros
  processes : ∀ r ∈ db.rows .workProcessRecord, ∀ s t, r.startAt = some s → r.endAt = some t →
    s.micros ≤ t.micros
  schedules : ∀ s ∈ db.rows .workSchedule, ∀ t, s.endAt = some t → s.startAt.micros ≤ t.micros
  /-- no record begins after its shift -/
  begun : ∀ r ∈ db.rows .workRecord, ∀ s, db.find? .workSchedule r.workScheduleId = some s →
    ∀ t, s.endAt = some t → r.startAt.micros ≤ t.micros

/-- The shift `id` may end at `t`: it has begun, and so have its records. -/
def MayEnd (db : Db) (id : ℤ) (t : DateTime) : Prop :=
  (∀ s, db.find? .workSchedule id = some s → NotBefore s.startAt t) ∧
    ∀ r ∈ db.rows .workRecord, r.workScheduleId = id → NotBefore r.startAt t

/-- **The instant of a request fits those already recorded.** -/
def ShiftRequest.InTime (env : Env) (request : ShiftRequest) (w : World V D) : Prop :=
  match request with
  | .create req => w.db.find? .jobWorker req.jobWorkerId ≠ none →
      ∀ t, req.endAt = some t → NotBefore req.startAt t
  | .batchMake _ => True
  | .close scheduleId endAt => MayEnd w.db scheduleId (instant env w 1 endAt)
  | .begin req => ∀ s, w.db.find? .workSchedule req.workScheduleId = some s →
      (w.db.rows .workRecord).filter (WorkRecord.opens req.workScheduleId req.type) = [] →
        ∀ t, s.endAt = some t → timestamp (instant env w 2 req.at') →
          (instant env w 2 req.at').micros ≤ t.micros
  | .end req => ∀ r,
      (w.db.rows .workRecord).filter (WorkRecord.opens req.workScheduleId req.type) = [r] →
        NotBefore r.startAt (instant env w 1 req.at') ∧
          (req.type = .off → MayEnd w.db req.workScheduleId (instant env w 1 req.at'))
  | .beginProcess _ => True
  | .endProcess req => ∀ r, (w.db.rows .workProcessRecord).filter
      (WorkProcessRecord.opens req.workScheduleId req.jobProcessId) = [r] →
        ∀ s, r.startAt = some s → NotBefore s (instant env w 1 req.at')

/-- What requests rely on: the times are in order, and every record has its shift. -/
structure Chronology (db : Db) : Prop extends TimesInOrder db where
  owned : ∀ r ∈ db.rows .workRecord, ∃ s, db.find? .workSchedule r.workScheduleId = some s

/-- The foreign keys give every record its shift, so a state in order can be started
from. -/
theorem chronology_of_foreignKeys {db : Db} (hkeys : db.ForeignKeys) (h : TimesInOrder db) :
    Chronology db :=
  ⟨h, fun r hr => Option.isSome_iff_exists.mp (hkeys .workRecord r hr
    ⟨.workSchedule, r.workScheduleId, .cascade⟩ List.mem_cons_self)⟩

/-- The shift of the record, which does not end before the record begins. -/
def BegunInShift (db : Db) (r : WorkRecord) : Prop :=
  ∃ s, db.find? .workSchedule r.workScheduleId = some s ∧
    ∀ t, s.endAt = some t → r.startAt.micros ≤ t.micros

namespace Chronology

variable {db db' : Db}

/-- A record of the state has begun within its shift, and the shift is there. -/
theorem begunInShift (h : Chronology db) {r : WorkRecord} (hr : r ∈ db.rows .workRecord) :
    BegunInShift db r := by
  obtain ⟨s, hs⟩ := h.owned r hr
  exact ⟨s, hs, h.begun r hr s hs⟩

/-- Order from its four parts, the last one with the shift named. -/
theorem of_begun
    (hrecords : ∀ r ∈ db.rows .workRecord, ∀ t, r.endAt = some t → r.startAt.micros ≤ t.micros)
    (hprocesses : ∀ r ∈ db.rows .workProcessRecord, ∀ s t, r.startAt = some s →
      r.endAt = some t → s.micros ≤ t.micros)
    (hschedules : ∀ s ∈ db.rows .workSchedule, ∀ t, s.endAt = some t →
      s.startAt.micros ≤ t.micros)
    (hbegun : ∀ r ∈ db.rows .workRecord, BegunInShift db r) : Chronology db := by
  refine ⟨⟨hrecords, hprocesses, hschedules, fun r hr s hs => ?_⟩, fun r hr => ?_⟩
  · obtain ⟨s', hs', hends⟩ := hbegun r hr
    cases hs.symm.trans hs'
    exact hends
  · obtain ⟨s, hs, -⟩ := hbegun r hr
    exact ⟨s, hs⟩

/-! ### Changes of one table -/

/-- New shifts end, if at all, after their start. No record is theirs yet. -/
theorem add_schedules {P : WorkSchedule → Prop} (h : Chronology db)
    (hadded : Added .workSchedule P db db')
    (hP : ∀ s ∈ db'.rows .workSchedule, P s → ∀ t, s.endAt = some t →
      s.startAt.micros ≤ t.micros) : Chronology db' := by
  have hrecords := hadded.rows_of_ne (j := .workRecord) (by decide)
  have hprocesses := hadded.rows_of_ne (j := .workProcessRecord) (by decide)
  refine of_begun (hrecords ▸ h.records) (hprocesses ▸ h.processes) (fun s hs => ?_) fun r hr => ?_
  · exact (hadded.of_mem hs).elim (h.schedules s) (hP s hs)
  · rw [hrecords] at hr
    obtain ⟨s, hs, hbegun⟩ := h.begunInShift hr
    exact ⟨s, hadded.find? hs, hbegun⟩

/-- New records are open and begin within their shift. -/
theorem add_records {P : WorkRecord → Prop} (h : Chronology db)
    (hadded : Added .workRecord P db db')
    (hP : ∀ r ∈ db'.rows .workRecord, P r → r.endAt = none ∧ BegunInShift db r) :
    Chronology db' := by
  have hprocesses := hadded.rows_of_ne (j := .workProcessRecord) (by decide)
  have hschedules := hadded.rows_of_ne (j := .workSchedule) (by decide)
  refine of_begun (fun r hr t ht => ?_) (hprocesses ▸ h.processes) (hschedules ▸ h.schedules)
    fun r hr => ?_
  · obtain hold | hnew := hadded.of_mem hr
    · exact h.records r hold t ht
    · cases (hP r hr hnew).1.symm.trans ht
  · rw [BegunInShift, hadded.find?_of_ne (by decide)]
    exact (hadded.of_mem hr).elim h.begunInShift fun hnew => (hP r hr hnew).2

/-- A new process record is open: there is nothing to compare its start with. -/
theorem add_processes {P : WorkProcessRecord → Prop} (h : Chronology db)
    (hadded : Added .workProcessRecord P db db') (hP : ∀ r, P r → r.endAt = none) :
    Chronology db' := by
  have hrecords := hadded.rows_of_ne (j := .workRecord) (by decide)
  have hschedules := hadded.rows_of_ne (j := .workSchedule) (by decide)
  refine of_begun (hrecords ▸ h.records) (fun r hr s t hs ht => ?_) (hschedules ▸ h.schedules)
    fun r hr => ?_
  · obtain hold | hnew := hadded.of_mem hr
    · exact h.processes r hold s t hs ht
    · cases (hP r hnew).symm.trans ht
  · rw [hrecords] at hr
    rw [BegunInShift, hadded.find?_of_ne (by decide)]
    exact h.begunInShift hr

/-- A record is ended at `t`, not before it began; shifts and process records are as
before. -/
theorem close_record {id : ℤ} {t : DateTime} (h : Chronology db)
    (hchanged : Changed .workRecord id (fun r => { r with endAt := some t }) db db')
    (ht : ∀ r ∈ db.rows .workRecord, r.id = id → r.startAt.micros ≤ t.micros) :
    Chronology db' := by
  have hprocesses := hchanged.rows_of_ne (j := .workProcessRecord) (by decide)
  have hschedules := hchanged.rows_of_ne (j := .workSchedule) (by decide)
  refine of_begun (fun x hx t' ht' => ?_) (hprocesses ▸ h.processes) (hschedules ▸ h.schedules)
    fun x hx => ?_
  · obtain ⟨r, hr, ⟨hid, rfl⟩ | ⟨-, rfl⟩⟩ := hchanged.of_mem hx
    · cases ht'
      exact ht r hr hid
    · exact h.records x hr t' ht'
  · rw [BegunInShift, hchanged.find?_of_ne (by decide)]
    obtain ⟨r, hr, ⟨-, rfl⟩ | ⟨-, rfl⟩⟩ := hchanged.of_mem hx
    · exact (show BegunInShift db r from h.begunInShift hr)
    · exact h.begunInShift hr

/-- A shift is ended at `t`. This is the one change that looks at two tables, since its
records have to have begun by then. -/
theorem close_schedule {id : ℤ} {t : DateTime} (h : Chronology db)
    (hchanged : Changed .workSchedule id (fun s => { s with endAt := some t }) db db')
    (hs : ∀ s ∈ db.rows .workSchedule, s.id = id → s.startAt.micros ≤ t.micros)
    (hr : ∀ r ∈ db.rows .workRecord, r.workScheduleId = id → r.startAt.micros ≤ t.micros) :
    Chronology db' := by
  have hrecords := hchanged.rows_of_ne (j := .workRecord) (by decide)
  have hprocesses := hchanged.rows_of_ne (j := .workProcessRecord) (by decide)
  refine of_begun (hrecords ▸ h.records) (hprocesses ▸ h.processes) (fun x hx t' ht' => ?_)
    fun r hmem => ?_
  · obtain ⟨s, hmem, ⟨hid, rfl⟩ | ⟨-, rfl⟩⟩ := hchanged.of_mem hx
    · cases ht'
      exact hs s hmem hid
    · exact h.schedules x hmem t' ht'
  · rw [hrecords] at hmem
    obtain ⟨s, hfound, hbegun⟩ := h.begunInShift hmem
    have hafter := hchanged.find? (fun _ => rfl) r.workScheduleId
    rw [hfound, Option.map_some] at hafter
    refine ⟨_, hafter, fun t' ht' => ?_⟩
    by_cases hid : r.workScheduleId = id
    · rw [if_pos hid] at ht'
      cases ht'
      exact hr r hmem hid
    · rw [if_neg hid] at ht'
      exact hbegun t' ht'

/-- A process record is ended; a record without a start is in order whatever its end. -/
theorem close_process {id : ℤ} {t : DateTime} {req : ProcessEndRequest} (h : Chronology db)
    (hchanged : Changed .workProcessRecord id (req.apply t) db db')
    (ht : ∀ r ∈ db.rows .workProcessRecord, r.id = id → ∀ s, r.startAt = some s →
      s.micros ≤ t.micros) : Chronology db' := by
  have hrecords := hchanged.rows_of_ne (j := .workRecord) (by decide)
  have hschedules := hchanged.rows_of_ne (j := .workSchedule) (by decide)
  refine of_begun (hrecords ▸ h.records) (fun x hx s t' hs ht' => ?_) (hschedules ▸ h.schedules)
    fun r hr => ?_
  · obtain ⟨r, hr, ⟨hid, rfl⟩ | ⟨-, rfl⟩⟩ := hchanged.of_mem hx
    · cases ht'
      exact ht r hr hid s hs
    · exact h.processes x hr s t' hs ht'
  · rw [hrecords] at hr
    rw [BegunInShift, hchanged.find?_of_ne (by decide)]
    exact h.begunInShift hr

end Chronology

/-! ### Requests -/

section Step

variable {w : World V D}

/-- The instant at which a shift was closed fits its column. -/
theorem timestamp_of_closed_shift {db db' : Db} {id : ℤ} {t : DateTime} {s : WorkSchedule}
    (hchanged : Changed .workSchedule id (fun s => { s with endAt := some t }) db db')
    (hs : s ∈ db.rows .workSchedule) (hid : s.id = id) : timestamp t := by
  have hcheck := Table.check_of_mem (hchanged.mem_of_eq hs hid)
  simp only [schema, shape, Bool.and_eq_true] at hcheck
  exact hcheck.1.2

/-- So does the instant at which a record was ended: the row is in the table, hence it
passed the check of its columns. -/
theorem timestamp_of_closed_record {db db' : Db} {id : ℤ} {t : DateTime} {r : WorkRecord}
    (hchanged : Changed .workRecord id (fun r => { r with endAt := some t }) db db')
    (hr : r ∈ db.rows .workRecord) (hid : r.id = id) : timestamp t := by
  have hcheck := Table.check_of_mem (hchanged.mem_of_eq hr hid)
  simp only [schema, shape, Bool.and_eq_true] at hcheck
  exact hcheck.2

/-- And the one at which a process record was ended. -/
theorem timestamp_of_closed_process {db db' : Db} {id : ℤ} {t : DateTime}
    {req : ProcessEndRequest} {r : WorkProcessRecord}
    (hchanged : Changed .workProcessRecord id (req.apply t) db db')
    (hr : r ∈ db.rows .workProcessRecord) (hid : r.id = id) : timestamp t := by
  have hcheck := Table.check_of_mem (hchanged.mem_of_eq hr hid)
  simp only [schema, shape, Bool.and_eq_true, ProcessEndRequest.apply] at hcheck
  tauto

/-- A shift is closed at an instant that fits. -/
theorem Chronology.close_shift {db db' : Db} {id : ℤ} {t : DateTime} {s : WorkSchedule}
    (h : Chronology db) (hmay : MayEnd db id t) (hs : db.find? .workSchedule id = some s)
    (hchanged : Changed .workSchedule id (fun s => { s with endAt := some t }) db db') :
    Chronology db' := by
  have hnaive := timestamp_of_closed_shift hchanged (Table.find?_mem hs) (Table.find?_key hs)
  refine h.close_schedule hchanged (fun s' hs' hid => ?_) fun r hr hid => hmay.2 r hr hid hnaive
  exact hmay.1 s' (Table.find?_eq_some.mpr ⟨hs', hid⟩) hnaive

/-- A new shift. The request is in time if its own end is not before its start. -/
theorem chronology_create (req : CreateScheduleRequest) (h : Chronology w.db)
    (hin : ShiftRequest.InTime env (.create req) w) :
    Chronology (ShiftRequest.step env (.create req) w).db := by
  obtain hsame | ⟨jw, new, hjw, hinsert⟩ := serve_createSchedule env w req
  · rw [ShiftRequest.step, hsame]
    exact h
  · refine h.add_schedules (.of_insert (P := fun s => s = req.row jw new) hinsert rfl) ?_
    rintro s hs rfl t ht
    have hcheck := Table.check_of_mem hs
    simp only [schema, shape, Bool.and_eq_true, ht, Option.all_some] at hcheck
    exact hin (hjw ▸ Option.some_ne_none jw) t ht hcheck.1.2

/-- A new record. Its start is compared with the end of the shift, if the shift is over.
-/
theorem chronology_begin (req : RecordStartRequest) (h : Chronology w.db)
    (hin : ShiftRequest.InTime env (.begin req) w) :
    Chronology (ShiftRequest.step env (.begin req) w).db := by
  obtain hsame | ⟨s, new, hs, hopen, hinsert⟩ := serve_begin env w req
  · rw [ShiftRequest.step, hsame]
    exact h
  · refine h.add_records (.of_insert (P := fun r => r = req.row (instant env w 2 req.at') new)
      hinsert rfl) ?_
    rintro r hr rfl
    have hcheck := Table.check_of_mem hr
    simp only [schema, shape, Bool.and_eq_true] at hcheck
    exact ⟨rfl, s, hs, fun t ht => hin s hs hopen t ht hcheck.1.2⟩

/-- The end of a record, and for an `OFF` record the end of its shift at the same
instant. The two changes are taken one after the other, the second in the state that the
first one leaves. -/
theorem chronology_end (req : RecordEndRequest) (h : Chronology w.db)
    (hin : ShiftRequest.InTime env (.end req) w) :
    Chronology (ShiftRequest.step env (.end req) w).db := by
  obtain ⟨-, hsame⟩ | ⟨a, r, -, -, hone, ⟨-, hsame⟩ | hend⟩ := serve_end env w req
  · rw [ShiftRequest.step, hsame]
    exact h
  · rw [ShiftRequest.step, hsame]
    exact h
  · have hmem : r ∈ (w.db.rows .workRecord).filter
        (WorkRecord.opens req.workScheduleId req.type) := hone ▸ List.mem_singleton_self r
    obtain ⟨hr, hopen⟩ := List.mem_filter.mp hmem
    have hrid : r.workScheduleId = req.workScheduleId := (of_decide_eq_true hopen).1
    obtain ⟨hstart, hmay⟩ := hin r hone
    have hclosed : ∀ db₁ : Db, Changed .workRecord r.id
        (fun r => { r with endAt := some (instant env w 1 req.at') }) w.db db₁ →
        Chronology db₁ := by
      intro db₁ hchanged
      refine h.close_record hchanged fun x hx hid => ?_
      obtain rfl : x = r := Table.eq_of_key hx hr hid
      exact hstart (timestamp_of_closed_record hchanged hx rfl)
    cases hend with
    | record _ hchanged => exact hclosed _ hchanged
    | orphan _ _ hchanged => exact hclosed _ hchanged
    | shift htype s db₁ hfound hrecord hschedule =>
        have hid : s.id = req.workScheduleId :=
          (Table.find?_key hfound : keyOf .workSchedule s = r.workScheduleId).trans hrid
        rw [hrid, ← hrecord.find?_of_ne (by decide)] at hfound
        rw [hid] at hschedule
        refine (hclosed db₁ hrecord).close_shift ?_ hfound hschedule
        -- `MayEnd` was asked of the state before; ending the record has moved no start.
        refine ⟨fun s' hs' => ?_, fun x hx hxid => ?_⟩
        · rw [hrecord.find?_of_ne (by decide)] at hs'
          exact (hmay htype).1 s' hs'
        · obtain ⟨y, hy, ⟨-, rfl⟩ | ⟨-, rfl⟩⟩ := hrecord.of_mem hx
          · exact (hmay htype).2 y hy hxid
          · exact (hmay htype).2 x hy hxid

/-- The end of the one open process record. -/
theorem chronology_endProcess (req : ProcessEndRequest) (h : Chronology w.db)
    (hin : ShiftRequest.InTime env (.endProcess req) w) :
    Chronology (ShiftRequest.step env (.endProcess req) w).db := by
  obtain hsame | ⟨r, hone, hchanged⟩ := serve_endProcess env w req
  · rw [ShiftRequest.step, hsame]
    exact h
  · have hmem : r ∈ (w.db.rows .workProcessRecord).filter
        (WorkProcessRecord.opens req.workScheduleId req.jobProcessId) :=
      hone ▸ List.mem_singleton_self r
    have hr := (List.mem_filter.mp hmem).1
    refine h.close_process hchanged fun x hx hid s hs => ?_
    obtain rfl : x = r := Table.eq_of_key hx hr hid
    exact hin x hone s hs (timestamp_of_closed_process hchanged hx rfl)

/-- **A request in time keeps the recorded times in order.** -/
theorem chronology_step (request : ShiftRequest) (w : World V D) (hin : request.InTime env w)
    (h : Chronology w.db) : Chronology (request.step env w).db := by
  cases request with
  | create req => exact chronology_create req h hin
  | batchMake req =>
      refine h.add_schedules (serve_batchMake env w req) ?_
      rintro s - ⟨id, -, jw, new, -, -, rfl⟩ t ht
      cases ht
  | close scheduleId endAt =>
      obtain ⟨-, hsame⟩ | ⟨a, s, -, -, hs, hchanged⟩ := serve_close env w scheduleId endAt
      · rw [ShiftRequest.step, hsame]
        exact h
      · exact h.close_shift hin hs hchanged
  | begin req => exact chronology_begin req h hin
  | «end» req => exact chronology_end req h hin
  | beginProcess req =>
      obtain hsame | ⟨new, hinsert⟩ := serve_beginProcess env w req
      · rw [ShiftRequest.step, hsame]
        exact h
      · refine h.add_processes
          (.of_insert (P := fun r => r = req.row (instant env w 2 req.at') new) hinsert rfl) ?_
        rintro r rfl
        rfl
  | endProcess req => exact chronology_endProcess req h hin

end Step

/-- **Recorded times**: in every run whose requests are in time, the times of every state
are in order. -/
theorem times_in_order {w₀ w : World V D} (hkeys : w₀.db.ForeignKeys) (hstart : TimesInOrder w₀.db)
    {requests : List ShiftRequest}
    (hin : Runs.Guarded (ShiftRequest.step env) (ShiftRequest.InTime env) requests w₀)
    {before after : List ShiftRequest} (hsplit : requests = before ++ after)
    (hw : w = Runs.run (ShiftRequest.step env) before w₀) : TimesInOrder w.db := by
  rw [hsplit] at hin
  rw [hw]
  exact (Runs.Guarded.invariant (I := fun w : World V D => Chronology w.db) chronology_step
    (chronology_of_foreignKeys hkeys hstart) hin.of_append.1).toTimesInOrder

/-- Work begins on the shift of the sample installation. -/
def workBegins (t : ℤ) : ShiftRequest :=
  .begin { workScheduleId := 1, type := .work, at' := some ⟨t, none⟩ }

/-- Work ends. -/
def workEnds (t : ℤ) : ShiftRequest :=
  .end { workScheduleId := 1, type := .work, at' := some ⟨t, none⟩ }

/-- The sample installation has one shift, and it is open. -/
theorem sample_schedules : Db.sample.rows .workSchedule =
    [⟨1, 1, none, 1, ⟨0, none⟩, none, none, false⟩] := by decide +kernel

/-- Nothing has ended in the sample installation. -/
theorem sample_timesInOrder : TimesInOrder Db.sample := by
  have hrecords : Db.sample.rows .workRecord = [] := by decide +kernel
  have hprocesses : Db.sample.rows .workProcessRecord = [] := by decide +kernel
  refine ⟨fun r hr => ?_, fun r hr => ?_, fun s hs t ht => ?_, fun r hr => ?_⟩
  · rw [hrecords] at hr
    cases hr
  · rw [hprocesses] at hr
    cases hr
  · rw [sample_schedules, List.mem_singleton] at hs
    subst hs
    cases ht
  · rw [hrecords] at hr
    cases hr

/-- Work from 1 to 3 fits the sample shift. -/
theorem sample_inTime : Runs.Guarded (ShiftRequest.step still) (ShiftRequest.InTime still)
    [workBegins 1, workEnds 3] (World.fresh Db.sample () : World Unit Unit) := by
  refine ⟨fun s hs _ t ht => ?_, fun r hr => ⟨fun _ => ?_, fun hoff => ?_⟩, trivial⟩
  · have hmem : s ∈ Db.sample.rows .workSchedule := Table.find?_mem hs
    rw [sample_schedules, List.mem_singleton] at hmem
    subst hmem
    cases ht
  · have hone : ((ShiftRequest.step still (workBegins 1) (World.fresh Db.sample () :
        World Unit Unit)).db.rows .workRecord).filter (WorkRecord.opens 1 .work) =
        [⟨1, 1, .work, ⟨1, none⟩, none⟩] := by decide +kernel
    cases hone.symm.trans hr
    exact (by decide : (1 : ℤ) ≤ 3)
  · cases hoff

/-- Work from 1 to 3 on the sample shift ends in order. -/
theorem times_in_order_sample :
    TimesInOrder (Runs.run (ShiftRequest.step still) [workBegins 1, workEnds 3]
      (World.fresh Db.sample () : World Unit Unit)).db := by
  have hkeys : Db.sample.ForeignKeys := by
    intro t
    cases t <;> decide +kernel
  exact times_in_order hkeys sample_timesInOrder sample_inTime (List.append_nil _).symm rfl

/-- **A shift out of order**: work that ends before it began is recorded, and so is work
on a shift that is over. -/
theorem times_out_of_order :
    ¬TimesInOrder (Runs.run (ShiftRequest.step still) [workBegins 5, workEnds 3]
        (World.fresh Db.sample () : World Unit Unit)).db ∧
      ¬TimesInOrder (Runs.run (ShiftRequest.step still)
        [.close 1 (some ⟨3, none⟩), workBegins 5]
        (World.fresh Db.sample () : World Unit Unit)).db := by
  constructor
  · intro h
    have hrow := h.records ⟨1, 1, .work, ⟨5, none⟩, some ⟨3, none⟩⟩
      (by decide +kernel) ⟨3, none⟩ rfl
    revert hrow
    decide
  · intro h
    have hrow := h.begun ⟨1, 1, .work, ⟨5, none⟩, none⟩ (by decide +kernel)
      ⟨1, 1, none, 1, ⟨0, none⟩, some ⟨3, none⟩, none, false⟩ (by decide +kernel) ⟨3, none⟩ rfl
    revert hrow
    decide

end Rooti

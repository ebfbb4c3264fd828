import Rooti.Core.Holding
import Rooti.Lib.Runs
import Rooti.Services.Schedule

/-!
# What requests on shifts do

A shift is made, work records are opened and closed on it, and it is closed.  Each
request is described by the rows it adds or changes and by the instant it writes:
the one it names, or the one the clock shows when it is served.

## Main definitions

* `instant` — the instant a request writes
* `ShiftRequest` — the requests
* `serve_createSchedule`, `serve_batchMake`, `serve_close`, `serve_begin`, `serve_end`,
  `serve_beginProcess`, `serve_endProcess` — what they do

Each of these is one of two outcomes, refused or done, and the second names the row that
was found, the row that was added or changed, and the instant. Everything that is proved
of runs of such requests (their times, the end of a shift, the number of open records)
goes through these statements and does not look at the scripts again.

The instants are counted in commands: `instant env w n` is the clock after `n` commands,
and a script that reads the clock as its second or third command is described with this
number. `HoldsAfter n` is the triple that counts along.
-/

namespace Rooti

open Relational Program

variable {V D : Type}

/-- The instant a request writes that has executed `n` commands before: the one it
names, or the clock's. -/
def instant (env : Env) (w : World V D) (n : ℕ) : Option DateTime → DateTime
  | some t => t
  | none => ⟨env.clock (w.ticks + n) + env.utcOffset, none⟩

/-- The requests on shifts and their records. -/
inductive ShiftRequest
  | create (req : CreateScheduleRequest)
  | batchMake (req : BatchMakeRequest)
  | close (scheduleId : ℤ) (endAt : Option DateTime)
  | begin (req : RecordStartRequest)
  | «end» (req : RecordEndRequest)
  | beginProcess (req : ProcessStartRequest)
  | endProcess (req : ProcessEndRequest)

/-- The state after a request. -/
def ShiftRequest.step (env : Env) (request : ShiftRequest) (w : World V D) : World V D :=
  match request with
  | .create req => (serve env (WorkScheduleService.create req) w).2
  | .batchMake req => (serve env (WorkScheduleService.batchMake req) w).2
  | .close scheduleId endAt => (serve env (WorkScheduleService.close env scheduleId endAt) w).2
  | .begin req => (serve env (WorkRecordService.begin env req) w).2
  | .end req => (serve env (WorkRecordService.end env req) w).2
  | .beginProcess req => (serve env (WorkRecordService.beginProcess env req) w).2
  | .endProcess req => (serve env (WorkRecordService.endProcess env req) w).2

section Rules

variable {env : Env} {w : World V D} {d : Db} {ps : List Statement} {n : ℕ}

/-- The instant of a request, or the clock's at this point of the script. -/
theorem holdsAfter_atOrNow (t : Option DateTime) :
    (server env).Ensures (HoldsAfter n w d ps) (atOrNow env t)
      (fun a s w' => a = instant env w n t ∧ Holds w d ps s w') (Uncommitted w) := by
  cases t with
  | some t => exact .ret fun _ _ h => ⟨rfl, h.2⟩
  | none =>
      refine Machine.Ensures.bind (Q := fun a s w' =>
        a = env.clock (w.ticks + n) ∧ Holds w d ps s w') ?_ fun a => .ret fun _ _ h => ?_
      · refine .lift fun s w' h => ⟨?_, h.2.tick⟩
        rw [← h.1]
      · exact ⟨congrArg (fun micros => (⟨micros + env.utcOffset, none⟩ : DateTime)) h.1, h.2⟩

/-- The shift has to exist. -/
theorem holdsAfter_getOrThrow {id : ℤ} :
    (server env).Ensures (HoldsAfter n w d []) (WorkScheduleService.getOrThrow id)
      (fun schedule s w' => d.find? .workSchedule id = some schedule ∧
        HoldsAfter (n + 1) w d [] s w') (Uncommitted w) := by
  refine holdsAfter_dbGet.bind fun found => .of_and ?_
  rintro rfl
  exact holdsAfter_orRaise

/-- The response of a shift is built from the database with everything held back. -/
theorem holds_toResponse {schedule : WorkSchedule} :
    (server env).Ensures (Holds w d ps) (WorkScheduleService.toResponse schedule)
      (fun a s w' => (∃ standard, a = toScheduleResponse schedule standard) ∧
        ∃ d', Dml.applyAll (Session.flushOrder ps) d = .ok d' ∧ Holds w d' [] s w')
      (Uncommitted w) := by
  refine holds_select.bind fun standard => .of_exists fun d' => .of_and fun h => ?_
  exact .ret fun _ _ hholds => ⟨⟨standard, rfl⟩, d', h.1, hholds⟩

end Rules

section Requests

variable (env : Env) (w : World V D) {d : Db}

/-! ## Shifts -/

/-- **What a `create` does**: it is refused, or adds its shift. -/
theorem serve_createSchedule (req : CreateScheduleRequest) :
    (serve env (WorkScheduleService.create req) w).2.db = w.db ∨
      ∃ jw new, w.db.find? .jobWorker req.jobWorkerId = some jw ∧
        (Dml.insert .workSchedule (req.row jw new) : Statement).apply w.db =
          .ok (serve env (WorkScheduleService.create req) w).2.db := by
  have hscript : (server env).Ensures (Holds w w.db []) (WorkScheduleService.create req)
      (fun _ s w' => ∃ d ps, ((∃ jw new, w.db.find? .jobWorker req.jobWorkerId = some jw ∧
        (Dml.insert .workSchedule (req.row jw new) : Statement).apply w.db = .ok d) ∧ ps = []) ∧
        Holds w d ps s w') (Uncommitted w) := by
    refine holds_dbGet.bind fun found => .of_and ?_
    rintro rfl
    refine holds_orRaise.bind fun jw => .of_and fun hjw => holds_insert fun new d hd => ?_
    refine holds_toResponse.weaken (fun _ _ h => h) ?_ fun _ _ h => h
    rintro a s w' ⟨-, d', hd', h⟩
    cases hd'
    exact ⟨d, [], ⟨⟨jw, new, hjw, hd⟩, rfl⟩, h⟩
  obtain ⟨-, hsame⟩ | ⟨a, d, ps, -, ⟨⟨jw, new, hjw, hd⟩, rfl⟩, hkept⟩ := serve_holds hscript
  · exact .inl hsame
  · rw [hkept.eq]
    exact .inr ⟨jw, new, hjw, hd⟩

/-- The shift is one of those the request makes. -/
def BatchMakeRequest.Makes (req : BatchMakeRequest) (db : Db) (s : WorkSchedule) : Prop :=
  ∃ jobWorkerId ∈ req.jobWorkerIds, ∃ jw new, db.find? .jobWorker jobWorkerId = some jw ∧
    jw.jobStandardId = req.jobStandardId ∧ s = req.row jobWorkerId new

/-- A session that has made shifts: some are sent, the others held back. -/
def HoldsShifts (req : BatchMakeRequest) (w : World V D) (s : Session) (w' : World V D) : Prop :=
  ∃ d ps, (Added .workSchedule (req.Makes w.db) w.db d ∧
    ∀ st ∈ ps, ∃ r, req.Makes w.db r ∧ st = .insert .workSchedule r) ∧ Holds w d ps s w'

/-- A query in between finds the assignments of before. -/
theorem holds_findAssignment (req : BatchMakeRequest) (id : ℤ) :
    (server env).Ensures (HoldsShifts req w) (dbGet .jobWorker id)
      (fun found s w' => ∃ d, found = w.db.find? .jobWorker id ∧
        Added .workSchedule (req.Makes w.db) w.db d ∧ Holds w d [] s w') (Uncommitted w) := by
  refine .of_exists fun d => .of_exists fun ps => .of_and fun ⟨hadded, hps⟩ => ?_
  refine holds_select.weaken (fun _ _ h => h) ?_ fun _ _ h => h
  rintro found s w' ⟨d', ⟨hd', -, -, rfl⟩, h⟩
  have hadded' := hadded.trans (.of_flush hps hd')
  exact ⟨d', hadded'.find?_of_ne (by decide) id, hadded', h⟩

/-- Only shifts of assignments of the standard are made. -/
theorem holds_makeAll (req : BatchMakeRequest) (ids : List ℤ)
    (hids : ∀ id ∈ ids, id ∈ req.jobWorkerIds) :
    (server env).Ensures (HoldsShifts req w) (WorkScheduleService.makeAll req ids)
      (fun _ => HoldsShifts req w) (Uncommitted w) := by
  induction ids with
  | nil => exact .ret fun _ _ h => h
  | cons id rest ih =>
      rw [List.forall_mem_cons] at hids
      refine (holds_findAssignment env w req id).bind fun found => .of_exists fun d => .of_and ?_
      rintro rfl
      refine .of_and fun hadded => .ite (fun hfits => ?_) fun _ => ?_
      · obtain ⟨jw, hjw, hstandard⟩ := (Option.any_eq_true ..).mp hfits
        refine holds_add.bind fun new => ?_
        refine Machine.Ensures.bind (Q := fun _ => HoldsShifts req w) ?_ fun _ => .ret fun _ _ h => h
        refine (ih hids.2).weaken (fun s w' h => ?_) (fun _ _ _ h => h) fun _ _ h => h
        refine ⟨d, _, ⟨hadded, fun st hst => ?_⟩, h⟩
        rw [List.nil_append, List.mem_singleton] at hst
        exact ⟨_, ⟨id, hids.1, jw, new, hjw, of_decide_eq_true hstandard, rfl⟩, hst⟩
      · refine (ih hids.2).weaken (fun s w' h => ?_) (fun _ _ _ h => h) fun _ _ h => h
        exact ⟨d, [], ⟨hadded, fun st hst => by cases hst⟩, h⟩

/-- Responses are read, and write nothing. -/
theorem holds_toResponses (schedules : List WorkSchedule) :
    (server env).Ensures (Holds w d []) (WorkScheduleService.toResponses schedules)
      (fun _ s w' => Holds w d [] s w') (Uncommitted w) := by
  induction schedules with
  | nil => exact .ret fun _ _ h => h
  | cons schedule rest ih =>
      refine Machine.Ensures.bind (Q := fun _ s w' => Holds w d [] s w') ?_ fun _ =>
        ih.bind fun _ => .ret fun _ _ h => h
      refine holds_toResponse.weaken (fun _ _ h => h) ?_ fun _ _ h => h
      rintro a s w' ⟨-, d', hd', h⟩
      cases hd'
      exact h

/-- **What a `batch_make` does**: it is refused, or adds shifts of assignments of its
standard. -/
theorem serve_batchMake (req : BatchMakeRequest) :
    Added .workSchedule (req.Makes w.db) w.db
      (serve env (WorkScheduleService.batchMake req) w).2.db := by
  have hscript : (server env).Ensures (Holds w w.db []) (WorkScheduleService.batchMake req)
      (fun _ s w' => ∃ d ps, (Added .workSchedule (req.Makes w.db) w.db d ∧ ps = []) ∧
        Holds w d ps s w') (Uncommitted w) := by
    refine holds_dbGet.bind fun _ => .of_and fun _ => holds_orRaise.bind fun _ => .of_and fun _ => ?_
    refine Machine.Ensures.bind (Q := fun _ => HoldsShifts req w) ?_ fun schedules => ?_
    · refine (holds_makeAll env w req req.jobWorkerIds fun _ h => h).weaken (fun s w' h => ?_)
        (fun _ _ _ h => h) fun _ _ h => h
      exact ⟨w.db, [], ⟨.refl, fun st hst => by cases hst⟩, h⟩
    · refine .of_exists fun d => .of_exists fun ps => .of_and fun ⟨hadded, hps⟩ => ?_
      refine holds_flush.bind fun _ => .of_exists fun d' => .of_and fun hd' => ?_
      refine (holds_toResponses env w schedules).weaken (fun _ _ h => h) (fun _ _ _ h => ?_)
        fun _ _ h => h
      exact ⟨d', [], ⟨hadded.trans (.of_flush hps hd'), rfl⟩, h⟩
  obtain ⟨-, hsame⟩ | ⟨a, d, ps, -, ⟨hadded, rfl⟩, hkept⟩ := serve_holds hscript
  · rw [hsame]
    exact .refl
  · rw [hkept.eq]
    exact hadded

/-- **What a `close` does**: it is refused, or its shift ends at the instant it
answers. -/
theorem serve_close (scheduleId : ℤ) (endAt : Option DateTime) :
    ((∃ e, (serve env (WorkScheduleService.close env scheduleId endAt) w).1 = .error e) ∧
        (serve env (WorkScheduleService.close env scheduleId endAt) w).2.db = w.db) ∨
      ∃ a schedule, (serve env (WorkScheduleService.close env scheduleId endAt) w).1 = .ok a ∧
        a.endAt = some (instant env w 1 endAt) ∧
        w.db.find? .workSchedule scheduleId = some schedule ∧
        Changed .workSchedule scheduleId
          (fun s => { s with endAt := some (instant env w 1 endAt) }) w.db
          (serve env (WorkScheduleService.close env scheduleId endAt) w).2.db := by
  have hscript : (server env).Ensures (HoldsAfter 0 w w.db [])
      (WorkScheduleService.close env scheduleId endAt)
      (fun a s w' => ∃ d ps, ((∃ schedule, a.endAt = some (instant env w 1 endAt) ∧
        w.db.find? .workSchedule scheduleId = some schedule ∧
        Changed .workSchedule scheduleId
          (fun s => { s with endAt := some (instant env w 1 endAt) }) w.db d) ∧ ps = []) ∧
        Holds w d ps s w') (Uncommitted w) := by
    refine holdsAfter_getOrThrow.bind fun schedule => .of_and fun hfound => ?_
    refine (holdsAfter_atOrNow endAt).bind fun t => .of_and ?_
    rintro rfl
    refine holds_modify.bind fun _ => .of_exists fun now => ?_
    refine holds_toResponse.weaken (fun _ _ h => h) ?_ fun _ _ h => h
    rintro a s w' ⟨⟨standard, rfl⟩, d', hd', h⟩
    rw [List.nil_append] at hd'
    have hchanged := changed_of_applyAll (Table.find?_mem hfound) (fun _ => rfl) hd'
    rw [show keyOf .workSchedule schedule = scheduleId from Table.find?_key hfound] at hchanged
    exact ⟨d', [], ⟨⟨schedule, rfl, hfound, hchanged⟩, rfl⟩, h⟩
  obtain hrefused | ⟨a, d, ps, hok, ⟨⟨schedule, hat, hfound, hchanged⟩, rfl⟩, hkept⟩ :=
    serve_holdsAfter hscript
  · exact .inl hrefused
  · rw [hkept.eq]
    exact .inr ⟨a, schedule, hok, hat, hfound, hchanged⟩

/-! ## Work records -/

/-- The open record of a kind. -/
theorem holdsAfter_findOpenRecord {n : ℕ} {scheduleId : ℤ} {type : WorkRecordType} :
    (server env).Ensures (HoldsAfter n w d []) (WorkRecordService.findOpenRecord scheduleId type)
      (fun found s w' => (found.toList.Perm
          ((d.rows .workRecord).filter (WorkRecord.opens scheduleId type))) ∧
        HoldsAfter (n + 1) w d [] s w') (Uncommitted w) := by
  refine holdsAfter_query.bind fun rows => .of_and ?_
  rintro ⟨-, o, rfl⟩
  refine Machine.Ensures.weaken holdsAfter_scalarOneOrNone (fun _ _ h => h) ?_ fun _ _ h => h
  rintro found s w' ⟨hrows, h⟩
  refine ⟨?_, h⟩
  rw [← hrows]
  exact (List.mergeSort_perm _ _).trans (o.perm _)

/-- **What a `begin` does**: it is refused, or adds an open record of a kind that has
none. -/
theorem serve_begin (req : RecordStartRequest) :
    (serve env (WorkRecordService.begin env req) w).2.db = w.db ∨
      ∃ schedule new, w.db.find? .workSchedule req.workScheduleId = some schedule ∧
        (w.db.rows .workRecord).filter (WorkRecord.opens req.workScheduleId req.type) = [] ∧
        (Dml.insert .workRecord (req.row (instant env w 2 req.at') new) : Statement).apply w.db =
          .ok (serve env (WorkRecordService.begin env req) w).2.db := by
  have hscript : (server env).Ensures (HoldsAfter 0 w w.db []) (WorkRecordService.begin env req)
      (fun _ s w' => ∃ d ps, ((∃ schedule new,
        w.db.find? .workSchedule req.workScheduleId = some schedule ∧
        (w.db.rows .workRecord).filter (WorkRecord.opens req.workScheduleId req.type) = [] ∧
        (Dml.insert .workRecord (req.row (instant env w 2 req.at') new) : Statement).apply w.db =
          .ok d) ∧ ps = []) ∧ Holds w d ps s w') (Uncommitted w) := by
    refine holdsAfter_getOrThrow.bind fun schedule => .of_and fun hfound => ?_
    refine (holdsAfter_findOpenRecord env w).bind fun found => .of_and fun hopen => ?_
    cases found with
    | some r => exact Machine.Ensures.raise fun _ _ h => h.2.uncommitted
    | none =>
        refine Machine.Ensures.bind (Q := fun _ => HoldsAfter 2 w w.db []) (.ret fun _ _ h => h)
          fun _ => ?_
        refine (holdsAfter_atOrNow req.at').bind fun t => .of_and ?_
        rintro rfl
        refine holds_insert fun new d hd => .ret fun _ _ h => ?_
        exact ⟨d, [], ⟨⟨schedule, new, hfound, List.nil_perm.mp hopen, hd⟩, rfl⟩, h⟩
  obtain ⟨-, hsame⟩ | ⟨a, d, ps, -, ⟨⟨schedule, new, hfound, hopen, hd⟩, rfl⟩, hkept⟩ :=
    serve_holdsAfter hscript
  · exact .inl hsame
  · rw [hkept.eq]
    exact .inr ⟨schedule, new, hfound, hopen, hd⟩

/-- What an `end` leaves: its record is closed at `t`, and with an `OFF` record its
shift. -/
inductive EndResult (req : RecordEndRequest) (t : DateTime) (r : WorkRecord) (db db' : Db) : Prop
  | record (htype : req.type ≠ .off)
      (hchanged : Changed .workRecord r.id (fun r => { r with endAt := some t }) db db')
  | orphan (htype : req.type = .off) (hnone : db.find? .workSchedule r.workScheduleId = none)
      (hchanged : Changed .workRecord r.id (fun r => { r with endAt := some t }) db db')
  | shift (htype : req.type = .off) (schedule : WorkSchedule) (db₁ : Db)
      (hfound : db.find? .workSchedule r.workScheduleId = some schedule)
      (hrecord : Changed .workRecord r.id (fun r => { r with endAt := some t }) db db₁)
      (hschedule : Changed .workSchedule schedule.id (fun s => { s with endAt := some t }) db₁ db')

/-- What the session of an `end` has sent and holds back. -/
inductive EndHolds (req : RecordEndRequest) (t : DateTime) (r : WorkRecord) (db : Db) :
    Db → List Statement → Prop
  | record (htype : req.type ≠ .off) (now : DateTime) :
      EndHolds req t r db db (changes .workRecord r (fun r => { r with endAt := some t }) now)
  | orphan {d : Db} (htype : req.type = .off)
      (hnone : db.find? .workSchedule r.workScheduleId = none)
      (hchanged : Changed .workRecord r.id (fun r => { r with endAt := some t }) db d) :
      EndHolds req t r db d []
  | shift {d : Db} (htype : req.type = .off) (schedule : WorkSchedule) (now : DateTime)
      (hfound : db.find? .workSchedule r.workScheduleId = some schedule)
      (hchanged : Changed .workRecord r.id (fun r => { r with endAt := some t }) db d) :
      EndHolds req t r db d
        (changes .workSchedule schedule (fun s => { s with endAt := some t }) now)

/-- With an `OFF` record, its shift is closed too. -/
theorem holds_closeSchedule {t : DateTime} {r : WorkRecord} (req : RecordEndRequest)
    (hr : r ∈ w.db.rows .workRecord) (now : DateTime) :
    (server env).Ensures
      (Holds w w.db ([] ++ changes .workRecord r (fun r => { r with endAt := some t }) now))
      (WorkRecordService.closeSchedule r req.type t)
      (fun _ s w' => ∃ d ps, EndHolds req t r w.db d ps ∧ Holds w d ps s w') (Uncommitted w) := by
  rw [List.nil_append]
  refine .ite (fun htype => ?_) fun htype => .ret fun _ _ h => ⟨w.db, _, .record htype now, h⟩
  refine holds_select.bind fun found => .of_exists fun d => .of_and ?_
  rintro ⟨hd, -, -, rfl⟩
  have hchanged := changed_of_applyAll hr (fun _ => rfl) hd
  have hsame := hchanged.find?_of_ne (j := .workSchedule) (by decide) r.workScheduleId
  rw [hsame]
  cases hfound : w.db.find? .workSchedule r.workScheduleId with
  | none => exact .ret fun _ _ h => ⟨d, [], .orphan htype hfound hchanged, h⟩
  | some schedule =>
      refine holds_modify.weaken (fun _ _ h => h) ?_ fun _ _ h => h
      rintro _ s w' ⟨now', h⟩
      exact ⟨d, _, .shift htype schedule now' hfound hchanged, h⟩

/-- **What an `end` does**: it is refused, or closes its record and, with `OFF`, its
shift.  Without `OFF` nothing is sent before the commit. -/
theorem serve_end (req : RecordEndRequest) :
    ((∃ e, (serve env (WorkRecordService.end env req) w).1 = .error e) ∧
        (serve env (WorkRecordService.end env req) w).2.db = w.db) ∨
      ∃ a r, (serve env (WorkRecordService.end env req) w).1 = .ok a ∧
        a.endAt = some (instant env w 1 req.at') ∧
        (w.db.rows .workRecord).filter (WorkRecord.opens req.workScheduleId req.type) = [r] ∧
        ((req.type ≠ .off ∧ (serve env (WorkRecordService.end env req) w).2.db = w.db) ∨
          EndResult req (instant env w 1 req.at') r w.db
            (serve env (WorkRecordService.end env req) w).2.db) := by
  have hscript : (server env).Ensures (HoldsAfter 0 w w.db []) (WorkRecordService.end env req)
      (fun a s w' => ∃ d ps, (∃ r, a.endAt = some (instant env w 1 req.at') ∧
        (w.db.rows .workRecord).filter (WorkRecord.opens req.workScheduleId req.type) = [r] ∧
        EndHolds req (instant env w 1 req.at') r w.db d ps) ∧ Holds w d ps s w')
      (Uncommitted w) := by
    refine (holdsAfter_findOpenRecord env w).bind fun found => .of_and fun hopen => ?_
    refine holdsAfter_orRaise.bind fun r => .of_and ?_
    rintro rfl
    have hone := List.perm_singleton.mp hopen.symm
    have hmem : r ∈ (w.db.rows .workRecord).filter
        (WorkRecord.opens req.workScheduleId req.type) := hone ▸ List.mem_singleton_self r
    refine (holdsAfter_atOrNow req.at').bind fun t => .of_and ?_
    rintro rfl
    refine holds_modify.bind fun _ => .of_exists fun now => ?_
    refine Machine.Ensures.bind (Q := fun _ s w' => ∃ d ps,
      EndHolds req (instant env w 1 req.at') r w.db d ps ∧ Holds w d ps s w') ?_ fun _ => ?_
    · exact holds_closeSchedule env w req (List.mem_filter.mp hmem).1 now
    · refine .ret fun _ _ ⟨d, ps, hend, h⟩ => ⟨d, ps, ⟨r, rfl, hone, hend⟩, h⟩
  obtain hrefused | ⟨a, d, ps, hok, ⟨r, hat, hone, hend⟩, hkept⟩ := serve_holdsAfter hscript
  · exact .inl hrefused
  · have hmem : r ∈ (w.db.rows .workRecord).filter
        (WorkRecord.opens req.workScheduleId req.type) := hone ▸ List.mem_singleton_self r
    obtain ⟨hr, hopen⟩ := List.mem_filter.mp hmem
    refine .inr ⟨a, r, hok, hat, hone, ?_⟩
    -- what was held when the script returned is what the commit sends
    cases hend with
    | record htype now =>
        obtain ⟨-, -, hsame⟩ | ⟨-, happly⟩ := hkept
        · exact .inl ⟨htype, hsame⟩
        · exact .inr (.record htype (changed_of_applyAll hr (fun _ => rfl) happly))
    | orphan htype hnone hchanged =>
        rw [hkept.eq]
        exact .inr (.orphan htype hnone hchanged)
    | shift htype schedule now hfound hchanged =>
        right
        obtain ⟨-, hsame, -⟩ | ⟨-, happly⟩ := hkept
        · -- the record would be open after it was closed
          rw [hsame] at hchanged
          have hclosed : ({ r with endAt := some (instant env w 1 req.at') } : WorkRecord) = r :=
            Table.eq_of_key (hchanged.mem_of_eq hr rfl) hr rfl
          have hnone : r.endAt = none := (of_decide_eq_true hopen).2.2
          have hend : some (instant env w 1 req.at') = r.endAt := congrArg WorkRecord.endAt hclosed
          cases hend.trans hnone
        · have hfound' : d.find? .workSchedule r.workScheduleId = some schedule := by
            rw [hchanged.find?_of_ne (by decide)]
            exact hfound
          exact .shift htype schedule d hfound hchanged
            (changed_of_applyAll (Table.find?_mem hfound') (fun _ => rfl) happly)

/-! ## Process records -/

/-- **What a `begin_process` does**: it is refused, or adds an open record. -/
theorem serve_beginProcess (req : ProcessStartRequest) :
    (serve env (WorkRecordService.beginProcess env req) w).2.db = w.db ∨
      ∃ new, (Dml.insert .workProcessRecord (req.row (instant env w 2 req.at') new) :
        Statement).apply w.db = .ok (serve env (WorkRecordService.beginProcess env req) w).2.db := by
  have hscript : (server env).Ensures (HoldsAfter 0 w w.db [])
      (WorkRecordService.beginProcess env req)
      (fun _ s w' => ∃ d ps, ((∃ new, (Dml.insert .workProcessRecord
        (req.row (instant env w 2 req.at') new) : Statement).apply w.db = .ok d) ∧ ps = []) ∧
        Holds w d ps s w') (Uncommitted w) := by
    refine holdsAfter_getOrThrow.bind fun _ => .of_and fun _ => ?_
    refine holdsAfter_dbGet.bind fun _ => .of_and fun _ => holdsAfter_orRaise.bind fun _ =>
      .of_and fun _ => ?_
    refine (holdsAfter_atOrNow req.at').bind fun t => .of_and ?_
    rintro rfl
    refine holds_insert fun new d hd => .ret fun _ _ h => ?_
    exact ⟨d, [], ⟨⟨new, hd⟩, rfl⟩, h⟩
  obtain ⟨-, hsame⟩ | ⟨a, d, ps, -, ⟨⟨new, hd⟩, rfl⟩, hkept⟩ := serve_holdsAfter hscript
  · exact .inl hsame
  · rw [hkept.eq]
    exact .inr ⟨new, hd⟩

/-- **What an `end_process` does**: it is refused, or closes its record. -/
theorem serve_endProcess (req : ProcessEndRequest) :
    (serve env (WorkRecordService.endProcess env req) w).2.db = w.db ∨
      ∃ r, (w.db.rows .workProcessRecord).filter
          (WorkProcessRecord.opens req.workScheduleId req.jobProcessId) = [r] ∧
        Changed .workProcessRecord r.id (req.apply (instant env w 1 req.at')) w.db
          (serve env (WorkRecordService.endProcess env req) w).2.db := by
  have hscript : (server env).Ensures (HoldsAfter 0 w w.db [])
      (WorkRecordService.endProcess env req)
      (fun _ s w' => ∃ d ps, ((∃ r, (w.db.rows .workProcessRecord).filter
          (WorkProcessRecord.opens req.workScheduleId req.jobProcessId) = [r] ∧
        Changed .workProcessRecord r.id (req.apply (instant env w 1 req.at')) w.db d) ∧ ps = []) ∧
        Holds w d ps s w') (Uncommitted w) := by
    refine holdsAfter_query.bind fun rows => .of_and ?_
    rintro ⟨-, o, rfl⟩
    refine holdsAfter_scalarOneOrNone.bind fun found => .of_and fun hrows => ?_
    refine holdsAfter_orRaise.bind fun r => .of_and ?_
    rintro rfl
    have hone := List.perm_singleton.mp ((o.perm _).symm.trans (List.Perm.of_eq hrows))
    have hmem : r ∈ (w.db.rows .workProcessRecord).filter
        (WorkProcessRecord.opens req.workScheduleId req.jobProcessId) :=
      hone ▸ List.mem_singleton_self r
    refine (holdsAfter_atOrNow req.at').bind fun t => .of_and ?_
    rintro rfl
    refine holds_modify.bind fun _ => .of_exists fun now => ?_
    rw [List.nil_append]
    refine holds_select.bind fun _ => .of_exists fun d => .of_and ?_
    rintro ⟨hd, -, -⟩
    have hchanged := changed_of_applyAll (List.mem_filter.mp hmem).1 (fun _ => rfl) hd
    exact .ret fun _ _ h => ⟨d, [], ⟨⟨r, hone, hchanged⟩, rfl⟩, h⟩
  obtain ⟨-, hsame⟩ | ⟨a, d, ps, -, ⟨⟨r, hone, hchanged⟩, rfl⟩, hkept⟩ := serve_holdsAfter hscript
  · exact .inl hsame
  · rw [hkept.eq]
    exact .inr ⟨r, hone, hchanged⟩

end Requests

end Rooti

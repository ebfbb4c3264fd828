import Rooti.WorkRecords.Shifts

/-!
# The end of a shift

Two requests write the end of a shift: `close`, and the `end` of its `OFF` record.  No
other request touches it, so it is the instant of the last of them.

## Main definitions

* `ShiftRequest.closing` — the instant at which a request closes a shift
* `lastClosing` — the instant at which a run has last closed it
* `OffCloses` — an `OFF` record that is closed has closed its shift
* `shift_closing` — every run

## What carries the proof

The history of the closings is a function of the run (`lastClosing`): for each request
it asks whether this request, in the state it met, was answered and closes the shift
`id`. The step lemma compares the shift before and after with it (`endsAt_step`), and
the run lemma adds up.

For an `OFF` record to have closed its shift, the shift has to be there when the record
ends. The model allows a record without a shift, the code passes over it, and
`RecordsOwned` says that there is none: it holds where the foreign keys do, and no
request deletes a shift. So the invariant of the run is `RecordsOwned`, which also says
that closed `OFF` records belong to closed shifts.

Each record after a request is an old one, a new open one, or an old one that was ended
(`RecordFrom`); with this the invariant is checked for one record at a time.
-/

namespace Rooti

open Relational Program

variable {V D : Type} {env : Env}

/-- The instant at which a request closes the shift `id`, if it does. -/
def ShiftRequest.closing (env : Env) (request : ShiftRequest) (w : World V D) (id : ℤ) :
    Option DateTime :=
  match request with
  | .close scheduleId endAt =>
      if scheduleId = id ∧ (serve env (WorkScheduleService.close env scheduleId endAt) w).1.isOk then
        some (instant env w 1 endAt)
      else none
  | .end req =>
      if req.workScheduleId = id ∧ req.type = .off ∧
          (serve env (WorkRecordService.end env req) w).1.isOk then
        some (instant env w 1 req.at')
      else none
  | _ => none

/-- The instant at which a run has last closed the shift `id`. -/
def lastClosing (env : Env) (id : ℤ) : List ShiftRequest → World V D → Option DateTime
  | [], _ => none
  | request :: rest, w =>
      (lastClosing env id rest (request.step env w)).orElse fun _ => request.closing env w id

/-- A shift with a closed `OFF` record is closed. -/
def OffCloses (db : Db) : Prop :=
  ∀ r ∈ db.rows .workRecord, r.type = .off → r.endAt ≠ none →
    ∀ schedule, db.find? .workSchedule r.workScheduleId = some schedule → schedule.endAt ≠ none

/-- Records belong to shifts, and closed `OFF` records to closed ones. -/
def RecordsOwned (db : Db) : Prop :=
  ∀ r ∈ db.rows .workRecord, ∃ schedule,
    db.find? .workSchedule r.workScheduleId = some schedule ∧
      (r.type = .off → r.endAt ≠ none → schedule.endAt ≠ none)

/-- The foreign keys give each record its shift. -/
theorem recordsOwned_of_foreignKeys {db : Db} (hkeys : db.ForeignKeys) (h : OffCloses db) :
    RecordsOwned db := by
  intro r hr
  obtain ⟨schedule, hschedule⟩ := Option.isSome_iff_exists.mp (hkeys .workRecord r hr
    ⟨.workSchedule, r.workScheduleId, .cascade⟩ List.mem_cons_self)
  exact ⟨schedule, hschedule, fun htype hend => h r hr htype hend schedule hschedule⟩

/-- With the shift in hand, the lookup finds it and no other. -/
theorem RecordsOwned.offCloses {db : Db} (h : RecordsOwned db) : OffCloses db := by
  intro r hr htype hend schedule hschedule
  obtain ⟨schedule', hschedule', hclosed⟩ := h r hr
  cases hschedule.symm.trans hschedule'
  exact hclosed htype hend

section Step

variable {w : World V D} {id : ℤ} {schedule : WorkSchedule}

/-- The shift is found after a request, with its end as it was or as `last` says. -/
def EndsAt (db : Db) (id : ℤ) (schedule : WorkSchedule) (last : Option DateTime) : Prop :=
  ∃ schedule', db.find? .workSchedule id = some schedule' ∧
    schedule'.endAt = last.orElse fun _ => schedule.endAt

/-- A shift that was not touched ends as before. -/
theorem EndsAt.of_find? {db : Db} (h : db.find? .workSchedule id = some schedule) :
    EndsAt db id schedule none := ⟨schedule, h, rfl⟩

/-- A `close` of the shift, or of another one. -/
theorem endsAt_close (scheduleId : ℤ) (endAt : Option DateTime)
    (h : w.db.find? .workSchedule id = some schedule) :
    EndsAt (ShiftRequest.step env (.close scheduleId endAt) w).db id schedule
      (ShiftRequest.closing env (.close scheduleId endAt) w id) := by
  rw [ShiftRequest.closing]
  obtain ⟨⟨e, he⟩, hsame⟩ | ⟨a, _, ha, -, -, hchanged⟩ := serve_close env w scheduleId endAt
  · rw [he, if_neg (fun hok => Bool.false_ne_true hok.2), ShiftRequest.step, hsame]
    exact .of_find? h
  · have hfound := hchanged.find? (fun _ => rfl) id
    rw [h, Option.map_some] at hfound
    rw [ha]
    by_cases hid : scheduleId = id
    · rw [if_pos ⟨hid, rfl⟩]
      rw [if_pos hid.symm] at hfound
      exact ⟨_, hfound, rfl⟩
    · rw [if_neg fun hok => hid hok.1]
      rw [if_neg fun heq => hid heq.symm] at hfound
      exact .of_find? hfound

/-- The `end` of a record of the shift, or of another one. -/
theorem endsAt_end (req : RecordEndRequest) (howned : RecordsOwned w.db)
    (h : w.db.find? .workSchedule id = some schedule) :
    EndsAt (ShiftRequest.step env (.end req) w).db id schedule
      (ShiftRequest.closing env (.end req) w id) := by
  rw [ShiftRequest.closing]
  obtain ⟨⟨e, he⟩, hsame⟩ | ⟨a, r, ha, -, hone, hresult⟩ := serve_end env w req
  · rw [he, if_neg (fun hok => Bool.false_ne_true hok.2.2), ShiftRequest.step, hsame]
    exact .of_find? h
  · have hmem : r ∈ (w.db.rows .workRecord).filter
        (WorkRecord.opens req.workScheduleId req.type) := hone ▸ List.mem_singleton_self r
    obtain ⟨hr, hopen⟩ := List.mem_filter.mp hmem
    have hrid : r.workScheduleId = req.workScheduleId := (of_decide_eq_true hopen).1
    rw [ha]
    obtain ⟨htype, hsame⟩ | hend := hresult
    · rw [if_neg (fun hok => htype hok.2.1), ShiftRequest.step, hsame]
      exact .of_find? h
    · cases hend with
      | record htype hchanged =>
          rw [if_neg fun hok => htype hok.2.1]
          exact .of_find? ((hchanged.find?_of_ne (by decide) id).trans h)
      | orphan htype hnone hchanged =>
          obtain ⟨schedule', hfound, -⟩ := howned r hr
          cases hnone.symm.trans hfound
      | shift htype schedule' db₁ hfound hrecord hschedule =>
          have hid' : schedule'.id = req.workScheduleId :=
            (Table.find?_key hfound : keyOf .workSchedule schedule' = r.workScheduleId).trans hrid
          have hafter := hschedule.find? (fun _ => rfl) id
          rw [hrecord.find?_of_ne (by decide) id, h, Option.map_some] at hafter
          by_cases hid : req.workScheduleId = id
          · rw [if_pos ⟨hid, htype, rfl⟩]
            rw [if_pos (hid.symm.trans hid'.symm)] at hafter
            exact ⟨_, hafter, rfl⟩
          · rw [if_neg fun hok => hid hok.1]
            rw [if_neg fun heq => hid (hid'.symm.trans heq.symm)] at hafter
            exact .of_find? hafter

variable (env) in
/-- **One request**: the end of a shift is the instant at which the request closes it,
or what it was. -/
theorem endsAt_step (request : ShiftRequest) (howned : RecordsOwned w.db)
    (h : w.db.find? .workSchedule id = some schedule) :
    EndsAt (request.step env w).db id schedule (request.closing env w id) := by
  cases request with
  | create req =>
      obtain hsame | ⟨jw, new, -, hinsert⟩ := serve_createSchedule env w req
      · rw [ShiftRequest.step, hsame]
        exact .of_find? h
      · exact .of_find? ((Added.of_insert (P := fun _ => True) hinsert trivial).find? h)
  | batchMake req => exact .of_find? ((serve_batchMake env w req).find? h)
  | close scheduleId endAt => exact endsAt_close scheduleId endAt h
  | begin req =>
      obtain hsame | ⟨_, new, -, -, hinsert⟩ := serve_begin env w req
      · rw [ShiftRequest.step, hsame]
        exact .of_find? h
      · exact .of_find? ((Added.of_insert (P := fun _ => True) hinsert trivial).find? h)
  | «end» req => exact endsAt_end req howned h
  | beginProcess req =>
      obtain hsame | ⟨new, hinsert⟩ := serve_beginProcess env w req
      · rw [ShiftRequest.step, hsame]
        exact .of_find? h
      · exact .of_find? ((Added.of_insert (P := fun _ => True) hinsert trivial).find? h)
  | endProcess req =>
      obtain hsame | ⟨r, -, hchanged⟩ := serve_endProcess env w req
      · rw [ShiftRequest.step, hsame]
        exact .of_find? h
      · exact .of_find? ((hchanged.find?_of_ne (by decide) id).trans h)

/-- Where a record comes from: it was there, it has just been opened on a shift, or it
has been closed, and with it its shift if it is an `OFF` record. -/
inductive RecordFrom (env : Env) (request : ShiftRequest) (w : World V D) (r : WorkRecord) : Prop
  | kept (hr : r ∈ w.db.rows .workRecord)
  | opened (hopen : r.endAt = none) (schedule : WorkSchedule)
      (hfound : w.db.find? .workSchedule r.workScheduleId = some schedule)
  | closed (old : WorkRecord) (hold : old ∈ w.db.rows .workRecord)
      (hid : r.workScheduleId = old.workScheduleId)
      (hoff : r.type = .off → request.closing env w r.workScheduleId ≠ none)

/-- The records after an `end`. -/
theorem recordFrom_end (req : RecordEndRequest) {r : WorkRecord}
    (hr : r ∈ (ShiftRequest.step env (.end req) w).db.rows .workRecord) :
    RecordFrom env (.end req) w r := by
  obtain ⟨-, hsame⟩ | ⟨a, old, ha, -, hone, hresult⟩ := serve_end env w req
  · rw [ShiftRequest.step, hsame] at hr
    exact .kept hr
  have hmem : old ∈ (w.db.rows .workRecord).filter
      (WorkRecord.opens req.workScheduleId req.type) := hone ▸ List.mem_singleton_self old
  obtain ⟨hold, hopen⟩ := List.mem_filter.mp hmem
  have hrid : old.workScheduleId = req.workScheduleId := (of_decide_eq_true hopen).1
  have htype : old.type = req.type := (of_decide_eq_true hopen).2.1
  -- the records are changed alike, whatever becomes of the shift
  have hclosed : ∀ db₁ : Db, Changed .workRecord old.id
      (fun r => { r with endAt := some (instant env w 1 req.at') }) w.db db₁ →
      r ∈ db₁.rows .workRecord → RecordFrom env (.end req) w r := by
    intro db₁ hchanged hr
    obtain ⟨x, hx, ⟨hid, rfl⟩ | ⟨-, rfl⟩⟩ := hchanged.of_mem hr
    · obtain rfl : x = old := Table.eq_of_key hx hold hid
      refine .closed x hx rfl fun hoff => ?_
      rw [ShiftRequest.closing, ha, if_pos ⟨hrid.symm, htype.symm.trans hoff, rfl⟩]
      exact Option.some_ne_none _
    · exact .kept hx
  obtain ⟨-, hsame⟩ | hend := hresult
  · rw [ShiftRequest.step, hsame] at hr
    exact .kept hr
  · cases hend with
    | record _ hchanged => exact hclosed _ hchanged hr
    | orphan _ hnone hchanged => exact hclosed _ hchanged hr
    | shift _ schedule db₁ hfound hrecord hschedule =>
        refine hclosed db₁ hrecord ?_
        rw [← hschedule.rows_of_ne (by decide)]
        exact hr

/-- **Where a record comes from**, one case for each request. -/
theorem recordFrom_step (request : ShiftRequest) {r : WorkRecord}
    (hr : r ∈ (request.step env w).db.rows .workRecord) : RecordFrom env request w r := by
  cases request with
  | create req =>
      obtain hsame | ⟨jw, new, -, hinsert⟩ := serve_createSchedule env w req
      · rw [ShiftRequest.step, hsame] at hr
        exact .kept hr
      · have hadded := Added.of_insert (P := fun _ => True) hinsert trivial
        rw [ShiftRequest.step, hadded.rows_of_ne (by decide)] at hr
        exact .kept hr
  | batchMake req =>
      rw [ShiftRequest.step, (serve_batchMake env w req).rows_of_ne (by decide)] at hr
      exact .kept hr
  | close scheduleId endAt =>
      obtain ⟨-, hsame⟩ | ⟨-, -, -, -, -, hchanged⟩ := serve_close env w scheduleId endAt
      · rw [ShiftRequest.step, hsame] at hr
        exact .kept hr
      · rw [ShiftRequest.step, hchanged.rows_of_ne (by decide)] at hr
        exact .kept hr
  | begin req =>
      obtain hsame | ⟨schedule, new, hfound, -, hinsert⟩ := serve_begin env w req
      · rw [ShiftRequest.step, hsame] at hr
        exact .kept hr
      · have hadded := Added.of_insert
          (P := fun r => r = req.row (instant env w 2 req.at') new) hinsert rfl
        obtain hkept | rfl := hadded.of_mem hr
        · exact .kept hkept
        · exact .opened rfl schedule hfound
  | «end» req => exact recordFrom_end req hr
  | beginProcess req =>
      obtain hsame | ⟨new, hinsert⟩ := serve_beginProcess env w req
      · rw [ShiftRequest.step, hsame] at hr
        exact .kept hr
      · have hadded := Added.of_insert (P := fun _ => True) hinsert trivial
        rw [ShiftRequest.step, hadded.rows_of_ne (by decide)] at hr
        exact .kept hr
  | endProcess req =>
      obtain hsame | ⟨_, -, hchanged⟩ := serve_endProcess env w req
      · rw [ShiftRequest.step, hsame] at hr
        exact .kept hr
      · rw [ShiftRequest.step, hchanged.rows_of_ne (by decide)] at hr
        exact .kept hr

/-- A shift that ends stays one that ends. -/
theorem EndsAt.ne_none {db : Db} {last : Option DateTime} (h : EndsAt db id schedule last)
    (hend : last ≠ none ∨ schedule.endAt ≠ none) :
    ∃ schedule', db.find? .workSchedule id = some schedule' ∧ schedule'.endAt ≠ none := by
  obtain ⟨schedule', hfound, hlast⟩ := h
  refine ⟨schedule', hfound, ?_⟩
  rw [hlast]
  cases last with
  | none => exact hend.resolve_left fun hne => hne rfl
  | some t => exact Option.some_ne_none t

/-- **One request keeps records and shifts together.** -/
theorem recordsOwned_step (request : ShiftRequest) (w : World V D) (h : RecordsOwned w.db) :
    RecordsOwned (request.step env w).db := by
  intro r hr
  cases recordFrom_step request hr with
  | kept hr =>
      obtain ⟨schedule, hfound, hclosed⟩ := h r hr
      have hends := endsAt_step env request h hfound
      by_cases hoff : r.type = .off ∧ r.endAt ≠ none
      · obtain ⟨schedule', hfound', hend⟩ := hends.ne_none (.inr (hclosed hoff.1 hoff.2))
        exact ⟨schedule', hfound', fun _ _ => hend⟩
      · obtain ⟨schedule', hfound', -⟩ := hends
        exact ⟨schedule', hfound', fun htype hend => absurd ⟨htype, hend⟩ hoff⟩
  | opened hopen schedule hfound =>
      obtain ⟨schedule', hfound', -⟩ := endsAt_step env request h hfound
      exact ⟨schedule', hfound', fun _ hend => absurd hopen hend⟩
  | closed old hold hid hoff =>
      obtain ⟨schedule, hfound, -⟩ := h old hold
      rw [← hid] at hfound
      have hends := endsAt_step env request h hfound
      by_cases htype : r.type = .off
      · obtain ⟨schedule', hfound', hend⟩ := hends.ne_none (.inl (hoff htype))
        exact ⟨schedule', hfound', fun _ _ => hend⟩
      · obtain ⟨schedule', hfound', -⟩ := hends
        exact ⟨schedule', hfound', fun htype' => absurd htype' htype⟩

end Step

/-! ## Runs -/

section Runs

variable {w : World V D} {id : ℤ} {schedule : WorkSchedule}

variable (env) in
/-- The end of a shift after a run. -/
theorem endsAt_run (requests : List ShiftRequest) (howned : RecordsOwned w.db)
    (h : w.db.find? .workSchedule id = some schedule) :
    EndsAt (Runs.run (ShiftRequest.step env) requests w).db id schedule
      (lastClosing env id requests w) := by
  induction requests generalizing w schedule with
  | nil => exact .of_find? h
  | cons request rest ih =>
      obtain ⟨schedule', hfound, hend⟩ := endsAt_step env request howned h
      obtain ⟨schedule'', hfound', hend'⟩ := ih (recordsOwned_step request w howned) hfound
      refine ⟨schedule'', hfound', hend'.trans ?_⟩
      rw [hend, lastClosing]
      cases lastClosing env id rest (request.step env w) <;> rfl

/-- A request closes only shifts that exist. -/
theorem exists_of_closing {request : ShiftRequest} (howned : RecordsOwned w.db)
    (h : request.closing env w id ≠ none) :
    ∃ schedule, w.db.find? .workSchedule id = some schedule := by
  cases request with
  | close scheduleId endAt =>
      rw [ShiftRequest.closing, ite_ne_right_iff] at h
      obtain ⟨⟨rfl, hok⟩, -⟩ := h
      obtain ⟨⟨e, he⟩, -⟩ | ⟨-, schedule, -, -, hfound, -⟩ := serve_close env w scheduleId endAt
      · rw [he] at hok
        cases hok
      · exact ⟨schedule, hfound⟩
  | «end» req =>
      rw [ShiftRequest.closing, ite_ne_right_iff] at h
      obtain ⟨⟨rfl, -, hok⟩, -⟩ := h
      obtain ⟨⟨e, he⟩, -⟩ | ⟨-, r, -, -, hone, -⟩ := serve_end env w req
      · rw [he] at hok
        cases hok
      · have hmem : r ∈ (w.db.rows .workRecord).filter
            (WorkRecord.opens req.workScheduleId req.type) := hone ▸ List.mem_singleton_self r
        obtain ⟨hr, hopen⟩ := List.mem_filter.mp hmem
        obtain ⟨schedule, hfound, -⟩ := howned r hr
        rw [(of_decide_eq_true hopen).1] at hfound
        exact ⟨schedule, hfound⟩
  | _ => exact absurd rfl h

/-- The end of a shift that a run has closed. -/
theorem ends_of_lastClosing {requests : List ShiftRequest} {t : DateTime}
    (howned : RecordsOwned w.db) (h : lastClosing env id requests w = some t) :
    ∃ schedule, (Runs.run (ShiftRequest.step env) requests w).db.find? .workSchedule id =
      some schedule ∧ schedule.endAt = some t := by
  induction requests generalizing w with
  | nil => cases h
  | cons request rest ih =>
      rw [lastClosing] at h
      cases hrest : lastClosing env id rest (request.step env w) with
      | some t' =>
          rw [hrest] at h
          cases h
          exact ih (recordsOwned_step request w howned) hrest
      | none =>
          rw [hrest] at h
          obtain ⟨schedule, hfound⟩ := exists_of_closing howned (ne_of_eq_of_ne h (Option.some_ne_none t))
          have hends := endsAt_run env (request :: rest) howned hfound
          rw [lastClosing, hrest, h] at hends
          exact hends

/-- **Closing a shift**: in every state that requests lead to, a closed `OFF` record
belongs to a closed shift; whatever follows, a shift that is closed stays closed; and a
shift that was closed during the run ends at the instant of the last closing. -/
theorem shift_closing {w₀ : World V D} (hkeys : w₀.db.ForeignKeys) (hclosed : OffCloses w₀.db)
    {requests : List ShiftRequest} (hw : w = Runs.run (ShiftRequest.step env) requests w₀) :
    OffCloses w.db ∧
      (∀ more id schedule, w.db.find? .workSchedule id = some schedule → schedule.endAt ≠ none →
        ∃ schedule', (Runs.run (ShiftRequest.step env) more w).db.find? .workSchedule id =
          some schedule' ∧ schedule'.endAt ≠ none) ∧
      ∀ id t, lastClosing env id requests w₀ = some t →
        ∃ schedule, w.db.find? .workSchedule id = some schedule ∧ schedule.endAt = some t := by
  have hstart := recordsOwned_of_foreignKeys hkeys hclosed
  have howned : RecordsOwned w.db := by
    rw [hw]
    exact Runs.run_invariant (I := fun w : World V D => RecordsOwned w.db) recordsOwned_step hstart requests
  refine ⟨howned.offCloses, fun more id schedule hfound hend => ?_, fun id t h => ?_⟩
  · exact (endsAt_run env more howned hfound).ne_none (.inr hend)
  · rw [hw]
    exact ends_of_lastClosing hstart h

/-- The shift of the sample installation is begun, ended and closed again later. -/
def sampleShift : List ShiftRequest :=
  [.begin { workScheduleId := 1, type := .off, at' := some ⟨1, none⟩ },
    .end { workScheduleId := 1, type := .off, at' := some ⟨2, none⟩ },
    .close 1 (some ⟨3, none⟩)]

/-- The sample shift is closed by its `OFF` record at 3. -/
theorem shift_closing_sample :
    ∃ schedule, (Runs.run (ShiftRequest.step still) sampleShift
        (World.fresh Db.sample () : World Unit Unit)).db.find? .workSchedule 1 = some schedule ∧
      schedule.endAt = some ⟨3, none⟩ := by
  have hkeys : Db.sample.ForeignKeys := by
    intro t
    cases t <;> decide +kernel
  have hclosed : OffCloses Db.sample := by
    have hrows : Db.sample.rows .workRecord = [] := by decide +kernel
    intro r hr
    rw [hrows] at hr
    cases hr
  exact (shift_closing (w := Runs.run (ShiftRequest.step still) sampleShift
    (World.fresh Db.sample () : World Unit Unit)) hkeys hclosed rfl).2.2 1 ⟨3, none⟩
      (by decide +kernel)

end Runs

end Rooti

import Rooti.Core.Numbering
import Rooti.WorkRecords.Shifts

/-!
# Batches of shifts

A `batch_make` looks up the ids it is sent, one after the other, and makes a shift for each
that names an assignment of its standard.  An id that comes twice names the assignment twice,
and is given two shifts.  What is held back is sent by the next lookup, so a session never
holds more than one shift.

## Main definitions

* `BatchMakeRequest.Accepted` — the requests that are answered
* `BatchMakeRequest.Batched` — the shifts that are made
* `Making` — a session between two lookups
* `batchMake_made` — what a `batch_make` does

## What carries the proof

A batch is answered whole or not at all: every shift is written in one transaction, and
the response is built after the last one is sent. The invariant of the loop is `Making`,
with the shifts already sent, the one held back, and the database the session sees. A
lookup sends what is held back, so that at most one shift is pending at any time.
`BatchMakeRequest.Accepted` says what a batch needs: its standard, ids in the range of
their column and, as soon as one of them names an assignment, a database that may be
written and the charger that is named.

Nothing compares the ids of the list with each other, nor with the shifts that are
stored, so the shifts made are as many as the ids that name an assignment
(`twice_makes_two`).
-/

namespace Rooti

open Relational Program

variable {V D : Type}

namespace BatchMakeRequest

variable (req : BatchMakeRequest)

/-- The id names an assignment of the standard. -/
def names (db : Db) (id : ℤ) : Bool :=
  (db.find? .jobWorker id).any fun jw => jw.jobStandardId = req.jobStandardId

/-- The ids that name an assignment of the standard, as often as they are sent. -/
def eligible (db : Db) : List ℤ := req.jobWorkerIds.filter (req.names db)

/-- **The requests that are answered.** -/
structure Accepted (env : Env) (db : Db) : Prop where
  standard : db.find? .jobStandard req.jobStandardId ≠ none
  ids : ∀ id ∈ req.jobWorkerIds, bigint id
  writable : req.eligible db ≠ [] → env.settings.appReadOnly = false
  charger : req.eligible db ≠ [] → ∀ chargerId ∈ req.companyChargerId,
    db.find? .companyCharger chargerId ≠ none

/-- **One shift for every id that names an assignment**, in the order of the ids, and nothing
else. -/
structure Batched (db db' : Db) (new : List WorkSchedule) : Prop where
  ids : new.map WorkSchedule.jobWorkerId = req.eligible db
  startAt : ∀ s ∈ new, s.startAt = DateTime.dayStart req.date
  standard : ∀ s ∈ new, s.jobStandardId = req.jobStandardId
  assigned : ∀ s ∈ new, ∃ jw, db.find? .jobWorker s.jobWorkerId = some jw ∧
    jw.jobStandardId = s.jobStandardId
  rows : db'.rows .workSchedule = db.rows .workSchedule ++ new
  others : ∀ j, j ≠ .workSchedule → db'.table j = db.table j

end BatchMakeRequest

/-- **A session between two lookups**: the shifts `sent` are in `d`, and it may hold one more
back. -/
structure Making (req : BatchMakeRequest) (w : World V D) (d : Db) (sent : List WorkSchedule)
    (held : Option WorkSchedule) (s : Session) (w' : World V D) : Prop where
  holds : Holds w d (held.toList.map fun r => .insert .workSchedule r) s w'
  rows : d.rows .workSchedule = w.db.rows .workSchedule ++ sent
  others : ∀ j, j ≠ .workSchedule → d.table j = w.db.table j
  makes : ∀ r ∈ sent ++ held.toList, req.Makes w.db r
  seq : w'.seq .workSchedule = w.seq .workSchedule + sent.length + held.toList.length
  length : sent.length + held.toList.length ≤ req.jobWorkerIds.length
  /-- the numbers of the rows, and of the one that is held back -/
  below : ∀ r ∈ d.rows .workSchedule, r.id ≤ w.seq .workSchedule + sent.length
  next : ∀ r ∈ held, r.id = w.seq .workSchedule + sent.length + 1
  /-- a shift that was sent has found its charger -/
  charger : sent ≠ [] → ∀ chargerId ∈ req.companyChargerId,
    w.db.find? .companyCharger chargerId ≠ none

/-- **The sequence has numbers left** for all ids of the request. -/
structure Room (req : BatchMakeRequest) (w : World V D) : Prop where
  numbered : Numbered w
  positive : 0 ≤ w.seq .workSchedule
  last : w.seq .workSchedule + req.jobWorkerIds.length < 2 ^ 63

section Session

variable {env : Env} {req : BatchMakeRequest} {w w' : World V D} {d : Db}
  {sent : List WorkSchedule} {held : Option WorkSchedule} {s : Session} {r : WorkSchedule}

/-- A shift that is made is one of those asked for. -/
theorem BatchMakeRequest.Makes.mem_eligible (h : req.Makes w.db r) :
    r.jobWorkerId ∈ req.eligible w.db := by
  obtain ⟨id, hid, jw, new, hjw, hstandard, rfl⟩ := h
  refine List.mem_filter.mpr ⟨hid, ?_⟩
  show (w.db.find? .jobWorker id).any _ = true
  rw [hjw]
  exact decide_eq_true hstandard

namespace Making

/-- A batch begins with nothing sent and nothing held back. -/
theorem start (hroom : Room req w) : Making req w w.db [] none {} w where
  holds := holds_start
  rows := (List.append_nil _).symm
  others _ _ := rfl
  makes r hr := by cases hr
  seq := by simp
  length := Nat.zero_le _
  below r hr := by
    rw [List.length_nil, Nat.cast_zero, Int.add_zero]
    exact hroom.numbered .workSchedule r hr
  next r hr := by cases hr
  charger h := absurd rfl h

/-- A batch that fails on the way has committed nothing. -/
theorem uncommitted (h : Making req w d sent held s w') : Uncommitted w s w' := h.holds.uncommitted

/-- The tables a shift refers to are those of before. -/
theorem find?_of_ne (h : Making req w d sent held s w') {j : Entity} (hj : j ≠ .workSchedule)
    (k : ℤ) : d.find? j k = w.db.find? j k := by
  unfold Database.find?
  rw [h.others j hj]

/-- **A shift that is held back can be sent**, if the request is one to be answered. -/
theorem insert_of_accepted (h : Making req w d sent (some r) s w') (hroom : Room req w)
    (hacc : req.Accepted env w.db) :
    ∃ d', (Dml.insert .workSchedule r : Statement).apply d = .ok d' := by
  have hmakes := h.makes r (List.mem_append_right _ (List.mem_singleton_self r))
  have hne : req.eligible w.db ≠ [] := List.ne_nil_of_mem hmakes.mem_eligible
  have hid := h.next r rfl
  have hlength : sent.length + 1 ≤ req.jobWorkerIds.length := h.length
  obtain ⟨id, hin, jw, new, hjw, -, rfl⟩ := hmakes
  obtain ⟨standard, hstandard⟩ := Option.ne_none_iff_exists'.mp hacc.standard
  have hcharger : ∀ chargerId, req.companyChargerId = some chargerId →
      ∃ c, w.db.find? .companyCharger chargerId = some c :=
    fun chargerId hc => Option.ne_none_iff_exists'.mp (hacc.charger hne chargerId hc)
  refine Dml.insert_of_apart d (fun x hx => ⟨fun hkey => ?_, rfl, rfl⟩) ?_ ?_
  · have hle := h.below x hx
    have hsame : x.id = (req.row id new).id := hkey
    omega
  · have hnew : bigint (req.row id new).id := by
      have hpositive := hroom.positive
      have hlast := hroom.last
      rw [hid]
      refine decide_eq_true ⟨?_, ?_⟩ <;> omega
    have hchargerFits : req.companyChargerId.all bigint = true := by
      cases hc : req.companyChargerId with
      | none => rfl
      | some chargerId =>
          obtain ⟨c, hfound⟩ := hcharger chargerId hc
          exact bigint_of_find? hfound
    have hstandardFits := bigint_of_find? hstandard
    have hidFits := hacc.ids id hin
    show (bigint (req.row id new).id && bigint id && req.companyChargerId.all bigint &&
      bigint req.jobStandardId && true && true && true) = true
    rw [hnew, hidFits, hchargerFits, hstandardFits]
    rfl
  · refine Database.refsMet_iff.mpr fun ref href => ?_
    simp only [schema, refs, List.cons_append, List.nil_append, List.mem_cons, List.mem_map,
      Option.mem_toList] at href
    obtain rfl | rfl | ⟨chargerId, hc, rfl⟩ := href
    · exact ⟨jw, (h.find?_of_ne (j := .jobWorker) (by decide) id).trans hjw⟩
    · exact ⟨standard, (h.find?_of_ne (j := .jobStandard) (by decide) _).trans hstandard⟩
    · obtain ⟨c, hfound⟩ := hcharger chargerId hc
      exact ⟨c, (h.find?_of_ne (j := .companyCharger) (by decide) chargerId).trans hfound⟩

/-- What becomes of a shift that is sent. -/
theorem sent_of_insert (h : Making req w d sent (some r) s w') {d' : Db} {s' : Session}
    {w'' : World V D} (hd' : (Dml.insert .workSchedule r : Statement).apply d = .ok d')
    (hholds : Holds w d' [] s' w'') (hseq : w''.seq = w'.seq) :
    Making req w d' (sent ++ [r]) none s' w'' := by
  obtain ⟨hrows, hrefs, hothers⟩ := Dml.insert_ok hd'
  have hmakes := h.makes r (List.mem_append_right _ (List.mem_singleton_self r))
  have hid := h.next r rfl
  refine ⟨hholds, ?_, fun j hj => (hothers j hj).trans (h.others j hj), ?_, ?_, ?_, ?_, ?_, ?_⟩
  · rw [hrows, h.rows, List.append_assoc]
  · intro x hx
    exact h.makes x (by simpa using hx)
  · rw [hseq, h.seq, List.length_append]
    push_cast
    simp [Int.add_assoc]
  · rw [List.length_append]
    exact h.length
  · intro x hx
    rw [hrows, List.mem_append, List.mem_singleton] at hx
    rw [List.length_append, List.length_singleton]
    obtain hx | rfl := hx
    · have := h.below x hx
      omega
    · omega
  · intro x hx
    cases hx
  · rintro - chargerId hc hnone
    obtain ⟨id, -, jw, new, -, -, rfl⟩ := hmakes
    obtain ⟨c, hfound⟩ := Database.refsMet_iff.mp hrefs ⟨.companyCharger, chargerId, .setNull⟩ (by
      rw [Option.mem_def] at hc
      simp [schema, refs, BatchMakeRequest.row, hc])
    rw [h.find?_of_ne (j := .companyCharger) (by decide) chargerId, hnone] at hfound
    cases hfound

variable (env) in
/-- **The flush of a batch**: it sends the shift that is held back, or the request is not one
to be answered. -/
theorem flush (h : Making req w d sent held s w') (hroom : Room req w) :
    match s.flush env.settings.appReadOnly w'.db with
    | (.ok _, s') => ∃ d', Making req w d' (sent ++ held.toList) none s' w'.tick
    | (.error _, _) => ¬req.Accepted env w.db := by
  cases held with
  | none =>
      have hflush : s.flush env.settings.appReadOnly w'.db = (.ok (), s) := by
        simp [Session.flush, h.holds.failed, h.holds.pending]
      rw [hflush]
      refine ⟨d, ⟨h.holds.tick, ?_, h.others, ?_, ?_, ?_, ?_, (fun x hx => by cases hx), ?_⟩⟩
      all_goals rw [Option.toList_none, List.append_nil]
      · exact h.rows
      · exact h.makes
      · exact h.seq
      · exact h.length
      · exact h.below
      · exact h.charger
  | some r =>
      have hflush := h.holds.flush env
      rcases hs : s.flush env.settings.appReadOnly w'.db with ⟨e | _, s'⟩ <;> rw [hs] at hflush
      · intro hacc
        have hmakes := h.makes r (List.mem_append_right _ (List.mem_singleton_self r))
        have hro := hacc.writable (List.ne_nil_of_mem hmakes.mem_eligible)
        obtain ⟨d', hd'⟩ := h.insert_of_accepted hroom hacc
        obtain ⟨s'', hs', -⟩ := h.holds.flush_ok (fun _ => hro)
          ((Dml.applyAll_singleton _ _).trans hd')
        cases hs.symm.trans hs'
      · obtain ⟨d', hd', hholds⟩ := hflush
        exact ⟨d', h.sent_of_insert ((Dml.applyAll_singleton _ _).symm.trans hd') hholds rfl⟩

end Making

/-- **A lookup** sends what is held back and finds what was there before. -/
theorem making_dbGet (hroom : Room req w) {t : Entity} (ht : t ≠ .workSchedule) {id : ℤ}
    (hid : req.Accepted env w.db → bigint id) :
    (server env).Ensures (Making req w d sent held) (dbGet t id)
      (fun found s w' => ∃ d', (found = w.db.find? t id ∧ bigint id) ∧
        Making req w d' (sent ++ held.toList) none s w') (Failing w (¬req.Accepted env w.db)) := by
  refine .lift fun s w' h => ?_
  have hflush := h.flush env hroom
  rw [server_exec, exec, execSelect]
  rcases hs : s.flush env.settings.appReadOnly w'.db with ⟨e | _, s'⟩ <;> rw [hs] at hflush
  · exact ⟨h.uncommitted, hflush⟩
  · obtain ⟨d', hmaking⟩ := hflush
    by_cases hbinds : [Bind.int id].all Bind.fits
    · simp only [hbinds, if_true]
      refine ⟨d', ⟨?_, by simpa [Bind.fits] using hbinds⟩, hmaking⟩
      rw [← hmaking.find?_of_ne ht, ← hmaking.holds.view]
      rfl
    · simp only [hbinds]
      exact ⟨h.uncommitted, fun hacc => hbinds (by simpa [Bind.fits] using hid hacc)⟩

/-- **The last flush** of a batch. -/
theorem making_flush (hroom : Room req w) :
    (server env).Ensures (Making req w d sent held) Rooti.flush
      (fun _ s w' => ∃ d', Making req w d' (sent ++ held.toList) none s w')
      (Failing w (¬req.Accepted env w.db)) := by
  refine .lift fun s w' h => ?_
  have hflush := h.flush env hroom
  rw [server_exec, exec]
  rcases hs : s.flush env.settings.appReadOnly w'.db with ⟨e | _, s'⟩ <;> rw [hs] at hflush
  · exact ⟨h.uncommitted, hflush⟩
  · exact hflush

/-- **A new shift** is held back, with the next number. -/
theorem making_add {id : ℤ} (hmakes : ∀ new, req.Makes w.db (req.row id new))
    (hlength : sent.length + 1 ≤ req.jobWorkerIds.length) :
    (server env).Ensures (Making req w d sent none) (add .workSchedule (req.row id))
      (fun new s w' => Making req w d sent (some (req.row id new)) s w')
      (Failing w (¬req.Accepted env w.db)) := by
  refine .lift fun s w' h => ?_
  rw [server_exec, exec]
  have hseq : w'.seq .workSchedule = w.seq .workSchedule + sent.length :=
    h.seq.trans (Int.add_zero _)
  have hholds := h.holds
  refine ⟨⟨hholds.failed, ?_, hholds.written, hholds.db, Nat.le_succ_of_le hholds.ticks⟩, h.rows,
    h.others, ?_, ?_, hlength, h.below, ?_, h.charger⟩
  · show s.pending ++ [_] = [_]
    rw [hholds.pending]
    rfl
  · intro x hx
    obtain hx | hx := List.mem_append.mp hx
    · exact h.makes x (List.mem_append_left _ hx)
    · obtain rfl := List.mem_singleton.mp hx
      exact hmakes _
  · show Function.update w'.seq .workSchedule (w'.seq .workSchedule + 1) .workSchedule = _
    rw [Function.update_self, hseq]
    rfl
  · rintro x ⟨⟩
    show w'.seq .workSchedule + 1 = _
    rw [hseq]

namespace WorkScheduleService

/-- **The loop of a batch** makes a shift for every id that names an assignment. -/
theorem making_makeAll (hroom : Room req w) (ids : List ℤ) (hids : ∀ id ∈ ids, id ∈ req.jobWorkerIds)
    (hlength : sent.length + held.toList.length + ids.length ≤ req.jobWorkerIds.length) :
    (server env).Ensures (Making req w d sent held) (makeAll req ids)
      (fun schedules s w' => (schedules.map WorkSchedule.jobWorkerId = ids.filter (req.names w.db) ∧
          ∀ id ∈ ids, bigint id) ∧
        ∃ d' sent' held', sent' ++ held'.toList = sent ++ held.toList ++ schedules ∧
          Making req w d' sent' held' s w') (Failing w (¬req.Accepted env w.db)) := by
  induction ids generalizing d sent held with
  | nil =>
      exact .ret fun _ _ h => ⟨⟨rfl, fun id hid => by cases hid⟩, d, sent, held,
        (List.append_nil _).symm, h⟩
  | cons id rest ih =>
      rw [List.forall_mem_cons] at hids
      rw [List.length_cons] at hlength
      have hfits : req.Accepted env w.db → bigint id := fun hacc => hacc.ids id hids.1
      refine (making_dbGet hroom (by decide) hfits).bind fun found => .of_exists fun d' => .of_and ?_
      rintro ⟨rfl, hid⟩
      have hsent : (sent ++ held.toList).length = sent.length + held.toList.length :=
        List.length_append
      refine .ite (fun hnames => ?_) fun hnames => ?_
      · obtain ⟨jw, hjw, hstandard⟩ := (Option.any_eq_true ..).mp hnames
        have hmakes : ∀ new, req.Makes w.db (req.row id new) := fun new =>
          ⟨id, hids.1, jw, new, hjw, of_decide_eq_true hstandard, rfl⟩
        refine (making_add hmakes (by omega)).bind fun new => ?_
        refine (ih hids.2 (by rw [hsent, Option.toList_some, List.length_singleton]; omega)).bind
          fun schedules => .of_and fun ⟨hschedules, hrest⟩ => .ret ?_
        rintro s w' ⟨d'', sent', held', hmade, h⟩
        refine ⟨⟨?_, List.forall_mem_cons.mpr ⟨hid, hrest⟩⟩, d'', sent', held', ?_, h⟩
        · rw [List.filter_cons_of_pos (p := req.names w.db) hnames, List.map_cons, hschedules]
          rfl
        · rw [hmade, Option.toList_some, List.append_assoc, List.singleton_append]
      · have hleft : (sent ++ held.toList).length + (none : Option WorkSchedule).toList.length +
            rest.length ≤ req.jobWorkerIds.length := by
          rw [hsent, Option.toList_none, List.length_nil]
          omega
        refine (ih hids.2 hleft).weaken (fun _ _ h => h) ?_ fun _ _ h => h
        rintro schedules s w' ⟨⟨hschedules, hrest⟩, d'', sent', held', hmade, h⟩
        refine ⟨⟨?_, List.forall_mem_cons.mpr ⟨hid, hrest⟩⟩, d'', sent', held', ?_, h⟩
        · rw [List.filter_cons_of_neg (p := req.names w.db) hnames]
          exact hschedules
        · rw [hmade, Option.toList_none, List.append_nil]

/-- The responses of shifts that are sent. -/
theorem making_toResponses {standard : JobStandard}
    (hstandard : w.db.find? .jobStandard req.jobStandardId = some standard) (hroom : Room req w)
    (schedules : List WorkSchedule)
    (hschedules : ∀ s ∈ schedules, s.jobStandardId = req.jobStandardId) :
    (server env).Ensures (Making req w d sent none) (toResponses schedules)
      (fun resps s w' => resps = schedules.map (fun s => toScheduleResponse s (some standard)) ∧
        ∃ d', Making req w d' sent none s w') (Failing w (¬req.Accepted env w.db)) := by
  induction schedules generalizing d with
  | nil => exact .ret fun _ _ h => ⟨rfl, d, h⟩
  | cons schedule rest ih =>
      rw [List.forall_mem_cons] at hschedules
      have hfits : req.Accepted env w.db → bigint schedule.jobStandardId := fun _ => by
        rw [hschedules.1]
        exact bigint_of_find? hstandard
      refine Machine.Ensures.bind (Q := fun resp s w' =>
        resp = toScheduleResponse schedule (some standard) ∧ ∃ d', Making req w d' sent none s w')
        ?_ fun resp => .of_and ?_
      · refine (making_dbGet hroom (by decide) hfits).bind fun found => .of_exists fun d' => .of_and ?_
        rintro ⟨rfl, -⟩
        refine .ret fun _ _ h => ⟨?_, d', ?_⟩
        · rw [hschedules.1, hstandard]
        · rwa [Option.toList_none, List.append_nil] at h
      · rintro rfl
        refine .of_exists fun d' => (ih hschedules.2).bind fun resps => .of_and ?_
        rintro rfl
        exact .ret fun _ _ h => ⟨rfl, h⟩

end WorkScheduleService

end Session

section Requests

variable {env : Env} {req : BatchMakeRequest} {w : World V D}

/-- A batch whose session has sent its shifts. -/
theorem Making.batched {d : Db} {sent : List WorkSchedule} {s : Session} {w' : World V D}
    (h : Making req w d sent none s w')
    (hids : sent.map WorkSchedule.jobWorkerId = req.eligible w.db) : req.Batched w.db d sent := by
  have hmakes : ∀ r ∈ sent, req.Makes w.db r := fun r hr => h.makes r (List.mem_append_left _ hr)
  refine ⟨hids, fun r hr => ?_, fun r hr => ?_, fun r hr => ?_, h.rows, h.others⟩
  · obtain ⟨id, -, jw, new, -, -, rfl⟩ := hmakes r hr
    rfl
  · obtain ⟨id, -, jw, new, -, -, rfl⟩ := hmakes r hr
    rfl
  · obtain ⟨id, -, jw, new, hjw, hstandard, rfl⟩ := hmakes r hr
    exact ⟨jw, hjw, hstandard⟩

/-- **What a `batch_make` does**: it makes one shift for every id that names an assignment of
its standard, in the order of the ids, or it is refused and makes none. -/
theorem batchMake_made (hroom : Room req w) :
    (req.Accepted env w.db → ∃ standard new,
      w.db.find? .jobStandard req.jobStandardId = some standard ∧
      (serve env (WorkScheduleService.batchMake req) w).1 =
        .ok (new.map fun s => toScheduleResponse s (some standard)) ∧
      req.Batched w.db (serve env (WorkScheduleService.batchMake req) w).2.db new) ∧
    (¬req.Accepted env w.db →
      (∃ e, (serve env (WorkScheduleService.batchMake req) w).1 = .error e) ∧
        (serve env (WorkScheduleService.batchMake req) w).2.db = w.db) := by
  -- what is known when the script returns, before its commit
  let φ (resps : List ScheduleResponse) (d : Db) : Prop := ∃ standard new,
    w.db.find? .jobStandard req.jobStandardId = some standard ∧
    resps = new.map (fun s => toScheduleResponse s (some standard)) ∧
    req.Batched w.db d new ∧ (∀ id ∈ req.jobWorkerIds, bigint id) ∧
    (new ≠ [] → ∀ chargerId ∈ req.companyChargerId, w.db.find? .companyCharger chargerId ≠ none)
  have hscript : (server env).Ensures (Making req w w.db [] none)
      (WorkScheduleService.batchMake req)
      (fun resps s w' => ∃ d, φ resps d ∧ Holds w d [] s w') (Failing w (¬req.Accepted env w.db)) := by
    have hfits : req.Accepted env w.db → bigint req.jobStandardId := fun hacc => by
      obtain ⟨standard, hstandard⟩ := Option.ne_none_iff_exists'.mp hacc.standard
      exact bigint_of_find? hstandard
    refine (making_dbGet hroom (by decide) hfits).bind fun found => .of_exists fun d => .of_and ?_
    rintro ⟨rfl, -⟩
    cases hstandard : w.db.find? .jobStandard req.jobStandardId with
    | none => exact .raise fun _ _ h => ⟨h.uncommitted, fun hacc => hacc.standard hstandard⟩
    | some standard =>
        refine Machine.Ensures.bind (Q := fun _ => Making req w d [] none) (.ret fun _ _ h => h)
          fun _ => ?_
        refine (WorkScheduleService.making_makeAll hroom req.jobWorkerIds (fun _ h => h)
          (by simp)).bind fun schedules => .of_and ?_
        rintro ⟨hschedules, hids⟩
        refine .of_exists fun d' => .of_exists fun sent => .of_exists fun held => .of_and fun hmade => ?_
        refine (making_flush hroom).bind fun _ => .of_exists fun d'' => ?_
        rw [show sent ++ held.toList = schedules from hmade]
        intro s' w' hmaking
        have hbatched := hmaking.batched hschedules
        have hresponses : (server env).Ensures (Making req w d'' schedules none)
            (WorkScheduleService.toResponses schedules)
            (fun resps s w' => ∃ d, φ resps d ∧ Holds w d [] s w')
            (Failing w (¬req.Accepted env w.db)) := by
          refine (WorkScheduleService.making_toResponses hstandard hroom schedules
            hbatched.standard).weaken (fun _ _ h => h) ?_ fun _ _ h => h
          rintro resps s w' ⟨hresps, d₁, h⟩
          exact ⟨d₁, ⟨standard, schedules, hstandard, hresps, h.batched hschedules, hids,
            h.charger⟩, h.holds⟩
        exact hresponses s' w' hmaking
  obtain ⟨hnot, hrefused⟩ | ⟨resps, hok, standard, new, hstandard, rfl, hbatched, hids, hcharger⟩ :=
    serve_settled (Making.start hroom) hscript
  · exact ⟨fun hacc => absurd hacc hnot, fun _ => hrefused⟩
  · refine ⟨fun _ => ⟨standard, new, hstandard, hok, hbatched⟩, fun hnot => ?_⟩
    have hnew : req.eligible w.db ≠ [] → new ≠ [] := by
      rintro hne rfl
      exact hne hbatched.ids.symm
    -- a request that is answered was acceptable
    refine absurd ⟨?_, hids, fun hne => ?_, fun hne => hcharger (hnew hne)⟩ hnot
    · rw [hstandard]
      exact Option.some_ne_none standard
    · refine Bool.eq_false_of_not_eq_true fun hro => hnew hne ?_
      have hrows := hbatched.rows
      rw [db_of_readOnly hro] at hrows
      exact List.self_eq_append_right.mp hrows

end Requests

/-- The worker of the sample workshop is asked for twice. -/
def twice : BatchMakeRequest := { jobStandardId := 1, date := ⟨0⟩, jobWorkerIds := [1, 1] }

/-- The sample workshop before its first request. -/
def workshop : World Unit Unit := World.fresh Db.sample ()

/-- The batch with the id that comes twice is answered, and makes both shifts. -/
theorem batchMake_made_twice :
    (twice.Accepted still workshop.db → ∃ standard new,
      workshop.db.find? .jobStandard 1 = some standard ∧
      (serve still (WorkScheduleService.batchMake twice) workshop).1 =
        .ok (new.map fun s => toScheduleResponse s (some standard)) ∧
      twice.Batched workshop.db (serve still (WorkScheduleService.batchMake twice) workshop).2.db
        new) ∧
    (¬twice.Accepted still workshop.db →
      (∃ e, (serve still (WorkScheduleService.batchMake twice) workshop).1 = .error e) ∧
        (serve still (WorkScheduleService.batchMake twice) workshop).2.db = workshop.db) := by
  refine batchMake_made ⟨fun t => ?_, by decide +kernel, by decide +kernel⟩
  cases t <;> decide +kernel

/-- **An id that comes twice** is given two shifts. -/
theorem twice_makes_two :
    (serve still (WorkScheduleService.batchMake twice) workshop).1 =
        .ok [⟨2, 1, 1, some "Packing", none, ⟨0, none⟩, none, false, none⟩,
          ⟨3, 1, 1, some "Packing", none, ⟨0, none⟩, none, false, none⟩] ∧
      (workshop.db.rows .workSchedule).map WorkSchedule.id = [1] ∧
      ((serve still (WorkScheduleService.batchMake twice) workshop).2.db.rows .workSchedule).map
        (fun s => (s.id, s.jobWorkerId)) = [(1, 1), (2, 1), (3, 1)] := by
  refine ⟨by decide +kernel, by decide +kernel, by decide +kernel⟩

end Rooti

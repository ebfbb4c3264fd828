import Rooti.Core.Holding
import Rooti.Core.RowInvariants
import Rooti.Lib.Runs
import Rooti.Services.Leave

/-!
# The life of a leave

The days of a leave are counted when it is recorded, and nothing touches its dates
afterwards.  A decision sets any status the client asks for, pending among them.  Where
nobody asks for that, a leave that has been decided stays so as long as it exists.

## Main definitions

* `Leave.Dated` — the dates of a leave and the number of its days
* `LeaveHistory`, `LeaveRequest.record` — a run and the leaves decided in it
* `LeaveRequest.Concludes` — the request leaves no leave pending that it decides
* `leaves_lifeCycle` — every run of such requests
* `leave_reopened` — an approved leave is pending again

## What carries the proof

That dates are in order and counted is a property of each row: a request that adds a
leave checks it, and no request assigns to the columns it speaks of. That a decided
leave stays so is not a property of the rows, as a row does not say whether it was
decided. So the run keeps a list of the leaves that were decided and are still there,
which the code does not have (`LeaveHistory`), and the invariant compares the two
(`LeaveHistory.Settled`). A leave that is recorded gets a new id and is none of them.
-/

namespace Rooti

open Relational Program

variable {V D : Type} {env : Env} {w : World V D}

/-- **The dates of a leave**: it does not end before it begins, and `days` counts both. -/
structure Leave.Dated (l : Leave) : Prop where
  ordered : l.startDate.days ≤ l.endDate.days
  counted : l.days = l.endDate.days - l.startDate.days + 1

/-- A leave has a day. -/
theorem Leave.Dated.one_le_days {l : Leave} (h : l.Dated) : 1 ≤ l.days := by
  have hordered := h.ordered
  have hcounted := h.counted
  omega

/-- The requests that write leaves. -/
inductive LeaveRequest
  | create (req : LeaveCreateRequest) (actorUserId : ℤ)
  | decide (leaveId : ℤ) (status : LeaveStatus) (comment : Option String)
      (companyScope : CompanyScopeValue)
  | delete (leaveId : ℤ) (companyScope : CompanyScopeValue)

namespace LeaveRequest

/-- The state after a request. -/
def step (env : Env) (request : LeaveRequest) (w : World V D) : World V D :=
  match request with
  | .create req actorUserId => (serve env (LeaveService.create req actorUserId) w).2
  | .decide leaveId status comment companyScope =>
      (serve env (LeaveService.decide leaveId status comment companyScope) w).2
  | .delete leaveId companyScope => (serve env (LeaveService.delete leaveId companyScope) w).2

/-- The leave a request decides: one whose decision is answered without error. -/
def decides (env : Env) (request : LeaveRequest) (w : World V D) : List ℤ :=
  match request with
  | .decide leaveId status comment companyScope =>
      match (serve env (LeaveService.decide leaveId status comment companyScope) w).1 with
      | .ok _ => [leaveId]
      | .error _ => []
  | _ => []

/-- **A leave in reach of the request is not made pending.** -/
def Concludes (request : LeaveRequest) (w : World V D) : Prop :=
  match request with
  | .decide leaveId status _ companyScope =>
      (∃ leave, w.db.find? .leave leaveId = some leave ∧
        companyScope.all (leave.companyId = ·)) → status ≠ .pending
  | _ => True

end LeaveRequest

/-- **A state and the leaves that have been decided** and still exist. -/
structure LeaveHistory (V D : Type) where
  world : World V D
  decided : List ℤ := []

/-- A request is served, and its decision recorded. -/
def LeaveRequest.record (env : Env) (request : LeaveRequest) (h : LeaveHistory V D) :
    LeaveHistory V D :=
  let w' := request.step env h.world
  { world := w'
    decided := (request.decides env h.world ++ h.decided).filter fun id =>
      (w'.db.find? .leave id).isSome }

/-! ## Requests -/

section Requests

/-- The response is read after everything held back has been sent. -/
theorem holds_getResponse {d : Db} {ps : List Statement} {leaveId : ℤ} :
    (server env).Ensures (Holds w d ps) (LeaveService.getResponse leaveId)
      (fun resp s w' => ∃ d', (Dml.applyAll (Session.flushOrder ps) d = .ok d' ∧
        ∃ row ∈ leaveRows d' fun row => row.leave.id = leaveId, resp = row.toResponse) ∧
        Holds w d' [] s w') (Uncommitted w) := by
  refine holds_select.bind fun rows => .of_exists fun d' => .of_and ?_
  rintro ⟨hd', -, o, rfl⟩
  refine Machine.Ensures.bind (Q := fun row s w' => (row ∈ leaveRows d' fun row =>
    row.leave.id = leaveId) ∧ Holds w d' [] s w') ?_ fun row => .of_and fun hrow =>
      .ret fun _ _ h => ⟨d', ⟨hd', row, hrow, rfl⟩, h⟩
  have hmem : ∀ row ∈ o.scan (leaveRows d' fun row => row.leave.id = leaveId),
      row ∈ leaveRows d' fun row => row.leave.id = leaveId := fun _ h => o.mem_scan.mp h
  generalize o.scan (leaveRows d' fun row => row.leave.id = leaveId) = rows at hmem ⊢
  rcases rows with _ | ⟨row, _ | ⟨_, _⟩⟩
  · exact .raise fun _ _ h => h.uncommitted
  · exact .ret fun _ _ h => ⟨hmem row List.mem_cons_self, h⟩
  · exact .raise fun _ _ h => h.uncommitted

/-- **What a new leave asks for**, and what is answered. -/
theorem holds_createLeave {req : LeaveCreateRequest} {actorUserId : ℤ} :
    (server env).Ensures (Holds w w.db []) (LeaveService.create req actorUserId)
      (fun resp s w' => ∃ d, ((req.startDate.days ≤ req.endDate.days ∧
        w.db.find? .challengedWorker req.workerId ≠ none ∧
        w.db.find? .company req.companyId ≠ none) ∧
        ∃ new, (Dml.insert .leave (req.row actorUserId new) : Statement).apply w.db = .ok d ∧
          ∃ row ∈ leaveRows d fun row => row.leave.id = new.id, resp = row.toResponse) ∧
        Holds w d [] s w') (Uncommitted w) := by
  refine holds_raiseIf.bind fun _ => .of_and fun hdates => ?_
  refine holds_dbGet.bind fun found => .of_and ?_
  rintro rfl
  refine holds_orRaise.bind fun worker => .of_and fun hworker => ?_
  refine holds_dbGet.bind fun found => .of_and ?_
  rintro rfl
  refine holds_orRaise.bind fun company => .of_and fun hcompany => ?_
  refine holds_insert fun new d hd => holds_getResponse.weaken (fun _ _ h => h) ?_ fun _ _ h => h
  rintro resp s w' ⟨d', ⟨hd', hrow⟩, h⟩
  cases hd'
  refine ⟨d, ⟨⟨Int.not_lt.mp (of_decide_eq_false hdates), ?_, ?_⟩, new, hd, hrow⟩, h⟩
  · exact hworker ▸ Option.some_ne_none worker
  · exact hcompany ▸ Option.some_ne_none company

/-- **What a new leave asks for**: it is refused, or worker and company exist. -/
theorem serve_createLeave (env : Env) (w : World V D) (req : LeaveCreateRequest)
    (actorUserId : ℤ) :
    (serve env (LeaveService.create req actorUserId) w).2.db = w.db ∨
      req.startDate.days ≤ req.endDate.days ∧
      w.db.find? .challengedWorker req.workerId ≠ none ∧ w.db.find? .company req.companyId ≠ none ∧
        ∃ new, (Dml.insert .leave (req.row actorUserId new) : Statement).apply w.db =
          .ok (serve env (LeaveService.create req actorUserId) w).2.db := by
  obtain ⟨-, hsame⟩ | ⟨resp, -, ⟨hdates, hworker, hcompany⟩, new, hd, -⟩ :=
    serve_sent holds_createLeave
  · exact .inl hsame
  · exact .inr ⟨hdates, hworker, hcompany, new, hd⟩

/-- **A decision** assigns to the leave in its reach, and answers it. -/
theorem holds_decideLeave {leaveId : ℤ} {status : LeaveStatus} {comment : Option String}
    {companyScope : CompanyScopeValue} :
    (server env).Ensures (Holds w w.db [])
      (LeaveService.decide leaveId status comment companyScope)
      (fun resp s w' => ∃ d, ((∃ leave, w.db.find? .leave leaveId = some leave ∧
        companyScope.all (leave.companyId = ·) ∧
        Changed .leave leaveId (leave.decided status comment) w.db d) ∧
        ∃ row ∈ leaveRows d fun row => row.leave.id = leaveId, resp = row.toResponse) ∧
        Holds w d [] s w') (Uncommitted w) := by
  refine holds_dbGet.bind fun found => .of_and ?_
  rintro rfl
  refine holds_orRaise.bind fun leave => .of_and fun hfound => ?_
  refine holds_assertCompany.bind fun _ => .of_and fun hreach => ?_
  refine holds_modify.bind fun _ => .of_exists fun now => ?_
  refine holds_getResponse.weaken (fun _ _ h => h) ?_ fun _ _ h => h
  rintro resp s w' ⟨d, ⟨hd, hrow⟩, h⟩
  refine ⟨d, ⟨⟨leave, hfound, hreach, ?_⟩, hrow⟩, h⟩
  rw [← show keyOf .leave leave = leaveId from Table.find?_key hfound]
  exact changed_of_applyAll (Table.find?_mem hfound) (fun _ => rfl) hd

/-- **A decision**: it is refused, or it assigns to the leave in its reach. -/
theorem serve_decide (env : Env) (w : World V D) (leaveId : ℤ) (status : LeaveStatus)
    (comment : Option String) (companyScope : CompanyScopeValue) :
    ((∃ e, (serve env (LeaveService.decide leaveId status comment companyScope) w).1 = .error e) ∧
        (serve env (LeaveService.decide leaveId status comment companyScope) w).2.db = w.db) ∨
      ∃ leave, w.db.find? .leave leaveId = some leave ∧
        companyScope.all (leave.companyId = ·) ∧
        Changed .leave leaveId (leave.decided status comment) w.db
          (serve env (LeaveService.decide leaveId status comment companyScope) w).2.db := by
  obtain hrefused | ⟨resp, -, ⟨leave, hfound, hreach, hchanged⟩, -⟩ :=
    serve_sent holds_decideLeave
  · exact .inl hrefused
  · exact .inr ⟨leave, hfound, hreach, hchanged⟩

/-- A deletion keeps any property of the rows it leaves. -/
theorem keepsRows_deleteLeave {P : ∀ t, Row t → Prop} {leaveId : ℤ}
    {companyScope : CompanyScopeValue} :
    KeepsRows P (LeaveService.delete leaveId companyScope : Async V D Unit) := by
  refine .bind .dbGet fun found => ?_
  cases found with
  | none => exact .ret
  | some leave => exact .bind .raiseIf fun _ => .delete

end Requests

/-! ## Runs -/

/-- What every state of a run satisfies. -/
structure LeaveHistory.Settled (h : LeaveHistory V D) : Prop where
  dated : ∀ l ∈ h.world.db.rows .leave, l.Dated
  decided : ∀ id ∈ h.decided, ∃ l, h.world.db.find? .leave id = some l ∧ l.status ≠ .pending

/-- The leaves among the rows have a property. -/
def LeaveRow.Keeping (P : Leave → Prop) : (t : Entity) → Row t → Prop
  | .leave, l => P l
  | _, _ => True

/-- A property of leaves, among the properties of rows. -/
theorem rowsSatisfy_leaves {P : Leave → Prop} {db : Db} :
    RowsSatisfy (LeaveRow.Keeping P) db ↔ ∀ l ∈ db.rows .leave, P l := by
  refine ⟨fun h => h .leave, fun h t r hr => ?_⟩
  cases t with
  | leave => exact h r hr
  | _ => trivial

namespace LeaveHistory

variable {h : LeaveHistory V D} {request : LeaveRequest}

/-- The decided leaves, with a property the leaves of the new state have. -/
theorem settled_record (hdated : ∀ l ∈ (request.step env h.world).db.rows .leave, l.Dated)
    (hstatus : ∀ id ∈ request.decides env h.world ++ h.decided, ∀ l,
      (request.step env h.world).db.find? .leave id = some l → l.status ≠ .pending) :
    (request.record env h).Settled := by
  refine ⟨hdated, fun id hid => ?_⟩
  obtain ⟨hmem, hsome⟩ := List.mem_filter.mp hid
  obtain ⟨l, hl⟩ := Option.isSome_iff_exists.mp hsome
  exact ⟨l, hl, hstatus id hmem l hl⟩

/-- A request that changes nothing and decides nothing. -/
theorem Settled.of_same (hs : h.Settled) (hsame : (request.step env h.world).db = h.world.db)
    (hnone : request.decides env h.world = []) : (request.record env h).Settled := by
  refine settled_record (by rw [hsame]; exact hs.dated) fun id hid l hl => ?_
  rw [hnone, List.nil_append] at hid
  rw [hsame] at hl
  obtain ⟨l', hl', hstatus⟩ := hs.decided id hid
  cases hl'.symm.trans hl
  exact hstatus

/-- A leave that is recorded is none of those decided before. -/
theorem Settled.create (hs : h.Settled) (req : LeaveCreateRequest) (actorUserId : ℤ) :
    ((LeaveRequest.create req actorUserId).record env h).Settled := by
  obtain hsame | ⟨hdates, -, -, new, hinsert⟩ := serve_createLeave env h.world req actorUserId
  · exact hs.of_same hsame rfl
  · have hadded := Added.of_insert (P := fun l => l = req.row actorUserId new) hinsert rfl
    refine settled_record (fun l hl => ?_) fun id hid l hl => ?_
    · obtain hold | rfl := hadded.of_mem hl
      · exact hs.dated l hold
      · exact ⟨hdates, rfl⟩
    · obtain ⟨l', hl', hstatus⟩ := hs.decided id hid
      cases (hadded.find? hl').symm.trans hl
      exact hstatus

/-- A decision settles its leave and no other. -/
theorem Settled.decide (hs : h.Settled) {leaveId : ℤ} {status : LeaveStatus}
    {comment : Option String} {companyScope : CompanyScopeValue}
    (hconcludes : (LeaveRequest.decide leaveId status comment companyScope).Concludes h.world) :
    ((LeaveRequest.decide leaveId status comment companyScope).record env h).Settled := by
  obtain ⟨⟨e, he⟩, hsame⟩ | ⟨leave, hfound, hreach, hchanged⟩ :=
    serve_decide env h.world leaveId status comment companyScope
  · refine hs.of_same hsame ?_
    simp only [LeaveRequest.decides, he]
  · have hne : status ≠ .pending := hconcludes ⟨leave, hfound, hreach⟩
    refine settled_record (fun l hl => ?_) fun id hid l hl => ?_
    · obtain ⟨r, hr, ⟨-, rfl⟩ | ⟨-, rfl⟩⟩ := hchanged.of_mem hl
      · exact ⟨(hs.dated r hr).ordered, (hs.dated r hr).counted⟩
      · exact hs.dated l hr
    · change (serve env _ h.world).2.db.find? .leave id = some l at hl
      rw [hchanged.find? (fun _ => rfl), Option.map_eq_some_iff] at hl
      obtain ⟨r, hr, rfl⟩ := hl
      by_cases hk : id = leaveId
      · subst hk
        cases hfound.symm.trans hr
        rw [if_pos rfl]
        show (if status = leave.status then leave.status else status) ≠ .pending
        split
        · next heq => exact heq ▸ hne
        · exact hne
      · rw [if_neg hk]
        obtain hnew | hold := List.mem_append.mp hid
        · simp only [LeaveRequest.decides] at hnew
          split at hnew
          · exact absurd (List.mem_singleton.mp hnew) hk
          · cases hnew
        · obtain ⟨l', hl', hstatus⟩ := hs.decided id hold
          cases hl'.symm.trans hr
          exact hstatus

/-- A leave that is deleted is forgotten. -/
theorem Settled.delete (hs : h.Settled) (leaveId : ℤ) (companyScope : CompanyScopeValue) :
    ((LeaveRequest.delete leaveId companyScope).record env h).Settled := by
  have hkeeps : ∀ P : Leave → Prop, (∀ l ∈ h.world.db.rows .leave, P l) →
      ∀ l ∈ ((LeaveRequest.delete leaveId companyScope).step env h.world).db.rows .leave, P l := by
    intro P hP
    exact rowsSatisfy_leaves.mp (keepsRows_deleteLeave.serve env (rowsSatisfy_leaves.mpr hP))
  refine settled_record (hkeeps _ hs.dated) fun id hid l hl => ?_
  have hstatus : ∀ l ∈ h.world.db.rows .leave, keyOf .leave l = id → l.status ≠ .pending := by
    intro r hr hk
    obtain ⟨l', hl', hstatus⟩ := hs.decided id hid
    rwa [Table.eq_of_key hr (Table.find?_mem hl') (hk.trans (Table.find?_key hl').symm)]
  exact hkeeps _ hstatus l (Table.find?_mem hl) (Table.find?_key hl)

/-- **A request that concludes what it decides** keeps decided leaves decided. -/
theorem settled_step (request : LeaveRequest) (h : LeaveHistory V D)
    (hconcludes : request.Concludes h.world) (hs : h.Settled) :
    (request.record env h).Settled := by
  cases request with
  | create req actorUserId => exact hs.create req actorUserId
  | decide leaveId status comment companyScope => exact hs.decide hconcludes
  | delete leaveId companyScope => exact hs.delete leaveId companyScope

end LeaveHistory

/-- **The life of leaves**: in every state of a run in which nobody makes a leave pending,
the days of every leave are counted, and a leave that has been decided is approved or
rejected. -/
theorem leaves_lifeCycle {w₀ : World V D} (hstart : ∀ l ∈ w₀.db.rows .leave, l.Dated)
    {requests : List LeaveRequest}
    (hconclude : Runs.Guarded (LeaveRequest.record env)
      (fun request (h : LeaveHistory V D) => request.Concludes h.world) requests ⟨w₀, []⟩)
    {before after : List LeaveRequest} (hsplit : requests = before ++ after)
    {h : LeaveHistory V D} (hh : h = Runs.run (LeaveRequest.record env) before ⟨w₀, []⟩) :
    (∀ l ∈ h.world.db.rows .leave, l.Dated ∧ 1 ≤ l.days) ∧
      ∀ id ∈ h.decided, ∃ l, h.world.db.find? .leave id = some l ∧
        (l.status = .approved ∨ l.status = .rejected) := by
  rw [hsplit] at hconclude
  have hs : h.Settled := by
    rw [hh]
    exact Runs.Guarded.invariant (I := LeaveHistory.Settled) LeaveHistory.settled_step
      ⟨hstart, fun id hid => by cases hid⟩ hconclude.of_append.1
  refine ⟨fun l hl => ⟨hs.dated l hl, (hs.dated l hl).one_le_days⟩, fun id hid => ?_⟩
  obtain ⟨l, hl, hstatus⟩ := hs.decided id hid
  refine ⟨l, hl, ?_⟩
  cases hl' : l.status with
  | pending => exact absurd hl' hstatus
  | approved => exact .inl rfl
  | rejected => exact .inr rfl

/-- The worker of the sample installation asks for two days. -/
def asksForLeave : LeaveRequest :=
  .create { workerId := 1, companyId := 1, type := .annual, startDate := ⟨0⟩, endDate := ⟨1⟩ } 2

/-- A leave that is asked for and approved. -/
theorem leaves_lifeCycle_sample :
    (∀ l ∈ (Runs.run (LeaveRequest.record still) [asksForLeave, .decide 1 .approved none none]
        (⟨World.fresh Db.sample (), []⟩ : LeaveHistory Unit Unit)).world.db.rows .leave,
        l.Dated ∧ 1 ≤ l.days) ∧
      ∀ id ∈ (Runs.run (LeaveRequest.record still) [asksForLeave, .decide 1 .approved none none]
        (⟨World.fresh Db.sample (), []⟩ : LeaveHistory Unit Unit)).decided,
        ∃ l, (Runs.run (LeaveRequest.record still) [asksForLeave, .decide 1 .approved none none]
          (⟨World.fresh Db.sample (), []⟩ : LeaveHistory Unit Unit)).world.db.find? .leave id =
            some l ∧ (l.status = .approved ∨ l.status = .rejected) := by
  have hleaves : Db.sample.rows .leave = [] := by decide +kernel
  have hconclude : Runs.Guarded (LeaveRequest.record still)
      (fun request (h : LeaveHistory Unit Unit) => request.Concludes h.world)
      [asksForLeave, .decide 1 .approved none none] ⟨World.fresh Db.sample (), []⟩ :=
    ⟨trivial, fun _ => by decide, trivial⟩
  refine leaves_lifeCycle (fun l hl => ?_) hconclude (List.append_nil _).symm rfl
  rw [show (World.fresh Db.sample () : World Unit Unit).db.rows .leave = [] from hleaves] at hl
  cases hl

/-- **An approved leave is pending again**: the status of a decision is the client's. -/
theorem leave_reopened :
    (Runs.run (LeaveRequest.record still)
      [asksForLeave, .decide 1 .approved none none, .decide 1 .pending none none]
      (⟨World.fresh Db.sample (), []⟩ : LeaveHistory Unit Unit)).decided = [1, 1] ∧
    ((Runs.run (LeaveRequest.record still)
      [asksForLeave, .decide 1 .approved none none, .decide 1 .pending none none]
      (⟨World.fresh Db.sample (), []⟩ : LeaveHistory Unit Unit)).world.db.find? .leave 1).map
        Leave.status = some .pending := by
  constructor
  · decide +kernel
  · decide +kernel

end Rooti

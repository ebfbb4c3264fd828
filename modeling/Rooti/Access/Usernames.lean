import Rooti.Access.Tokens
import Rooti.Lib.Races

/-!
# One account for a username

Two people may ask for the same username at the same time, both may find it free, and only the
constraint of the table tells them apart when their transactions are committed.  A username is
taken for good, so asking for it is a race: of all the requests that would register it at most one
is answered (`usernames_once`), whether accounts are signed up for or created, and however often
the requests are repeated.

## Main definitions

* `ApiRequest.registers`, `Taken` — the username a request asks for, and usernames that are taken
* `among_racing` — a registration in the race

## What carries the proof

The query before a registration shows nothing, since somebody may register the name
right after it. What counts is the commit: it inserts the row, and it succeeds only if
no row with the name is there, and when it has, one is (`taken_of_insert`). As no
account is deleted and no name changed, at most one commit can bring this about, and
`Lib.Races` draws the conclusion for whole requests. What has to be proved of a request
is that it is answered only after such a commit (`ApiRequest.among_race`).
-/

namespace Rooti

open Relational Program

variable {V D : Type}

/-- The username a request would register. -/
def ApiRequest.registers : ApiRequest V → Option String
  | .anyone (.signupCaregiver req) => some req.username
  | .member (.createWorker req) => some req.username
  | _ => none

/-- Somebody has the username. -/
def Taken (name : String) (w : World V D) : Prop := ∃ u ∈ w.db.rows .user, u.username = name

section Race

variable {app : App V D} {P : Set PrincipalDetails} {name : String} {credentials : Credentials}

/-- **A username is taken for good.** -/
theorem Taken.of_may {w w' : World V D} (h : Taken name w) (hmay : (apiCycle P).May w.db w'.db) :
    Taken name w' := by
  obtain ⟨u, hu, rfl⟩ := h
  obtain ⟨u', hu', hbecomes⟩ := hmay.fate .user id u hu
  exact ⟨u', hu', hbecomes.1.2.1⟩

/-- **A registration that is committed takes a username that was free.** -/
theorem taken_of_insert {F : Footprint} (hF : F.Allows (cycleRely P : Rely (World V D)))
    {ds : List Statement} (hds : ∀ d ∈ ds, d ∈ F.statements) {u : User}
    (hu : Dml.insert .user u ∈ ds) {w : World V D} {db : Db} (h : Dml.applyAll ds w.db = .ok db) :
    ¬Taken u.username w ∧ ∃ u' ∈ db.rows .user, u'.username = u.username := by
  have hmay : ∀ ds' ⊆ ds, ∀ db₁ db₂, Dml.applyAll ds' db₁ = .ok db₂ →
      (apiCycle P).May db₁ db₂ := fun ds' hds' db₁ db₂ happly =>
    hF.commit { w with db := db₁ } ds' db₂ (fun d hd => hds d (hds' hd)) happly
  constructor
  · rintro ⟨x, hx, hname⟩
    obtain ⟨x', hbecomes, hapart⟩ := LifeCycle.apart_of_insert (L := apiCycle P) hu h id hmay x hx
    have hclash : decide (x'.username = u.username) = false := hapart.2.1
    exact of_decide_eq_false hclash (hbecomes.1.2.1.trans hname)
  · obtain ⟨u', hu', hbecomes⟩ := LifeCycle.exists_of_insert (L := apiCycle P) hu h id
      fun ds' hds' db₁ => hmay ds' hds' db₁ db
    exact ⟨u', hu', hbecomes.1.2.1⟩

/-- **A registration in the race**: it succeeds only by taking the username. -/
theorem among_racing {α : Type} {p : Async V D α} {φ : α → User → Prop}
    (hp : (server app.env).Among (cycleRely P) (cycleRely P) blank p
      (fun a => (recording (cycleRely P)).both (announcing app.env (φ a)))
      fun _ => recording (cycleRely P)) (hφ : ∀ a u, φ a u → u.username = name) :
    ((server app.env).racing (Taken name)).Among (cycleRely P) (cycleRely P) blank.beside
      (getDbSession app.env p) (fun _ => blank.beside.both .winner) fun _ => blank.beside := by
  refine .handle (.bind hp.beside fun a => .bind (Q := fun _ => blank.beside.both .winner) ?_
    fun _ => .ret fun _ _ hs => hs) fun _ => .bind among_rollback.beside fun _ =>
      .raise fun _ _ hs => hs
  rintro l w ⟨hs, hannounced⟩
  rw [endTransaction_eq_commit hannounced]
  obtain ⟨-, u, hu, hsent⟩ := hannounced
  obtain rfl := hφ a u hu
  refine Machine.Among.lift (P := ((recording (cycleRely P)).both (.own (sent u))).beside)
    (fun l w ⟨⟨F, hF, hs⟩, hsent⟩ => ?_) l w ⟨hs, hsent⟩
  have hexec := hF.exec app.env (c := (.commit : Cmd V D Unit)) trivial w hs
  refine ⟨hexec.1, ?_⟩
  have hdrafts := hexec.2
  change ∀ d ∈ (execCommit app.env l.1 w).2.1.statements, _ at hdrafts
  change Machine.outcome _ _ (execCommit app.env l.1 w).1 ((execCommit app.env l.1 w).2.1,
    l.2 ∨ ¬Taken u.username w ∧ Taken u.username (execCommit app.env l.1 w).2.2)
      (execCommit app.env l.1 w).2.2
  cases h : (execCommit app.env l.1 w).1 with
  | error e => exact ⟨F, hF, hdrafts⟩
  | ok =>
      obtain ⟨hblank, ds, hds, hinsert, happly⟩ := execCommit_sent hs hsent h
      rw [hblank]
      exact ⟨rfl, .inr (taken_of_insert hF hds hinsert happly)⟩

/-- The creation of a worker's account announces it. -/
theorem among_createWorker {req : WorkerCreateRequest} {me : PrincipalDetails}
    (hF : ((MemberRequest.createWorker req).footprint me).Allows
      (cycleRely P : Rely (World V D))) :
    (server app.env).Among (cycleRely P) (cycleRely P) blank
      (WorkerService.create app.crypto.bcrypt req : Async V D WorkerResponse)
      (fun _ => (drafts ((MemberRequest.createWorker req).footprint me)).both
        (announcing app.env fun u => u.username = req.username))
      fun _ => recording (cycleRely P) := by
  have hsplit : (WorkerService.create app.crypto.bcrypt req : Async V D WorkerResponse) =
      ((select [.text req.username] fun _ db =>
        (db.rows .user).any fun u => u.username = req.username).bind fun dup =>
          (Prog.raiseIf dup (userUsernameDuplicatedException req.username)).bind fun _ =>
            hashPassword app.crypto.bcrypt req.password).bind fun passwordHash =>
        (add .user (WorkerService.workerUser req passwordHash)).bind fun newUser =>
          flush.bind fun _ => (add .challengedWorker (WorkerService.newWorker newUser.id)).bind
            fun new => flush.bind fun _ => .ret (toWorkerResponse
              (WorkerService.newWorker newUser.id new)
              (WorkerService.workerUser req passwordHash newUser)) := by
    simp only [WorkerService.create, Prog.bind_eq, Prog.bind_assoc, Prog.pure_eq]
  rw [hsplit]
  refine among_register hF ?_ (fun c new => ?_) (fun c new => ?_) (fun c new => ?_) fun c new => ?_
  · exact .bind .select fun _ => .bind .raiseIf fun _ => .hashPassword
  · exact .inl ⟨_, ⟨rfl, rfl⟩, rfl⟩
  · exact .bind (.add Set.subset_union_right (fun _ => trivial) fun _ => rfl) fun _ =>
      .bind .flush fun _ => .ret
  · exact .bind (.lift rfl) fun _ => .bind (.lift rfl) fun _ => .ret
  · exact .bind fun _ => .bind fun _ => rfl

/-- A registration leaves nothing to do after its response. -/
theorem returns_registration [DecidableEq V] {request : ApiRequest V}
    (hname : request.registers = some name) :
    (request.endpoint app credentials).Returns fun response =>
      ApiRequest.background app response = .ret () := by
  unfold ApiRequest.registers at hname
  split at hname
  · exact .bind fun _ => rfl
  · exact .bind fun _ => .bind fun _ => rfl
  · cases hname

/-- A request that registers a username announces the account. -/
theorem among_registration [DecidableEq V] {request : ApiRequest V}
    (hname : request.registers = some name)
    (h : request.Keeps app credentials (cycleRely P : Rely (World V D))) :
    (server app.env).Among (cycleRely P) (cycleRely P) blank (request.endpoint app credentials)
      (fun _ => (recording (cycleRely P)).both (announcing app.env fun u => u.username = name))
      fun _ => recording (cycleRely P) := by
  have hidle := (h none (by rintro _ ⟨⟩)).idle
  unfold ApiRequest.registers at hname
  split at hname
  · next req =>
      obtain rfl := Option.some.inj hname
      have hF : (PublicRequest.signupCaregiver (V := V) req).footprint.Allows
        (cycleRely P : Rely (World V D)) := h none (by rintro _ ⟨⟩)
      refine .bind (among_signup hF) fun pair => .ret fun _ _ ⟨hs, hro, u, hu, hsent⟩ => ?_
      exact ⟨recording_of_drafts hF hs, hro, u, hu.2, hsent⟩
  · next req =>
      obtain rfl := Option.some.inj hname
      refine .bind (among_guarded hidle) fun me => .of_knowing fun hme => ?_
      have hF : ((MemberRequest.createWorker req).footprint me).Allows
        (cycleRely P : Rely (World V D)) := h (some me) (by
          rintro _ ⟨⟩
          exact hme)
      refine .bind (among_createWorker hF) fun row => .ret fun _ _ ⟨hs, hannounced⟩ => ?_
      exact ⟨recording_of_drafts hF hs, hannounced⟩
  · cases hname

/-- **A request that registers a username** is answered only if it has taken it. -/
theorem ApiRequest.among_race [DecidableEq V] {request : ApiRequest V}
    (hname : request.registers = some name)
    (h : request.Keeps app credentials (cycleRely P : Rely (World V D))) :
    ((server app.env).racing (Taken name)).Among (cycleRely P) (cycleRely P) blank.beside
      (request.handle app credentials) (fun _ => blank.beside.both .winner) fun _ => blank.beside := by
  refine .bind ((among_racing (among_registration hname h) fun _ _ => id).returning
    (returns_getDbSession (returns_registration hname))) fun response => .of_knowing fun hnothing => ?_
  rw [hnothing]
  exact .ret fun _ _ hs => hs

end Race

section Usernames

variable {ι : Type} [DecidableEq ι] [DecidableEq V] (app : App V D)
  (requests : ι → Credentials × ApiRequest V) (w : World V D) (sched : List ι) (name : String)

/-- The requests that register a username and have been answered. -/
def registered : Set ι :=
  {i | (requests i).2.registers = some name ∧ ∃ response,
    (Pool.play (server app.env) (arrivals app requests w) sched).Returned i response}

/-- **A username is registered once**: of all the requests that register it at most one is
answered, and none if somebody has it from the beginning; when one has been answered, somebody has
it. -/
theorem usernames_once :
    (registered app requests w sched name).Subsingleton ∧
      (Taken name w → registered app requests w sched name = ∅) ∧
      ((registered app requests w sched name).Nonempty →
        Taken name (Pool.play (server app.env) (arrivals app requests w) sched).shared) := by
  -- whoever is answered has won
  have hamong : (arrivals app requests w).racing.Among ((server app.env).racing (Taken name))
      (fun _ => cycleRely (principals app requests)) (fun _ => cycleRely (principals app requests))
      fun i => Machine.outcome (R := cycleRely (principals app requests))
        (fun _ => .own fun l => (requests i).2.registers = some name → l.2)
        fun _ => .own fun _ => True := by
    intro i
    have hkeeps : (requests i).2.Keeps app (requests i).1
        (cycleRely (principals app requests) : Rely (World V D)) := keeps_cycle (actors_subset i)
    by_cases hname : (requests i).2.registers = some name
    · exact (ApiRequest.among_race hname hkeeps).weaken (fun _ _ => id)
        (fun _ _ _ hs _ => hs.2) (fun _ _ _ _ => trivial) ({}, False) w rfl
    · exact (ApiRequest.among_handle hkeeps).beside.weaken (fun _ _ => id)
        (fun _ _ _ _ h => absurd h hname) (fun _ _ _ _ => trivial) ({}, False) w rfl
  have hpermanent : ∀ (_ : ι) (s s' : World V D),
      (cycleRely (principals app requests) : Rely (World V D)).may s s' → Taken name s →
        Taken name s' := fun _ _ _ hmay h => h.of_may hmay
  obtain ⟨hone, hnone⟩ := hamong.one_winner (fun _ _ _ _ _ => id) hpermanent sched
  obtain ⟨hprog, hshared⟩ := Pool.play_racing (m := server app.env) (T := Taken name)
    (arrivals app requests w) sched
  have hwon : ∀ i ∈ registered app requests w sched name,
      (Pool.play ((server app.env).racing (Taken name)) (arrivals app requests w).racing sched).Won i := by
    rintro i ⟨hname, response, hi⟩
    have hreturned := (hamong.play (fun _ _ _ _ _ => id) sched).returned (i := i) (a := response)
      ((congrFun hprog i).trans hi)
    exact hreturned hname
  refine ⟨fun i hi j hj => hone.unique i j (hwon i hi) (hwon j hj), fun htaken => ?_, ?_⟩
  · exact Set.eq_empty_of_forall_notMem fun i hi => hnone htaken i (hwon i hi)
  · rintro ⟨i, hi⟩
    have hbrought := hone.brought i (hwon i hi)
    rwa [hshared] at hbrought

end Usernames

end Rooti

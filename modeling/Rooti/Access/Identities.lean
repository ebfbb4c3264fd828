import Rooti.Access.Ownership
import Rooti.Core.RowInvariants
import Rooti.Lib.Obedience

/-!
# The ids of rows, among others

A row is known by its id to whoever has been answered it, long after the request that added it.
So a row must not be taken for another one: an id that has been in use is not given to another
row later, even if the row has been deleted meanwhile (`ids_play`).

No request can see to that by itself.  An id is drawn from the sequence of the table when the row
is recorded, and the row is in the table only once the transaction has been committed, when the
sequence may have moved on.  Until then the session has a claim to the id (`Claims`), and what
carries the proof is that no two sessions have a claim to the same id and no row has an id that
is claimed (`Drawn`).

## Main definitions

* `living` — what the life cycles of the rows permit, as a footprint
* `Claims`, `Settled` — ids that a session is to use, and ids nobody has a claim to
* `Orderly`, `Drawn` — sessions that keep to the sequences, and ids that are drawn once
* `Since` — what is known of ids that were settled at some time

## What carries the proof

`Drawn` is an invariant between a command of one session and the claims of all the
others, which is why it speaks of the sessions of the whole pool. A command that draws
an id makes a claim to a number nobody has a claim to, as all claims are to numbers that
were drawn before; a commit gives up the claims of its session and adds rows under those
ids, and leaves the others alone.

For the second part, `Since` compares with a state some time before. An id that was
settled then is settled now: nobody can have made a claim to it, since only numbers
beyond the sequence are drawn. A row with such an id can only be what has become of a
row that was there.
-/

namespace Rooti

open Json Relational Program

variable {V D : Type}

/-! ## Every request lives by the life cycles -/

section Living

variable {L : LifeCycle schema} {app : App V D} {credentials : Credentials}

/-- **What the life cycles permit.** -/
def living (L : LifeCycle schema) : Footprint where
  statements := {d | L.Permits d}
  keys := Set.univ
  files := true
  mails := true

/-- A footprint whose statements the life cycles permit. -/
theorem le_living {F : Footprint} (h : ∀ d ∈ F.statements, L.Permits d) : F.Le (living L) :=
  ⟨h, Set.subset_univ _, fun _ => rfl, fun _ => rfl⟩

/-- Somebody with all roles. -/
def PrincipalDetails.everybody (me : PrincipalDetails) : PrincipalDetails :=
  { me with roles := ["ADMIN", "CHARGER", "CAREGIVER"] }

/-- **What a request may do does not depend on the roles of its sender.** -/
theorem MemberRequest.permits_univ (me : PrincipalDetails) (request : MemberRequest) :
    ∀ d ∈ (request.footprint me).statements, (apiCycle Set.univ).Permits d := by
  have hroles : HasOneOf request.roles me.everybody := by
    cases request with
    | createCompany | updateCompany | deactivateCompany | listUsers | setEnabled | listChargers
    | updateCharger =>
        rintro _ ⟨⟩
        exact ⟨.admin, .head _, .head _⟩
    | createWorker | hireWorker | fireCompanyWorker | retireWorker | rehireWorker | createStandard
    | updateStandard | syncProcesses | deactivateStandard | assign | unassign | createSchedule
    | batchMake =>
        rintro _ ⟨⟩
        exact ⟨.admin, .head _, .head _⟩
    | caregiverMe | listMyRelations | registerWorker | removeRelation =>
        rintro _ ⟨⟩
        exact ⟨.caregiver, .head _, .tail _ (.tail _ (.head _))⟩
    | _ => rintro _ ⟨⟩
  have hpermits : ∀ d ∈ (request.footprint me.everybody).statements,
      (apiCycle Set.univ).Permits d := request.permits trivial hroles
  cases request <;> exact hpermits

/-- What is left to do after a response is permitted. -/
theorem Within.background {response : ApiResponse V} :
    Within (living (apiCycle Set.univ)) (ApiRequest.background app response) := by
  cases response with
  | confined response =>
      cases response with
      | queued result task =>
          have hjobs : edits .bulkEmailJob progressColumns ⊆
              (living (apiCycle Set.univ)).statements :=
            permits_edits fun _ _ h => ⟨h, .inl staff_univ⟩
          cases task with
          | bulkEmailJob jobId => exact .runBulkEmailJob rfl hjobs
          | bulkEmailInert companyId day recipientEmail fmt => exact .runBulkEmailInert rfl
      | _ => exact .ret
  | _ => exact .ret

/-- Finding out who sends a request writes nothing. -/
theorem Within.currentUser {F : Footprint} :
    Within F (currentUser app.env app.crypto app.reader credentials :
      Async V D PrincipalDetails) := .bind .currentUserOptional fun _ => .orRaise

/-- Neither does a guard. -/
theorem Within.guarded {F : Footprint} {roles : Option (List UserRole)} :
    Within F (guarded app roles credentials : Async V D PrincipalDetails) := by
  refine .bind .currentUser fun me => ?_
  cases roles with
  | none => exact .ret
  | some roles => exact .requireRoles

/-- Nor looking up the company of a charger. -/
theorem Within.getCompanyScope {F : Footprint} {me : PrincipalDetails} :
    Within F (getCompanyScope app.crypto me : Async V D CompanyScopeValue) :=
  .bind .requireRoles fun _ => .ite .ret (.bind .select fun _ => .bind .scalarOneOrNone fun _ =>
    .bind .orRaise fun _ => .ret)

/-- **All the server does about a request** is permitted. -/
theorem ApiRequest.within_handle [DecidableEq V] (request : ApiRequest V) :
    Within (living (apiCycle Set.univ)) (request.handle app credentials) := by
  have hendpoint : Within (living (apiCycle Set.univ)) (request.endpoint app credentials) := by
    cases request with
    | anyone request => exact request.within_endpoint.mono (le_living request.permits)
    | member request =>
        exact .bind .guarded fun me => request.within_endpoint.mono
          (le_living (request.permits_univ me))
    | confined request =>
        exact .bind .currentUser fun me => .bind .getCompanyScope fun scope =>
          .bind (request.within_endpoint.mono (le_living (request.permits staff_univ))) fun _ => .ret
  exact .bind (.handle (.bind hendpoint fun _ => .bind .endTransaction fun _ => .ret)
    fun _ => .bind .rollback fun _ => .raise) fun _ => .bind (.handle .background fun _ => .ret)
      fun _ => .ret

end Living

/-! ## Claims to ids -/

section Claims

variable {env : Env} {α : Type} {c : Cmd V D α} {s : Session} {w : World V D} {t : Entity} {k : ℤ}

/-- **A session has a claim to an id**: it is to insert the row. -/
def Claims (s : Session) (t : Entity) (k : ℤ) : Prop :=
  ∃ x : Row t, keyOf t x = k ∧ Dml.insert t x ∈ s.statements

/-- **A row is recorded under the next id.** -/
theorem insert_of_recorded (hc : c.keyed) {x : Row t} (h : Dml.insert t x ∈ c.recorded env w) :
    keyOf t x = w.seq t + 1 ∧ (exec env c s w).2.2.seq t = w.seq t + 1 ∧
      c.recorded env w = [.insert t x] := by
  cases c with
  | add t' mk =>
      obtain ⟨rfl, hrow⟩ := Dml.insert.inj (List.mem_singleton.mp h)
      obtain rfl := eq_of_heq hrow
      have hseq : (exec env (Cmd.add t mk) s w).2.2.seq t = w.seq t + 1 := by
        exact Function.update_self t (w.seq t + 1) w.seq
      exact ⟨hc _, hseq, rfl⟩
  | modify t' row f =>
      simp only [Cmd.recorded] at h
      split at h
      · cases h
      · cases List.mem_singleton.mp h
  | delete t' row => cases List.mem_singleton.mp h
  | _ => cases h

/-- A claim is made by drawing the next id. -/
theorem claims_exec (hc : c.keyed) (h : Claims (exec env c s w).2.1 t k) :
    Claims s t k ∨ k = w.seq t + 1 ∧ (exec env c s w).2.2.seq t = k := by
  obtain ⟨x, rfl, hmem⟩ := h
  obtain hold | hnew := List.mem_append.mp ((exec_statements env c s w).subset hmem)
  · exact .inl ⟨x, rfl, hold⟩
  · obtain ⟨hkey, hseq, -⟩ := insert_of_recorded (s := s) hc hnew
    exact .inr ⟨hkey, hseq.trans hkey.symm⟩

/-- A claim is to an id that has been drawn. -/
theorem Claims.le_seq (h : Claims s t k) (hs : Numbers s w) : k ≤ w.seq t := by
  obtain ⟨x, rfl, hmem⟩ := h
  exact hs.1 _ hmem

/-- A commit that succeeds leaves an empty session. -/
theorem session_of_commit {u : Unit} (h : (execCommit env s w).1 = .ok u) :
    (execCommit env s w).2.1 = {} := by
  revert h
  unfold execCommit
  split
  · rintro ⟨⟩
  · split
    · rintro ⟨⟩
    · exact fun _ => rfl

/-- **The rows change by the statements of a session**, which is empty then. -/
theorem exec_rows (env : Env) (c : Cmd V D α) (s : Session) (w : World V D) :
    (exec env c s w).2.2.db = w.db ∨ (exec env c s w).2.1.statements = [] ∧
      ∃ ds, ds.Perm s.statements ∧ Dml.applyAll ds w.db = .ok (exec env c s w).2.2.db := by
  obtain hdb | ⟨hcommit, ds, hperm, happly⟩ := exec_db env c s w
  · exact .inl hdb
  · cases c <;> try cases hcommit
    cases hresult : (execCommit env s w).1 with
    | error e => exact .inl (execCommit_error (Prod.ext hresult rfl))
    | ok u =>
        refine .inr ⟨?_, ds, hperm, happly⟩
        rw [show (exec env Cmd.commit s w).2.1 = {} from session_of_commit hresult]
        rfl

/-- **Where a row comes from**: a row with its id was there, or the session had a claim to it. -/
theorem row_of_exec (hs : Numbers s w) {r : Row t} (hr : r ∈ (exec env c s w).2.2.db.rows t) :
    (∃ x ∈ w.db.rows t, keyOf t x = keyOf t r) ∨
      Claims s t (keyOf t r) ∧ (exec env c s w).2.1.statements = [] := by
  obtain hdb | ⟨hempty, ds, hperm, happly⟩ := exec_rows env c s w
  · exact .inl ⟨r, hdb ▸ hr, rfl⟩
  · have hrespects : ∀ d ∈ ds, RespectsRows (fun t r => (∃ x ∈ w.db.rows t, keyOf t x = keyOf t r) ∨
        Claims s t (keyOf t r)) d := by
      intro d hd
      have hmem := hperm.mem_iff.mp hd
      have hwithin := hs.1 d hmem
      cases d with
      | insert t x => exact .inr ⟨x, rfl, hmem⟩
      | update t k f =>
          intro x hx
          rw [hwithin x]
          exact hx
      | delete t k => trivial
    have hrows := rows_applyAll hrespects happly fun t x hx => .inl ⟨x, hx, rfl⟩
    exact (hrows t r hr).imp_right fun hclaim => ⟨hclaim, hempty⟩

end Claims

/-! ## Ids are drawn once -/

section Drawn

variable {ι : Type} {L : LifeCycle schema} {loc : ι → Session} {w : World V D}

/-- **Rows and claims keep to the sequences**, and to the life cycles. -/
structure Orderly (L : LifeCycle schema) (loc : ι → Session) (w : World V D) : Prop where
  numbered : Numbered w
  numbers : ∀ i, Numbers (loc i) w
  permitted : ∀ i, ∀ d ∈ (loc i).statements, L.Permits d

/-- **Ids are drawn once**: nobody has a claim to the id of a row, nor two sessions to the same
id. -/
structure Drawn (L : LifeCycle schema) (loc : ι → Session) (w : World V D) : Prop
    extends Orderly L loc w where
  vacant : ∀ i t k, Claims (loc i) t k → ∀ r ∈ w.db.rows t, keyOf t r ≠ k
  apart : ∀ i j, i ≠ j → ∀ t k, Claims (loc i) t k → ¬Claims (loc j) t k

/-- Nobody has recorded anything yet. -/
theorem orderly_start (hw : Numbered w) : Orderly L (fun _ : ι => {}) w where
  numbered := hw
  numbers i := ⟨by rintro d ⟨⟩, hw⟩
  permitted i := by rintro d ⟨⟩

/-- Nobody has a claim yet. -/
theorem drawn_start (hw : Numbered w) : Drawn L (fun _ : ι => {}) w where
  toOrderly := orderly_start hw
  vacant i t k := by rintro ⟨x, -, ⟨⟩⟩
  apart i j _ t k := by rintro ⟨x, -, ⟨⟩⟩

/-- **An id that has been drawn, and that nobody has a claim to.** -/
structure Settled (loc : ι → Session) (w : World V D) (t : Entity) (k : ℤ) : Prop where
  drawn : k ≤ w.seq t
  unclaimed : ∀ i, ¬Claims (loc i) t k

/-- The ids of rows are settled. -/
theorem Drawn.settled (h : Drawn L loc w) {t : Entity} {r : Row t} (hr : r ∈ w.db.rows t) :
    Settled loc w t (keyOf t r) :=
  ⟨h.numbered t r hr, fun i hclaim => h.vacant i t _ hclaim r hr rfl⟩

/-- **What is known later of the ids that were settled**: they still are, and a row with such an id
is what has become of the one that had it. -/
structure Since (L : LifeCycle schema) (loc₀ : ι → Session) (w₀ : World V D) (loc : ι → Session)
    (w : World V D) : Prop where
  settled : ∀ t k, Settled loc₀ w₀ t k → Settled loc w t k
  rows : ∀ t, ∀ r ∈ w.db.rows t, Settled loc₀ w₀ t (keyOf t r) →
    ∃ r₀ ∈ w₀.db.rows t, keyOf t r₀ = keyOf t r ∧ L.becomes t r₀ r

/-- Nothing has happened since. -/
theorem since_start : Since L loc w loc w :=
  ⟨fun _ _ => id, fun t r hr _ => ⟨r, hr, rfl, L.refl t r⟩⟩

variable [DecidableEq ι] (env : Env)

/-- The commands that live by the life cycles. -/
abbrev Cmd.lives (L : LifeCycle schema) {α : Type} (c : Cmd V D α) : Prop :=
  c.within (living L) ∧ c.keyed

/-- A command keeps to the sequences and to the life cycles. -/
theorem upholds_orderly :
    (server env : Machine (Cmd V D) Err Session (World V D)).Upholds (fun c => c.lives L)
      (Orderly L : (ι → Session) → World V D → Prop) := by
  intro γ c hc loc i w h
  have hnumbers : Numbers (exec env c (loc i) w).2.1 (exec env c (loc i) w).2.2 :=
    exec_numbers env hc.2 (h.numbers i)
  have hdrafts : ∀ d ∈ (exec env c (loc i) w).2.1.statements, L.Permits d :=
    ((Footprint.Allows.lifeCycle (F := living L) fun _ hd => hd).exec env hc.1 w
      (h.permitted i)).2
  refine ⟨hnumbers.2, fun j => ?_, fun j => ?_⟩
  · by_cases hj : j = i
    · subst hj
      rw [Function.update_self]
      exact hnumbers
    · rw [Function.update_of_ne hj]
      exact ⟨fun d hd => ((h.numbers j).1 d hd).mono (exec_seq_le env c (loc i) w), hnumbers.2⟩
  · by_cases hj : j = i
    · subst hj
      rw [Function.update_self]
      exact hdrafts
    · rw [Function.update_of_ne hj]
      exact h.permitted j

/-- A command makes a claim to a new id only, and a commit gives its claims up. -/
theorem upholds_drawn :
    (server env : Machine (Cmd V D) Err Session (World V D)).Upholds (fun c => c.lives L)
      (Drawn L : (ι → Session) → World V D → Prop) := by
  intro γ c hc loc i w h
  -- what a session has a claim to after the command
  have hclaims : ∀ j t k, Claims (Function.update loc i (exec env c (loc i) w).2.1 j) t k →
      Claims (loc j) t k ∨ j = i ∧ k = w.seq t + 1 := by
    intro j t k hclaim
    by_cases hj : j = i
    · subst hj
      rw [Function.update_self] at hclaim
      exact (claims_exec hc.2 hclaim).imp_right fun hnew => ⟨rfl, hnew.1⟩
    · rw [Function.update_of_ne hj] at hclaim
      exact .inl hclaim
  refine ⟨upholds_orderly env c hc loc i w h.toOrderly, fun j t k hclaim r hr hkey => ?_,
    fun j j' hne t k hclaim hclaim' => ?_⟩
  · subst hkey
    obtain ⟨x, hx, hxr⟩ | ⟨hother, hempty⟩ := row_of_exec (h.numbers i) hr
    · obtain hold | ⟨-, hnew⟩ := hclaims j t _ hclaim
      · exact h.vacant j t _ hold x hx hxr
      · exact h.numbered.fresh hx (hxr.trans hnew)
    · -- whoever has committed has no claims left
      by_cases hj : j = i
      · subst hj
        rw [Function.update_self] at hclaim
        obtain ⟨x, -, hmem⟩ := hclaim
        rw [show ((server env).exec c (loc j) w).2.1.statements = [] from hempty] at hmem
        cases hmem
      · rw [Function.update_of_ne hj] at hclaim
        exact h.apart i j (Ne.symm hj) t _ hother hclaim
  · obtain hold | ⟨hj, hnew⟩ := hclaims j t k hclaim
    · obtain hold' | ⟨-, hnew⟩ := hclaims j' t k hclaim'
      · exact h.apart j j' hne t k hold hold'
      · have hle := hold.le_seq (h.numbers j)
        omega
    · obtain hold' | ⟨hj', -⟩ := hclaims j' t k hclaim'
      · have hle := hold'.le_seq (h.numbers j')
        omega
      · exact hne (hj.trans hj'.symm)

/-- What was settled stays so. -/
theorem upholds_since {loc₀ : ι → Session} {w₀ : World V D} :
    (server env : Machine (Cmd V D) Err Session (World V D)).Upholds (fun c => c.lives L)
      fun loc w => Drawn L loc w ∧ Since L loc₀ w₀ loc w := by
  intro γ c hc loc i w ⟨hdrawn, hsince⟩
  refine ⟨upholds_drawn env c hc loc i w hdrawn, fun t k hk => ?_, fun t r hr hk => ?_⟩
  · have hold := hsince.settled t k hk
    refine ⟨Int.le_trans hold.drawn (exec_seq_le env c (loc i) w t), fun j hclaim => ?_⟩
    by_cases hj : j = i
    · subst hj
      rw [Function.update_self] at hclaim
      obtain hclaim | ⟨hnew, -⟩ := claims_exec hc.2 hclaim
      · exact hold.unclaimed j hclaim
      · have hle := hold.drawn
        omega
    · rw [Function.update_of_ne hj] at hclaim
      exact hold.unclaimed j hclaim
  · obtain hdb | ⟨-, ds, hperm, happly⟩ := exec_rows env c (loc i) w
    · exact hsince.rows t r (hdb ▸ hr) hk
    · have hrespects : ∀ d ∈ ds, RespectsRows (fun t r => Settled loc₀ w₀ t (keyOf t r) →
          ∃ r₀ ∈ w₀.db.rows t, keyOf t r₀ = keyOf t r ∧ L.becomes t r₀ r) d := by
        intro d hd
        have hmem := hperm.mem_iff.mp hd
        have hwithin := (hdrawn.numbers i).1 d hmem
        have hpermits := hdrawn.permitted i d hmem
        cases d with
        | insert t x =>
            exact fun hk => absurd ⟨x, rfl, hmem⟩ ((hsince.settled t _ hk).unclaimed i)
        | update t k f =>
            intro x hx hk
            rw [hwithin x] at hk
            obtain ⟨r₀, hr₀, hkey, hbecomes⟩ := hx hk
            exact ⟨r₀, hr₀, hkey.trans (hwithin x).symm, L.trans hbecomes (hpermits x)⟩
        | delete t k => trivial
      exact rows_applyAll hrespects happly hsince.rows t r hr hk

end Drawn

/-! ## In any order -/

section Play

variable (app : App V D) {ι : Type} [DecidableEq ι] [DecidableEq V]
  (requests : ι → Credentials × ApiRequest V) {w : World V D}

/-- Whatever the requests, and in whatever order their commands take turns, ids are drawn once. -/
theorem drawn_play (hw : Numbered w) (sched : List ι) :
    (Pool.play (server app.env) (arrivals app requests w) sched).Obeys
        (fun c => c.lives (apiCycle Set.univ)) ∧
      Drawn (apiCycle Set.univ)
        (Pool.play (server app.env) (arrivals app requests w) sched).loc
        (Pool.play (server app.env) (arrivals app requests w) sched).shared := by
  have hobeys : (arrivals app requests w).Obeys fun c => c.lives (apiCycle Set.univ) :=
    fun i => (requests i).2.within_handle
  exact hobeys.play (upholds_drawn app.env) (drawn_start hw) sched

/-- What is known later of the ids that are settled at some time. -/
theorem since_play (hw : Numbered w) (sched later : List ι) :
    Since (apiCycle Set.univ)
      (Pool.play (server app.env) (arrivals app requests w) sched).loc
      (Pool.play (server app.env) (arrivals app requests w) sched).shared
      (Pool.play (server app.env) (arrivals app requests w) (sched ++ later)).loc
      (Pool.play (server app.env) (arrivals app requests w) (sched ++ later)).shared := by
  obtain ⟨hobeys, hdrawn⟩ := drawn_play app requests hw sched
  rw [Pool.play_append]
  exact (hobeys.play (upholds_since app.env) ⟨hdrawn, since_start⟩ later).2.2

variable {app} {requests}

/-- **An id is never given to another row.**  Whatever requests there are, and in whatever order
their commands take turns: a row that has the id of a row there was before is what that row has
become; and once the row has been deleted, no row will ever have the id. -/
theorem ids_play (hw : Numbered w) {sched : List ι} {t : Entity} {r : Row t}
    (hr : r ∈ (Pool.play (server app.env) (arrivals app requests w) sched).shared.db.rows t)
    (later : List ι) :
    (∀ r' ∈ (Pool.play (server app.env) (arrivals app requests w) (sched ++ later)).shared.db.rows t,
      keyOf t r' = keyOf t r → apiColumns t r r') ∧
    ((∀ r' ∈ (Pool.play (server app.env) (arrivals app requests w)
        (sched ++ later)).shared.db.rows t, keyOf t r' ≠ keyOf t r) →
      ∀ evenLater, ∀ r' ∈ (Pool.play (server app.env) (arrivals app requests w)
        (sched ++ later ++ evenLater)).shared.db.rows t, keyOf t r' ≠ keyOf t r) := by
  have hsince := since_play app requests hw sched later
  have hsettled := (drawn_play app requests hw sched).2.settled hr
  constructor
  · intro r' hr' hkey
    obtain ⟨r₀, hr₀, hkey₀, hbecomes⟩ := hsince.rows t r' hr' (hkey ▸ hsettled)
    obtain rfl := Table.eq_of_key hr hr₀ (hkey.symm.trans hkey₀.symm)
    exact hbecomes.1
  · intro hgone evenLater r' hr' hkey
    have hstill := hsince.settled t _ hsettled
    obtain ⟨r₁, hr₁, hkey₁, -⟩ := (since_play app requests hw
      (sched ++ later) evenLater).rows t r' hr' (hkey ▸ hstill)
    exact hgone r₁ hr₁ (hkey₁.trans hkey)

end Play

/-- A charger who asks to delete the post of the worker. -/
def deletion : Unit → Credentials × ApiRequest Json :=
  fun _ => ({ authorization := some "Bearer token" }, .member (.deleteBoard 1))

/-- What is left after some commands of the request. -/
def afterDeletion (sched : List Unit) : World Json (List String) :=
  (Pool.play (server still) (arrivals (.knowing chargerToken) deletion
    (World.fresh Db.postSample [])) sched).shared

/-- The id of the post of the sample is never given to another one. -/
theorem ids_play_post :
    (∀ b ∈ (afterDeletion ([] ++ [(), ()])).db.rows .caregiverBoard,
      keyOf .caregiverBoard b = keyOf .caregiverBoard samplePost →
        apiColumns .caregiverBoard samplePost b) ∧
    ((∀ b ∈ (afterDeletion ([] ++ [(), ()])).db.rows .caregiverBoard,
        keyOf .caregiverBoard b ≠ keyOf .caregiverBoard samplePost) →
      ∀ evenLater, ∀ b ∈ (afterDeletion ([] ++ [(), ()] ++ evenLater)).db.rows .caregiverBoard,
        keyOf .caregiverBoard b ≠ keyOf .caregiverBoard samplePost) := by
  have hnumbered : Numbered (World.fresh Db.postSample [] : World Json (List String)) := by
    intro t
    cases t <;> decide +kernel
  have hpost : samplePost ∈ (afterDeletion []).db.rows .caregiverBoard := by decide +kernel
  exact @ids_play _ _ (.knowing chargerToken) _ _ _ deletion _ hnumbered [] _ _ hpost [(), ()]

end Rooti

import Rooti.Access.Requests

/-!
# What every request keeps

A property of the rows that the statements of a request can only break if they are about certain
rows: whether they are shows while the request runs, from the rows it has read.  A request
`Respects` such a property if it does not break it from the moment the guard has let somebody pass,
given that the property holds whenever it looks, since everybody else respects it too.  Requests
that all respect a property keep it, in whatever order their commands take turns
(`respects_play`).

The requests whose footprints cannot break the property respect it whatever they read
(`Behaves.of_footprint`); the others are followed up to the first statement they record
(`Harmless.find`, `Harmless.raiseIf`, `Harmless.rest`).

## Main definitions

* `invRely`, `held` — a property of the rows, as what others keep and as an assertion
* `Harmless` — scripts that do not break the property
* `ScopeIn` — the scopes a principal may have been given
* `Behaves`, `ApiRequest.Respects` — endpoints and requests that do not break the property
-/

namespace Rooti

open Relational Program

variable {V D : Type}

section Keeping

variable {app : App V D} {J : Db → Prop} {α β : Type}

/-- A property of the rows may come to hold; it may not be lost. -/
abbrev invRely (J : Db → Prop) : Rely (World V D) := (Rely.keeping J).comap World.db

/-- The property holds. -/
def held (J : Db → Prop) : Assertion Session (invRely J : Rely (World V D)) :=
  .shared (fun w => J w.db) fun hmay h => hmay h

/-- A footprint that does not break the property, by its statements. -/
theorem allows_of_statements {F : Footprint}
    (h : ∀ d ∈ F.statements, ∀ db db', d.apply db = .ok db' → J db → J db') :
    F.Allows (invRely J : Rely (World V D)) := .db h

theorem idle_allows : ({} : Footprint).Allows (invRely J : Rely (World V D)) :=
  allows_of_statements (by rintro d ⟨⟩)

/-- Whoever starts where the property holds finds it at every command. -/
theorem among_held {P : Assertion Session (invRely J : Rely (World V D))} {p : Async V D α}
    {Q : α → Assertion Session (invRely J)} {X : Err → Assertion Session (invRely J)}
    (h : (server app.env).Among (invRely J) (invRely J) P p Q X) :
    (server app.env).Among (invRely J) (invRely J) (P.both (held J)) p
      (fun a => (Q a).both (held J)) X :=
  (h.frame (fun _ _ => id) (fun w => J w.db) fun hmay h => hmay h).weaken (fun _ _ => id)
    (fun _ _ _ => id) fun _ _ _ hs => hs.1

/-- What is known of the value of a part that records nothing. -/
theorem among_known {p : Async V D α} {φ : α → Prop} {X : Err → Assertion Session (invRely J)}
    (h : (server app.env).Among (invRely J : Rely (World V D)) (invRely J) blank p
      (fun a => blank.knowing (φ a)) X) :
    (server app.env).Among (invRely J) (invRely J) (blank.both (held J)) p
      (fun a => (blank.both (held J)).knowing (φ a)) X :=
  (among_held h).weaken (fun _ _ => id) (fun _ _ _ hs => ⟨hs.1.1, hs.1.2, hs.2⟩) fun _ _ _ => id

/-- **What a query shows** of rows with the property. -/
theorem among_lookup {binds : List Bind} {q : RowOrder → Db → α} {φ : α → Prop}
    (h : ∀ o db, J db → φ (q o db)) :
    (server app.env).Among (invRely J : Rely (World V D)) (invRely J) (blank.both (held J))
      (select binds q) (fun a => (blank.both (held J)).knowing (φ a))
      fun _ => recording (invRely J) := by
  have hquery : (server app.env).Among (invRely J : Rely (World V D)) (invRely J)
      (blank.both (held J)) (select binds q) (fun a => blank.both (.shared
        (fun w => φ a ∧ J w.db) fun hmay hw => ⟨hw.1, hmay hw.2⟩))
      fun _ => recording (invRely J) :=
    among_query idle_allows _ _ fun o w hw => ⟨h o w.db hw, hw⟩
  exact hquery.weaken (fun _ _ => id) (fun _ _ _ hs => ⟨hs.2.1, hs.1, hs.2.2⟩) fun _ _ _ => id

/-- A part that records nothing. -/
theorem among_unrecorded {p : Async V D α} (hp : Within {} p) :
    (server app.env).Among (invRely J : Rely (World V D)) (invRely J) (blank.both (held J)) p
      (fun _ => blank.both (held J)) fun _ => recording (invRely J) :=
  among_held (among_reading hp idle_allows)

/-! ## Scripts that do not break it -/

/-- **A script that has recorded nothing so far does not break the property.** -/
def Harmless (app : App V D) (J : Db → Prop) (p : Async V D α) : Prop :=
  (server app.env).Among (invRely J) (invRely J) (blank.both (held J)) p
    (fun _ => recording (invRely J)) fun _ => recording (invRely J)

namespace Harmless

/-- What is known before anything has been recorded is enough to stop. -/
theorem recording_of_held {s : Session} {w : World V D}
    (hs : (blank.both (held J) : Assertion Session (invRely J)) s w) :
    (recording (invRely J) : Assertion Session (invRely J)) s w :=
  recording_of_drafts idle_allows (drafts_of_blank hs.1)

/-- **From here on** what is done is within a footprint that does not break the property. -/
theorem rest {F : Footprint} {p : Async V D α} (hp : Within F p)
    (hF : F.Allows (invRely J : Rely (World V D))) : Harmless app J p :=
  (among_of_blank hp hF).weaken (fun _ _ hs => hs.1) (fun _ _ _ => id) fun _ _ _ => id

variable {f : α → Async V D β}

/-- **What a query shows** is known of the rest. -/
theorem lookup {binds : List Bind} {q : RowOrder → Db → α} {φ : α → Prop}
    (h : ∀ o db, J db → φ (q o db)) (hf : ∀ a, φ a → Harmless app J (f a)) :
    Harmless app J ((select binds q).bind f) :=
  .bind (among_lookup h) fun a => .of_knowing (hf a)

/-- A row that has to be there is found. -/
theorem find {t : Entity} {id : ℤ} {e : Err} {φ : Row t → Prop} {f : Row t → Async V D β}
    (h : ∀ db, J db → ∀ r ∈ db.find? t id, φ r) (hf : ∀ r, φ r → Harmless app J (f r)) :
    Harmless app J (((dbGet t id).bind (Prog.orRaise e)).bind f) := by
  have hfind : (server app.env).Among (invRely J : Rely (World V D)) (invRely J)
      (blank.both (held J)) (dbGet t id)
      (fun o => (blank.both (held J)).knowing (∀ r ∈ o, φ r)) fun _ => recording (invRely J) :=
    among_lookup fun _ => h
  refine .bind (Q := fun r => (blank.both (held J)).knowing (φ r)) (.bind hfind fun _ =>
    .of_knowing fun hfound => .orRaise (fun r hr _ _ hs => ⟨hfound r hr, hs⟩)
      fun _ _ => recording_of_held) fun r => .of_knowing (hf r)

/-- What did not raise is known of the rest. -/
theorem raiseIf {b : Bool} {e : Err} {f : PUnit → Async V D β}
    (hf : b = false → Harmless app J (f ⟨⟩)) : Harmless app J ((Prog.raiseIf b e).bind f) :=
  .bind (Q := fun _ => (blank.both (held J)).knowing (b = false))
    (.raiseIf (fun hb _ _ hs => ⟨hb, hs⟩) fun _ _ => recording_of_held) fun _ => .of_knowing hf

/-- A part that shows nothing. -/
theorem reading {p : Async V D α} (hp : Within {} p) (hf : ∀ a, Harmless app J (f a)) :
    Harmless app J (p.bind f) := .bind (among_unrecorded hp) hf

end Harmless

/-! ## Requests -/

/-- **A scope that may have been given**: that of an administrator, or the company a charger has
been seen to be of. -/
def ScopeIn (J : Db → Prop) (me : PrincipalDetails) : CompanyScopeValue → Prop
  | none => me.hasRole UserRole.admin.value
  | some companyId => ∃ db, J db ∧ ∃ charger ∈ db.rows .companyCharger,
      charger.userId = me.userId ∧ charger.companyId = companyId

/-- **An endpoint does not break the property**, nor does what it leaves to do. -/
def Behaves (app : App V D) (J : Db → Prop) (p : Async V D (ApiResponse V)) : Prop :=
  (server app.env).Among (invRely J) (invRely J) (blank.both (held J)) p
    (fun response => (recording (invRely J)).knowing (∃ F : Footprint,
      F.Allows (invRely J : Rely (World V D)) ∧ Within F (ApiRequest.background app response)))
    fun _ => recording (invRely J)

/-- **A footprint that does not break the property.** -/
theorem Behaves.of_footprint {F : Footprint} {p : Async V D (ApiResponse V)} (hp : Within F p)
    (hleaves : p.Returns fun response => Within F (ApiRequest.background app response))
    (hF : F.Allows (invRely J : Rely (World V D))) : Behaves app J p :=
  ((among_of_blank hp hF).returning hleaves).weaken (fun _ _ hs => hs.1)
    (fun _ _ _ hs => ⟨⟨F, hF, hs.1⟩, hs.2⟩) fun _ _ _ => id

/-- An endpoint whose answers leave nothing to do. -/
theorem Behaves.of_harmless {p : Async V D α} {f : α → ApiResponse V} (h : Harmless app J p)
    (hf : ∀ a, ApiRequest.background app (f a) = .ret ()) :
    Behaves app J (p.bind fun a => .ret (f a)) := by
  refine .bind h fun a => .ret fun _ _ hs => ⟨⟨{}, idle_allows, ?_⟩, hs⟩
  rw [hf]
  exact .ret

namespace ApiRequest

/-- **A request does not break the property**, once its guard has been passed. -/
def Respects [DecidableEq V] (app : App V D) (credentials : Credentials) (J : Db → Prop) :
    ApiRequest V → Prop
  | anyone request => Behaves app J (request.endpoint app)
  | member request => ∀ me, PassesGuard app credentials (.member request) me →
      Behaves app J (request.endpoint app me)
  | confined request => ∀ me scope, PassesGuard app credentials (.confined request) me →
      ScopeIn J me scope →
        Behaves app J ((request.endpoint app.env app.renderers app.ilike me scope).bind fun response =>
          .ret (.confined response))

end ApiRequest

/-- The scope is looked up among the rows. -/
theorem among_scope {me : PrincipalDetails} :
    (server app.env).Among (invRely J : Rely (World V D)) (invRely J) (blank.both (held J))
      (getCompanyScope app.crypto me)
      (fun scope => (blank.both (held J)).knowing
        (HasOneOf (some [.admin, .charger]) me ∧ ScopeIn J me scope))
      fun _ => recording (invRely J) := by
  refine .bind (among_known (among_requireRoles idle_allows)) fun me' => .of_knowing fun hme => ?_
  obtain ⟨rfl, hroles⟩ := hme
  refine .ite (fun hadmin => .ret fun _ _ hs => ⟨⟨hroles, hadmin⟩, hs⟩) fun _ => ?_
  refine .bind (among_lookup (φ := fun rows => ∀ companyId ∈ rows, ScopeIn J me' (some companyId))
    fun o db hdb companyId hmem => ?_) fun rows => .of_knowing fun hrows => ?_
  · obtain ⟨charger, hcharger, rfl⟩ := List.mem_map.mp hmem
    obtain ⟨hcharger, huser⟩ := List.mem_filter.mp ((RowOrder.mem_scan o).mp hcharger)
    exact ⟨db, hdb, charger, hcharger, of_decide_eq_true huser, rfl⟩
  · refine .bind (Q := fun found => (blank.both (held J)).knowing
      (∀ companyId ∈ found, companyId ∈ rows)) ?_ fun found => .of_knowing fun hfound =>
        .bind (Q := fun companyId => (blank.both (held J)).knowing (companyId ∈ rows))
          (.orRaise (fun companyId hsome _ _ hs => ⟨hfound companyId hsome, hs⟩)
            fun _ _ => Harmless.recording_of_held)
          fun companyId => .of_knowing fun hmem =>
            .ret fun _ _ hs => ⟨⟨hroles, hrows companyId hmem⟩, hs⟩
    rcases rows with _ | ⟨companyId, _ | ⟨companyId', rows⟩⟩
    · exact .ret fun _ _ hs => ⟨by rintro _ ⟨⟩, hs⟩
    · refine .ret fun _ _ hs => ⟨?_, hs⟩
      rintro _ ⟨⟩
      exact List.mem_cons_self
    · exact .raise fun _ _ => Harmless.recording_of_held

namespace ApiRequest

/-- **A request with its guard** does not break what it respects. -/
theorem among_endpoint_respects [DecidableEq V] {credentials : Credentials}
    {request : ApiRequest V} (h : request.Respects app credentials J) :
    Behaves (D := D) app J (request.endpoint app credentials) := by
  cases request with
  | anyone request => exact h
  | member request =>
      exact .bind (among_known (among_guarded idle_allows)) fun me => .of_knowing fun hme => h me hme
  | confined request =>
      refine .bind (among_known (among_currentUser idle_allows)) fun me => .of_knowing fun hme =>
        .bind among_scope fun scope => .of_knowing fun hscope => ?_
      exact h me scope ⟨hme, hscope.1⟩ hscope.2

/-- **All the server does about a request** that does not break the property. -/
theorem among_handle_respects [DecidableEq V] {credentials : Credentials}
    {request : ApiRequest V} (h : request.Respects (D := D) app credentials J) :
    (server app.env).Among (invRely J : Rely (World V D)) (invRely J) (blank.both (held J))
      (request.handle app credentials) (fun _ => recording (invRely J))
      fun _ => recording (invRely J) := by
  have hsession : (server app.env).Among (invRely J : Rely (World V D)) (invRely J)
      (blank.both (held J)) (getDbSession app.env (request.endpoint app credentials))
      (fun response => blank.knowing (∃ F : Footprint, F.Allows (invRely J : Rely (World V D)) ∧
        Within F (background app response))) fun _ => recording (invRely J) :=
    (among_getDbSession (among_endpoint_respects h) fun _ => among_endTransaction).weaken
      (fun _ _ => id) (fun _ _ _ => id)
      fun _ _ _ hs => recording_of_drafts idle_allows (drafts_of_blank hs)
  refine .bind hsession fun response => .of_knowing fun ⟨F, hF, hwithin⟩ =>
    .bind (Q := fun _ => recording (invRely J)) ?_ fun _ => .ret fun _ _ hs => hs
  exact .handle (among_of_blank hwithin hF) fun _ => .ret fun _ _ hs => hs

end ApiRequest

/-- **What every request respects is kept**, in whatever order their commands take turns. -/
theorem respects_play {ι : Type} [DecidableEq ι] [DecidableEq V]
    {requests : ι → Credentials × ApiRequest V}
    (h : ∀ i, (requests i).2.Respects (D := D) app (requests i).1 J) {w : World V D} (hw : J w.db)
    (sched : List ι) :
    J (Pool.play (server app.env) (arrivals app requests w) sched).shared.db := by
  have hamong : (arrivals app requests w).Among (server app.env)
      (fun _ => (invRely J : Rely (World V D))) (fun _ => invRely J)
      fun _ => Machine.outcome (fun _ => recording (invRely J)) fun _ => recording (invRely J) :=
    fun i => ApiRequest.among_handle_respects (h i) {} w ⟨rfl, hw⟩
  exact hamong.total (fun _ _ _ _ _ hstep => hstep) (fun _ _ _ hstep => hstep) sched hw

end Keeping

end Rooti

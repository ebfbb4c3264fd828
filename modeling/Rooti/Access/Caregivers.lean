import Rooti.Access.LifeCycles
import Rooti.Access.Ownership

/-!
# The case files of a caregiver

The relations of a caregiver to workers, and the documents of these relations, stay as they are
while only others make requests who are no administrators, in whatever order the commands of these
requests take turns (`caseFiles_play`).

The gate on documents asks for the account of the actor, for the relation of the document and for
its caregiver, by one query each, and another request may come between any two of them.  What the
answers show stays true: the roles of accounts and the accounts of caregivers never change, which
follows from the life cycles of the rows (`Meanwhile.lives`), and a relation somebody has read that
is another caregiver's has a key that is not of the case files.

## Main definitions

* `caseFiles` — the relations and documents of a caregiver
* `Meanwhile` — what holds while only others make requests
* `Outsider` — who the others are
-/

namespace Rooti

open Relational Program

variable {V D : Type}

section Caregivers

variable {app : App V D} {db₀ : Db} {userId : ℤ} {me : PrincipalDetails}

/-- The id of a caregiver with the account. -/
def CaregiverId (userId : ℤ) (db₀ : Db) (caregiverId : ℤ) : Prop :=
  ∃ c ∈ db₀.rows .caregiver, c.userId = userId ∧ c.id = caregiverId

/-- The id of a relation of a caregiver with the account. -/
def RelationId (userId : ℤ) (db₀ : Db) (relationId : ℤ) : Prop :=
  ∃ r ∈ db₀.rows .caregiverWorkerRelation, CaregiverId userId db₀ r.caregiverId ∧ r.id = relationId

/-- **The case files of a caregiver**: the relations, and their documents. -/
def caseFiles (userId : ℤ) (db₀ : Db) : Ownership schema db₀ where
  mine
    | .caregiverWorkerRelation, r => CaregiverId userId db₀ r.caregiverId
    | .caregiverDocument, d => RelationId userId db₀ d.relationId
    | _, _ => False
  mortal := apiMortal Set.univ
  cascades := cascades_apiMortal
  closed t r _ hmine ref href hcascade hmortal := by
    cases t <;> try exact hmine.elim
    case caregiverWorkerRelation =>
      -- caregivers and workers are not deleted
      simp only [schema, refs, List.mem_cons, List.not_mem_nil, or_false] at href
      obtain rfl | rfl := href
      · exact hmortal.elim
      · exact hmortal.elim
    case caregiverDocument =>
      simp only [schema, refs, List.mem_cons, List.not_mem_nil, or_false] at href
      obtain rfl | rfl := href
      · obtain ⟨x, hx, hcaregiver, hkey⟩ := hmine
        exact ⟨x, hx, hcaregiver, hkey⟩
      · cases hcascade

/-- Nothing else belongs to the case files. -/
theorem caseFiles_elsewhere {t : Entity} (ht : t ≠ .caregiverWorkerRelation)
    (ht' : t ≠ .caregiverDocument) (r : Row t) : ¬(caseFiles userId db₀).mine t r := by
  cases t <;> first | exact id | exact absurd rfl ht | exact absurd rfl ht'

/-- **What holds while only others make requests.** -/
structure Meanwhile (userId : ℤ) (db₀ db : Db) : Prop where
  kept : (caseFiles userId db₀).Kept db
  lives : (apiCycle Set.univ).May db₀ db

/-- **Somebody else who is no administrator**, by the role of the account. -/
structure Outsider (userId : ℤ) (db₀ : Db) (me : PrincipalDetails) : Prop where
  ne : me.userId ≠ userId
  not_admin : ∀ u ∈ db₀.rows .user, u.id = me.userId → u.role ≠ .admin

namespace Meanwhile

variable {db : Db} (h : Meanwhile userId db₀ db)

include h in
/-- Nobody becomes an administrator. -/
theorem not_admin (hme : Outsider userId db₀ me) {u : User}
    (hu : u ∈ db.find? .user me.userId) : u.role ≠ .admin := by
  have hid : u.id = me.userId := Table.find?_key hu
  obtain ⟨u₀, hu₀, hbecomes⟩ | ⟨u₀, hborn, hbecomes⟩ :=
    h.lives.origin .user u (Table.find?_mem hu)
  · rw [hbecomes.1.2.2]
    exact hme.not_admin u₀ hu₀ (hbecomes.1.1.symm.trans hid)
  · rw [hbecomes.1.2.2]
    obtain hrole | ⟨hrole, -⟩ := hborn
    · rw [hrole]
      decide
    · rw [hrole]
      decide

include h in
/-- The caregiver of an account keeps its id. -/
theorem not_caregiverId {other : ℤ} (hother : other ≠ userId) {c : Caregiver}
    (hc : c ∈ db.rows .caregiver) (huser : c.userId = other) : ¬CaregiverId userId db₀ c.id := by
  rintro ⟨c₀, hc₀, huser₀, hid⟩
  obtain ⟨c', hc', hbecomes⟩ := h.lives.fate .caregiver id c₀ hc₀
  obtain rfl : c' = c₀ := hbecomes.1
  obtain rfl := Table.eq_of_key hc' hc hid
  exact hother (huser.symm.trans huser₀)

end Meanwhile

/-- **What outsiders may do**: statements that are nothing to the case files, and that the life
cycles permit. -/
def outsiders (userId : ℤ) (db₀ : Db) : Footprint where
  statements := {d | (caseFiles userId db₀).Foreign d ∧ (apiCycle Set.univ).Permits d}
  keys := Set.univ
  files := true
  mails := true

/-- What outsiders may do keeps the case files. -/
theorem outsiders_allows :
    (outsiders userId db₀).Allows (invRely (Meanwhile userId db₀) : Rely (World V D)) :=
  allows_of_statements fun _ hd _ _ happly h =>
    ⟨Ownership.kept_apply hd.1 happly h.kept, h.lives.trans (LifeCycle.may_apply hd.2 happly)⟩

/-! ## What the gate shows -/

variable {α : Type}

/-- The caregiver of another account. -/
theorem harmless_getByUserId (hme : Outsider userId db₀ me) {f : Caregiver → Async V D α}
    (hf : ∀ c, ¬CaregiverId userId db₀ c.id → Harmless app (Meanwhile userId db₀) (f c)) :
    Harmless app (Meanwhile userId db₀) ((CaregiverService.getByUserId me.userId).bind f) := by
  rw [CaregiverService.getByUserId]
  simp only [Prog.bind_eq, Prog.bind_assoc]
  refine Harmless.lookup (φ := fun rows => ∀ c ∈ rows, ¬CaregiverId userId db₀ c.id)
    (fun o db h c hc => ?_) fun rows hrows => ?_
  · obtain ⟨hmem, huser⟩ := List.mem_filter.mp ((RowOrder.mem_scan o).mp hc)
    exact h.not_caregiverId hme.ne hmem (of_decide_eq_true huser)
  · rcases rows with _ | ⟨c, _ | ⟨c', rows⟩⟩
    · exact .rest .raise outsiders_allows
    · exact hf c (hrows c List.mem_cons_self)
    · exact .rest .raise outsiders_allows

/-- A relation by its id. -/
theorem harmless_relation {relationId : ℤ} {e : Err} {f : CaregiverWorkerRelation → Async V D α}
    (hf : ∀ r, r.id = relationId → (¬CaregiverId userId db₀ r.caregiverId →
      ¬RelationId userId db₀ r.id) → Harmless app (Meanwhile userId db₀) (f r)) :
    Harmless app (Meanwhile userId db₀)
      (((dbGet .caregiverWorkerRelation relationId).bind (Prog.orRaise e)).bind f) := by
  refine Harmless.find (φ := fun r : CaregiverWorkerRelation => r.id = relationId ∧
    (¬CaregiverId userId db₀ r.caregiverId → ¬RelationId userId db₀ r.id)) (fun db h r hr => ?_)
    fun r hr => hf r hr.1 hr.2
  exact ⟨Table.find?_key hr, fun hother => h.kept.foreign_key (Table.find?_mem hr) hother⟩

/-- **Whoever passes the gate** is the caregiver of the relation. -/
theorem harmless_ensureActorOwnsRelation (hme : Outsider userId db₀ me)
    {relation : CaregiverWorkerRelation} {f : Unit → Async V D α}
    (hf : ¬CaregiverId userId db₀ relation.caregiverId →
      Harmless app (Meanwhile userId db₀) (f ())) :
    Harmless app (Meanwhile userId db₀)
      ((CaregiverDocumentService.ensureActorOwnsRelation me.userId relation).bind f) := by
  rw [CaregiverDocumentService.ensureActorOwnsRelation]
  simp only [Prog.bind_eq, Prog.bind_assoc]
  rw [← Prog.bind_assoc]
  refine Harmless.find (φ := fun u : User => u.role ≠ .admin)
    (fun db h u hu => h.not_admin hme hu) fun u hu => ?_
  rw [if_neg hu, CaregiverDocumentService.ensureActorIsCaregiver]
  simp only [Prog.bind_eq, Prog.bind_assoc]
  refine Harmless.lookup (φ := fun o => ∀ c ∈ o, c.userId = me.userId →
    ¬CaregiverId userId db₀ relation.caregiverId) (fun _ db h c hc huser => ?_) fun o ho =>
      .raiseIf fun hall => ?_
  · rw [← Table.find?_key hc]
    exact h.not_caregiverId hme.ne (Table.find?_mem hc) huser
  · cases o with
    | none => cases hall
    | some c => exact hf (ho c rfl (by simpa using hall))

/-- **Whoever has got a document by its id** has one that is not of the case files. -/
theorem harmless_ownDocument (hme : Outsider userId db₀ me) {documentId : ℤ}
    {f : CaregiverDocument → Async V D α}
    (hf : ∀ doc, ¬(caseFiles userId db₀).Key .caregiverDocument doc.id →
      Harmless app (Meanwhile userId db₀) (f doc)) :
    Harmless app (Meanwhile userId db₀)
      ((CaregiverDocumentService.ownDocument me.userId documentId).bind f) := by
  rw [CaregiverDocumentService.ownDocument]
  simp only [Prog.bind_eq, Prog.bind_assoc]
  rw [← Prog.bind_assoc]
  refine Harmless.find (φ := fun doc : CaregiverDocument => ¬RelationId userId db₀ doc.relationId →
    ¬(caseFiles userId db₀).Key .caregiverDocument doc.id)
    (fun db h doc hdoc hother => h.kept.foreign_key (Table.find?_mem hdoc) hother) fun doc hdoc => ?_
  refine harmless_relation fun r hr hrelation => harmless_ensureActorOwnsRelation hme
    fun hcaregiver => hf doc (hdoc ?_)
  rw [← hr]
  exact hrelation hcaregiver

/-! ## Requests of others -/

/-- Rows that are not of the case files are added. -/
theorem within_outsiders_add {t : Entity} {mk : NewRow → Row t}
    (hmine : ∀ new, ¬(caseFiles userId db₀).mine t (mk new))
    (hborn : ∀ new, apiBorn Set.univ t (mk new))
    (hkey : ∀ new, keyOf t (mk new) = new.id := by exact fun _ => rfl) :
    Within (outsiders userId db₀) (add t mk : Async V D NewRow) :=
  .lift ⟨fun new => ⟨hmine new, hborn new⟩, hkey⟩

/-- A row that is not of the case files may be deleted. -/
theorem within_outsiders_delete {t : Entity} {row : Row t}
    (hrow : ¬(caseFiles userId db₀).Key t (keyOf t row)) (ht : apiMortal Set.univ t) :
    Within (outsiders userId db₀) (delete t row : Async V D Unit) := .lift ⟨⟨⟨hrow, ht⟩, ht⟩, trivial⟩

/-- An entry of the log is added. -/
theorem within_outsiders_log {documentId : ℤ} {action : CaregiverDocumentActionType} :
    Within (outsiders userId db₀)
      (CaregiverDocumentService.log me.userId documentId action : Async V D Unit) :=
  .bind (within_outsiders_add (fun _ => id) fun _ => ⟨me, trivial⟩) fun _ => .ret

/-- **A request that writes elsewhere** leaves the case files alone. -/
theorem behaves_outsiders {F : Footprint} {p : Async V D (ApiResponse V)} {ts : List Entity}
    (hp : Within F p)
    (hleaves : p.Returns fun response => Within F (ApiRequest.background app response))
    (hF : ∀ d ∈ F.statements, OnTables ts d)
    (hpermits : ∀ d ∈ F.statements, (apiCycle Set.univ).Permits d)
    (hts : .caregiverWorkerRelation ∉ ts ∧ .caregiverDocument ∉ ts) :
    Behaves app (Meanwhile userId db₀) p := by
  refine .of_footprint hp hleaves (outsiders_allows.mono
    ⟨fun d hd => ⟨?_, hpermits d hd⟩, Set.subset_univ _, fun _ => rfl, fun _ => rfl⟩)
  refine foreign_of_onTables (hF d hd) rfl fun t ht => caseFiles_elsewhere ?_ ?_
  · rintro rfl
    exact hts.1 ht
  · rintro rfl
    exact hts.2 ht

/-- **Requests of outsiders** leave the case files alone. -/
theorem MemberRequest.behaves_outsiders (hme : Outsider userId db₀ me) (request : MemberRequest)
    (hroles : HasOneOf request.roles me) :
    Behaves app (Meanwhile userId db₀) (request.endpoint (V := V) (D := D) app me) := by
  cases request with
  | registerWorker workerId =>
      refine .of_harmless (harmless_getByUserId hme fun c hc => .rest ?_ outsiders_allows)
        fun _ => rfl
      exact .bind .select fun _ => .bind .raiseIf fun _ => .bind .dbGet fun _ => .bind .orRaise
        fun _ => .bind (within_outsiders_add (fun _ => hc) fun _ => has_of_guard trivial hroles)
          fun _ => .bind .flush fun _ => .ret
  | removeRelation relationId =>
      refine .of_harmless (harmless_getByUserId hme fun c hc => ?_) fun _ => rfl
      simp only [Prog.bind_eq]
      rw [← Prog.bind_assoc]
      refine harmless_relation fun r hr hrelation => .raiseIf fun hsame => ?_
      have hsame : r.caregiverId = c.id := by simpa using hsame
      exact .rest (within_outsiders_delete (hrelation (hsame ▸ hc)) (has_of_guard trivial hroles))
        outsiders_allows
  | uploadDocument relationId typeId file =>
      refine .of_harmless (.reading .ofExcept fun _ => harmless_relation fun r hr hrelation =>
        harmless_ensureActorOwnsRelation hme fun hcaregiver => .rest ?_ outsiders_allows)
        fun _ => rfl
      have hother : ¬RelationId userId db₀ relationId := hr ▸ hrelation hcaregiver
      exact .bind .dbGet fun _ => .bind .orRaise fun _ =>
        .bind (.handle (.storage (.inl rfl)) fun _ => .raise) fun _ =>
          .bind (within_outsiders_add (fun _ => hother) fun _ => ⟨me, trivial⟩) fun _ =>
            .bind .flush fun _ => .bind within_outsiders_log fun _ => .ret
  | deleteDocument documentId =>
      refine .of_harmless (harmless_ownDocument hme fun doc hdoc => .rest ?_ outsiders_allows)
        fun _ => rfl
      exact .bind within_outsiders_log fun _ => .bind (.storage (.inl rfl)) fun _ =>
        within_outsiders_delete hdoc ⟨me, trivial⟩
  | _ =>
      refine Rooti.behaves_outsiders (MemberRequest.within_endpoint _)
        (MemberRequest.returns_background _) (MemberRequest.onTables _)
        (MemberRequest.permits _ trivial hroles) ?_
      simp [MemberRequest.tables]

/-- Logging in, refreshing and signing up leave the case files alone. -/
theorem PublicRequest.respects_outsiders [DecidableEq V] {credentials : Credentials}
    (request : PublicRequest V) :
    (ApiRequest.anyone request).Respects (D := D) app credentials (Meanwhile userId db₀) := by
  refine Rooti.behaves_outsiders request.within_endpoint request.returns_background request.onTables
    request.permits ?_
  cases request <;> simp [PublicRequest.tables]

/-- So do the requests that are confined to a company. -/
theorem ScopedRequest.behaves_outsiders {scope : CompanyScopeValue} (request : ScopedRequest) :
    Behaves (V := V) (D := D) app (Meanwhile userId db₀)
      ((request.endpoint app.env app.renderers app.ilike me scope).bind fun response =>
        .ret (.confined response)) := by
  refine Rooti.behaves_outsiders (.bind request.within_endpoint fun _ => .ret)
    (request.returns_background.andThen fun _ hwithin => hwithin) request.onTables
    (request.permits staff_univ) ?_
  cases request <;> simp [ScopedRequest.tables]

end Caregivers

/-! ## In any order -/

section Play

variable {app : App V D} {ι : Type} {requests : ι → Credentials × ApiRequest V}

/-- **The case files of a caregiver stay as they are** while only others make requests who are no
administrators, in whatever order their commands take turns: no relation to a worker is added or
removed, and no document is uploaded to the relations or deleted. -/
theorem caseFiles_play [DecidableEq ι] [DecidableEq V] (w : World V D) (sched : List ι) {userId : ℤ}
    (hothers : ∀ me ∈ principals app requests, Outsider userId w.db me) {t : Entity} {r : Row t}
    (hr : (caseFiles userId w.db).mine t r) :
    r ∈ (Pool.play (server app.env) (arrivals app requests w) sched).shared.db.rows t ↔
      r ∈ w.db.rows t := by
  refine (respects_play (J := Meanwhile userId w.db) (fun i => ?_)
    ⟨Ownership.kept_start, LifeCycle.May.refl w.db⟩ sched).kept t r hr
  have hactors : ∀ me ∈ actors app (requests i), Outsider userId w.db me :=
    fun me hme => hothers me ⟨i, hme⟩
  revert hactors
  obtain ⟨credentials, request⟩ := requests i
  intro hactors
  cases request with
  | anyone request => exact request.respects_outsiders
  | member request =>
      exact fun me hguard =>
        request.behaves_outsiders (hactors me ⟨by rintro _ ⟨⟩, hguard⟩) hguard.2
  | confined request => exact fun _ _ _ _ => request.behaves_outsiders

end Play

/-- A document of the caregiver. -/
def sampleDocument : CaregiverDocument where
  id := 1
  relationId := 1
  typeId := 1
  filename := "caregiver-documents/1/a.pdf"
  fileSize := some 0
  contentType := none
  createdAt := ⟨0, none⟩
  createdBy := some 1
  updatedBy := some 1

/-- An installation with a caregiver who looks after a worker, and a charger. -/
def Db.caseSample : Db := Db.ofStatements
  [.insert .user ⟨1, "carer", none, "", "Carer", none, .caregiver, true, none⟩,
    .insert .user ⟨2, "charger", none, "", "Charger", none, .charger, true, none⟩,
    .insert .user ⟨3, "worker", none, "", "Worker", none, .worker, true, none⟩,
    .insert .challengedWorker ⟨1, 3, none, none⟩,
    .insert .caregiver ⟨1, 1⟩,
    .insert .caregiverWorkerRelation ⟨1, 1, 1⟩,
    .insert .caregiverDocumentType ⟨1, "Diagnosis"⟩,
    .insert .caregiverDocument sampleDocument]

/-- The charger cannot delete the document of the caregiver. -/
theorem caseFiles_play_charger :
    sampleDocument ∈ (Pool.play (server still) (arrivals (.knowing chargerToken)
      (fun _ : Unit => ({ authorization := some "Bearer token" }, .member (.deleteDocument 1)))
      (World.fresh Db.caseSample [])) (List.replicate 9 ())).shared.db.rows .caregiverDocument ↔
      sampleDocument ∈ Db.caseSample.rows .caregiverDocument := by
  have hothers : ∀ me ∈ principals (.knowing chargerToken) (fun _ : Unit =>
      ({ authorization := some "Bearer token" }, .member (.deleteDocument 1))),
      Outsider 1 Db.caseSample me := by
    rintro me ⟨_, -, hspeaks, -⟩
    rw [charger_of_speaksFor hspeaks]
    exact ⟨by decide, by decide +kernel⟩
  have hmine : (caseFiles 1 Db.caseSample).mine .caregiverDocument sampleDocument :=
    ⟨⟨1, 1, 1⟩, by decide +kernel, ⟨⟨1, 1⟩, by decide +kernel, rfl, rfl⟩, rfl⟩
  exact caseFiles_play (World.fresh Db.caseSample []) _ hothers hmine

end Rooti

import Rooti.Access.Keeping
import Rooti.Access.Standing
import Rooti.Lib.Ownership

/-!
# Requests of others

The rows of an owner are left alone by the requests of everybody else.  For most requests that shows
in the tables they write (`MemberRequest.tables`).  A request that writes a table with rows of the
owner says which row it is about by its id, reads that row, and goes on only if it is of the sender;
then it is not of the owner, whatever has happened in between, since the rows of the owner have not
changed either.

The posts of the board are an instance: they are their authors' (`boards_play`).

## Main definitions

* `foreign` — the footprint of everybody but the owner
* `PublicRequest.tables`, `MemberRequest.tables`, `ScopedRequest.tables` — what requests write
* `boardsOf` — the posts of an author

## What carries the proof

Which ids are the owner's is fixed at the beginning and does not depend on the state
(`Ownership.Key`). This is what makes a check stay valid: while what is owned is as it
was, a row with somebody else's name on it has an id that is not the owner's
(`Ownership.Kept.foreign_key`), and a write to that id is harmless whenever it comes, be
it that the row has been deleted in the meantime.

The two ways of showing this meet in `Behaves`: a request either writes no table in
which anything is owned (`behaves_elsewhere`), or is followed along its script
(`harmless_ownBoard`).
-/

namespace Rooti

open Relational Program

variable {V D : Type}

/-! ## Footprints of others -/

section Foreign

variable {db₀ : Db} {O : Ownership schema db₀} {t : Entity}

/-- **What everybody but the owner may do**. -/
def foreign (O : Ownership schema db₀) : Footprint where
  statements := {d | O.Foreign d}
  keys := Set.univ
  files := true
  mails := true

/-- Others keep what is owned. -/
theorem foreign_allows : (foreign O).Allows (invRely O.Kept : Rely (World V D)) :=
  allows_of_statements fun _ hd _ _ happly => O.kept_apply hd happly

/-- A footprint whose statements are those of others. -/
theorem le_foreign {F : Footprint} (h : ∀ d ∈ F.statements, O.Foreign d) : F.Le (foreign O) :=
  ⟨h, Set.subset_univ _, fun _ => rfl, fun _ => rfl⟩

/-- Rows that are added are not of the owner. -/
theorem within_foreign_add {mk : NewRow → Row t} (h : ∀ new, ¬O.mine t (mk new))
    (hkey : ∀ new, keyOf t (mk new) = new.id := by exact fun _ => rfl) :
    Within (foreign O) (add t mk : Async V D NewRow) := .lift ⟨h, hkey⟩

/-- A row that is not of the owner stays so. -/
theorem within_foreign_modify {row : Row t} {f : Row t → Row t} (hrow : ¬O.Key t (keyOf t row))
    (hf : ∀ now r, O.mine t (setUpdatedAt now t (f r)) → O.mine t r)
    (hkey : ∀ r, keyOf t (f r) = keyOf t r := by exact fun _ => rfl) :
    Within (foreign O) (modify t row f : Async V D Unit) := .lift ⟨fun now => ⟨hrow, hf now⟩, hkey⟩

/-- A row that is not of the owner may be deleted. -/
theorem within_foreign_delete {row : Row t} (hrow : ¬O.Key t (keyOf t row)) (ht : O.mortal t) :
    Within (foreign O) (delete t row : Async V D Unit) := .lift ⟨⟨hrow, ht⟩, trivial⟩

/-- Tables in which nothing is owned. -/
theorem foreign_of_table {d : Statement} (hmine : ∀ r, ¬O.mine d.table r)
    (hdelete : ∀ t k, d = .delete t k → O.mortal t) : O.Foreign d := by
  have hkey : ∀ k, ¬O.Key d.table k := fun k ⟨r, _, hr, _⟩ => hmine r hr
  cases d with
  | insert t r => exact hmine r
  | update t k f => exact ⟨hkey k, fun r h => absurd h (hmine _)⟩
  | delete t k => exact ⟨hkey k, hdelete t k rfl⟩

end Foreign

/-! ## The tables of the requests -/

section Tables

/-- The tables a request without a principal writes. -/
def PublicRequest.tables : PublicRequest V → List Entity
  | .login _ => [.challengedWorker, .user]
  | .refresh _ => []
  | .signupCaregiver _ => [.user, .caregiver]

/-- The tables a request of a principal writes. -/
def MemberRequest.tables : MemberRequest → List Entity
  | changePassword .. | updateMe _ | setEnabled .. => [.user]
  | createCompany _ | updateCompany .. | deactivateCompany _ => [.company]
  | createWorker _ => [.user, .challengedWorker]
  | hireWorker .. | fireCompanyWorker _ => [.companyWorker]
  | retireWorker _ | rehireWorker _ => [.challengedWorker]
  | registerWorker _ | removeRelation _ => [.caregiverWorkerRelation]
  | createStandard _ => [.jobStandard, .jobProcess]
  | updateStandard .. | deactivateStandard _ => [.jobStandard]
  | syncProcesses .. => [.jobProcess]
  | assign .. | unassign _ => [.jobWorker]
  | createSchedule _ | batchMake _ | closeSchedule .. => [.workSchedule]
  | beginRecord _ => [.workRecord]
  | endRecord _ => [.workRecord, .workSchedule]
  | beginProcess _ | endProcess _ => [.workProcessRecord]
  | createBoard _ | updateBoard .. | deleteBoard _ => [.caregiverBoard]
  | uploadDocument .. | deleteDocument _ => [.caregiverDocument, .caregiverDocumentLog]
  | downloadDocument _ => [.caregiverDocumentLog]
  | updateCharger .. => [.companyCharger]
  | _ => []

/-- The tables a request confined to a company writes. -/
def ScopedRequest.tables : ScopedRequest → List Entity
  | createLeave _ | decideLeave .. | deleteLeave _ => [.leave]
  | bindKiosk _ | setAssignee .. | unbind _ => [.companyKiosk]
  | bulkEmail _ => [.bulkEmailJob]
  | createEmailSchedule _ | updateEmailSchedule .. | deleteEmailSchedule _ =>
      [.journalEmailSchedule]
  | _ => []

variable {db₀ : Db} {O : Ownership schema db₀} {d : Statement}

/-- A statement of a table, which deletes only where somebody does. -/
def OnTables (ts : List Entity) (d : Statement) : Prop :=
  d.table ∈ ts ∧ ∀ t k, d = .delete t k → apiMortal Set.univ t

/-- New rows of a table. -/
theorem onTables_adds {ts : List Entity} {t : Entity} {P : Row t → Prop} (ht : t ∈ ts) :
    ∀ d ∈ adds t P, OnTables ts d := by
  rintro _ ⟨r, -, rfl⟩
  exact ⟨ht, nofun⟩

/-- Changes in a table. -/
theorem onTables_edits {ts : List Entity} {t : Entity} {P : Row t → Row t → Prop} (ht : t ∈ ts) :
    ∀ d ∈ edits t P, OnTables ts d := by
  rintro _ ⟨k, f, -, rfl⟩
  exact ⟨ht, nofun⟩

/-- Deletions in a table. -/
theorem onTables_removes {ts : List Entity} {t : Entity} (ht : t ∈ ts)
    (hmortal : apiMortal Set.univ t) : ∀ d ∈ removes t, OnTables ts d := by
  rintro _ ⟨k, rfl⟩
  refine ⟨ht, ?_⟩
  rintro _ _ ⟨⟩
  exact hmortal

/-- Statements of two kinds. -/
theorem onTables_union {ts : List Entity} {S S' : Set Statement} (h : ∀ d ∈ S, OnTables ts d)
    (h' : ∀ d ∈ S', OnTables ts d) : ∀ d ∈ S ∪ S', OnTables ts d :=
  fun d hd => hd.elim (h d) (h' d)

/-- The footprints write the tables that are listed. -/
theorem PublicRequest.onTables (request : PublicRequest V) :
    ∀ d ∈ request.footprint.statements, OnTables request.tables d := by
  cases request with
  | login req =>
      exact onTables_union (onTables_edits (.head _)) (onTables_edits (.tail _ (.head _)))
  | refresh refreshToken => rintro d ⟨⟩
  | signupCaregiver req =>
      exact onTables_union (onTables_adds (.head _)) (onTables_adds (.tail _ (.head _)))

/-- So do those of principals. -/
theorem MemberRequest.onTables {me : PrincipalDetails} (request : MemberRequest) :
    ∀ d ∈ (request.footprint me).statements, OnTables request.tables d := by
  have hcaregiver : Has Set.univ .caregiver := ⟨⟨0, "", ["CAREGIVER"], true, true⟩, trivial, .head _⟩
  have hany : (Set.univ : Set PrincipalDetails).Nonempty := hcaregiver.nonempty
  cases request with
  | createWorker | createStandard | uploadDocument =>
      exact onTables_union (onTables_adds (.head _)) (onTables_adds (.tail _ (.head _)))
  | createCompany | hireWorker | registerWorker | createSchedule | batchMake
  | beginRecord | beginProcess | createBoard | downloadDocument =>
      exact onTables_adds (.head _)
  | changePassword | updateMe | setEnabled | updateCompany | deactivateCompany
  | fireCompanyWorker | retireWorker | rehireWorker | updateStandard | deactivateStandard
  | unassign | closeSchedule | endProcess | updateBoard | updateCharger =>
      exact onTables_edits (.head _)
  | removeRelation => exact onTables_removes (.head _) hcaregiver
  | deleteBoard => exact onTables_removes (.head _) hany
  | syncProcesses =>
      exact onTables_union (onTables_union (onTables_removes (.head _) staff_univ)
        (onTables_edits (.head _))) (onTables_adds (.head _))
  | assign =>
      exact onTables_union (onTables_adds (.head _)) (onTables_edits (.head _))
  | endRecord =>
      exact onTables_union (onTables_edits (.head _)) (onTables_edits (.tail _ (.head _)))
  | deleteDocument =>
      exact onTables_union (onTables_removes (.head _) hany) (onTables_adds (.tail _ (.head _)))
  -- the others only read, or write to Redis
  | _ => rintro d ⟨⟩

/-- And those of a company's staff. -/
theorem ScopedRequest.onTables (request : ScopedRequest) :
    ∀ d ∈ request.footprint.statements, OnTables request.tables d := by
  cases request with
  | createLeave | bindKiosk | createEmailSchedule => exact onTables_adds (.head _)
  | decideLeave | setAssignee | updateEmailSchedule => exact onTables_edits (.head _)
  | deleteLeave | unbind | deleteEmailSchedule => exact onTables_removes (.head _) staff_univ
  | bulkEmail => exact onTables_union (onTables_adds (.head _)) (onTables_edits (.head _))
  | _ => rintro d ⟨⟩

end Tables

/-! ## Requests that write no table of the owner -/

section Elsewhere

variable {app : App V D} {credentials : Credentials} {db₀ : Db} {O : Ownership schema db₀}

/-- Statements on tables in which nothing is owned are foreign. -/
theorem foreign_of_onTables {ts : List Entity} {d : Statement} (hd : OnTables ts d)
    (hmortal : O.mortal = apiMortal Set.univ) (hts : ∀ t ∈ ts, ∀ r, ¬O.mine t r) : O.Foreign d :=
  foreign_of_table (hts _ hd.1) fun t k h => hmortal ▸ hd.2 t k h

variable (hmortal : O.mortal = apiMortal Set.univ)

include hmortal in
/-- **A request that writes elsewhere** respects what is owned. -/
theorem behaves_elsewhere {F : Footprint} {p : Async V D (ApiResponse V)} {ts : List Entity}
    (hp : Within F p)
    (hleaves : p.Returns fun response => Within F (ApiRequest.background app response))
    (hF : ∀ d ∈ F.statements, OnTables ts d) (hts : ∀ t ∈ ts, ∀ r, ¬O.mine t r) :
    Behaves app O.Kept p :=
  .of_footprint hp hleaves (foreign_allows.mono
    (le_foreign fun d hd => foreign_of_onTables (hF d hd) hmortal hts))

include hmortal in
/-- Logging in, refreshing and signing up, where they write elsewhere. -/
theorem PublicRequest.respects [DecidableEq V] (request : PublicRequest V)
    (hts : ∀ t ∈ request.tables, ∀ r, ¬O.mine t r) :
    (ApiRequest.anyone request).Respects (D := D) app credentials O.Kept :=
  behaves_elsewhere hmortal request.within_endpoint request.returns_background request.onTables hts

include hmortal in
/-- A request of a principal that writes elsewhere. -/
theorem MemberRequest.behaves {me : PrincipalDetails} (request : MemberRequest)
    (hts : ∀ t ∈ request.tables, ∀ r, ¬O.mine t r) :
    Behaves app O.Kept (request.endpoint (V := V) (D := D) app me) :=
  behaves_elsewhere hmortal request.within_endpoint request.returns_background request.onTables hts

include hmortal in
/-- A request of a company's staff that writes elsewhere. -/
theorem ScopedRequest.behaves {me : PrincipalDetails} {scope : CompanyScopeValue}
    (request : ScopedRequest) (hts : ∀ t ∈ request.tables, ∀ r, ¬O.mine t r) :
    Behaves (V := V) (D := D) app O.Kept
      ((request.endpoint app.env app.renderers app.ilike me scope).bind fun response =>
        .ret (.confined response)) := by
  refine behaves_elsewhere hmortal (.bind request.within_endpoint fun _ => .ret) ?_
    request.onTables hts
  exact request.returns_background.andThen fun _ hwithin => hwithin

end Elsewhere

/-! ## The posts of the board -/

section Boards

variable {app : App V D} {db₀ : Db} {author : ℤ} {me : PrincipalDetails}

/-- What references a row that may be deleted may be deleted with it. -/
theorem cascades_apiMortal : ∀ j (r : Row j), ∀ ref ∈ schema.refs j r, ref.onDelete = .cascade →
    apiMortal Set.univ ref.table → apiMortal Set.univ j := (apiCycle Set.univ).cascades

/-- **The posts of an author.** -/
def boardsOf (author : ℤ) (db₀ : Db) : Ownership schema db₀ where
  mine
    | .caregiverBoard, b => b.authorId = author
    | _, _ => False
  mortal := apiMortal Set.univ
  cascades := cascades_apiMortal
  closed t r _ hmine ref href _ hmortal := by
    cases t <;> try exact hmine.elim
    -- a post references its author, and accounts are not deleted
    obtain rfl := List.mem_singleton.mp href
    exact hmortal.elim

/-- Authors own posts only. -/
theorem boardsOf_elsewhere {t : Entity} (ht : t ≠ .caregiverBoard) (r : Row t) :
    ¬(boardsOf author db₀).mine t r := by
  cases t <;> first | exact id | exact absurd rfl ht

variable (hme : me.userId ≠ author)

include hme in
/-- A post that somebody has read and is the author of is not of the author. -/
theorem harmless_ownBoard {boardId : ℤ} {α : Type} {f : CaregiverBoard → Async V D α}
    (hf : ∀ b, ¬(boardsOf author db₀).Key .caregiverBoard b.id →
      Within (foreign (boardsOf author db₀)) (f b)) :
    Harmless app (boardsOf author db₀).Kept ((CaregiverBoardService.getOrThrow boardId).bind fun b =>
      (Prog.raiseIf (decide (b.authorId ≠ me.userId))
        (authForbiddenExceptionWith "not the author")).bind fun _ => f b) := by
  refine Harmless.find (t := .caregiverBoard) (φ := fun b => b.authorId ≠ author →
    ¬(boardsOf author db₀).Key .caregiverBoard b.id) (fun db hdb b hb hother =>
      hdb.foreign_key (Table.find?_mem hb) hother) fun b hb => .raiseIf fun hauthor => ?_
  have hauthor : b.authorId = me.userId := by simpa using hauthor
  exact .rest (hf b (hb (hauthor ▸ hme))) foreign_allows

include hme in
/-- **The posts of somebody else** are respected by every request. -/
theorem MemberRequest.behaves_boards (request : MemberRequest) :
    Behaves app (boardsOf author db₀).Kept (request.endpoint (V := V) (D := D) app me) := by
  cases request with
  | createBoard req =>
      refine .of_footprint (MemberRequest.within_endpoint _) (MemberRequest.returns_background _)
        (foreign_allows.mono (le_foreign ?_))
      rintro _ ⟨b, hb, rfl⟩
      exact fun hmine => hme (hb.symm.trans hmine)
  | updateBoard boardId req =>
      refine .of_harmless (harmless_ownBoard hme fun b hb => ?_) fun _ => rfl
      exact .bind (within_foreign_modify hb fun _ _ => id) fun _ => .bind .authorName fun _ => .ret
  | deleteBoard boardId =>
      refine .of_harmless (harmless_ownBoard hme fun b hb => ?_) fun _ => rfl
      exact within_foreign_delete hb ⟨me, trivial⟩
  | _ =>
      refine MemberRequest.behaves rfl _ fun t ht => boardsOf_elsewhere ?_
      rintro rfl
      simp [MemberRequest.tables] at ht

end Boards

section Posts

variable {app : App V D} {ι : Type} {requests : ι → Credentials × ApiRequest V}

/-- **The posts of an author stay as they are** while only others make requests, in whatever order
their commands take turns: nobody else publishes in the name of the author, and nobody else changes
or deletes a post. -/
theorem boards_play [DecidableEq ι] [DecidableEq V] (w : World V D) (sched : List ι) {author : ℤ}
    (hothers : ∀ me ∈ principals app requests, me.userId ≠ author) {b : CaregiverBoard}
    (hb : b.authorId = author) :
    b ∈ (Pool.play (server app.env) (arrivals app requests w) sched).shared.db.rows .caregiverBoard ↔
      b ∈ w.db.rows .caregiverBoard := by
  refine respects_play (J := (boardsOf author w.db).Kept) (fun i => ?_)
    (Ownership.kept_start (O := boardsOf author w.db)) sched .caregiverBoard b hb
  have hme : ∀ me ∈ actors app (requests i), me.userId ≠ author := fun me hme => hothers me ⟨i, hme⟩
  revert hme
  obtain ⟨credentials, request⟩ := requests i
  intro hme
  cases request with
  | anyone request =>
      refine PublicRequest.respects rfl request fun t ht => boardsOf_elsewhere ?_
      rintro rfl
      cases request <;> simp [PublicRequest.tables] at ht
  | member request =>
      exact fun me hguard => request.behaves_boards (hme me ⟨by rintro _ ⟨⟩, hguard⟩)
  | confined request =>
      refine fun me scope _ _ => ScopedRequest.behaves rfl request fun t ht => boardsOf_elsewhere ?_
      rintro rfl
      cases request <;> simp [ScopedRequest.tables] at ht

end Posts

/-- The post of a worker. -/
def samplePost : CaregiverBoard where
  id := 1
  authorId := 1
  title := "Opening hours"
  body := "Nine to five."
  isPublished := true
  createdAt := ⟨0, none⟩
  updatedAt := ⟨0, none⟩
  createdBy := some 1
  updatedBy := some 1

/-- An installation with the post, and a charger. -/
def Db.postSample : Db := Db.ofStatements
  [.insert .user ⟨1, "worker", none, "", "Worker", none, .worker, true, none⟩,
    .insert .user ⟨2, "charger", none, "", "Charger", none, .charger, true, none⟩,
    .insert .caregiverBoard samplePost]

/-- The charger cannot delete the post of the worker. -/
theorem boards_play_charger :
    samplePost ∈ (Pool.play (server still) (arrivals (.knowing chargerToken)
      (fun _ : Unit => ({ authorization := some "Bearer token" }, .member (.deleteBoard 1)))
      (World.fresh Db.postSample [])) (List.replicate 9 ())).shared.db.rows .caregiverBoard ↔
      samplePost ∈ Db.postSample.rows .caregiverBoard := by
  have hothers : ∀ me ∈ principals (.knowing chargerToken) (fun _ : Unit =>
      ({ authorization := some "Bearer token" }, .member (.deleteBoard 1))), me.userId ≠ 1 := by
    rintro me ⟨_, -, hspeaks, -⟩
    rw [charger_of_speaksFor hspeaks]
    decide
  exact boards_play _ _ hothers rfl

end Rooti

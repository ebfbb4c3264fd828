import Rooti.Access.Ownership
import Rooti.Tenancy.Scopes

/-!
# The companies of others

The leaves, kiosks, mail schedules and chargers of a company stay as they are while only people who
are neither administrators nor in charge of the company make requests, in whatever order the
commands of these requests take turns (`tenants_play`).

The scope of a request is looked up once, at its beginning.  It confines the request to one company
even so: the chargers of the company are among the rows that stay, so nobody who is not in charge
at the beginning is given the company as a scope later (`ScopeIn.other`); and a row that a request
has compared with its scope cannot become the company's before it is written.

## Main definitions

* `companyRows` — the rows of a company
* `Elsewhere` — principals who have nothing to do with a company
-/

namespace Rooti

open Relational Program

variable {V D : Type}

section Tenants

variable {app : App V D} {db₀ : Db} {companyId : ℤ} {me : PrincipalDetails}

/-- **The rows of a company.** -/
def companyRows (companyId : ℤ) (db₀ : Db) : Ownership schema db₀ where
  mine
    | .companyCharger, r => r.companyId = companyId
    | .leave, r => r.companyId = companyId
    | .companyKiosk, r => r.companyId = companyId
    | .journalEmailSchedule, r => r.companyId = companyId
    | _, _ => False
  mortal := apiMortal Set.univ
  cascades := cascades_apiMortal
  closed t r _ hmine ref href hcascade hmortal := by
    -- they reference accounts, workers and companies, which are not deleted
    cases t <;> try exact hmine.elim
    all_goals
      simp only [schema, refs, List.mem_cons, List.not_mem_nil, or_false] at href
      grind [apiMortal]

/-- The tables with rows of companies that are changed. -/
def companyTables : List Entity := [.companyCharger, .leave, .companyKiosk, .journalEmailSchedule]

/-- Other tables have no rows of companies that are changed. -/
theorem companyRows_elsewhere {t : Entity} (ht : t ∉ companyTables) (r : Row t) :
    ¬(companyRows companyId db₀).mine t r := by
  cases t <;> first | exact id | exact absurd (by decide) ht

/-- **A principal who has nothing to do with the company**: no administrator, and no charger of the
company. -/
structure Elsewhere (companyId : ℤ) (db₀ : Db) (me : PrincipalDetails) : Prop where
  not_admin : ¬me.hasRole UserRole.admin.value
  not_charger : ∀ charger ∈ db₀.rows .companyCharger, charger.userId = me.userId →
    charger.companyId ≠ companyId

/-- **The scope of somebody else is another company**, whenever it is looked up. -/
theorem ScopeIn.other (hme : Elsewhere companyId db₀ me) {scope : CompanyScopeValue}
    (h : ScopeIn (companyRows companyId db₀).Kept me scope) : ∃ c ≠ companyId, scope = some c := by
  cases scope with
  | none => exact absurd h hme.not_admin
  | some c =>
      obtain ⟨db, hdb, charger, hcharger, huser, rfl⟩ := h
      refine ⟨_, fun hcompany => ?_, rfl⟩
      have hthere := (hdb .companyCharger charger hcompany).mp hcharger
      exact hme.not_charger charger hthere huser hcompany

/-! ## Requests that are confined to another company -/

variable {c : ℤ} (hc : c ≠ companyId)

/-- What is compared with the scope goes on only with its company. -/
theorem harmless_assertCompany {J : Db → Prop} {other : ℤ} {α : Type} {f : PUnit → Async V D α}
    (hf : other = c → Harmless app J (f ⟨⟩)) :
    Harmless app J ((assertCompany (some c) (some other)).bind f) :=
  .raiseIf fun h => hf (by simpa using h)

/-- A body that names the company of the scope. -/
theorem within_assertCompany {F : Footprint} {other : ℤ} {α : Type} {p : Async V D α}
    (hp : other = c → Within F p) :
    Within F ((assertCompany (some c) (some other)).bind fun _ => p) := by
  by_cases hother : other = c
  · exact .bind .assertCompany fun _ => hp hother
  · have hraise : assertCompany (some c) (some other) =
        (.raise authForbiddenException : Async V D Unit) := by
      simp [assertCompany, Prog.raiseIf, hother]
    rw [hraise]
    exact .raise

include hc in
/-- **A row of the scope** is read, and then written. -/
theorem harmless_inScope {t : Entity} {id : ℤ} {e : Err} {companyOf : Row t → ℤ} {α : Type}
    (hmine : ∀ r, (companyRows companyId db₀).mine t r → companyOf r = companyId)
    {f : Row t → Async V D α}
    (hf : ∀ r, companyOf r = c → ¬(companyRows companyId db₀).Key t (keyOf t r) →
      Within (foreign (companyRows companyId db₀)) (f r)) :
    Harmless app (companyRows companyId db₀).Kept ((dbGet t id).bind fun o =>
      (Prog.orRaise e o).bind fun r =>
        (assertCompany (some c) (some (companyOf r))).bind fun _ => f r) := by
  rw [← Prog.bind_assoc]
  refine Harmless.find (φ := fun r => companyOf r = c →
    ¬(companyRows companyId db₀).Key t (keyOf t r)) (fun db hdb r hr hcompany => ?_)
    fun r hr => harmless_assertCompany fun hcompany =>
      .rest (hf r hcompany (hr hcompany)) foreign_allows
  exact hdb.foreign_key (Table.find?_mem hr) fun hr' => hc (hcompany.symm.trans (hmine r hr'))

include hc in
/-- A row of the scope is deleted, if it is there. -/
theorem harmless_deleteInScope {t : Entity} {id : ℤ} {companyOf : Row t → ℤ}
    (hmine : ∀ r, (companyRows companyId db₀).mine t r → companyOf r = companyId)
    (hmortal : apiMortal Set.univ t) {f : Option (Row t) → Async V D Unit}
    (hnone : f none = .ret ())
    (hsome : ∀ r, f (some r) =
      (assertCompany (some c) (some (companyOf r))).bind fun _ => delete t r) :
    Harmless app (companyRows companyId db₀).Kept ((dbGet t id).bind f) := by
  refine Harmless.lookup (φ := fun o => ∀ r ∈ o, companyOf r = c →
    ¬(companyRows companyId db₀).Key t (keyOf t r)) (fun _ db hdb r hr hcompany => ?_) fun o ho => ?_
  · exact hdb.foreign_key (Table.find?_mem hr) fun hr' => hc (hcompany.symm.trans (hmine r hr'))
  · cases o with
    | none =>
        rw [hnone]
        exact .rest .ret foreign_allows
    | some r =>
        rw [hsome]
        exact harmless_assertCompany fun hcompany =>
          .rest (within_foreign_delete (ho r rfl hcompany) hmortal) foreign_allows

/-- An endpoint whose answers leave nothing to do. -/
theorem ScopedRequest.behaves_of_harmless {J : Db → Prop} {α : Type} {p : Async V D α}
    {f : α → ScopedResponse} (h : Harmless app J p)
    (hf : ∀ a, ApiRequest.background app (.confined (f a)) = .ret ()) :
    Behaves app J ((p.bind fun a => .ret (f a)).bind fun response => .ret (.confined response)) := by
  rw [Prog.bind_assoc]
  exact .of_harmless h hf

include hc in
/-- A row of another company is added. -/
theorem within_addOther {t : Entity} {other : ℤ} (hother : other = c) {mk : NewRow → Row t}
    (hmine : ∀ new, (companyRows companyId db₀).mine t (mk new) → other = companyId)
    (hkey : ∀ new, keyOf t (mk new) = new.id := by exact fun _ => rfl) :
    Within (foreign (companyRows companyId db₀)) (add t mk : Async V D NewRow) :=
  within_foreign_add (fun new hnew => hc (hother.symm.trans (hmine new hnew))) hkey

include hc in
/-- The mail schedule that was checked stays one of another company, also if it is moved. -/
theorem within_updateEmailSchedule {env : Env} {req : JournalScheduleUpdateRequest}
    {s : JournalEmailSchedule} (hs : s.companyId = c)
    (hkey : ¬(companyRows companyId db₀).Key .journalEmailSchedule s.id) :
    Within (foreign (companyRows companyId db₀)) (do
      modify .journalEmailSchedule s req.toggle
      JournalScheduleService.checkTarget (some c) s req.companyId
      let nextRunAt ← JournalScheduleService.nextRun env req.time
      modify .journalEmailSchedule (req.toggle s) fun s => req.assign s nextRunAt
      let updated := req.assign (req.toggle s) nextRunAt
      let company ← dbGet .company updated.companyId
      return updated.toResponse (company.map Company.name) : Async V D JournalScheduleResponse) := by
  have hrest : (∀ other ∈ req.companyId, other = c) → Within (foreign (companyRows companyId db₀))
      (do
        let nextRunAt ← JournalScheduleService.nextRun env req.time
        modify .journalEmailSchedule (req.toggle s) fun s => req.assign s nextRunAt
        let updated := req.assign (req.toggle s) nextRunAt
        let company ← dbGet .company updated.companyId
        return updated.toResponse (company.map Company.name) :
        Async V D JournalScheduleResponse) := by
    intro hmoved
    refine .bind .nextRun fun nextRunAt => .bind (within_foreign_modify hkey (fun now r hr => ?_)
      fun r => (journalColumns_assign req r nextRunAt).1) fun _ => .bind .dbGet fun _ => .ret
    replace hr : req.companyId.getD r.companyId = companyId := hr
    cases hcompany : req.companyId with
    | none => rwa [hcompany] at hr
    | some other =>
        rw [hcompany] at hr
        exact absurd ((hmoved other hcompany).symm.trans hr) hc
  refine .bind (within_foreign_modify hkey fun _ _ => id) fun _ => ?_
  cases hcompany : req.companyId with
  | none => exact hrest (by simp [hcompany])
  | some other =>
      simp only [hcompany, Option.mem_def, Option.some.injEq, forall_eq'] at hrest
      simp only [JournalScheduleService.checkTarget]
      split
      · next hsame => exact hrest (hsame.trans hs)
      · rw [Prog.bind_eq, Prog.bind_eq, Prog.bind_assoc]
        exact within_assertCompany fun hother => .bind (.bind .dbGet fun _ => .bind .orRaise
          fun _ => .ret) fun _ => hrest hother

/-- **Requests confined to another company** leave the rows of the company alone. -/
theorem ScopedRequest.behaves_tenants (hme : Elsewhere companyId db₀ me)
    {scope : CompanyScopeValue} (hscope : ScopeIn (companyRows companyId db₀).Kept me scope)
    (request : ScopedRequest) :
    Behaves (V := V) (D := D) app (companyRows companyId db₀).Kept
      ((request.endpoint app.env app.renderers app.ilike me scope).bind fun response =>
        .ret (.confined response)) := by
  -- the scope is that of another company, and every row that is written has its id
  obtain ⟨c, hc, rfl⟩ := hscope.other hme
  cases request with
  | createLeave req =>
      refine behaves_of_harmless (harmless_assertCompany fun hreq => .rest ?_ foreign_allows)
        fun _ => rfl
      exact .bind .raiseIf fun _ => .bind .dbGet fun _ => .bind .orRaise fun _ => .bind .dbGet
        fun _ => .bind .orRaise fun _ => .bind (within_addOther hc hreq fun _ => id) fun _ =>
          .bind .flush fun _ => .bind .select fun _ => .bind .one fun _ => .ret
  | decideLeave leaveId req =>
      refine behaves_of_harmless (harmless_inScope hc (fun _ => id) fun _ _ hkey => ?_) fun _ => rfl
      exact .bind (within_foreign_modify hkey fun _ _ => id) fun _ => .bind .select fun _ =>
        .bind .one fun _ => .ret
  | deleteLeave leaveId =>
      exact behaves_of_harmless (harmless_deleteInScope (t := .leave) hc (fun _ => id) staff_univ rfl
        fun _ => rfl) fun _ => rfl
  | bindKiosk req =>
      refine behaves_of_harmless (harmless_assertCompany fun hreq => .rest ?_ foreign_allows)
        fun _ => rfl
      exact .bind .dbGet fun _ => .bind .orRaise fun _ => .bind .select fun _ => .bind .raiseIf
        fun _ => .bind (within_addOther hc hreq fun _ => id) fun _ => .bind .flush fun _ => .ret
  | setAssignee kioskId req =>
      refine behaves_of_harmless (harmless_inScope hc (fun _ => id) fun _ _ hkey => ?_) fun _ => rfl
      exact .bind (within_foreign_modify hkey fun _ _ => id) fun _ => .bind .dbGet fun _ => .ret
  | unbind kioskId =>
      exact behaves_of_harmless (harmless_deleteInScope (t := .companyKiosk) hc (fun _ => id)
        staff_univ rfl fun _ => rfl) fun _ => rfl
  | createEmailSchedule req =>
      refine behaves_of_harmless (harmless_assertCompany fun hreq => .rest ?_ foreign_allows)
        fun _ => rfl
      exact .bind .dbGet fun _ => .bind .orRaise fun _ => .bind .computeNextRun fun _ =>
        .bind (within_addOther hc hreq fun _ => id) fun _ => .bind .flush fun _ => .ret
  | updateEmailSchedule scheduleId req =>
      exact behaves_of_harmless (harmless_inScope hc (fun _ => id) fun _ hcompany hkey =>
        within_updateEmailSchedule hc hcompany hkey) fun _ => rfl
  | deleteEmailSchedule scheduleId =>
      exact behaves_of_harmless (harmless_deleteInScope (t := .journalEmailSchedule) hc
        (fun _ => id) staff_univ rfl fun _ => rfl) fun _ => rfl
  | bulkEmail req =>
      refine ScopedRequest.behaves rfl _ fun t ht => companyRows_elsewhere ?_
      obtain rfl := List.mem_singleton.mp ht
      decide
  | _ => exact ScopedRequest.behaves rfl _ (by rintro _ ⟨⟩)

/-- **Requests of others** leave the rows of the company alone: only administrators dismiss
chargers, and no other endpoint writes a row of a company without asking for a scope. -/
theorem MemberRequest.behaves_tenants (hme : Elsewhere companyId db₀ me) (request : MemberRequest)
    (hroles : HasOneOf request.roles me) :
    Behaves app (companyRows companyId db₀).Kept
      (request.endpoint (V := V) (D := D) app me) := by
  cases request with
  | updateCharger chargerId hired =>
      obtain ⟨role, hrole, hmem⟩ := hroles [.admin] rfl
      obtain rfl := List.mem_singleton.mp hrole
      exact absurd (hasRole_admin_iff.mpr (.inl hmem)) hme.not_admin
  | _ =>
      refine MemberRequest.behaves rfl _ fun t ht => companyRows_elsewhere fun hmem => ?_
      grind [MemberRequest.tables, companyTables]

end Tenants

/-! ## In any order -/

section Play

variable {app : App V D} {ι : Type} {requests : ι → Credentials × ApiRequest V}

/-- **The rows of a company stay as they are** while only others make requests, in whatever order
their commands take turns: its leaves, kiosks, mail schedules and chargers are neither changed nor
deleted, and none are added or moved to it. -/
theorem tenants_play [DecidableEq ι] [DecidableEq V] (w : World V D) (sched : List ι)
    {companyId : ℤ} (hothers : ∀ me ∈ principals app requests, Elsewhere companyId w.db me)
    {t : Entity} {r : Row t} (hr : (companyRows companyId w.db).mine t r) :
    r ∈ (Pool.play (server app.env) (arrivals app requests w) sched).shared.db.rows t ↔
      r ∈ w.db.rows t := by
  refine respects_play (J := (companyRows companyId w.db).Kept) (fun i => ?_)
    (Ownership.kept_start (O := companyRows companyId w.db)) sched t r hr
  have hactors : ∀ me ∈ actors app (requests i), Elsewhere companyId w.db me :=
    fun me hme => hothers me ⟨i, hme⟩
  revert hactors
  obtain ⟨credentials, request⟩ := requests i
  intro hactors
  cases request with
  | anyone request =>
      refine PublicRequest.respects rfl request fun t ht => companyRows_elsewhere fun hmem => ?_
      cases request <;> grind [PublicRequest.tables, companyTables]
  | member request =>
      exact fun me hguard =>
        request.behaves_tenants (hactors me ⟨by rintro _ ⟨⟩, hguard⟩) hguard.2
  | confined request =>
      exact fun me scope hguard hscope =>
        request.behaves_tenants (hactors me ⟨by rintro _ ⟨⟩, hguard⟩) hscope

end Play

/-- The kiosk of the second company. -/
def sampleKiosk : CompanyKiosk := ⟨1, 2, "K-1", none, none, 10, 0, .offline, none, none⟩

/-- An installation with two companies; the charger is in charge of the first. -/
def Db.tenantSample : Db := Db.ofStatements
  [.insert .company ⟨1, "Workshop", none, true, none, none, none, none, none⟩,
    .insert .company ⟨2, "Bakery", none, true, none, none, none, none, none⟩,
    .insert .user ⟨1, "worker", none, "", "Worker", none, .worker, true, none⟩,
    .insert .user ⟨2, "charger", none, "", "Charger", none, .charger, true, none⟩,
    .insert .companyCharger ⟨1, 2, 1, true⟩,
    .insert .companyKiosk sampleKiosk]

/-- The charger of the first company cannot remove the kiosk of the second. -/
theorem tenants_play_charger :
    sampleKiosk ∈ (Pool.play (server still) (arrivals (.knowing chargerToken)
      (fun _ : Unit => ({ authorization := some "Bearer token" }, .confined (.unbind 1)))
      (World.fresh Db.tenantSample [])) (List.replicate 9 ())).shared.db.rows .companyKiosk ↔
      sampleKiosk ∈ Db.tenantSample.rows .companyKiosk := by
  have hothers : ∀ me ∈ principals (.knowing chargerToken) (fun _ : Unit =>
      ({ authorization := some "Bearer token" }, .confined (.unbind 1))),
      Elsewhere 2 Db.tenantSample me := by
    rintro me ⟨_, -, hspeaks, -⟩
    rw [charger_of_speaksFor hspeaks]
    exact ⟨by decide, by decide +kernel⟩
  exact tenants_play (World.fresh Db.tenantSample []) _ hothers (t := .companyKiosk) rfl

end Rooti

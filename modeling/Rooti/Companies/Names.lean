import Rooti.Core.Holding
import Rooti.Lib.Runs
import Rooti.Services.Company

/-!
# The names of companies

No column constraint keeps two companies from having the same name.  A new company
is refused if its name is taken; a company that is renamed is not.

## Main definitions

* `CompanyRequest` — the requests that write companies
* `UniqueNames` — no name is that of two companies
* `CompanyRequest.KeepsNames` — the requests that keep it so
* `companyNames_unique` — runs of such requests

## What carries the proof

A creation asks for the name before it inserts, and in a run the answer is still right
when the row is inserted. A deactivation keeps the names. So the requests that remain
are the updates with a new name, of a company that is there: `KeepsNames` asks of these,
and of nothing else, that no other company has the name. An update of a company that is
missing fails and binds nobody.
-/

namespace Rooti

open Relational Program CompanyService

variable {V D : Type}

/-- The requests that write companies. -/
inductive CompanyRequest
  | create (req : CompanyCreateRequest) (actor : Option PrincipalDetails)
  | update (companyId : ℤ) (req : CompanyUpdateRequest) (actor : Option PrincipalDetails)
  | deactivate (companyId : ℤ) (actor : Option PrincipalDetails)

/-- The state after a request. -/
def CompanyRequest.step (env : Env) : CompanyRequest → World V D → World V D
  | .create req actor, w => (serve env (CompanyService.create req actor) w).2
  | .update companyId req actor, w => (serve env (CompanyService.update companyId req actor) w).2
  | .deactivate companyId actor, w => (serve env (CompanyService.deactivate companyId actor) w).2

/-- **No two companies have the same name.** -/
def UniqueNames (db : Db) : Prop :=
  ∀ c ∈ db.rows .company, ∀ c' ∈ db.rows .company, c.name = c'.name → c = c'

/-- The new name that a request gives to an existing company, if any, is not that of
another one. -/
def CompanyRequest.KeepsNames (w : World V D) : CompanyRequest → Prop
  | .update companyId req _ => (∃ c ∈ w.db.rows .company, c.id = companyId) →
      ∀ c ∈ w.db.rows .company, req.name = some c.name → c.id = companyId
  | .create .. | .deactivate .. => True

section Requests

variable (env : Env) (w : World V D)

/-- **A company is created** only under a name that no company has. -/
theorem serve_create (req : CompanyCreateRequest) (actor : Option PrincipalDetails) :
    (serve env (create req actor) w).2.db = w.db ∨
      (∀ c ∈ w.db.rows .company, c.name ≠ req.name) ∧
        ∃ new, (Dml.insert .company (newCompany req actor new) : Statement).apply w.db =
          .ok (serve env (create req actor) w).2.db := by
  have hscript : (server env).Ensures (Holds w w.db []) (create req actor)
      (fun _ s w' => ∃ d ps, (ps = [] ∧ (∀ c ∈ w.db.rows .company, c.name ≠ req.name) ∧
        ∃ new, (Dml.insert .company (newCompany req actor new) : Statement).apply w.db = .ok d) ∧
          Holds w d ps s w') (Uncommitted w) := by
    refine holds_query.bind fun dup => .of_and ?_
    rintro ⟨-, o, rfl⟩
    refine holds_raiseIf.bind fun _ => .of_and fun hfree => ?_
    have hnames : ∀ c ∈ w.db.rows .company, c.name ≠ req.name := by
      intro c hc hname
      have hmem : c ∈ o.scan ((w.db.rows .company).filter fun c => c.name = req.name) :=
        o.mem_scan.mpr (List.mem_filter.mpr ⟨hc, decide_eq_true hname⟩)
      rw [Option.isSome_eq_false_iff, Option.isNone_iff_eq_none, List.head?_eq_none_iff] at hfree
      rw [hfree] at hmem
      cases hmem
    refine holds_insert fun new d hd => holds_ofExcept.weaken (fun _ _ h => h) ?_ fun _ _ h => h
    exact fun _ _ _ h => ⟨d, [], ⟨rfl, hnames, new, hd⟩, h.2⟩
  obtain ⟨-, hsame⟩ | ⟨a, d, ps, -, ⟨rfl, hnames, new, hd⟩, hkept⟩ := serve_holds hscript
  · exact .inl hsame
  · rw [hkept.eq]
    exact .inr ⟨hnames, new, hd⟩

/-- **A company is renamed** without a look at the other names. -/
theorem serve_update (companyId : ℤ) (req : CompanyUpdateRequest)
    (actor : Option PrincipalDetails) :
    (serve env (update companyId req actor) w).2.db = w.db ∨
      Changed .company companyId (assign req actor) w.db
        (serve env (update companyId req actor) w).2.db := by
  have hscript : (server env).Ensures (Holds w w.db []) (update companyId req actor)
      (fun _ s w' => ∃ company now, w.db.find? .company companyId = some company ∧
        Holds w w.db (changes .company company (assign req actor) now) s w') (Uncommitted w) := by
    refine holds_getOrRaise.bind fun company => .of_and fun hfound => ?_
    refine holds_modify.bind fun _ => .of_exists fun now => ?_
    refine holds_evict.bind fun _ => holds_ofExcept.weaken (fun _ _ h => h) ?_ fun _ _ h => h
    exact fun _ _ _ h => ⟨company, now, hfound, h.2⟩
  obtain ⟨-, hsame⟩ | ⟨-, -, ⟨-, hsame⟩ | hchanged⟩ := serve_changes (fun _ _ => rfl) hscript
  · exact .inl hsame
  · exact .inl hsame
  · exact .inr hchanged

theorem serve_deactivate (companyId : ℤ) (actor : Option PrincipalDetails) :
    (serve env (deactivate companyId actor) w).2.db = w.db ∨
      Changed .company companyId
        (fun c => { c with
          useFlag := false
          updatedBy := (actor.map PrincipalDetails.userId).orElse fun _ => c.updatedBy })
        w.db (serve env (deactivate companyId actor) w).2.db := by
  have hscript : (server env).Ensures (Holds w w.db []) (deactivate companyId actor)
      (fun _ s w' => ∃ company now, w.db.find? .company companyId = some company ∧
        Holds w w.db (changes .company company (fun c => { c with
          useFlag := false
          updatedBy := (actor.map PrincipalDetails.userId).orElse fun _ => c.updatedBy }) now)
            s w') (Uncommitted w) := by
    refine holds_getOrRaise.bind fun company => .of_and fun hfound => ?_
    refine holds_modify.bind fun _ => .of_exists fun now => ?_
    exact holds_evict.weaken (fun _ _ h => h) (fun _ _ _ h => ⟨company, now, hfound, h⟩)
      fun _ _ h => h
  obtain ⟨-, hsame⟩ | ⟨-, -, ⟨-, hsame⟩ | hchanged⟩ := serve_changes (fun _ _ => rfl) hscript
  · exact .inl hsame
  · exact .inl hsame
  · exact .inr hchanged

end Requests

/-! ## Runs -/

section Runs

variable {env : Env} {w : World V D} {db db' : Db}

/-- A new company under a free name. -/
theorem UniqueNames.insert {company : Company} (h : UniqueNames db)
    (hfree : ∀ c ∈ db.rows .company, c.name ≠ company.name)
    (happly : (Dml.insert .company company : Statement).apply db = .ok db') : UniqueNames db' := by
  have hrows := (Dml.insert_ok happly).1
  intro c hc c' hc' hname
  rw [hrows, List.mem_append, List.mem_singleton] at hc hc'
  obtain hc | rfl := hc <;> obtain hc' | rfl := hc'
  · exact h c hc c' hc' hname
  · exact absurd hname (hfree c hc)
  · exact absurd hname.symm (hfree c' hc')
  · rfl

/-- A company that keeps its name or gets a free one. -/
theorem UniqueNames.change {companyId : ℤ} {f : Company → Company} (h : UniqueNames db)
    (hfree : ∀ c ∈ db.rows .company, ∀ c' ∈ db.rows .company, c.id = companyId →
      (f c).name = c'.name → c'.id = companyId)
    (hchanged : Changed .company companyId f db db') : UniqueNames db' := by
  intro x hx x' hx' hname
  obtain ⟨c, hc, ⟨hid, rfl⟩ | ⟨hid, rfl⟩⟩ := hchanged.of_mem hx <;>
    obtain ⟨c', hc', ⟨hid', rfl⟩ | ⟨hid', rfl⟩⟩ := hchanged.of_mem hx'
  · rw [Table.eq_of_key hc hc' (hid.trans hid'.symm)]
  · exact absurd (hfree c hc x' hc' hid hname) hid'
  · exact absurd (hfree c' hc' x hc hid' hname.symm) hid
  · exact h x hc x' hc' hname

/-- A request that keeps the names apart. -/
theorem uniqueNames_step (request : CompanyRequest) (w : World V D) (hok : request.KeepsNames w)
    (h : UniqueNames w.db) : UniqueNames (request.step env w).db := by
  cases request with
  | create req actor =>
      obtain hsame | ⟨hfree, new, happly⟩ := serve_create env w req actor
      · exact hsame ▸ h
      · exact h.insert hfree happly
  | update companyId req actor =>
      obtain hsame | hchanged := serve_update env w companyId req actor
      · exact hsame ▸ h
      · refine h.change (fun c hc c' hc' hid hname => ?_) hchanged
        cases hreq : req.name with
        | none =>
            have hsame : c.name = c'.name := by simpa [assign, hreq] using hname
            exact (h c hc c' hc' hsame) ▸ hid
        | some name =>
            have hnew : name = c'.name := by simpa [assign, hreq] using hname
            exact hok ⟨c, hc, hid⟩ c' hc' (hnew ▸ hreq)
  | deactivate companyId actor =>
      obtain hsame | hchanged := serve_deactivate env w companyId actor
      · exact hsame ▸ h
      · exact h.change (fun c hc c' hc' hid hname => (h c hc c' hc' hname) ▸ hid) hchanged

/-- **Company names stay unique** in runs whose updates give no company the name of
another one. -/
theorem companyNames_unique {requests : List CompanyRequest} (hstart : UniqueNames w.db)
    (hkeeps : Runs.Guarded (CompanyRequest.step env)
      (fun request w => request.KeepsNames w) requests w) :
    UniqueNames (Runs.run (CompanyRequest.step env) requests w).db :=
  hkeeps.invariant (fun request w hok h => uniqueNames_step request w hok h) hstart

end Runs

/-- Two companies, the second of which is called like the first. -/
def namesakes : List CompanyRequest :=
  [.create { name := "Office" } none, .update 2 { name := some "Workshop" } none]

/-- The sample installation, and a second company that gets another new name. -/
theorem companyNames_unique_sample :
    UniqueNames (Runs.run (CompanyRequest.step still)
      [.create { name := "Office" } none, .update 2 { name := some "Storage" } none]
      (World.fresh Db.sample () : World Unit Unit)).db := by
  refine companyNames_unique (w := World.fresh Db.sample ()) ?_ ⟨trivial, ?_, trivial⟩
  · unfold UniqueNames
    decide +kernel
  · unfold CompanyRequest.KeepsNames
    decide +kernel

/-- **A company can be given a name that is taken.** -/
theorem namesakes_not_unique :
    UniqueNames Db.sample ∧
      ¬UniqueNames (Runs.run (CompanyRequest.step still) namesakes
        (World.fresh Db.sample () : World Unit Unit)).db := by
  unfold UniqueNames
  decide +kernel

end Rooti

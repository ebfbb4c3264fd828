import Mathlib.Data.List.Dedup
import Rooti.Api.Deps
import Rooti.Core.Transactions
import Rooti.Services.Charger

/-!
# Who is confined to which company

An administrator is confined to no company, a charger to the company of the charger's row.
Whether the charger is still hired plays no role, and an administrator is also one whose role
has the prefix `ROLE_`, which the guard of the endpoints for administrators does not accept.

## Main definitions

* `Admits` — the guard accepts the principal
* `company_scope_sound` — what a scope says about the principal
* `dismissed_in_scope` — a dismissed charger, and an administrator with a prefix

## What carries the proof

The scope is computed after the guard has let the principal pass, so each of its three
outcomes is read back to the roles. `hasRole` accepts a role with the prefix, and the
guard compares it as it is (`hasRole_admin_iff`). A principal with the prefixed role
only therefore never passes the guards for administrators, but has no scope once it has
passed as a charger. For the others the query finds the row of the user, at most one by
the `UNIQUE` constraint (`chargedCompanies_eq`), and its flag for being hired is not in
the query.
-/

namespace Rooti

open Program Relational

variable {V D : Type} {env : Env} {crypto : Crypto V} {me : PrincipalDetails} {w : World V D}

/-- **The guard accepts the principal.** -/
def Admits (roles : List UserRole) (me : PrincipalDetails) : Prop :=
  ∃ role ∈ roles, role.value ∈ me.roles

instance (roles : List UserRole) (me : PrincipalDetails) : Decidable (Admits roles me) :=
  inferInstanceAs (Decidable (∃ role ∈ roles, role.value ∈ me.roles))

theorem run_requireRoles {roles : List UserRole} {s : Session} :
    (server env).run (requireRoles crypto roles me : Async V D PrincipalDetails) s w =
      if Admits roles me then (.ok me, s, w)
      else (.error (authForbiddenExceptionWith (requiredRole crypto roles me)), s, w) := by
  have hadmits : (allowedRoles roles).any (· ∈ me.roles) = decide (Admits roles me) := by
    rw [Bool.eq_iff_iff, decide_eq_true_iff, List.any_eq_true]
    simp only [allowedRoles, List.mem_dedup, List.mem_map, decide_eq_true_eq, Admits]
    constructor
    · rintro ⟨-, ⟨role, hrole, rfl⟩, hme⟩
      exact ⟨role, hrole, hme⟩
    · rintro ⟨role, hrole, hme⟩
      exact ⟨_, ⟨role, hrole, rfl⟩, hme⟩
  rw [requireRoles, hadmits]
  split
  · next h => simp [h]
  · next h => simp [h]

/-- What the names of a role have in common. -/
theorem hasRole_admin_iff : me.hasRole UserRole.admin.value = true ↔
    "ADMIN" ∈ me.roles ∨ "ROLE_ADMIN" ∈ me.roles := by
  have hbare : Py.removeprefix "ROLE_" UserRole.admin.value = "ADMIN" := by decide
  have hname : ∀ r, Py.removeprefix "ROLE_" r = "ADMIN" ↔ r = "ADMIN" ∨ r = "ROLE_ADMIN" := by
    intro r
    constructor
    · intro h
      unfold Py.removeprefix at h
      split at h
      · next hprefix =>
          right
          obtain ⟨rest, hrest⟩ := List.isPrefixOf_iff_prefix.mp hprefix
          rw [← hrest, List.drop_left] at h
          rw [← String.toList_inj, ← hrest, ← String.toList_ofList (l := rest), h]
          decide
      · exact .inl h
    · rintro (rfl | rfl) <;> decide
  rw [PrincipalDetails.hasRole, hbare, List.any_eq_true]
  simp only [decide_eq_true_eq, hname]
  constructor
  · rintro ⟨r, hr, rfl | rfl⟩
    · exact .inl hr
    · exact .inr hr
  · rintro (h | h)
    · exact ⟨_, h, .inl rfl⟩
    · exact ⟨_, h, .inr rfl⟩

/-- **A user is the charger of one company at most.** -/
theorem chargedCompanies_eq (userId : ℤ) (o : RowOrder) (db : Db) :
    ∃ found : Option CompanyCharger, chargedCompanies userId o db =
        (found.map CompanyCharger.companyId).toList ∧
      ∀ cc ∈ found, cc ∈ db.rows .companyCharger ∧ cc.userId = userId := by
  have hunique : ∀ cc ∈ db.rows .companyCharger, ∀ cc' ∈ db.rows .companyCharger,
      decide (cc.userId = userId) → decide (cc'.userId = userId) → cc = cc' := by
    intro cc hcc cc' hcc' h h'
    refine Table.eq_of_clash hcc hcc' (decide_eq_true ?_)
    exact (of_decide_eq_true h).trans (of_decide_eq_true h').symm
  obtain ⟨found, hfound⟩ := (db.table .companyCharger).exists_filter_eq hunique
  refine ⟨found, ?_, fun cc hcc => ?_⟩
  · unfold chargedCompanies
    rw [Database.rows, hfound, o.scan_toList]
    cases found <;> rfl
  · have hmem : cc ∈ (db.rows .companyCharger).filter fun cc => cc.userId = userId := by
      rw [Database.rows, hfound]
      exact Option.mem_toList.mpr hcc
    obtain ⟨hrow, huser⟩ := List.mem_filter.mp hmem
    exact ⟨hrow, of_decide_eq_true huser⟩

/-- **What a scope says about the principal.**  No scope is for those whom the guard of the
administrators accepts, and for those with the prefixed role who have passed the guard as
chargers.  A company is that of the charger's row, hired or not. -/
theorem company_scope_sound :
    match ((server env).run (getCompanyScope crypto me) {} w).1 with
    | .ok none => Admits [.admin, .charger] me ∧ (Admits [.admin] me ∨ "ROLE_ADMIN" ∈ me.roles)
    | .ok (some companyId) => Admits [.charger] me ∧
        ∃ cc ∈ w.db.rows .companyCharger, cc.userId = me.userId ∧ cc.companyId = companyId
    | .error e => bigint me.userId → ∃ message, e = authForbiddenExceptionWith message := by
  have hadmin : Admits [.admin] me ↔ "ADMIN" ∈ me.roles := by
    simp [Admits, UserRole.value]
  rw [getCompanyScope, Prog.bind_eq, Machine.run_bind, run_requireRoles]
  by_cases hguard : Admits [.admin, .charger] me
  · rw [if_pos hguard]
    by_cases hrole : me.hasRole UserRole.admin.value = true
    · simp only [hrole, if_true]
      exact ⟨hguard, (hasRole_admin_iff.mp hrole).imp_left hadmin.mpr⟩
    · have hcharger : Admits [.charger] me := by
        obtain ⟨role, hmem, hme⟩ := hguard
        rcases List.mem_cons.mp hmem with rfl | hmem
        · exact absurd (hasRole_admin_iff.mpr (.inl hme)) hrole
        · exact ⟨role, hmem, hme⟩
      simp only [hrole, Bool.false_eq_true, if_false]
      rw [Prog.bind_eq, run_select_bind_clean]
      by_cases hbinds : [Bind.int me.userId].all Bind.fits = true
      · rw [if_pos hbinds]
        obtain ⟨found, heq, hfound⟩ :=
          chargedCompanies_eq me.userId (env.rowOrder w.ticks) w.db
        rw [heq]
        cases found with
        | none => exact fun _ => ⟨_, rfl⟩
        | some cc => exact ⟨hcharger, cc, (hfound cc rfl).1, (hfound cc rfl).2, rfl⟩
      · rw [if_neg hbinds]
        intro hid
        exact absurd (by simpa [Bind.fits] using hid) hbinds
  · rw [if_neg hguard]
    exact fun _ => ⟨_, rfl⟩

/-- A charger who has been dismissed keeps the company, and an administrator with the prefixed
role is confined to none, though the guard of the administrators refuses both. -/
theorem dismissed_in_scope :
    let dismissed := (serve still (ChargerService.setHired 1 false : Async Json Unit _)
      (World.fresh Db.sample ())).2
    let charger : PrincipalDetails := ⟨2, "charger", ["CHARGER"], true, true⟩
    let admin : PrincipalDetails := ⟨2, "charger", ["CHARGER", "ROLE_ADMIN"], true, true⟩
    (∀ cc ∈ dismissed.db.rows .companyCharger, cc.userId = charger.userId → cc.isHired = false) ∧
      ((server still).run (getCompanyScope .plain charger) {} dismissed).1 = .ok (some 1) ∧
      ((server still).run (getCompanyScope .plain admin) {} dismissed).1 = .ok none ∧
      ¬Admits [.admin] admin := by
  refine ⟨?_, ?_, ?_, ?_⟩ <;> decide +kernel

end Rooti

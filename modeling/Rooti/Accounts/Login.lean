import Rooti.Core.Transactions
import Rooti.Services.Auth

/-!
# What a failed login tells

A login that fails shall not tell why it fails.  The username is looked up first,
then the account has to be enabled, and only then the password is verified: a
wrong password of a disabled account is answered as one of a disabled account.

## Main definitions

* `LogsIn`, `NamesDisabled` — what a login depends on
* `loginFailure` — the answer of a login that fails
* `login_alike_iff` — when two user tables give the same answer

## What carries the proof

A login that fails has one of three answers, and which one is a function of the request
and the user table (`loginFailure`, `serve_login_of_wrong`): a username that no database
can store is refused by the database, a disabled account by name, and everything else is
the same answer. The comparison of two tables is then one of two values of this
function. A username that cannot be stored is that of no account in either table, so
both answers are the same there and the condition holds.
-/

namespace Rooti

open Relational Program AuthService

variable {V D : Type}

/-- The password is that of the account with the username. -/
def LogsIn (crypto : Crypto V) (db : Db) (req : LoginRequest) : Prop :=
  ∃ u ∈ db.rows .user, u.username = req.username ∧
    verifyPassword crypto.bcrypt req.password u.passwordHash = true

/-- The account with the username is disabled. -/
def NamesDisabled (db : Db) (username : String) : Prop :=
  ∃ u ∈ db.rows .user, u.username = username ∧ u.enabled = false

instance (db : Db) (username : String) : Decidable (NamesDisabled db username) :=
  inferInstanceAs (Decidable (∃ u ∈ db.rows .user, u.username = username ∧ u.enabled = false))

/-- The answer of a login with a password that opens no account. -/
def loginFailure (db : Db) (username : String) : Err :=
  if text username then
    if NamesDisabled db username then authAccountDisabledException
    else authInvalidCredentialsException
  else .database "22000"

section Login

variable {env : Env} {crypto : Crypto V} {req : LoginRequest} {w w' : World V D}

/-- A username names at most one account. -/
theorem users_of_username (db : Db) (username : String) :
    (db.rows .user).filter (fun u => u.username = username) = [] ∨
      ∃ u ∈ db.rows .user, u.username = username ∧
        (db.rows .user).filter (fun u => u.username = username) = [u] := by
  obtain ⟨found, hfound⟩ := (db.table .user).exists_filter_eq
    (p := fun u : User => u.username = username) fun u hu u' hu' hname hname' =>
      Table.eq_of_clash hu hu'
        (decide_eq_true ((of_decide_eq_true hname).trans (of_decide_eq_true hname').symm))
  change (db.rows .user).filter _ = _ at hfound
  cases found with
  | none => exact .inl hfound
  | some u =>
      have hmem : u ∈ (db.rows .user).filter fun u => u.username = username := by
        rw [hfound]
        exact List.mem_singleton.mpr rfl
      obtain ⟨hu, hname⟩ := List.mem_filter.mp hmem
      exact .inr ⟨u, hu, of_decide_eq_true hname, hfound⟩

/-- A username in the table has no character that a text cannot hold. -/
theorem text_of_username {db : Db} {u : User} (hu : u ∈ db.rows .user) : text u.username := by
  have hcheck := Table.check_of_mem hu
  simp only [schema, shape, varchar, Bool.and_eq_true] at hcheck
  tauto

/-- **How a login fails** whose password opens no account. -/
theorem serve_login_of_wrong (h : ¬LogsIn crypto w.db req) :
    (serve env (login env crypto req) w).1 = .error (loginFailure w.db req.username) := by
  rw [serve_eq, login, fetchByUsername, loginFailure]
  simp only [Prog.bind_eq, Prog.bind_assoc, run_select_bind_clean, List.all_cons, List.all_nil,
    Bool.and_true, Bind.fits]
  by_cases hfits : text req.username
  · rw [if_pos hfits, if_pos hfits]
    obtain hnone | ⟨u, hu, hname, hone⟩ := users_of_username w.db req.username
    · have hunknown : ¬NamesDisabled w.db req.username := by
        rintro ⟨u, hu, hname, -⟩
        exact List.filter_eq_nil_iff.mp hnone u hu (decide_eq_true hname)
      rw [if_neg hunknown, hnone]
      rfl
    · have hdisabled : NamesDisabled w.db req.username ↔ u.enabled = false := by
        constructor
        · rintro ⟨u', hu', hname', hoff⟩
          rwa [Table.eq_of_clash hu hu' (decide_eq_true (hname.trans hname'.symm))]
        · exact fun hoff => ⟨u, hu, hname, hoff⟩
      have hwrong : verifyPassword crypto.bcrypt req.password u.passwordHash = false := by
        by_contra hright
        exact h ⟨u, hu, hname, Bool.eq_true_of_not_eq_false hright⟩
      simp only [hdisabled, hone, scalarOneOrNone, Prog.ret_bind, Prog.orRaise_some]
      cases henabled : u.enabled
      · rfl
      · simp only [Bool.not_true, Prog.raiseIf_false, Prog.ret_bind, hwrong, Bool.not_false,
          Prog.raiseIf_true, Prog.raise_bind, Machine.run_raise, Bool.true_eq_false, if_false]
  · rw [if_neg hfits, if_neg hfits]

/-- **When a failed login tells nothing**: two user tables give the same answer exactly
if the username names a disabled account in both of them or in neither. The tables are
arbitrary; the passwords, and whether there is an account of the name at all, make no
difference. -/
theorem login_alike_iff (h : ¬LogsIn crypto w.db req) (h' : ¬LogsIn crypto w'.db req) :
    (serve env (login env crypto req) w).1 = (serve env (login env crypto req) w').1 ↔
      (NamesDisabled w.db req.username ↔ NamesDisabled w'.db req.username) := by
  rw [serve_login_of_wrong h, serve_login_of_wrong h']
  by_cases hfits : text req.username
  · have hne : authAccountDisabledException ≠ authInvalidCredentialsException := by decide
    by_cases hoff : NamesDisabled w.db req.username <;>
      by_cases hoff' : NamesDisabled w'.db req.username <;>
      simp [loginFailure, hfits, hoff, hoff', hne, hne.symm]
  · have hnone : ∀ db : Db, ¬NamesDisabled db req.username := by
      rintro db ⟨u, hu, hname, -⟩
      exact hfits (hname ▸ text_of_username hu)
    simp only [loginFailure, if_neg hfits, hnone]

end Login

/-- A disabled account. -/
def Db.disabled : Db := Db.ofStatements
  [.insert .user ⟨1, "worker", none, "secret", "Worker", none, .worker, false, none⟩]

/-- Nobody's password. -/
def wrongLogin : LoginRequest := { username := "worker", password := "guess" }

theorem wrongLogin_wrong :
    ¬LogsIn Crypto.plain Db.disabled wrongLogin ∧
      ¬LogsIn Crypto.plain (Database.empty schema) wrongLogin := by
  unfold LogsIn
  decide +kernel

/-- The sample table and one without accounts. -/
theorem login_alike_iff_disabled :
    (serve still (login still Crypto.plain wrongLogin)
        (World.fresh Db.disabled () : World Json Unit)).1 =
      (serve still (login still Crypto.plain wrongLogin)
        (World.fresh (Database.empty schema) () : World Json Unit)).1 ↔
      (NamesDisabled Db.disabled "worker" ↔ NamesDisabled (Database.empty schema) "worker") := by
  have hdisabled : ¬LogsIn Crypto.plain (World.fresh Db.disabled () : World Json Unit).db
      wrongLogin := wrongLogin_wrong.1
  have hunknown : ¬LogsIn Crypto.plain
      (World.fresh (Database.empty schema) () : World Json Unit).db wrongLogin :=
    wrongLogin_wrong.2
  exact login_alike_iff hdisabled hunknown

/-- **A disabled account shows**: the wrong password of one is answered in another way
than that of an unknown username. -/
theorem login_shows_disabled :
    ¬LogsIn Crypto.plain Db.disabled wrongLogin ∧
      ¬LogsIn Crypto.plain (Database.empty schema) wrongLogin ∧
        (serve still (login still Crypto.plain wrongLogin)
            (World.fresh Db.disabled () : World Json Unit)).1 ≠
          (serve still (login still Crypto.plain wrongLogin)
            (World.fresh (Database.empty schema) () : World Json Unit)).1 := by
  refine ⟨wrongLogin_wrong.1, wrongLogin_wrong.2, ?_⟩
  rw [serve_login_of_wrong (w := World.fresh Db.disabled ()) wrongLogin_wrong.1,
    serve_login_of_wrong (w := World.fresh (Database.empty schema) ())
      wrongLogin_wrong.2]
  intro heq
  have hsame : loginFailure Db.disabled "worker" =
      loginFailure (Database.empty schema) "worker" := Except.error.inj heq
  revert hsame
  decide +kernel

end Rooti

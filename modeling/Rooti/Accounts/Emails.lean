import Rooti.Core.Holding
import Rooti.Lib.Runs
import Rooti.Services.Auth
import Rooti.Services.Worker

/-!
# The e-mail addresses of accounts

An account may be looked up by its e-mail address, so no address shall be that of
two accounts.  The column has no constraint; every request that writes it has to look
first.  A self-signup and a profile update do, the creation of a worker does not.

## Main definitions

* `AccountRequest` — the requests that write accounts
* `UniqueEmails` — no address is that of two accounts
* `AccountRequest.KeepsEmails` — the requests that keep it so
* `emails_unique` — runs of such requests

## What carries the proof

A request leaves the table alone, adds an account, or changes one. For an account that is
added or changed it is enough that its new address is free (`UniqueEmails.opened`,
`UniqueEmails.change`). The two requests that look first have found it so in the database
their statements are applied to, as requests come one after another here. For the
creation of a worker `KeepsEmails` has to say it.

That an address finds at most one account matters because `find_by_email` asks for one
or none, and raises if there are several.
-/

namespace Rooti

open Relational Program

variable {V D : Type}

/-- The requests that write accounts. -/
inductive AccountRequest
  | signup (req : CaregiverSignupRequest)
  | createWorker (req : WorkerCreateRequest)
  | updateProfile (userId : ℤ) (req : UpdateMeRequest)
  | setEnabled (userId : ℤ) (enabled : Bool)

/-- The state after a request. -/
def AccountRequest.step (env : Env) (crypto : Crypto V) : AccountRequest → World V D → World V D
  | .signup req, w => (serve env (AuthService.signupAsCaregiver env crypto req) w).2
  | .createWorker req, w => (serve env (WorkerService.create crypto.bcrypt req) w).2
  | .updateProfile userId req, w => (serve env (AuthService.updateProfile userId req) w).2
  | .setEnabled userId enabled, w => (serve env (UserService.setEnabled userId enabled) w).2

/-- **No two accounts have the same e-mail address.** -/
def UniqueEmails (db : Db) : Prop :=
  ∀ u ∈ db.rows .user, ∀ u' ∈ db.rows .user, u.email ≠ none → u.email = u'.email → u = u'

/-- A worker is created with an address that no account has. -/
def AccountRequest.KeepsEmails (w : World V D) : AccountRequest → Prop
  | .createWorker req => ∀ u ∈ w.db.rows .user, u.email ≠ some req.email
  | .signup _ | .updateProfile .. | .setEnabled .. => True

section Requests

variable (env : Env) (crypto : Crypto V) (w : World V D)

/-- Tokens are issued. -/
theorem holds_issueTokenPair {d : Db} {ps : List Statement} {user : User} :
    (server env).Ensures (Holds w d ps)
      (issueTokenPair env crypto user : Async V D (TokenResponse V))
      (fun _ s w' => Holds w d ps s w') (Uncommitted w) := by
  have htoken : ∀ type, (server env).Ensures (Holds w d ps)
      (createToken env crypto user.id user.username [user.role.value] type : Async V D V)
      (fun _ s w' => Holds w d ps s w') (Uncommitted w) :=
    fun _ => holds_now.bind fun _ => .ret fun _ _ h => h
  refine (htoken .access).bind fun _ => (htoken .refresh).bind fun _ => ?_
  exact holds_redisSet.bind fun _ => .ret fun _ _ h => h

/-- **An account is opened**, and a row that belongs to it. -/
structure Opened (email : String) (db db' : Db) : Prop where
  users : ∃ user, user.email = some email ∧ db'.rows .user = db.rows .user ++ [user]

/-- An account and a row of another table are sent. -/
theorem opened_of_inserts {email : String} {user : User} {t : Entity} {row : Row t} {db db₁ db' : Db}
    (hemail : user.email = some email) (ht : t ≠ .user)
    (huser : (Dml.insert .user user : Statement).apply db = .ok db₁)
    (hrow : (Dml.insert t row : Statement).apply db₁ = .ok db') : Opened email db db' := by
  refine ⟨user, hemail, ?_⟩
  rw [← (Dml.insert_ok huser).1]
  exact congrArg Table.rows ((Dml.insert_ok hrow).2.2 .user ht.symm)

/-- **A self-signup** opens an account with an address that no account has. -/
theorem serve_signup (req : CaregiverSignupRequest) :
    (serve env (AuthService.signupAsCaregiver env crypto req) w).2.db = w.db ∨
      (∀ u ∈ w.db.rows .user, u.email ≠ some req.email) ∧
        Opened req.email w.db
          (serve env (AuthService.signupAsCaregiver env crypto req) w).2.db := by
  have hscript : (server env).Ensures (Holds w w.db [])
      (AuthService.signupAsCaregiver env crypto req)
      (fun _ s w' => ∃ d ps, (ps = [] ∧ (∀ u ∈ w.db.rows .user, u.email ≠ some req.email) ∧
        Opened req.email w.db d) ∧ Holds w d ps s w') (Uncommitted w) := by
    refine holds_query.bind fun taken => .of_and fun _ => holds_raiseIf.bind fun _ => .of_and ?_
    rintro -
    refine holds_query.bind fun used => .of_and ?_
    rintro ⟨-, o, rfl⟩
    refine holds_raiseIf.bind fun _ => .of_and fun hfree => ?_
    refine holds_hashPassword.bind fun passwordHash => ?_
    refine holds_insert fun newUser d₁ huser => holds_insert fun new d hd => ?_
    refine (holds_issueTokenPair env crypto w).weaken (fun _ _ h => h) ?_ fun _ _ h => h
    refine fun _ _ _ h => ⟨d, [], ⟨rfl, fun u hu hemail => ?_, ?_⟩, h⟩
    · exact List.any_eq_false.mp hfree u hu (decide_eq_true hemail)
    · exact opened_of_inserts rfl (by decide) huser hd
  obtain ⟨-, hsame⟩ | ⟨a, d, ps, -, ⟨rfl, hfree, hopened⟩, hkept⟩ := serve_holds hscript
  · exact .inl hsame
  · rw [hkept.eq]
    exact .inr ⟨hfree, hopened⟩

/-- **The creation of a worker** opens an account with any address. -/
theorem serve_createWorker (req : WorkerCreateRequest) :
    (serve env (WorkerService.create crypto.bcrypt req) w).2.db = w.db ∨
      Opened req.email w.db (serve env (WorkerService.create crypto.bcrypt req) w).2.db := by
  have hscript : (server env).Ensures (Holds w w.db []) (WorkerService.create crypto.bcrypt req)
      (fun _ s w' => ∃ d ps, (ps = [] ∧ Opened req.email w.db d) ∧ Holds w d ps s w')
      (Uncommitted w) := by
    refine holds_query.bind fun dup => .of_and fun _ => holds_raiseIf.bind fun _ => .of_and ?_
    rintro -
    refine holds_hashPassword.bind fun passwordHash => ?_
    refine holds_insert fun newUser d₁ huser => holds_insert fun new d hd => .ret ?_
    exact fun _ _ h => ⟨d, [], ⟨rfl, opened_of_inserts rfl (by decide) huser hd⟩, h⟩
  obtain ⟨-, hsame⟩ | ⟨a, d, ps, -, ⟨rfl, hopened⟩, hkept⟩ := serve_holds hscript
  · exact .inl hsame
  · rw [hkept.eq]
    exact .inr hopened

/-- The address of an update, if any, is that of no other account. -/
theorem holds_checkEmailFree {user : User} {userId : ℤ} {email : Option String} :
    (server env).Ensures (Holds w w.db [])
      (AuthService.checkEmailFree user userId email : Async V D Unit)
      (fun _ s w' => (∀ u ∈ w.db.rows .user, email ≠ none → u.email = email → email = user.email ∨
        u.id = userId) ∧ Holds w w.db [] s w') (Uncommitted w) := by
  cases email with
  | none => exact .ret fun _ _ h => ⟨fun _ _ hnone => absurd rfl hnone, h⟩
  | some email =>
      refine .ite (fun _ => ?_) fun hown => .ret fun _ _ h => ⟨fun _ _ _ _ => .inl ?_, h⟩
      · refine holds_query.bind fun dup => .of_and ?_
        rintro ⟨-, o, rfl⟩
        refine holds_raiseIf.weaken (fun _ _ h => h) ?_ fun _ _ h => h
        rintro _ s w' ⟨hfree, h⟩
        refine ⟨fun u hu _ hemail => .inr ?_, h⟩
        by_contra hne
        exact List.any_eq_false.mp hfree u hu (decide_eq_true ⟨hemail, hne⟩)
      · exact not_not.mp hown

/-- **A profile update** changes the address of the account to one that no other account
has. -/
theorem serve_updateProfile (userId : ℤ) (req : UpdateMeRequest) :
    (serve env (AuthService.updateProfile userId req) w).2.db = w.db ∨
      (∃ user ∈ w.db.rows .user, user.id = userId ∧
        ∀ u ∈ w.db.rows .user, req.email ≠ none → u.email = req.email →
          req.email = user.email ∨ u.id = userId) ∧
        Changed .user userId req.apply w.db
          (serve env (AuthService.updateProfile userId req) w).2.db := by
  have hscript : (server env).Ensures (Holds w w.db []) (AuthService.updateProfile userId req)
      (fun _ s w' => ∃ d ps, (ps = [] ∧ (∃ user ∈ w.db.rows .user, user.id = userId ∧
        ∀ u ∈ w.db.rows .user, req.email ≠ none → u.email = req.email →
          req.email = user.email ∨ u.id = userId) ∧
        Changed .user userId req.apply w.db d) ∧ Holds w d ps s w') (Uncommitted w) := by
    refine holds_dbGet.bind fun found => .of_and ?_
    rintro rfl
    refine holds_orRaise.bind fun user => .of_and fun hfound => ?_
    have hmem : user ∈ w.db.rows .user := Table.find?_mem hfound
    have hid : user.id = userId := Table.find?_key hfound
    refine (holds_checkEmailFree env w).bind fun _ => .of_and fun hfree => ?_
    refine holds_modify.bind fun _ => .of_exists fun now => ?_
    refine holds_flush.bind fun _ => .of_exists fun d => .of_and fun hd => .ret fun _ _ h => ?_
    refine ⟨d, [], ⟨rfl, ⟨user, hmem, hid, hfree⟩, ?_⟩, h⟩
    rw [← hid]
    exact changed_of_applyAll hmem (fun _ => rfl) hd
  obtain ⟨-, hsame⟩ | ⟨a, d, ps, -, ⟨rfl, hfree, hchanged⟩, hkept⟩ := serve_holds hscript
  · exact .inl hsame
  · rw [hkept.eq]
    exact .inr ⟨hfree, hchanged⟩

/-- Switching an account on or off leaves its address alone. -/
theorem serve_setEnabled (userId : ℤ) (enabled : Bool) :
    (serve env (UserService.setEnabled userId enabled) w).2.db = w.db ∨
      Changed .user userId (fun u => { u with enabled := enabled }) w.db
        (serve env (UserService.setEnabled userId enabled) w).2.db := by
  have hscript : (server env).Ensures (Holds w w.db []) (UserService.setEnabled userId enabled)
      (fun _ s w' => ∃ user now, w.db.find? .user userId = some user ∧
        Holds w w.db (changes .user user (fun u => { u with enabled := enabled }) now) s w')
      (Uncommitted w) := by
    refine holds_getOrRaise.bind fun user => .of_and fun hfound => ?_
    refine holds_modify.bind fun _ => .of_exists fun now => .ret fun _ _ h => ?_
    exact ⟨user, now, hfound, h⟩
  obtain ⟨-, hsame⟩ | ⟨-, -, ⟨-, hsame⟩ | hchanged⟩ := serve_changes (fun _ _ => rfl) hscript
  · exact .inl hsame
  · exact .inl hsame
  · exact .inr hchanged

end Requests

/-! ## Runs -/

section Runs

variable {env : Env} {crypto : Crypto V} {w : World V D} {db db' : Db}

/-- A new account with a free address. -/
theorem UniqueEmails.opened {email : String} (h : UniqueEmails db)
    (hfree : ∀ u ∈ db.rows .user, u.email ≠ some email) (hopened : Opened email db db') :
    UniqueEmails db' := by
  obtain ⟨user, hemail, hrows⟩ := hopened
  intro u hu u' hu' hsome hsame
  rw [hrows, List.mem_append, List.mem_singleton] at hu hu'
  obtain hu | rfl := hu <;> obtain hu' | rfl := hu'
  · exact h u hu u' hu' hsome hsame
  · exact absurd (hsame.trans hemail) (hfree u hu)
  · exact absurd (hsame.symm.trans hemail) (hfree u' hu')
  · rfl

/-- An account that keeps its address or gets a free one. -/
theorem UniqueEmails.change {userId : ℤ} {f : User → User} (h : UniqueEmails db)
    (hfree : ∀ u ∈ db.rows .user, ∀ u' ∈ db.rows .user, u.id = userId → (f u).email ≠ none →
      (f u).email = u'.email → u'.id = userId)
    (hchanged : Changed .user userId f db db') : UniqueEmails db' := by
  intro x hx x' hx' hsome hsame
  obtain ⟨u, hu, ⟨hid, rfl⟩ | ⟨hid, rfl⟩⟩ := hchanged.of_mem hx <;>
    obtain ⟨u', hu', ⟨hid', rfl⟩ | ⟨hid', rfl⟩⟩ := hchanged.of_mem hx'
  · rw [Table.eq_of_key hu hu' (hid.trans hid'.symm)]
  · exact absurd (hfree u hu x' hu' hid hsome hsame) hid'
  · exact absurd (hfree u' hu' x hu hid' (hsame ▸ hsome) hsame.symm) hid
  · exact h x hu x' hu' hsome hsame

/-- A request that keeps the addresses apart. -/
theorem uniqueEmails_step (request : AccountRequest) (w : World V D)
    (hok : request.KeepsEmails w) (h : UniqueEmails w.db) :
    UniqueEmails (request.step env crypto w).db := by
  cases request with
  | signup req =>
      obtain hsame | ⟨hfree, hopened⟩ := serve_signup env crypto w req
      · exact hsame ▸ h
      · exact h.opened hfree hopened
  | createWorker req =>
      obtain hsame | hopened := serve_createWorker env crypto w req
      · exact hsame ▸ h
      · exact h.opened hok hopened
  | updateProfile userId req =>
      obtain hsame | ⟨⟨user, huser, hid, hfree⟩, hchanged⟩ := serve_updateProfile env w userId req
      · exact hsame ▸ h
      · refine h.change (fun u hu u' hu' hid' hsome hsame => ?_) hchanged
        obtain rfl : u = user := Table.eq_of_key hu huser (hid'.trans hid.symm)
        -- the address that the account has after the update
        cases hreq : req.email with
        | none =>
            have hold : (req.apply u).email = u.email := by simp [UpdateMeRequest.apply, hreq]
            rw [hold] at hsome hsame
            exact (h u hu u' hu' hsome hsame) ▸ hid
        | some email =>
            have hnew : (req.apply u).email = some email := by
              simp [UpdateMeRequest.apply, hreq]
            rw [hnew] at hsome hsame
            rw [hreq] at hfree
            obtain hown | hother := hfree u' hu' hsome hsame.symm
            · have hsame' : u.email = u'.email := hown.symm.trans hsame
              exact (h u hu u' hu' (hown ▸ hsome) hsame') ▸ hid
            · exact hother
  | setEnabled userId enabled =>
      obtain hsame | hchanged := serve_setEnabled env w userId enabled
      · exact hsame ▸ h
      · exact h.change (fun u hu u' hu' hid hsome hsame => (h u hu u' hu' hsome hsame) ▸ hid)
          hchanged

/-- An address finds at most one account, if addresses are unique. -/
theorem accounts_of_email (h : UniqueEmails db) (o : RowOrder) (email : String) :
    ∃ found : Option User,
      o.scan ((db.rows .user).filter fun u => u.email = some email) = found.toList := by
  obtain ⟨found, hfound⟩ := (db.table .user).exists_filter_eq
    (p := fun u : User => u.email = some email) fun u hu u' hu' hemail hemail' =>
      h u hu u' hu' (of_decide_eq_true hemail ▸ Option.some_ne_none email)
        ((of_decide_eq_true hemail).trans (of_decide_eq_true hemail').symm)
  change (db.rows .user).filter _ = _ at hfound
  refine ⟨found, ?_⟩
  rw [hfound]
  exact o.scan_toList found

/-- **An account is found by its address**, if addresses are unique. -/
theorem findByEmail_of_unique (h : UniqueEmails w.db) (email : String) :
    (serve env (UserService.findByEmail email : Async V D (Option User)) w).1 ≠
      .error multipleResultsFound := by
  obtain ⟨found, hfound⟩ := accounts_of_email h (env.rowOrder w.ticks) email
  have hrun := run_select_bind_clean env w [.text email] (fun o db =>
    o.scan ((db.rows .user).filter fun u => u.email = some email)) (scalarOneOrNone (V := V) (D := D))
  rw [hfound] at hrun
  have hone : (server env).run (scalarOneOrNone found.toList) {} w.tick =
      (.ok found, {}, w.tick) := by
    cases found <;> rfl
  intro hanswer
  split at hrun
  · have hserve := congrArg Prod.fst (serve_of_clean (hrun.trans hone))
    cases hserve.symm.trans hanswer
  · have hserve := congrArg Prod.fst (serve_of_error hrun)
    cases hserve.symm.trans hanswer

/-- **E-mail addresses stay unique** in runs in which workers are created with addresses
that are free, and then an address never finds several accounts. -/
theorem emails_unique {requests : List AccountRequest} (hstart : UniqueEmails w.db)
    (hkeeps : Runs.Guarded (AccountRequest.step env crypto)
      (fun request w => request.KeepsEmails w) requests w) :
    UniqueEmails (Runs.run (AccountRequest.step env crypto) requests w).db ∧
      ∀ email, (serve env (UserService.findByEmail email)
        (Runs.run (AccountRequest.step env crypto) requests w)).1 ≠
          .error multipleResultsFound := by
  have hunique : UniqueEmails (Runs.run (AccountRequest.step env crypto) requests w).db :=
    hkeeps.invariant (fun request w hok h => uniqueEmails_step request w hok h) hstart
  exact ⟨hunique, findByEmail_of_unique hunique⟩

end Runs

/-- A caregiver who signs up. -/
def caregiverSignup : AccountRequest :=
  .signup { username := "care", email := "kim@example.org", password := "password", name := "Kim" }

/-- A worker with the address `email`. -/
def workerWith (email : String) : AccountRequest :=
  .createWorker { username := "work", email := email, password := "password", name := "Lee" }

/-- A caregiver and a worker with an address of their own. -/
theorem emails_unique_sample :
    UniqueEmails (Runs.run (AccountRequest.step still Crypto.plain)
        [caregiverSignup, workerWith "lee@example.org"]
        (World.fresh (Database.empty schema) () : World Json Unit)).db ∧
      ∀ email, (serve still (UserService.findByEmail email)
        (Runs.run (AccountRequest.step still Crypto.plain)
          [caregiverSignup, workerWith "lee@example.org"]
          (World.fresh (Database.empty schema) () : World Json Unit))).1 ≠
            .error multipleResultsFound := by
  refine emails_unique (w := World.fresh (Database.empty schema) ()) ?_ ⟨trivial, ?_, trivial⟩
  · intro u hu
    cases hu
  · show ∀ u ∈ (caregiverSignup.step still Crypto.plain
      (World.fresh (Database.empty schema) () : World Json Unit)).db.rows .user,
        u.email ≠ some "lee@example.org"
    decide +kernel

/-- **An address can be that of two accounts**: it does not find any of them then. -/
theorem emails_not_unique :
    ¬UniqueEmails (Runs.run (AccountRequest.step still Crypto.plain)
        [caregiverSignup, workerWith "kim@example.org"]
        (World.fresh (Database.empty schema) () : World Json Unit)).db ∧
      (serve still (UserService.findByEmail "kim@example.org")
        (Runs.run (AccountRequest.step still Crypto.plain)
          [caregiverSignup, workerWith "kim@example.org"]
          (World.fresh (Database.empty schema) () : World Json Unit))).1 =
            .error multipleResultsFound := by
  unfold UniqueEmails
  decide +kernel

end Rooti

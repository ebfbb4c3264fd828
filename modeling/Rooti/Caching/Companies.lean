import Rooti.Caching.Standards
import Rooti.Core.Holding
import Rooti.Lib.Protocol

/-!
# The cache of companies

A `get` that finds no entry loads the company and caches what it has loaded.  A change drops
the entry and commits afterwards.  A `get` that loads the company before the commit and caches
it after the entry has been dropped leaves the company as it was before the change
(`company_stale`).

While no `get` is between its load and its `SET` when the change is between its `DEL` and its
commit, every entry is the committed company (`company_coherent`).

## Main definitions

* `CompanyChange`, `CompanyChange.pool` — a change and concurrent `get`s
* `shownCompany`, `CompanyCoherent` — what is cached of a company
* `CompanyStage`, `companyProtocol` — how far a request is
* `Apart` — the steps after which the entries are still correct

## What carries the proof

The invariant `CompanyServed` speaks of the whole pool: every entry is the committed
company, what a `get` has loaded is what the committed company shows, and when a change
that shows is about to commit, there is no entry. The last part is where `Apart` is
needed twice. No `get` may fill the entry between the `DEL` and the commit, and none may
hold a copy of the company when the commit makes it old. A change that shows nothing new
in a response asks for neither.

Each request follows its protocol on its own (`follows_get`, `follows_script`), and
`exec_company` says once what a command can do to the company and its entry. The four
cases are the four lemmas on turns: `CompanyTurn.quiet`, `CompanyTurn.cached`,
`CompanyTurn.evicted` and `CompanyTurn.committed`.
-/

namespace Rooti

open Relational Program

variable {V D ι : Type}

/-! ## Entries -/

/-- The key of a company. -/
def companyKey (companyId : ℤ) : String := cacheKey CompanyService.cacheNs companyId

/-- **The response of a company**, as it is built from the database. -/
def shownCompany (db : Db) (companyId : ℤ) : Option CompanyResponse :=
  (db.find? .company companyId).bind fun company => (CompanyResponse.ofRow company).toOption

/-- The text that is cached for a response. -/
def companyText (p : Pydantic V) (resp : CompanyResponse) : V :=
  p.dumpJson ((CompanyResponse.codec p).dump true resp)

/-- **An entry of the company is the committed company.** -/
def CompanyCoherent (p : Pydantic V) (env : Env) (companyId : ℤ) (w : World V D) : Prop :=
  ∀ v, Cached env w (companyKey companyId) v →
    ∃ resp, shownCompany w.db companyId = some resp ∧ v = companyText p resp

/-! ## The requests -/

/-- **The requests that change a company.** -/
inductive CompanyChange
  | update (req : CompanyUpdateRequest) (actor : Option PrincipalDetails)
  | deactivate (actor : Option PrincipalDetails)

namespace CompanyChange

/-- The attribute assignments of a change. -/
def assign : CompanyChange → Company → Company
  | update req actor, company => CompanyService.assign req actor company
  | deactivate actor, company =>
      { company with
        useFlag := false
        updatedBy := (actor.map PrincipalDetails.userId).orElse fun _ => company.updatedBy }

/-- The script of a change. -/
def script (companyId : ℤ) : CompanyChange → Async V D Unit
  | update req actor => do
      let _ ← CompanyService.update companyId req actor
      return ()
  | deactivate actor => CompanyService.deactivate companyId actor

/-- The script of a request: the change, or a `get`. -/
def request (p : Pydantic V) (companyId : ℤ) (change : CompanyChange) :
    Option ι → Async V D Unit
  | none => change.script companyId
  | some _ => do
      let _ ← CompanyService.get p companyId
      return ()

/-- A change and concurrent `get`s, none of which has done anything yet. -/
def pool (p : Pydantic V) (env : Env) (companyId : ℤ) (change : CompanyChange)
    (w : World V D) : Pool (Cmd V D) Err Session (World V D) (Option ι) Unit where
  prog := fun i => getDbSession env (change.request p companyId i)
  loc := fun _ => {}
  shared := w

end CompanyChange

/-! ## How far a request is -/

/-- **How far a request is.** -/
inductive CompanyStage
  /-- a `get` with nothing to cache -/
  | reading
  /-- a `get` that has loaded the company and will cache it -/
  | loaded (resp : CompanyResponse)
  /-- a change whose company has not been loaded -/
  | fetching (change : CompanyChange)
  /-- a change whose company has been loaded -/
  | fetched (change : CompanyChange) (company : Company)
  /-- the assignments have been recorded -/
  | changing (change : CompanyChange) (company : Company)
  /-- the entry has been dropped -/
  | evicted (change : CompanyChange) (company : Company)
  /-- a change that is over -/
  | gone

namespace CompanyStage

/-- A `get` is between its load and its `SET`. -/
def caching : CompanyStage → Bool
  | loaded _ => true
  | _ => false

/-- A change has dropped the entry, and changes what is shown. -/
def visible : CompanyStage → Bool
  | evicted change company =>
      decide (CompanyResponse.ofRow (change.assign company) ≠ CompanyResponse.ofRow company)
  | _ => false

/-- The request is a `get`. -/
def isGet : CompanyStage → Bool
  | reading | loaded _ => true
  | _ => false

/-- The company a change has loaded. -/
def company : CompanyStage → Option Company
  | fetched _ company | changing _ company | evicted _ company => some company
  | _ => none

/-- The stage after the company was looked up by a `get`. -/
def afterLoad : Option CompanyResponse → CompanyStage
  | some resp => loaded resp
  | none => reading

/-- The stage after the company was looked up by a change. -/
def afterFetch (change : CompanyChange) : Option Company → CompanyStage
  | some company => fetched change company
  | none => gone

variable (companyId : ℤ) {β : Type}

/-- The stage after a command met a state of the database and was answered. -/
def next (q : CompanyStage) (c : Cmd V D β) (w : World V D) (r : Except Err β) : CompanyStage :=
  match q, c, r with
  | .reading, .select .., .ok _ => afterLoad (shownCompany w.db companyId)
  | .reading, _, _ => .reading
  | .loaded _, _, _ => .reading
  | .fetching change, .select .., .ok _ => afterFetch change (w.db.find? .company companyId)
  | .fetched change company, .modify .., .ok _ => .changing change company
  | .changing change company, .redisDel _, .ok _ => .evicted change company
  | _, _, _ => .gone

/-- The commands allowed in a stage. -/
def allowed (p : Pydantic V) (q : CompanyStage) (c : Cmd V D β) : Prop :=
  match c with
  | .redisGet _ => q = .reading
  | .select .. => q = .reading ∨ ∃ change, q = .fetching change
  | .redisSet key v _ =>
      ∃ resp, q = .loaded resp ∧ key = companyKey companyId ∧ v = companyText p resp
  | .modify t row f => ∃ change company, q = .fetched change company ∧
      company.id = companyId ∧ (⟨t, row, f⟩ : (t : Entity) × Row t × (Row t → Row t)) =
        ⟨.company, company, change.assign⟩
  | .redisDel key => key = companyKey companyId ∧ ∃ change company, q = .changing change company
  | .commit => q = .reading ∨ ∃ change company, q = .evicted change company
  | .rollback => True
  | _ => False

/-- The changes a session holds in a stage. -/
def holds (q : CompanyStage) (s : Session) : Prop :=
  match q with
  | reading | loaded _ | fetching _ | fetched _ _ => s.statements = []
  | changing change company | evicted change company =>
      (change.assign company = company ∧ s.statements = []) ∨
        s.statements = [.update .company companyId change.assign]
  | gone => True

end CompanyStage

/-- **The protocol of the requests.** -/
def companyProtocol (p : Pydantic V) (companyId : ℤ) :
    Protocol (Cmd V D) Err (World V D) CompanyStage where
  next := CompanyStage.next companyId
  allowed := CompanyStage.allowed companyId p

/-- What a request may rely on: its session holds what its stage says. -/
def CompanyInv (companyId : ℤ) (q : CompanyStage) (s : Session) (_ : World V D) : Prop :=
  q.holds companyId s

/-! ## The scripts follow the protocol -/

section Follows

variable (env : Env) (p : Pydantic V) (companyId : ℤ)

/-- A script that has returned may be committed. -/
def CompanyStage.done {α : Type} (q : CompanyStage) (r : Except Err α) : Prop :=
  match r with
  | .ok _ => q = .reading ∨ ∃ change company, q = .evicted change company
  | .error _ => True

variable {env p companyId} {α : Type}

/-- What follows a lookup. -/
theorem follows_getOrThrow {q : CompanyStage} {f : Company → Async V D α}
    {done : CompanyStage → Except Err α → Prop}
    (hq : q = .reading ∨ ∃ change, q = .fetching change)
    (hclean : ∀ s, q.holds companyId s → s.statements = [])
    (herror : ∀ q' e, done q' (.error e))
    (hf : ∀ (w : World V D) company, w.db.find? .company companyId = some company →
      (server env).Follows (companyProtocol p companyId) (CompanyInv companyId) (f company)
        (q.next companyId (.select [.int companyId] fun _ db => db.find? .company companyId) w
          (.ok (some company))) done) :
    (server env).Follows (companyProtocol p companyId) (CompanyInv companyId)
      (Prog.bind (CompanyService.getOrThrow companyId) f) q done := by
  rw [CompanyService.getOrThrow, Prog.bind_eq, Prog.bind_assoc]
  refine .bind (.lift hq fun s w hs => ?_)
  rw [server_exec]
  cases hr : (exec env (.select [.int companyId] fun _ db => db.find? .company companyId)
      s w).1 with
  | error e => exact herror _ e
  | ok found =>
      have hfound : found = w.db.find? .company companyId := execSelect_clean (hclean s hs) hr
      cases found with
      | none => exact herror _ _
      | some company => exact hf w company hfound.symm

/-- A `get` answers from its entry, or loads the company and caches what it has loaded.
-/
theorem follows_get :
    (server env).Follows (companyProtocol p companyId) (CompanyInv companyId)
      (CompanyService.get p companyId : Async V D CompanyResponse) .reading
      CompanyStage.done := by
  have hload : (server env).Follows (companyProtocol p companyId) (CompanyInv companyId)
      (CompanyService.load p companyId : Async V D CompanyResponse) .reading
      CompanyStage.done := by
    refine follows_getOrThrow (.inl rfl) (fun s hs => hs) (fun _ _ => trivial)
      fun w company hfound => ?_
    show Machine.Follows _ _ _ _ (CompanyStage.afterLoad (shownCompany w.db companyId)) _
    rw [shownCompany, hfound, Option.bind_some]
    cases CompanyResponse.ofRow company with
    | error e => trivial
    | ok resp =>
        -- the response is cached, and a failing client is ignored
        refine .bind (.ret ?_)
        refine .bind ?_
        refine .handle ?_
        refine .lift ⟨resp, rfl, rfl, rfl⟩ fun s w _ => ?_
        rw [server_exec]
        cases (exec env (.redisSet (companyKey companyId) (companyText p resp)
          CompanyService.cacheTtl) s w).1 <;> exact .inl rfl
  refine .bind (.bind ?_)
  refine .handle (.lift rfl fun s w _ => ?_)
  rw [server_exec, exec]
  dsimp only
  refine .ret ?_
  dsimp only
  generalize Option.bind _ _ = hit
  cases hit with
  | some hit => exact .inl rfl
  | none => exact hload

/-- A change loads the company, assigns to it and drops the entry. -/
theorem follows_change {change : CompanyChange} {rest : Company → Async V D α}
    (hrest : ∀ company, ∃ r, rest company = Prog.ofExcept r) :
    (server env).Follows (companyProtocol p companyId) (CompanyInv companyId)
      (Prog.bind (CompanyService.getOrThrow companyId) fun company =>
        Prog.bind (modify .company company change.assign) fun _ =>
          Prog.bind (evict CompanyService.cacheNs companyId) fun _ => rest company)
      (.fetching change) CompanyStage.done := by
  refine follows_getOrThrow (.inr ⟨change, rfl⟩) (fun s hs => hs) (fun _ _ => trivial)
    fun w company hfound => ?_
  show Machine.Follows _ _ _ _ (CompanyStage.afterFetch change (w.db.find? .company companyId)) _
  rw [hfound]
  refine .bind (.lift ⟨change, company, rfl, Table.find?_key hfound, rfl⟩ fun s w _ => ?_)
  have hok : (exec env (.modify .company company change.assign) s w).1 = .ok () := by
    rw [exec]
    split <;> rfl
  rw [server_exec, hok]
  refine .bind (.handle (.lift ⟨rfl, change, company, rfl⟩ fun s w _ => ?_))
  obtain ⟨r, hr⟩ := hrest company
  show Machine.Follows _ _ _ (rest company) _ _
  rw [hr]
  cases r with
  | error e => trivial
  | ok a => exact .inr ⟨change, company, rfl⟩

/-- A change looks the company up, drops its entry and commits. -/
theorem follows_script (change : CompanyChange) :
    (server env).Follows (companyProtocol p companyId) (CompanyInv companyId)
      (change.script companyId : Async V D Unit) (.fetching change) CompanyStage.done := by
  cases change with
  | update req actor =>
      refine .bind ((follows_change fun company => ⟨_, rfl⟩).weaken fun q r h => ?_)
      cases r with
      | error e => trivial
      | ok resp => exact h
  | deactivate actor =>
      have hend : (evict CompanyService.cacheNs companyId : Async V D Unit) =
          Prog.bind (evict CompanyService.cacheNs companyId) fun _ => .ret () :=
        (Prog.bind_ret _).symm
      show Machine.Follows _ _ _ (Prog.bind _ fun company => Prog.bind _ fun _ =>
        evict CompanyService.cacheNs companyId) _ _
      rw [hend]
      exact follows_change fun company => ⟨.ok (), rfl⟩

variable (p) in
/-- A request ends with its transaction. -/
theorem follows_companyRequest (change : CompanyChange) (i : Option ι) :
    (server env).Follows (companyProtocol p companyId) (CompanyInv companyId)
      (getDbSession env (change.request p companyId i) : Async V D Unit)
      (i.elim (.fetching change) fun _ => .reading) fun _ _ => True := by
  have hscript : (server env).Follows (companyProtocol p companyId) (CompanyInv companyId)
      (change.request p companyId i : Async V D Unit)
      (i.elim (.fetching change) fun _ => .reading) CompanyStage.done := by
    cases i with
    | none => exact follows_script change
    | some i =>
        refine .bind (follows_get.weaken fun q r h => ?_)
        cases r with
        | error e => trivial
        | ok resp => exact h
  have hrollback : ∀ (q : CompanyStage) e,
      (server env).Follows (companyProtocol p companyId) (CompanyInv companyId)
        (Prog.bind rollback fun _ => Prog.raise e : Async V D Unit) q fun _ _ => True :=
    fun q e => ⟨trivial, fun _ _ _ => trivial⟩
  refine .handle (.bind (hscript.weaken fun q r h => ?_))
  cases r with
  | error e => exact hrollback q e
  | ok a =>
      refine .bind (.ite (fun _ => .lift trivial fun s w _ => ?_) fun _ =>
        .lift h fun s w _ => ?_) <;> rw [server_exec]
      · exact trivial
      · cases (exec env .commit s w).1 with
        | error e => exact hrollback _ e
        | ok _ => exact trivial

end Follows

/-! ## What one command does -/

section Step

variable {env : Env} {p : Pydantic V} {companyId : ℤ} {β : Type} {c : Cmd V D β}
  {q : CompanyStage} {s : Session} {w : World V D}

variable (env) in
/-- **The session holds what the next stage says.** -/
theorem CompanyStage.holds_next (h : q.holds companyId s) (hc : q.allowed companyId p c) :
    (q.next companyId c w (exec env c s w).1).holds companyId (exec env c s w).2.1 := by
  have hs := exec_statements env c s w
  -- a session without changes has none after a command that records none
  have hclean : c.recorded env w = [] → s.statements = [] →
      (exec env c s w).2.1.statements = [] := fun hrecorded hnil =>
    List.subperm_nil.mp (by rwa [hrecorded, hnil] at hs)
  cases c with
  | redisGet key =>
      obtain rfl := hc
      exact hclean rfl h
  | select binds qry =>
      obtain rfl | ⟨change, rfl⟩ := hc
      · have hnil := hclean rfl h
        cases (exec env (.select binds qry) s w).1 with
        | error e => exact hnil
        | ok a =>
            show (afterLoad _).holds companyId _
            cases shownCompany w.db companyId <;> exact hnil
      · have hnil := hclean rfl h
        cases (exec env (.select binds qry) s w).1 with
        | error e => trivial
        | ok a =>
            show (afterFetch change _).holds companyId _
            cases w.db.find? .company companyId with
            | none => trivial
            | some company => exact hnil
  | redisSet key v ex =>
      obtain ⟨resp, rfl, -, -⟩ := hc
      exact hclean rfl h
  | modify t row f =>
      obtain ⟨change, company, rfl, rfl, hsame⟩ := hc
      cases hsame
      have hnil : s.statements = [] := h
      rw [exec]
      split
      · next hassign => exact .inl ⟨hassign, hnil⟩
      · rw [Session.statements, List.append_eq_nil_iff] at hnil
        refine .inr ?_
        show s.written ++ (s.pending ++ [_]) = _
        rw [hnil.1, hnil.2]
        rfl
  | redisDel key =>
      obtain ⟨rfl, change, company, rfl⟩ := hc
      exact h
  | commit =>
      obtain rfl | ⟨change, company, rfl⟩ := hc
      · exact hclean rfl h
      · cases (exec env .commit s w).1 <;> trivial
  | rollback => cases q <;> trivial
  | _ => exact hc.elim

/-- What a `get` has loaded is shown. -/
theorem CompanyStage.next_loaded {r : Except Err β} {resp : CompanyResponse}
    (h : q.next companyId c w r = .loaded resp) : shownCompany w.db companyId = some resp := by
  unfold next at h
  split at h
  · cases hshown : shownCompany w.db companyId <;> rw [hshown] at h <;> cases h
    rfl
  · cases h
  · cases h
  · cases hfound : w.db.find? .company companyId <;> rw [hfound] at h <;> cases h
  · cases h
  · cases h
  · cases h

/-- A company that is held has been held, or is the current one. -/
theorem CompanyStage.next_company {r : Except Err β} {company : Company}
    (h : (q.next companyId c w r).company = some company) :
    q.company = some company ∨ w.db.find? .company companyId = some company := by
  unfold next at h
  split at h
  · cases hshown : shownCompany w.db companyId <;> rw [hshown] at h <;> cases h
  · cases h
  · cases h
  · right
    cases hfound : w.db.find? .company companyId <;> rw [hfound] at h <;> cases h
    rfl
  · exact .inl h
  · exact .inl h
  · cases h

/-- A stage of a `get` is followed by one of a `get`. -/
theorem CompanyStage.next_isGet {r : Except Err β} (h : q.isGet) :
    (q.next companyId c w r).isGet := by
  cases q with
  | reading =>
      unfold next
      split
      · cases shownCompany w.db companyId <;> rfl
      all_goals first | rfl | contradiction
  | loaded resp => rfl
  | _ => cases h

/-- A `get` holds no company. -/
theorem CompanyStage.company_of_isGet (h : q.isGet) : q.company = none := by
  cases q <;> first | rfl | cases h

variable (env) in
/-- **What a command does to the company and its entry**: nothing, or a `get` caches what it
has loaded, or a change drops the entry, or commits its assignments. -/
theorem exec_company (h : q.holds companyId s) (hc : q.allowed companyId p c) :
    ((exec env c s w).2.2.db = w.db ∧
      (exec env c s w).2.2.redis (companyKey companyId) = w.redis (companyKey companyId) ∧
      (q.next companyId c w (exec env c s w).1).visible = false) ∨
    (∃ resp e, q = .loaded resp ∧ (exec env c s w).2.2.db = w.db ∧
      (exec env c s w).2.2.redis (companyKey companyId) = some ⟨companyText p resp, e⟩) ∨
    (q.isGet = false ∧ (exec env c s w).2.2.db = w.db ∧
      (exec env c s w).2.2.redis (companyKey companyId) = none) ∨
    ∃ change company, q = .evicted change company ∧ c.isCommit ∧
      q.next companyId c w (exec env c s w).1 = .gone ∧
      (exec env c s w).2.2.redis (companyKey companyId) = w.redis (companyKey companyId) ∧
      Changed .company companyId change.assign w.db (exec env c s w).2.2.db := by
  -- most commands touch neither the tables nor the cache
  have hquiet : c.quiet → (q.next companyId c w (exec env c s w).1).visible = false →
      (exec env c s w).2.2.db = w.db ∧
        (exec env c s w).2.2.redis (companyKey companyId) = w.redis (companyKey companyId) ∧
        (q.next companyId c w (exec env c s w).1).visible = false := fun hc hvisible => by
    have hunchanged : Unchanged w (exec env c s w).2.2 := exec_quiet hc s (.refl w)
    exact ⟨hunchanged.db, by rw [hunchanged.redis], hvisible⟩
  cases c with
  | redisGet key =>
      obtain rfl := hc
      exact .inl ⟨rfl, rfl, rfl⟩
  | select binds qry =>
      refine .inl (hquiet rfl ?_)
      obtain rfl | ⟨change, rfl⟩ := hc <;> cases (exec env (.select binds qry) s w).1
      · rfl
      · show (CompanyStage.afterLoad _).visible = false
        cases shownCompany w.db companyId <;> rfl
      · rfl
      · show (CompanyStage.afterFetch change _).visible = false
        cases w.db.find? .company companyId <;> rfl
  | redisSet key v ex =>
      obtain ⟨resp, rfl, rfl, rfl⟩ := hc
      rw [exec]
      split
      · exact .inl ⟨rfl, rfl, rfl⟩
      · exact .inr (.inl ⟨resp, _, rfl, rfl, w.redis.set_same _ _ _⟩)
  | modify t row f =>
      obtain ⟨change, company, rfl, -, -⟩ := hc
      refine .inl (hquiet rfl ?_)
      cases (exec env (.modify t row f) s w).1 <;> rfl
  | redisDel key =>
      obtain ⟨rfl, change, company, rfl⟩ := hc
      exact .inr (.inr (.inl ⟨rfl, rfl, w.redis.del_same _⟩))
  | commit =>
      have hredis : (exec env .commit s w).2.2.redis = w.redis := by
        rw [exec, execCommit]
        split
        · rfl
        · split <;> rfl
      have hnext : (q.next companyId .commit w (exec env .commit s w).1).visible = false := by
        cases q <;> rfl
      obtain hdb | ⟨-, ds, hperm, happly⟩ := exec_db env .commit s w
      · exact .inl ⟨hdb, by rw [hredis], hnext⟩
      obtain rfl | ⟨change, company, rfl⟩ := hc
      · obtain rfl := List.perm_nil.mp (hperm.trans (.of_eq h))
        exact .inl ⟨(Except.ok.inj happly).symm, by rw [hredis], hnext⟩
      -- the change has sent nothing if it assigned what was there
      · obtain ⟨-, hnil⟩ | hone := h
        · obtain rfl := List.perm_nil.mp (hperm.trans (.of_eq hnil))
          exact .inl ⟨(Except.ok.inj happly).symm, by rw [hredis], hnext⟩
        · obtain rfl := List.perm_singleton.mp (hperm.trans (.of_eq hone))
          rw [Dml.applyAll_singleton] at happly
          obtain ⟨-, hrows, hothers⟩ := Dml.update_ok happly
          exact .inr (.inr (.inr ⟨change, company, rfl, rfl, rfl, by rw [hredis], hrows, hothers⟩))
  | rollback => exact .inl ⟨rfl, rfl, by cases q <;> rfl⟩
  | _ => exact hc.elim

/-- What is shown of a company after a change of it. -/
theorem shownCompany_changed {change : CompanyChange} {company : Company} {db db' : Db}
    (hchanged : Changed .company companyId change.assign db db')
    (hfound : db.find? .company companyId = some company) :
    shownCompany db' companyId = (CompanyResponse.ofRow (change.assign company)).toOption := by
  have hkey : ∀ r : Company, keyOf .company (change.assign r) = keyOf .company r := by
    intro r
    cases change <;> rfl
  rw [shownCompany, hchanged.find? hkey, hfound, Option.map_some, if_pos rfl, Option.bind_some]

end Step

/-! ## Concurrent requests -/

section Pool

variable {p : Pydantic V} {env : Env} {companyId : ℤ} {change : CompanyChange}

/-- The requests with their stages recorded. -/
def CompanyChange.watched (p : Pydantic V) (env : Env) (companyId : ℤ) (change : CompanyChange)
    (w : World V D) :
    Pool (Cmd V D) Err (Session × CompanyStage) (World V D) (Option ι) Unit where
  prog := (CompanyChange.pool p env companyId change w).prog
  loc := fun i => ({}, i.elim (.fetching change) fun _ => .reading)
  shared := w

/-- **No `get` is between its load and its `SET`** while the change is between its `DEL` and
its commit, if the change shows. -/
def Apart (P : Pool (Cmd V D) Err (Session × CompanyStage) (World V D) (Option ι) Unit)
    (_ : Option ι) : Prop :=
  nextIsCommit (P.prog none) → (P.stage none).visible → ∀ i, (P.stage (some i)).caching = false

instance [Fintype ι]
    (P : Pool (Cmd V D) Err (Session × CompanyStage) (World V D) (Option ι) Unit)
    (i : Option ι) : Decidable (Apart P i) :=
  inferInstanceAs (Decidable (nextIsCommit (P.prog none) → (P.stage none).visible →
    ∀ i, (P.stage (some i)).caching = false))

/-- **The invariant of the requests**: a `get` has loaded what is shown, the change the current
company, and there is no entry when a change that shows is about to be committed. -/
structure CompanyServed (p : Pydantic V) (env : Env) (companyId : ℤ)
    (P : Pool (Cmd V D) Err (Session × CompanyStage) (World V D) (Option ι) Unit) : Prop where
  follows : P.Follows (server env) (companyProtocol p companyId) (CompanyInv companyId)
    fun _ _ _ => True
  gets : ∀ i, (P.stage (some i)).isGet
  loaded : ∀ i resp, P.stage i = .loaded resp → shownCompany P.shared.db companyId = some resp
  company : ∀ i row, (P.stage i).company = some row →
    P.shared.db.find? .company companyId = some row
  coherent : CompanyCoherent p env companyId P.shared
  dropped : nextIsCommit (P.prog none) → (P.stage none).visible →
    ∀ v, ¬Cached env P.shared (companyKey companyId) v

variable {P : Pool (Cmd V D) Err (Session × CompanyStage) (World V D) (Option ι) Unit}

/-- **A turn of one request**: the others stay where they are, the clock moves on, and while the
database stays the same, so does what has been loaded. -/
structure CompanyTurn (p : Pydantic V) (env : Env) (companyId : ℤ)
    (P P' : Pool (Cmd V D) Err (Session × CompanyStage) (World V D) (Option ι) Unit)
    (i : Option ι) : Prop where
  follows : P'.Follows (server env) (companyProtocol p companyId) (CompanyInv companyId)
    fun _ _ _ => True
  gets : ∀ j, (P'.stage (some j)).isGet
  loaded : P'.shared.db = P.shared.db → ∀ j resp, P'.stage j = .loaded resp →
    shownCompany P'.shared.db companyId = some resp
  company : P'.shared.db = P.shared.db → ∀ j row, (P'.stage j).company = some row →
    P'.shared.db.find? .company companyId = some row
  others : ∀ j, j ≠ i → P'.stage j = P.stage j
  progs : ∀ j, j ≠ i → P'.prog j = P.prog j
  later : P.shared.ticks ≤ P'.shared.ticks

variable {P' : Pool (Cmd V D) Err (Session × CompanyStage) (World V D) (Option ι) Unit}
  {i : Option ι}

/-- A turn that touches neither the company nor its entry. -/
theorem CompanyTurn.quiet (ht : CompanyTurn p env companyId P P' i)
    (h : CompanyServed p env companyId P) (hdb : P'.shared.db = P.shared.db)
    (hredis : P'.shared.redis (companyKey companyId) = P.shared.redis (companyKey companyId))
    (hhidden : (P'.stage i).visible = false) : CompanyServed p env companyId P' := by
  refine ⟨ht.follows, ht.gets, ht.loaded hdb, ht.company hdb, fun v hv => ?_,
    fun hend hvisible v hv => ?_⟩
  · rw [hdb]
    exact h.coherent v (hv.of_later ht.later hredis)
  · by_cases hi : none = i
    · subst hi
      rw [hhidden] at hvisible
      cases hvisible
    · rw [ht.others none hi] at hvisible
      rw [ht.progs none hi] at hend
      exact h.dropped hend hvisible v (hv.of_later ht.later hredis)

/-- A `get` caches what it has loaded; the change is not about to be committed then. -/
theorem CompanyTurn.cached (ht : CompanyTurn p env companyId P P' i) (hok : Apart P i)
    (h : CompanyServed p env companyId P) {resp : CompanyResponse} {e : ℤ}
    (hq : P.stage i = .loaded resp) (hhidden : (P'.stage i).visible = false)
    (hdb : P'.shared.db = P.shared.db)
    (hredis : P'.shared.redis (companyKey companyId) = some ⟨companyText p resp, e⟩) :
    CompanyServed p env companyId P' := by
  refine ⟨ht.follows, ht.gets, ht.loaded hdb, ht.company hdb, fun v hv => ?_,
    fun hend hvisible => ?_⟩
  · obtain ⟨n, -, hserved⟩ := hv
    obtain ⟨e', hentry, -⟩ := KeyValue.Store.get_eq_some.mp hserved
    cases hredis.symm.trans hentry
    rw [hdb]
    exact ⟨resp, h.loaded i resp hq, rfl⟩
  · cases i with
    | none =>
        rw [hhidden] at hvisible
        cases hvisible
    | some j =>
        rw [ht.others none nofun] at hvisible
        rw [ht.progs none nofun] at hend
        have hnone := hok hend hvisible j
        rw [hq] at hnone
        cases hnone

/-- The entry is dropped. -/
theorem CompanyTurn.evicted (ht : CompanyTurn p env companyId P P' i)
    (hdb : P'.shared.db = P.shared.db)
    (hredis : P'.shared.redis (companyKey companyId) = none) : CompanyServed p env companyId P' :=
  ⟨ht.follows, ht.gets, ht.loaded hdb, ht.company hdb,
    fun _ hv => absurd hv (not_cached_of_none hredis), fun _ _ _ => not_cached_of_none hredis⟩

/-- **The change is committed**: it does not show, or no `get` is about to cache the company and
there is no entry of it. -/
theorem CompanyTurn.committed (ht : CompanyTurn p env companyId P P' none) (hok : Apart P none)
    (h : CompanyServed p env companyId P) {change : CompanyChange} {row : Company}
    (hq : P.stage none = .evicted change row) (hend : nextIsCommit (P.prog none))
    (hgone : P'.stage none = .gone)
    (hredis : P'.shared.redis (companyKey companyId) = P.shared.redis (companyKey companyId))
    (hchanged : Changed .company companyId change.assign P.shared.db P'.shared.db) :
    CompanyServed p env companyId P' := by
  have hfound : P.shared.db.find? .company companyId = some row :=
    h.company none row (by rw [hq]; rfl)
  have hshown : shownCompany P'.shared.db companyId = shownCompany P.shared.db companyId ∨
      (∀ j, (P.stage (some j)).caching = false) ∧
        ∀ v, ¬Cached env P.shared (companyKey companyId) v := by
    rw [shownCompany_changed hchanged hfound, shownCompany, hfound, Option.bind_some]
    by_cases hsame : CompanyResponse.ofRow (change.assign row) = CompanyResponse.ofRow row
    · exact .inl (congrArg Except.toOption hsame)
    · have hvisible : (P.stage none).visible := by rw [hq]; exact decide_eq_true hsame
      exact .inr ⟨hok hend hvisible, h.dropped hend hvisible⟩
  refine ⟨ht.follows, ht.gets, fun j resp hj => ?_, fun j row' hj => ?_, fun v hv => ?_,
    fun _ hvisible => ?_⟩
  · cases j with
    | none =>
        rw [hgone] at hj
        cases hj
    | some j =>
        rw [ht.others (some j) nofun] at hj
        obtain hsame | ⟨hnone, -⟩ := hshown
        · rw [hsame]
          exact h.loaded _ _ hj
        · have hcaching := hnone j
          rw [hj] at hcaching
          cases hcaching
  · cases j with
    | none =>
        rw [hgone] at hj
        cases hj
    | some j => rw [CompanyStage.company_of_isGet (ht.gets j)] at hj; cases hj
  · have hbefore := hv.of_later ht.later hredis
    obtain hsame | ⟨-, hnone⟩ := hshown
    · rw [hsame]
      exact h.coherent v hbefore
    · exact absurd hbefore (hnone v)
  · rw [hgone] at hvisible
    cases hvisible

/-- What every command of a request leaves as it is. -/
theorem CompanyServed.turn (h : CompanyServed p env companyId P) {β : Type} {c : Cmd V D β}
    (hallowed : (P.stage i).allowed companyId p c)
    (hshared : P'.shared = (exec env c (P.loc i).1 P.shared).2.2)
    (hself : P'.stage i =
      (P.stage i).next companyId c P.shared (exec env c (P.loc i).1 P.shared).1)
    (hothers : ∀ j, j ≠ i → P'.stage j = P.stage j)
    (hprogs : ∀ j, j ≠ i → P'.prog j = P.prog j)
    (hfollows : P'.Follows (server env) (companyProtocol p companyId) (CompanyInv companyId)
      fun _ _ _ => True) : CompanyTurn p env companyId P P' i where
  follows := hfollows
  gets j := by
    by_cases hj : some j = i
    · subst hj
      rw [hself]
      exact CompanyStage.next_isGet (h.gets j)
    · rw [hothers _ hj]
      exact h.gets j
  loaded hdb j resp hj := by
    rw [hdb]
    by_cases hji : j = i
    · subst hji
      exact CompanyStage.next_loaded (hself.symm.trans hj)
    · exact h.loaded j resp ((hothers j hji).symm.trans hj)
  company hdb j row hj := by
    rw [hdb]
    by_cases hji : j = i
    · subst hji
      rw [hself] at hj
      exact (CompanyStage.next_company hj).elim (h.company j row) id
    · rw [hothers j hji] at hj
      exact h.company j row hj
  others := hothers
  progs := hprogs
  later := by
    rw [hshared, exec_ticks]
    exact Nat.le_succ _

variable [DecidableEq ι]

/-- **A step of a request**, by what its command does to the company and its entry. -/
theorem CompanyServed.step (hok : Apart P i) (h : CompanyServed p env companyId P) :
    CompanyServed p env companyId
      (Pool.step ((server env).watch (companyProtocol p companyId)) P i) := by
  obtain ⟨-, hp⟩ | ⟨β, c, cont, hprog, hallowed, hshared, hloc, hstage⟩ := h.follows.step_cases i
  · rwa [hp]
  have hholds : (P.stage i).holds companyId (P.loc i).1 := (h.follows i).1
  have heffect := exec_company env (w := P.shared) hholds hallowed
  have hnext := CompanyStage.holds_next env (w := P.shared) hholds hallowed
  rw [server_exec] at hshared hstage
  rw [← hshared] at heffect
  have hothers : ∀ j, j ≠ i →
      (Pool.step ((server env).watch (companyProtocol p companyId)) P i).stage j = P.stage j :=
    fun j hj => by rw [hstage, Function.update_of_ne hj]
  have hself : (Pool.step ((server env).watch (companyProtocol p companyId)) P i).stage i =
      (P.stage i).next companyId c P.shared (exec env c (P.loc i).1 P.shared).1 := by
    rw [hstage, Function.update_self]
    rfl
  have hfollows := h.follows.step (i := i) fun j => by
    rw [hloc j]
    by_cases hj : j = i
    · subst hj
      rw [if_pos rfl, hself]
      exact hnext
    · rw [if_neg hj, hothers j hj]
      exact (h.follows j).1
  have hturn := h.turn hallowed hshared hself hothers (fun _ => Pool.step_prog_of_ne) hfollows
  obtain ⟨hdb, hredis, hhidden⟩ | ⟨resp, e, hq, hdb, hredis⟩ | ⟨-, hdb, hredis⟩ |
    ⟨change, row, hq, hcommit, hgone, hredis, hchanged⟩ := heffect
  · exact hturn.quiet h hdb hredis (by rw [hself, hhidden])
  · exact hturn.cached hok h hq (by rw [hself, hq]; rfl) hdb hredis
  · exact hturn.evicted hdb hredis
  · -- only the change commits
    obtain _ | j := i
    · exact hturn.committed hok h hq (by rw [hprog]; exact hcommit) (hself.trans hgone) hredis
        hchanged
    · have hget := h.gets j
      rw [hq] at hget
      cases hget

/-- The requests after the commands of a schedule. -/
abbrev CompanyChange.playAll (p : Pydantic V) (env : Env) (companyId : ℤ)
    (change : CompanyChange) (w : World V D) (sched : List (Option ι)) :
    Pool (Cmd V D) Err Session (World V D) (Option ι) Unit :=
  Pool.play (server env) (CompanyChange.pool p env companyId change w) sched

/-- **The entries of a company stay the committed company**, in a schedule in which no `get` is
between its load and its `SET` while the change is between its `DEL` and its commit. -/
theorem company_coherent {w₀ : World V D} (hstart : CompanyCoherent p env companyId w₀)
    {sched : List (Option ι)}
    (hsched : Pool.Guarded ((server env).watch (companyProtocol p companyId)) Apart
      (CompanyChange.watched p env companyId change w₀) sched) :
    CompanyCoherent p env companyId
      (CompanyChange.playAll p env companyId change w₀ sched).shared := by
  have hinit : CompanyServed p env companyId
      (CompanyChange.watched p env companyId change w₀ : Pool _ _ _ _ (Option ι) _) := by
    refine ⟨fun i => ⟨?_, follows_companyRequest p change i⟩, fun _ => rfl, fun i resp hi => ?_,
      fun i row hi => ?_, hstart, fun _ hvisible => ?_⟩
    · cases i <;> exact rfl
    · cases i <;> cases hi
    · cases i <;> cases hi
    · cases hvisible
  have h := Pool.Guarded.invariant (I := CompanyServed p env companyId)
    (fun P i hok hP => hP.step hok) hinit hsched
  have hcoherent := h.coherent
  rw [Pool.play_watch_shared] at hcoherent
  exact hcoherent

/-- Without entries there is nothing that could be wrong. -/
theorem companyCoherent_fresh (db : Db) (p : Pydantic V) (env : Env) (companyId : ℤ) (disk : D) :
    CompanyCoherent p env companyId (World.fresh db disk) :=
  fun _ hcached => absurd hcached (not_cached_of_none rfl)

/-- The workshop becomes an office. -/
def toOffice : CompanyChange := .update { name := some "Office" } none

/-- One `get` before the change, one after it has been committed. -/
theorem company_coherent_apart :
    CompanyCoherent .plain still 1 (CompanyChange.playAll .plain still 1 toOffice
      (World.fresh Db.sample () : World Json Unit)
      [some 0, some 0, some 0, some 0, none, none, none, none, some 1, some 1, some 1,
        some (1 : Fin 2)]).shared :=
  company_coherent (companyCoherent_fresh Db.sample .plain still 1 ()) (by decide +kernel)

/-- **A stale entry**: a `get` loads the company before the change is committed, and caches it
after the entry has been dropped. -/
theorem company_stale :
    ¬∀ (w : World Json Unit) (sched : List (Option (Fin 1))), CompanyCoherent .plain still 1 w →
      (∀ i, (CompanyChange.playAll .plain still 1 toOffice w sched).Finished i) →
      CompanyCoherent .plain still 1
        (CompanyChange.playAll .plain still 1 toOffice w sched).shared := by
  intro h
  have hcoherent := h (World.fresh Db.sample ())
    [some 0, some 0, none, none, none, none, some 0, some 0]
    (companyCoherent_fresh Db.sample .plain still 1 ()) fun i => by
      refine .inl (Pool.returned_of_answer? ?_)
      revert i
      decide +kernel
  obtain ⟨resp, hresp, htext⟩ := hcoherent
    (companyText .plain ⟨1, "Workshop", none, true, none, none, none⟩)
    ⟨8, by decide +kernel, by decide +kernel⟩
  have hrenamed : shownCompany (CompanyChange.playAll .plain still 1 toOffice
      (World.fresh Db.sample () : World Json Unit)
      [some 0, some 0, none, none, none, none, some 0, some (0 : Fin 1)]).shared.db 1 =
        some ⟨1, "Office", none, true, none, none, none⟩ := by decide +kernel
  obtain rfl := Option.some.inj (hrenamed.symm.trans hresp)
  revert htext
  decide +kernel

end Pool

end Rooti

import Mathlib
import Rooti.Caching.RoundTrip
import Rooti.Lib.Runs
import Rooti.Services.Company
import Rooti.Standards.Exact

/-!
# The cache of job standards

The cached response of a standard shows three things: the standard, its processes
and the name of its company.  A request that commits a change of one of them has to
drop the entry, or the entry shows what was.

`update` and `deactivate` drop it, and so does `create`.  `syncProcesses` and the
update of a company do not; the entries stay correct as long as these two change
nothing that an entry shows.

## Main definitions

* `shown` — the response an uncached `get` builds
* `SameView` — two databases that show a standard alike
* `StandardRequest` — the requests
* `Coherent` — every entry is what would be built
* `StandardRequest.Spares` — the requests after which this is still so

## What carries the proof

`Coherent` is the invariant: whatever entry a key has, now or until it expires, is the
dump of what the database shows. A request keeps it if for each standard either its
entry is gone afterwards or its view is the same (`Coherent.of_sameView`), so each
request needs one statement about the database (`SameView` for all standards but its
own) and one about Redis (its own entry is dropped). Both are about a committed request.
The transaction may also be rolled back after the DEL, which loses an entry and shows
nothing wrong.

`Spares` asks of the two requests without a DEL that no standard with an entry changes
in view: of a replacement of processes that the standard has no entry, or that the list
asks for what is there or is refused; and of a company's update that its name stays, or
that none of its standards has an entry.

## Expiry

Entries expire by the clock of Redis. `Cached` quantifies over later instants, so that
an entry which is served after a request was already there before it
(`Cached.of_later`), and a clock that goes back, which nothing excludes, does no harm.
-/

namespace Rooti

open Relational Program JobStandardService

variable {V D : Type}

/-! ## What is shown of a standard -/

/-- Processes by sequence. -/
def bySequence (rows : List JobProcess) : List JobProcess :=
  rows.insertionSort fun row other => row.sequence ≤ other.sequence

/-- **The response of a standard**, as it is built from the database. -/
def shown (db : Db) (standardId : ℤ) : Option JobStandardResponse :=
  (db.find? .jobStandard standardId).bind fun found =>
    (toStandardResponse found (bySequence (standardRows db standardId))
      ((db.find? .company found.companyId).map Company.name)).toOption

/-- The two databases show the standard alike. -/
structure SameView (standardId : ℤ) (db db' : Db) : Prop where
  standard : db'.find? .jobStandard standardId = db.find? .jobStandard standardId
  processes : standardRows db' standardId = standardRows db standardId
  companyName : ∀ found, db.find? .jobStandard standardId = some found →
    (db'.find? .company found.companyId).map Company.name =
      (db.find? .company found.companyId).map Company.name

section Shown

variable {db db' : Db} {standardId : ℤ} {found : JobStandard} {env : Env} {w : World V D}
  {resp : JobStandardResponse}

/-- A database shows a standard as it does. -/
theorem SameView.refl (standardId : ℤ) (db : Db) : SameView standardId db db :=
  ⟨rfl, rfl, fun _ _ => rfl⟩

/-- Views that agree one after the other agree. -/
theorem SameView.trans {db'' : Db} (h : SameView standardId db db')
    (h' : SameView standardId db' db'') : SameView standardId db db'' where
  standard := h'.standard.trans h.standard
  processes := h'.processes.trans h.processes
  companyName found hfound :=
    (h'.companyName found (h.standard.trans hfound)).trans (h.companyName found hfound)

/-- **Alike means the same response.** -/
theorem SameView.shown_eq (h : SameView standardId db db') :
    shown db' standardId = shown db standardId := by
  unfold shown
  rw [h.standard, h.processes]
  cases hfound : db.find? .jobStandard standardId with
  | none => rfl
  | some found => rw [Option.bind_some, Option.bind_some, h.companyName found hfound]

/-- Processes that come by sequence are in the order of `bySequence`. -/
theorem eq_bySequence {rows : List JobProcess} (hrows : AreProcesses db standardId rows)
    (hsorted : rows.Pairwise fun row other => row.sequence ≤ other.sequence) :
    rows = bySequence (standardRows db standardId) := by
  have hperm : rows.Perm (bySequence (standardRows db standardId)) :=
    hrows.trans (List.perm_insertionSort _ _).symm
  have hsorted' : (bySequence (standardRows db standardId)).Pairwise fun row other =>
      row.sequence ≤ other.sequence := List.pairwise_insertionSort _ _
  refine hperm.eq_of_pairwise (fun row other hrow hother hle hge => ?_) hsorted hsorted'
  by_contra hne
  exact hrows.sequence_ne hrow (hperm.mem_iff.mpr hother) hne (le_antisymm hle hge)

/-- The order in which rows happen to come does not show. -/
theorem processesOf_eq (o : RowOrder) (db : Db) (standardId : ℤ) :
    processesOf standardId o db = bySequence (standardRows db standardId) := by
  refine eq_bySequence (processesOf_perm standardId o db) ?_
  have hmerged : (processesOf standardId o db).Pairwise fun row other =>
      decide (row.sequence ≤ other.sequence) = true :=
    List.pairwise_mergeSort
      (fun a b c hab hbc =>
        decide_eq_true ((of_decide_eq_true hab).trans (of_decide_eq_true hbc)))
      (fun a b => by simpa using le_total a.sequence b.sequence) _
  exact hmerged.imp fun h => of_decide_eq_true h

/-- An uncached `get` of a standard that exists. -/
theorem run_build (hfound : w.db.find? .jobStandard standardId = some found) :
    (server env).run (build standardId) {} w =
      (toStandardResponse found (bySequence (standardRows w.db standardId))
        ((w.db.find? .company found.companyId).map Company.name), {}, w.after 3) := by
  have hcompany : bigint found.companyId := bigint_of_ref (Table.find?_mem hfound) (.head _)
  rw [build, Prog.bind_eq, Machine.run_bind, run_loadStandard hfound]
  dsimp only
  rw [Prog.bind_eq, Machine.run_bind, companyName, Prog.bind_eq, run_dbGet_bind_clean,
    if_pos hcompany, processesOf_eq]
  exact Machine.run_ofExcept ..

/-- A standard that does not exist is not shown. -/
theorem run_build_missing (hfound : w.db.find? .jobStandard standardId = none) :
    Refuses env (build standardId : Async V D JobStandardResponse) w :=
  ((refuses_getOrRaise hfound).bind).bind

/-- **What an uncached `get` answers** is what the database shows. -/
theorem run_build_eq_ok :
    (∃ s w', (server env).run (build standardId) {} w = (.ok resp, s, w')) ↔
      shown w.db standardId = some resp := by
  cases hfound : w.db.find? .jobStandard standardId with
  | none =>
      obtain ⟨e, s, w', hrefused, -⟩ : Refuses env (build standardId) w := run_build_missing hfound
      simp [shown, hfound, hrefused]
  | some found =>
      rw [run_build hfound, shown, hfound, Option.bind_some]
      generalize toStandardResponse found _ _ = r
      cases r <;> simp [Except.toOption]

end Shown

/-! ## Entries -/

/-- The key of a standard. -/
def standardKey (standardId : ℤ) : String := cacheKey cacheNs standardId

/-- No two standards share an entry: the key ends with the id in decimals. -/
theorem standardKey_injective : Function.Injective standardKey := by
  intro n m h
  exact Int.repr_injective (by simpa [standardKey, cacheKey, String.append_right_inj] using h)

/-- **A key has an entry**: it is served at this moment or will be. -/
def Cached (env : Env) (w : World V D) (key : String) (v : V) : Prop :=
  ∃ n, w.ticks ≤ n ∧ w.redis.get (env.redisClock n) key = some v

/-- **Every entry of a standard is what an uncached `get` would build.** -/
def Coherent (p : Pydantic V) (env : Env) (w : World V D) : Prop :=
  ∀ standardId v, Cached env w (standardKey standardId) v →
    ∃ resp, shown w.db standardId = some resp ∧
      v = p.dumpJson ((JobStandardResponse.codec p).dump true resp)

section Entries

variable {p : Pydantic V} {env : Env} {w w' : World V D} {key : String} {v : V}

/-- Entries do not come back. -/
theorem Cached.of_later (h : Cached env w' key v) (hticks : w.ticks ≤ w'.ticks)
    (hredis : w'.redis key = w.redis key) : Cached env w key v := by
  obtain ⟨n, hn, hget⟩ := h
  refine ⟨n, hticks.trans hn, ?_⟩
  rw [KeyValue.Store.get, ← hredis]
  exact hget

/-- A key without an entry is not cached. -/
theorem not_cached_of_none (h : w.redis key = none) : ¬Cached env w key v := by
  rintro ⟨n, -, hget⟩
  rw [KeyValue.Store.get_eq_none_of_none h] at hget
  cases hget

/-- **What keeps the entries correct**: those that are not dropped show what they did. -/
theorem Coherent.of_sameView (h : Coherent p env w) (hticks : w.ticks ≤ w'.ticks)
    (hentries : ∀ standardId, w'.redis (standardKey standardId) = none ∨
      w'.redis (standardKey standardId) = w.redis (standardKey standardId) ∧
        ((∃ v, Cached env w (standardKey standardId) v) → SameView standardId w.db w'.db)) :
    Coherent p env w' := by
  intro standardId v hcached
  obtain hnone | ⟨hredis, hview⟩ := hentries standardId
  · exact absurd hcached (not_cached_of_none hnone)
  · have hbefore := hcached.of_later hticks hredis
    obtain ⟨resp, hresp, hv⟩ := h standardId v hbefore
    exact ⟨resp, (hview ⟨v, hbefore⟩).shown_eq.trans hresp, hv⟩

end Entries

/-! ## Scripts that only drop entries -/

/-- Commands on the session, and `DEL`. -/
def Cmd.drops {α : Type} : Cmd V D α → Bool
  | .redisDel _ => true
  | c => c.quiet

section Drops

variable {α : Type} (env : Env) {w : World V D} {p : Async V D α}

/-- The entries of `w`, except for some that were dropped. -/
structure Dropped (w w' : World V D) : Prop where
  db : w'.db = w.db
  ticks : w.ticks ≤ w'.ticks
  redis : ∀ key, w'.redis key = none ∨ w'.redis key = w.redis key

/-- Commands of the session leave Redis alone, and a DEL empties one key. -/
theorem keeps_dropped (hp : p.Only fun c => c.drops) :
    (server env).Keeps (fun _ w' => Dropped w w') p := by
  refine .of_only hp fun c hc s w' h => ?_
  have hquiet : c.quiet → Dropped w (exec env c s w').2.2 := by
    intro hc
    have hunchanged : Unchanged w' (exec env c s w').2.2 := exec_quiet hc s (.refl w')
    exact ⟨hunchanged.db.trans h.db, h.ticks.trans hunchanged.ticks, fun key => by
      rw [hunchanged.redis]
      exact h.redis key⟩
  cases c with
  | redisDel key =>
      refine ⟨h.db, Nat.le_succ_of_le h.ticks, fun key' => ?_⟩
      by_cases hkey : key' = key
      · subst hkey
        exact .inl (w'.redis.del_same key')
      · rw [server_exec, exec]
        dsimp only
        rw [w'.redis.del_of_ne hkey]
        exact h.redis key'
  | _ => first | exact hquiet rfl | cases hc

/-- **A request that only drops entries.** -/
theorem serve_dropped (hp : p.Only fun c => c.drops) :
    w.ticks ≤ (serve env p w).2.ticks ∧
      ∀ key, (serve env p w).2.redis key = none ∨ (serve env p w).2.redis key = w.redis key := by
  have hkeeps := (keeps_dropped env hp).run (l := {}) (s := w)
    ⟨rfl, Nat.le_refl _, fun _ => .inr rfl⟩
  obtain ⟨hredis, hticks⟩ := serve_redis env p w
  exact ⟨hkeeps.ticks.trans hticks, fun key => hredis ▸ hkeeps.redis key⟩

end Drops

/-! ## The requests -/

/-- **The requests** on standards, and the one that changes the name of a company. -/
inductive StandardRequest
  | get (standardId : ℤ)
  | create (req : JobStandardCreateRequest)
  | update (standardId : ℤ) (req : JobStandardUpdateRequest)
  | deactivate (standardId : ℤ)
  | syncProcesses (standardId : ℤ) (incoming : List ProcessUpsertRequest)
  | updateCompany (companyId : ℤ) (req : CompanyUpdateRequest) (actor : Option PrincipalDetails)

/-- The state after a request. -/
def StandardRequest.serve (p : Pydantic V) (env : Env) :
    StandardRequest → World V D → World V D
  | .get standardId, w => (Rooti.serve env (JobStandardService.get p standardId) w).2
  | .create req, w => (Rooti.serve env (JobStandardService.create req) w).2
  | .update standardId req, w => (Rooti.serve env (JobStandardService.update standardId req) w).2
  | .deactivate standardId, w => (Rooti.serve env (JobStandardService.deactivate standardId) w).2
  | .syncProcesses standardId incoming, w =>
      (Rooti.serve env (JobStandardService.syncProcesses standardId incoming) w).2
  | .updateCompany companyId req actor, w =>
      (Rooti.serve env (CompanyService.update companyId req actor) w).2

section Get

variable (p : Pydantic V) (env : Env) (standardId : ℤ) {w : World V D} {found : JobStandard}

/-- A standard that is not cached is built and cached. -/
theorem run_load (hfound : w.db.find? .jobStandard standardId = some found) :
    (server env).run (load p standardId) {} w =
      match toStandardResponse found (bySequence (standardRows w.db standardId))
        ((w.db.find? .company found.companyId).map Company.name) with
      | .ok resp => (.ok resp, {}, { w.after 4 with
          redis := w.redis.set (standardKey standardId)
            (p.dumpJson ((JobStandardResponse.codec p).dump true resp))
            (env.redisClock (w.ticks + 3) + 600 * 1000) })
      | .error e => (.error e, {}, w.after 3) := by
  rw [load, Prog.bind_eq, Machine.run_bind, run_build hfound]
  generalize toStandardResponse found _ _ = r
  cases r with
  | error e => rfl
  | ok resp =>
      dsimp only
      rw [Prog.bind_eq, Machine.run_bind, run_setModel (by decide)]
      rfl

/-- A `get` answers from the cache, or builds the response. -/
theorem run_get (w : World V D) :
    (server env).run (JobStandardService.get p standardId) {} w =
      match (w.redis.get (env.redisClock w.ticks) (standardKey standardId)).bind fun text =>
        (p.parseJson text).bind (JobStandardResponse.codec p).validate with
      | some hit => (.ok hit, {}, w.tick)
      | none => (server env).run (load p standardId) {} w.tick := by
  rw [JobStandardService.get, Prog.bind_eq, Machine.run_bind, run_getModel]
  dsimp only
  unfold standardKey
  generalize (w.redis.get _ _).bind _ = hit
  cases hit <;> rfl

/-- A `get` of a standard without an entry. -/
theorem serve_get_uncached (hfound : w.db.find? .jobStandard standardId = some found)
    (hnone : w.redis (standardKey standardId) = none) {resp : JobStandardResponse}
    (hresp : toStandardResponse found (bySequence (standardRows w.db standardId))
      ((w.db.find? .company found.companyId).map Company.name) = .ok resp) :
    serve env (JobStandardService.get p standardId) w = (.ok resp, { w.after 6 with
      redis := w.redis.set (standardKey standardId)
        (p.dumpJson ((JobStandardResponse.codec p).dump true resp))
        (env.redisClock (w.ticks + 4) + 600 * 1000) }) := by
  have hget := run_get p env standardId w
  have hload := run_load p env standardId (w := w.tick) hfound
  rw [KeyValue.Store.get_eq_none_of_none hnone] at hget
  rw [World.tick_db, hresp] at hload
  exact serve_of_clean (hget.trans hload)

/-- **A `get`** leaves the database alone, and caches at most what the database
shows. -/
theorem serve_get (w : World V D) :
    (serve env (JobStandardService.get p standardId) w).2.db = w.db ∧
      w.ticks ≤ (serve env (JobStandardService.get p standardId) w).2.ticks ∧
      ((serve env (JobStandardService.get p standardId) w).2.redis = w.redis ∨
        ∃ resp expires, shown w.db standardId = some resp ∧
          (serve env (JobStandardService.get p standardId) w).2.redis =
            w.redis.set (standardKey standardId)
              (p.dumpJson ((JobStandardResponse.codec p).dump true resp)) expires) := by
  have hget := run_get p env standardId w
  generalize (w.redis.get (env.redisClock w.ticks) (standardKey standardId)).bind _ = hit at hget
  cases hit with
  | some hit =>
      rw [serve_of_clean hget]
      exact ⟨rfl, Nat.le_add_right w.ticks 2, .inl rfl⟩
  | none =>
      dsimp only at hget
      cases hfound : w.db.find? .jobStandard standardId with
      | none =>
          have hbuild : Refuses env (build standardId) w.tick := run_build_missing hfound
          obtain ⟨e, s, w', hrun, h⟩ : Refuses env (load p standardId) w.tick := hbuild.bind
          rw [serve_of_error (hget.trans hrun)]
          exact ⟨h.db, Nat.le_succ_of_le (Nat.le_of_succ_le h.ticks), .inl h.redis⟩
      | some found =>
          have hload := run_load p env standardId (w := w.tick) hfound
          have hshown : shown w.db standardId = (toStandardResponse found
              (bySequence (standardRows w.db standardId))
              ((w.db.find? .company found.companyId).map Company.name)).toOption := by
            rw [shown, hfound, Option.bind_some]
          rw [World.tick_db] at hload
          generalize toStandardResponse found _ _ = r at hload hshown
          cases r with
          | error e =>
              rw [serve_of_error (hget.trans hload)]
              exact ⟨rfl, Nat.le_add_right w.ticks 5, .inl rfl⟩
          | ok resp =>
              rw [serve_of_clean (hget.trans hload)]
              exact ⟨rfl, Nat.le_add_right w.ticks 6, .inr ⟨resp, _, hshown, rfl⟩⟩

/-- A `get` keeps the entries correct. -/
theorem coherent_get (w : World V D) (h : Coherent p env w) :
    Coherent p env (serve env (JobStandardService.get p standardId) w).2 := by
  obtain ⟨hdb, hticks, hredis⟩ := serve_get p env standardId w
  have hview : ∀ n, SameView n w.db (serve env (JobStandardService.get p standardId) w).2.db :=
    fun n => hdb ▸ .refl n w.db
  obtain hredis | ⟨resp, expires, hshown, hredis⟩ := hredis
  · exact h.of_sameView hticks fun n => .inr ⟨by rw [hredis], fun _ => hview n⟩
  · intro n v hcached
    by_cases hn : n = standardId
    · subst hn
      refine ⟨resp, by rw [hdb, hshown], ?_⟩
      obtain ⟨m, -, hget⟩ := hcached
      rw [hredis] at hget
      obtain ⟨e, hentry, -⟩ := KeyValue.Store.get_eq_some.mp hget
      rw [KeyValue.Store.set_same] at hentry
      exact (congrArg KeyValue.Entry.value (Option.some.inj hentry)).symm
    · have hkey : standardKey n ≠ standardKey standardId := fun heq => hn (standardKey_injective heq)
      have hbefore := hcached.of_later hticks (by rw [hredis, KeyValue.Store.set_of_ne _ _ _ hkey])
      rw [hdb]
      exact h n v hbefore

end Get

/-! ### What the writing requests leave visible -/

section Writes

variable {db db' : Db} {standardId k : ℤ}

/-- Another standard is changed. -/
theorem sameView_update_standard {f : JobStandard → JobStandard}
    (h : (Dml.update .jobStandard k f : Statement).apply db = .ok db')
    (hid : ∀ row, (f row).id = row.id) (hk : standardId ≠ k) : SameView standardId db db' := by
  have hothers := (Dml.update_ok h).2.2
  refine ⟨Dml.find?_update_of_ne h hid hk, ?_, fun found _ => ?_⟩
  · rw [standardRows, standardRows, Database.rows, Database.rows,
      hothers .jobProcess (by decide)]
  · rw [Database.find?, Database.find?, hothers .company (by decide)]

/-- Another standard is added. -/
theorem sameView_insert_standard {row : JobStandard}
    (h : (Dml.insert .jobStandard row : Statement).apply db = .ok db')
    (hk : standardId ≠ row.id) : SameView standardId db db' := by
  have hothers := (Dml.insert_ok h).2.2
  refine ⟨Dml.find?_insert_of_ne h hk, ?_, fun found _ => ?_⟩
  · rw [standardRows, standardRows, Database.rows, Database.rows,
      hothers .jobProcess (by decide)]
  · rw [Database.find?, Database.find?, hothers .company (by decide)]

/-- A process of another standard is added. -/
theorem sameView_insert_process {row : JobProcess}
    (h : (Dml.insert .jobProcess row : Statement).apply db = .ok db')
    (hk : row.jobStandardId ≠ standardId) : SameView standardId db db' := by
  obtain ⟨hrows, -, hothers⟩ := Dml.insert_ok h
  refine ⟨?_, ?_, fun found _ => ?_⟩
  · rw [Database.find?, Database.find?, hothers .jobStandard (by decide)]
  · rw [standardRows, standardRows, hrows, List.filter_append,
      List.filter_cons_of_neg (by simpa using hk), List.filter_nil, List.append_nil]
  · rw [Database.find?, Database.find?, hothers .company (by decide)]

/-- A company is changed, but not its name, or it is not the company of the standard. -/
theorem sameView_update_company {f : Company → Company}
    (h : (Dml.update .company k f : Statement).apply db = .ok db')
    (hid : ∀ row, (f row).id = row.id)
    (hname : ∀ found company, db.find? .jobStandard standardId = some found →
      db.find? .company k = some company → found.companyId = k →
        (f company).name = company.name) : SameView standardId db db' := by
  obtain ⟨hfind, hrows, hothers⟩ := Dml.update_ok h
  refine ⟨?_, ?_, fun found hfound => ?_⟩
  · rw [Database.find?, Database.find?, hothers .jobStandard (by decide)]
  · rw [standardRows, standardRows, Database.rows, Database.rows,
      hothers .jobProcess (by decide)]
  · by_cases hk : found.companyId = k
    · obtain ⟨company, hcompany⟩ := Option.ne_none_iff_exists'.mp hfind
      obtain ⟨hmem, hkey⟩ := Table.find?_eq_some.mp hcompany
      have hafter : db'.find? .company k = some (f company) := by
        refine Table.find?_eq_some.mpr ⟨?_, (hid company).trans hkey⟩
        show f company ∈ db'.rows .company
        rw [hrows]
        exact List.mem_map.mpr ⟨company, hmem, if_pos hkey⟩
      rw [hk, hafter, hcompany, Option.map_some, Option.map_some,
        hname found company hfound hcompany hk]
    · rw [Dml.find?_update_of_ne h hid hk]

/-- The statements of a request that creates the standard `k`. -/
def CreatesOnly (k : ℤ) (d : Statement) : Prop :=
  (∃ row, d = .insert .jobStandard row ∧ row.id = k) ∨
    ∃ row, d = .insert .jobProcess row ∧ row.jobStandardId = k

/-- Creating a standard, with its processes, shows nothing of another one. -/
theorem sameView_creates {ds : List Statement} (hds : ∀ d ∈ ds, CreatesOnly k d)
    (h : Dml.applyAll ds db = .ok db') (hk : standardId ≠ k) : SameView standardId db db' := by
  induction ds generalizing db with
  | nil =>
      cases h
      exact .refl standardId _
  | cons d ds ih =>
      obtain ⟨hd, hds⟩ := List.forall_mem_cons.mp hds
      obtain ⟨db₁, hfirst, h⟩ := Dml.applyAll_cons_eq_ok.mp h
      refine SameView.trans ?_ (ih hds h)
      obtain ⟨row, rfl, hrow⟩ | ⟨row, rfl, hrow⟩ := hd
      · exact sameView_insert_standard hfirst (hrow ▸ hk)
      · exact sameView_insert_process hfirst (hrow ▸ hk.symm)

/-- The processes of one standard are replaced. -/
theorem sameView_sync {incoming : List ProcessUpsertRequest} {rows : List JobProcess} {last : ℤ}
    (hrows : AreProcesses db k rows)
    (h : Dml.applyAll (syncStatements k last incoming rows) db = .ok db') (hk : standardId ≠ k) :
    SameView standardId db db' := by
  have hothers := (rows_of_syncStatements hrows h).2
  have hprocesses := (standardRows_of_syncStatements hrows h).2
  have hstandard : ∀ db : Db, standardRows db standardId =
      ((db.rows .jobProcess).filter fun row => row.jobStandardId ≠ k).filter
        fun row => row.jobStandardId = standardId := by
    intro db
    rw [standardRows, List.filter_filter]
    refine List.filter_congr fun row _ => ?_
    by_cases hrow : row.jobStandardId = standardId <;> simp [hrow, hk]
  refine ⟨?_, by rw [hstandard, hprocesses, ← hstandard], fun found _ => ?_⟩
  · rw [Database.find?, Database.find?, hothers .jobStandard (by decide)]
  · rw [Database.find?, Database.find?, hothers .company (by decide)]

end Writes

/-! ### The entries after a request -/

section Requests

variable {p : Pydantic V} {env : Env} {w : World V D} {α : Type} {script : Async V D α}

/-- **A request that drops entries** keeps the others correct if they show the same. -/
theorem coherent_of_dropped (h : Coherent p env w) (hdrops : script.Only fun c => c.drops)
    (hview : ∀ n, (serve env script w).2.redis (standardKey n) = none ∨
      ((∃ v, Cached env w (standardKey n) v) → SameView n w.db (serve env script w).2.db)) :
    Coherent p env (serve env script w).2 := by
  obtain ⟨hticks, hredis⟩ := serve_dropped env hdrops
  refine h.of_sameView hticks fun n => ?_
  obtain hnone | hsame := hredis (standardKey n)
  · exact .inl hnone
  · obtain hnone | hview := hview n
    · exact .inl hnone
    · exact .inr ⟨hsame, hview⟩

/-- Such a script leaves the commit to the end of the request. -/
theorem not_commit_of_drops (hdrops : script.Only fun c => c.drops) :
    script.Only fun c => !c.isCommit := by
  refine hdrops.mono fun c hc => ?_
  cases c <;> first | rfl | cases hc

/-- **The database after such a request**: as before, or with the statements of a script
that returned; the entries are those the script left. -/
theorem serve_drops_cases (env : Env) (hdrops : script.Only fun c => c.drops) :
    (serve env script w).2.db = w.db ∨
      ∃ a s w', (server env).run script {} w = (.ok a, s, w') ∧
        (serve env script w).2.redis = w'.redis ∧
        ∃ ds, ds.Perm s.statements ∧ Dml.applyAll ds w.db = .ok (serve env script w).2.db := by
  obtain hdb | ⟨a, s, w', hrun, -, hsent⟩ := serve_db (not_commit_of_drops hdrops) w
  · exact .inl hdb
  · have hredis := (serve_redis env script w).1
    rw [hrun] at hredis
    exact .inr ⟨a, s, w', hrun, hredis, hsent⟩

/-- Dropping an entry is a single DEL. -/
theorem evict_drops (ns : String) (key : ℤ) :
    (evict ns key : Async V D Unit).Only fun c => c.drops :=
  .handle (.lift rfl) fun _ => .ret

/-- A script that leaves Redis alone drops nothing. -/
theorem Quiet.drops (h : Quiet script) : script.Only fun c => c.drops := by
  refine h.mono fun c hc => ?_
  cases c <;> first | rfl | cases hc

/-- Looking up a standard is a query. -/
theorem quiet_getOrThrow (standardId : ℤ) :
    Quiet (getOrThrow standardId : Async V D JobStandard) := .bind .dbGet fun _ => .orRaise

/-- Looking up the name of its company is one more. -/
theorem quiet_companyName (companyId : ℤ) :
    Quiet (companyName companyId : Async V D (Option String)) := .bind .dbGet fun _ => .ret

/-- What one recorded change, or none, does when it is sent. -/
theorem applyAll_of_single {ds : List Statement} {d : Statement} {c : Prop} [Decidable c]
    {db db' : Db} (hperm : ds.Perm (if c then ({} : Session) else { pending := [d] }).statements)
    (h : Dml.applyAll ds db = .ok db') : db' = db ∨ d.apply db = .ok db' := by
  by_cases hc : c
  · rw [if_pos hc] at hperm
    rw [List.Perm.eq_nil hperm] at h
    exact .inl (Except.ok.inj h).symm
  · rw [if_neg hc] at hperm
    rw [List.perm_singleton.mp (hperm.trans (.refl [d])), Dml.applyAll_singleton] at h
    exact .inr h

section Update

variable (standardId : ℤ) (req : JobStandardUpdateRequest)

/-- An `update` fails after it has dropped the entry. -/
theorem coherent_update (h : Coherent p env w) :
    Coherent p env (serve env (JobStandardService.update standardId req) w).2 := by
  have hdrops : (JobStandardService.update standardId req : Async V D JobStandardResponse).Only
      fun c => c.drops :=
    .bind (quiet_getOrThrow _).drops fun _ => .bind Quiet.modify.drops fun _ =>
      .bind (evict_drops _ _) fun _ => .bind (quiet_companyName _).drops fun _ => .raise
  refine coherent_of_dropped h hdrops fun n => .inr fun _ => ?_
  obtain hdb | ⟨a, s, w', hrun, -⟩ := serve_drops_cases env hdrops
  · rw [hdb]
    exact .refl n w.db
  · simp only [JobStandardService.update, Prog.bind_eq] at hrun
    obtain ⟨_, _, _, -, hrun⟩ := Machine.run_bind_eq_ok hrun
    obtain ⟨_, _, _, -, hrun⟩ := Machine.run_bind_eq_ok hrun
    obtain ⟨_, _, _, -, hrun⟩ := Machine.run_bind_eq_ok hrun
    obtain ⟨_, _, _, -, hrun⟩ := Machine.run_bind_eq_ok hrun
    cases hrun

end Update

section Deactivate

variable {standardId : ℤ}

/-- What is pending when a `deactivate` ends, and what is cached: one UPDATE, unless the
standard was out of use before, and no entry. -/
theorem run_deactivate {found : JobStandard}
    (hfound : w.db.find? .jobStandard standardId = some found) :
    (server env).run (JobStandardService.deactivate standardId) {} w =
      (.ok (), if { found with useFlag := false } = found then {}
        else { pending := [.update .jobStandard standardId
          (setUpdatedAt ⟨env.dbClock (w.ticks + 1), none⟩ .jobStandard ∘
            fun s => { s with useFlag := false })] },
        { w.after 3 with redis := w.redis.del (standardKey standardId) }) := by
  obtain rfl : found.id = standardId := Table.find?_key hfound
  simp only [JobStandardService.deactivate, getOrThrow, Prog.bind_eq, Prog.bind_assoc]
  rw [run_dbGet_bind_clean, if_pos (bigint_of_find? hfound), hfound]
  simp only [Prog.orRaise_some, Prog.ret_bind]
  rw [run_modify_bind]
  split <;> rfl

variable (standardId) in
/-- A `deactivate` drops the entry. -/
theorem coherent_deactivate (h : Coherent p env w) :
    Coherent p env (serve env (JobStandardService.deactivate standardId) w).2 := by
  have hdrops : (JobStandardService.deactivate standardId : Async V D Unit).Only
      fun c => c.drops :=
    .bind (quiet_getOrThrow _).drops fun _ => .bind Quiet.modify.drops fun _ => evict_drops _ _
  refine coherent_of_dropped h hdrops fun n => ?_
  obtain hdb | ⟨a, s, w', hrun, hredis, ds, hperm, hsent⟩ := serve_drops_cases env hdrops
  · rw [hdb]
    exact .inr fun _ => .refl n w.db
  · cases hfound : w.db.find? .jobStandard standardId with
    | none =>
        obtain ⟨e, s', w'', hrefused, -⟩ :
            Refuses env (JobStandardService.deactivate standardId) w :=
          (refuses_getOrRaise hfound).bind
        cases hrun.symm.trans hrefused
    | some found =>
        obtain ⟨-, heq⟩ := Prod.mk.inj (hrun.symm.trans (run_deactivate hfound))
        obtain ⟨rfl, rfl⟩ := Prod.mk.inj heq
        by_cases hn : n = standardId
        · subst hn
          exact .inl (hredis ▸ w.redis.del_same _)
        · refine .inr fun _ => ?_
          obtain hsame | happly := applyAll_of_single hperm hsent
          · rw [hsame]
            exact .refl n w.db
          · exact sameView_update_standard happly (fun _ => rfl) hn

end Deactivate

section Create

variable (req : JobStandardCreateRequest)

/-- What a `create` does after it has dropped the entry. -/
theorem run_createdScript {processes : List JobProcess} {new : NewRow} {s s' : Session}
    {w w' : World V D} {resp : JobStandardResponse} {P : Statement → Prop}
    (h : (server env).run ((companyName req.companyId).bind fun name =>
      Prog.ofExcept (createdResponse req (newStandard req new) processes name)) s w =
        (.ok resp, s', w'))
    (hs : ∀ d ∈ s.statements, P d) : (∀ d ∈ s'.statements, P d) ∧ w'.redis = w.redis := by
  have hquiet : Quiet ((companyName req.companyId).bind fun name =>
      Prog.ofExcept (createdResponse req (newStandard req new) processes name) :
        Async V D JobStandardResponse) :=
    .bind (quiet_companyName _) fun _ => .ofExcept
  have hreports : ((companyName req.companyId).bind fun name =>
      Prog.ofExcept (createdResponse req (newStandard req new) processes name) :
        Async V D JobStandardResponse).Only fun c => c.reports :=
    .bind (.bind (.lift rfl) fun _ => .ret) fun _ => .ofExcept
  have hkeeps : (server env).Keeps (fun s _ => ∀ d ∈ s.statements, P d) _ :=
    keeps_statements hreports P
  have hstatements := hkeeps.run (l := s) (s := w) hs
  rw [h] at hstatements
  exact ⟨hstatements, (hquiet.run_eq h).redis⟩

/-- The processes that a `create` asks for. -/
def entriesOf (req : JobStandardCreateRequest) : List ProcessUpsertRequest :=
  req.processes.getD []

/-- The row a `create` records, with the id drawn for it. -/
def standardRow (req : JobStandardCreateRequest) (id : ℤ) : JobStandard :=
  newStandard req ⟨id, ⟨0, none⟩⟩

/-- The changes recorded before the flush. -/
def createPending (id last : ℤ) : List Statement :=
  .insert .jobStandard (standardRow req id) :: (newRows id last (entriesOf req)).map addRow

/-- The state in which the flush runs. -/
def createWorld (w : World V D) : World V D :=
  { w.after (2 + (entriesOf req).length) with
    seq := Function.update
      (Function.update w.seq .jobStandard (w.seq .jobStandard + 1)) .jobProcess
      (w.seq .jobProcess + (entriesOf req).length) }

/-- The rest of the request, from its flush on. -/
def finishCreate (id : ℤ) (processes : List JobProcess) : Async V D JobStandardResponse :=
  flush.bind fun _ => (evict cacheNs id).bind fun _ =>
    (companyName req.companyId).bind fun name =>
      Prog.ofExcept (createdResponse req (standardRow req id) processes name)

/-- **The request up to its flush** records the standard and its processes. -/
theorem run_create {company : Company}
    (hcompany : w.db.find? .company req.companyId = some company) :
    (server env).run (JobStandardService.create req) {} w =
      (server env).run (finishCreate req (w.seq .jobStandard + 1)
          (newRows (w.seq .jobStandard + 1) (w.seq .jobProcess) (entriesOf req)))
        { pending := createPending req (w.seq .jobStandard + 1) (w.seq .jobProcess) }
        (createWorld req w) := by
  simp only [JobStandardService.create, Prog.bind_eq]
  rw [run_dbGet_bind_clean, if_pos (bigint_of_find? hcompany), hcompany]
  simp only [Prog.orRaise_some, Prog.ret_bind]
  rw [run_add_bind, Machine.run_bind, run_addProcesses]
  have hworld : ({ World.after { w.tick.tick with
        seq := Function.update w.tick.seq .jobStandard (w.tick.seq .jobStandard + 1) }
          (entriesOf req).length with
      seq := Function.update
        (Function.update w.tick.seq .jobStandard (w.tick.seq .jobStandard + 1)) .jobProcess
        (w.seq .jobProcess + (entriesOf req).length) } : World V D) = createWorld req w := by
    simp [createWorld, World.after, World.tick]
    omega
  rw [← hworld]
  rfl

/-- Without its company the request is refused. -/
theorem refuses_create (hcompany : w.db.find? .company req.companyId = none) :
    Refuses env (JobStandardService.create req : Async V D JobStandardResponse) w := by
  obtain hnone | hrefused := dbGet_of_none env hcompany
  · exact .bind_of_reads hnone fun _ _ => .bind .raise
  · exact hrefused.bind

/-- A `create` that returns has dropped the entry of its standard, and recorded rows of
that standard only. -/
theorem run_create_eq_ok {resp : JobStandardResponse} {s : Session} {w' : World V D}
    (h : (server env).run (JobStandardService.create req) {} w = (.ok resp, s, w')) :
    (∀ d ∈ s.statements, CreatesOnly (w.seq .jobStandard + 1) d) ∧
      w'.redis (standardKey (w.seq .jobStandard + 1)) = none := by
  cases hcompany : w.db.find? .company req.companyId with
  | none =>
      obtain ⟨e, s', w'', hrefused, -⟩ := refuses_create req hcompany
      cases h.symm.trans hrefused
  | some company =>
      rw [run_create req hcompany] at h
      obtain ⟨_, s₁, w₁, hflush, h⟩ := Machine.run_bind_eq_ok h
      obtain ⟨hperm, -, rfl⟩ := run_flush_eq_ok hflush
      rw [Machine.run_bind, run_evict] at h
      dsimp only at h
      have hstart : ∀ d ∈ s₁.statements, CreatesOnly (w.seq .jobStandard + 1) d := by
        intro d hd
        obtain hd | hd := List.mem_append.mp (hperm.subset hd)
        · exact absurd hd List.not_mem_nil
        · obtain rfl | hd := List.mem_cons.mp hd
          · exact .inl ⟨_, rfl, rfl⟩
          · obtain ⟨row, hrow, rfl⟩ := List.mem_map.mp hd
            exact .inr ⟨row, rfl, jobStandardId_newRows hrow⟩
      obtain ⟨hstatements, hredis⟩ := run_createdScript req h hstart
      refine ⟨hstatements, (congrFun hredis _).trans ?_⟩
      exact KeyValue.Store.del_same _ _

/-- A `create` evicts the key of the standard it adds. -/
theorem create_drops :
    (JobStandardService.create req : Async V D JobStandardResponse).Only fun c => c.drops :=
  .bind Quiet.dbGet.drops fun _ => .bind .orRaise fun _ => .bind Quiet.add.drops fun _ =>
    .bind (quiet_addProcesses _ _).drops fun _ => .bind Quiet.flush.drops fun _ =>
      .bind (evict_drops _ _) fun _ => .bind (quiet_companyName _).drops fun _ => .ofExcept

/-- A `create` adds a standard without an entry. -/
theorem coherent_create (h : Coherent p env w) :
    Coherent p env (serve env (JobStandardService.create req) w).2 := by
  have hdrops := create_drops (V := V) (D := D) req
  refine coherent_of_dropped h hdrops fun n => ?_
  obtain hdb | ⟨a, s, w', hrun, hredis, ds, hperm, hsent⟩ := serve_drops_cases env hdrops
  · rw [hdb]
    exact .inr fun _ => .refl n w.db
  · obtain ⟨hstatements, hnone⟩ := run_create_eq_ok req hrun
    by_cases hn : n = w.seq .jobStandard + 1
    · subst hn
      exact .inl ((congrFun hredis _).trans hnone)
    · refine .inr fun _ => sameView_creates (fun d hd => ?_) hsent hn
      exact hstatements d (hperm.subset hd)

end Create

section Sync

variable (standardId : ℤ) (incoming : List ProcessUpsertRequest)

/-- Replacing processes keeps the entries correct if the standard has none, or if the
request changes nothing. -/
theorem coherent_sync (h : Coherent p env w)
    (hspares : (∃ v, Cached env w (standardKey standardId) v) →
      NothingToSync incoming (standardRows w.db standardId) ∨
        ¬∃ found, w.db.find? .jobStandard standardId = some found ∧
          Acceptable env w found incoming (standardRows w.db standardId)) :
    Coherent p env (serve env (JobStandardService.syncProcesses standardId incoming) w).2 := by
  have hdrops : (JobStandardService.syncProcesses standardId incoming :
      Async V D JobStandardResponse).Only fun c => c.drops :=
    (quiet_syncProcesses standardId incoming).drops
  refine coherent_of_dropped h hdrops fun n => .inr fun hcached => ?_
  cases hresult : (serve env (JobStandardService.syncProcesses standardId incoming) w).1 with
  | error e =>
      rw [db_of_serve_error (not_commit_of_drops hdrops) hresult]
      exact .refl n w.db
  | ok resp =>
      obtain ⟨found, hfound, hnames, -, -, htaken⟩ := serve_syncProcesses_ok hresult
      have hrows := processesOf_perm standardId (env.rowOrder (w.ticks + 1)) w.db
      by_cases hn : n = standardId
      · subst hn
        obtain hnothing | hrefused := hspares hcached
        · have hnothing' : NothingToSync incoming
              (processesOf n (env.rowOrder (w.ticks + 1)) w.db) :=
            ⟨hnothing.1, fun row hrow => hnothing.2 row ((List.Perm.mem_iff hrows).mp hrow)⟩
          have hpending : syncPending n (w.seq .jobProcess) incoming
              (processesOf n (env.rowOrder (w.ticks + 1)) w.db) = [] :=
            syncPending_eq_nil_iff.mpr hnothing'
          rw [← flushOrder_syncPending, hpending] at htaken
          rw [← Except.ok.inj htaken]
          exact .refl n w.db
        · exact absurd (serve_syncProcesses_iff.mp ⟨resp, hresult⟩) hrefused
      · exact sameView_sync hrows htaken hn

end Sync

section UpdateCompany

variable {companyId : ℤ} {req : CompanyUpdateRequest} {actor : Option PrincipalDetails}

/-- What is pending when the update of a company ends: its entry goes, those of its
standards stay. -/
theorem run_updateCompany {company : Company}
    (hfound : w.db.find? .company companyId = some company) :
    (server env).run (CompanyService.update companyId req actor) {} w =
      (CompanyResponse.ofRow (CompanyService.assign req actor company),
        if CompanyService.assign req actor company = company then {}
        else { pending := [.update .company companyId
          (setUpdatedAt ⟨env.dbClock (w.ticks + 1), none⟩ .company ∘
            CompanyService.assign req actor)] },
        { w.after 3 with redis := w.redis.del (cacheKey CompanyService.cacheNs companyId) }) := by
  obtain rfl : company.id = companyId := Table.find?_key hfound
  simp only [CompanyService.update, CompanyService.getOrThrow, Prog.bind_eq, Prog.bind_assoc]
  rw [run_dbGet_bind_clean, if_pos (bigint_of_find? hfound), hfound]
  simp only [Prog.orRaise_some, Prog.ret_bind]
  rw [run_modify_bind]
  split <;> rw [Machine.run_bind, run_evict] <;> exact Machine.run_ofExcept ..

/-- The update of a company keeps the entries correct if it leaves the name alone, or if no
standard of the company has an entry. -/
theorem coherent_updateCompany (h : Coherent p env w)
    (hspares : ∀ company, w.db.find? .company companyId = some company →
      (∃ standard ∈ w.db.rows .jobStandard, standard.companyId = companyId ∧
        ∃ v, Cached env w (standardKey standard.id) v) →
      req.name.getD company.name = company.name) :
    Coherent p env (serve env (CompanyService.update companyId req actor) w).2 := by
  have hdrops : (CompanyService.update companyId req actor : Async V D CompanyResponse).Only
      fun c => c.drops :=
    .bind (Quiet.drops (.bind .dbGet fun _ => .orRaise)) fun _ => .bind Quiet.modify.drops
      fun _ => .bind (evict_drops _ _) fun _ => .ofExcept
  refine coherent_of_dropped h hdrops fun n => .inr fun hcached => ?_
  obtain hdb | ⟨a, s, w', hrun, -, ds, hperm, hsent⟩ := serve_drops_cases env hdrops
  · rw [hdb]
    exact .refl n w.db
  · cases hfound : w.db.find? .company companyId with
    | none =>
        obtain ⟨e, s', w'', hrefused, -⟩ :
            Refuses env (CompanyService.update companyId req actor) w :=
          (refuses_getOrRaise hfound).bind
        cases hrun.symm.trans hrefused
    | some company =>
        obtain ⟨-, heq⟩ := Prod.mk.inj (hrun.symm.trans (run_updateCompany hfound))
        obtain ⟨rfl, rfl⟩ := Prod.mk.inj heq
        obtain hsame | happly := applyAll_of_single hperm hsent
        · rw [hsame]
          exact .refl n w.db
        · refine sameView_update_company happly (fun _ => rfl) ?_
          intro found company' hstandard hcompany hown
          obtain rfl := Option.some.inj (hfound.symm.trans hcompany)
          obtain rfl : found.id = n := Table.find?_key hstandard
          exact hspares company hfound ⟨found, Table.find?_mem hstandard, hown, hcached⟩

end UpdateCompany

end Requests

/-! ## Runs of requests -/

/-- **The requests after which the entries are still correct**: processes are replaced
only for a standard without an entry, and a company gets another name only while its
standards have none. -/
def StandardRequest.Spares (env : Env) (w : World V D) : StandardRequest → Prop
  | .syncProcesses standardId incoming =>
      (∃ v, Cached env w (standardKey standardId) v) →
        NothingToSync incoming (standardRows w.db standardId) ∨
          ¬∃ found, w.db.find? .jobStandard standardId = some found ∧
            Acceptable env w found incoming (standardRows w.db standardId)
  | .updateCompany companyId req _ =>
      ∀ company, w.db.find? .company companyId = some company →
        (∃ standard ∈ w.db.rows .jobStandard, standard.companyId = companyId ∧
          ∃ v, Cached env w (standardKey standard.id) v) →
        req.name.getD company.name = company.name
  | _ => True

section Runs

variable {p : Pydantic V} {env : Env} {w : World V D}

/-- A request keeps the entries correct. -/
theorem coherent_step (request : StandardRequest) (hspares : request.Spares env w)
    (h : Coherent p env w) : Coherent p env (request.serve p env w) := by
  cases request with
  | get standardId => exact coherent_get p env standardId w h
  | create req => exact coherent_create req h
  | update standardId req => exact coherent_update standardId req h
  | deactivate standardId => exact coherent_deactivate standardId h
  | syncProcesses standardId incoming => exact coherent_sync standardId incoming h hspares
  | updateCompany companyId req actor => exact coherent_updateCompany h hspares

/-- **No entry is stale**: after requests that all spare the entries, an entry of a
standard is what an uncached `get` would answer. -/
theorem standards_coherent {requests : List StandardRequest} (hstart : Coherent p env w)
    (hspares : Runs.Guarded (StandardRequest.serve p env)
      (fun request w => request.Spares env w) requests w)
    {w' : World V D} (hw' : w' = Runs.run (StandardRequest.serve p env) requests w)
    {standardId : ℤ} {v : V}
    (hentry : w'.redis.get (env.redisClock w'.ticks) (standardKey standardId) = some v) :
    ∃ resp s w'', (server env).run (build standardId) {} w' = (.ok resp, s, w'') ∧
      v = p.dumpJson ((JobStandardResponse.codec p).dump true resp) := by
  have hcoherent : Coherent p env w' := by
    rw [hw']
    exact hspares.invariant (fun request w hok h => coherent_step request hok h) hstart
  obtain ⟨resp, hshown, hv⟩ := hcoherent standardId v ⟨w'.ticks, Nat.le_refl _, hentry⟩
  obtain ⟨s, w'', hrun⟩ := run_build_eq_ok.mpr hshown
  exact ⟨resp, s, w'', hrun, hv⟩

end Runs

/-- The response of the sample standard. -/
def sampleResponse : JobStandardResponse where
  id := 1
  companyId := 1
  companyName := some "Workshop"
  name := "Packing"
  useFlag := true
  standardWorkTimeSeconds := 8
  standardRestTimeSeconds := 1
  forJournal := true
  processes := [{ id := 1, name := "Sorting", sequence := 1, processTimeSeconds := 0 }]

/-- The sample after its standard was read. -/
def World.read : World Json Unit :=
  { (World.fresh Db.sample () : World Json Unit).after 6 with
    redis := KeyValue.Store.empty.set (standardKey 1)
      ((JobStandardResponse.codec .plain).dump true sampleResponse) (600 * 1000) }

/-- The one standard of the sample company. -/
theorem sample_standard :
    Db.sample.find? .jobStandard 1 =
      some ⟨1, 1, "Packing", true, none, 8, 1, none, none, none, true⟩ := by
  decide +kernel

/-- Reading it leaves its entry behind. -/
theorem serve_get_sample :
    (StandardRequest.get 1).serve .plain still (World.fresh Db.sample ()) = World.read := by
  have hserve :
      serve still (JobStandardService.get .plain 1)
          (World.fresh Db.sample () : World Json Unit) = (.ok sampleResponse, World.read) :=
    serve_get_uncached .plain still 1 (w := (World.fresh Db.sample () : World Json Unit))
      sample_standard rfl (by decide +kernel)
  exact congrArg Prod.snd hserve

/-- A server with an empty cache has no wrong entries. -/
theorem coherent_fresh (db : Db) (p : Pydantic V) (env : Env) (disk : D) :
    Coherent p env (World.fresh db disk) :=
  fun _ _ hcached => absurd hcached (not_cached_of_none rfl)

/-- The sample standard, read once. -/
theorem standards_coherent_sample :
    ∃ resp s w'', (server still).run (build 1) {} World.read = (.ok resp, s, w'') ∧
      (JobStandardResponse.codec .plain).dump true sampleResponse =
        (JobStandardResponse.codec .plain).dump true resp := by
  have hfresh : Coherent .plain still (World.fresh Db.sample () : World Json Unit) :=
    coherent_fresh Db.sample .plain still ()
  have hrun : (World.read : World Json Unit) =
      Runs.run (StandardRequest.serve .plain still) [.get 1] (World.fresh Db.sample ()) :=
    serve_get_sample.symm
  have hspares : Runs.Guarded (StandardRequest.serve .plain still)
      (fun request w => request.Spares still w) [.get 1]
      (World.fresh Db.sample () : World Json Unit) := ⟨trivial, trivial⟩
  exact standards_coherent hfresh hspares hrun (by decide +kernel)

/-- **A stale entry**: the company gets another name after its standard was read. -/
theorem standard_stale :
    ∃ w' v, w' = Runs.run (StandardRequest.serve .plain still)
        [.get 1, .updateCompany 1 { name := some "Office" } none]
        (World.fresh Db.sample () : World Json Unit) ∧
      w'.redis.get (still.redisClock w'.ticks) (standardKey 1) = some v ∧
      ∀ resp s w'', (server still).run (build 1) {} w' = (.ok resp, s, w'') →
        v ≠ (JobStandardResponse.codec .plain).dump true resp := by
  refine ⟨_, (JobStandardResponse.codec .plain).dump true sampleResponse, rfl, ?_, ?_⟩
  · rw [Runs.run_cons, serve_get_sample]
    decide +kernel
  · intro resp s w'' hrun hv
    have hshown := run_build_eq_ok.mp ⟨s, w'', hrun⟩
    rw [Runs.run_cons, serve_get_sample] at hshown
    have hrenamed :
        shown (Runs.run (StandardRequest.serve .plain still)
          [.updateCompany 1 { name := some "Office" } none] World.read).db 1 =
            some { sampleResponse with companyName := some "Office" } := by
      decide +kernel
    obtain rfl := Option.some.inj (hrenamed.symm.trans hshown)
    revert hv
    decide +kernel

end Rooti

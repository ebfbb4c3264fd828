import Rooti.Core.Cache
import Rooti.Core.Numbering
import Rooti.Core.Pagination
import Rooti.Core.RowInvariants
import Rooti.Core.Tenant
import Rooti.Lib.Interference
import Rooti.Lib.LifeCycle

/-!
# The footprint of a script

What a script can do to the shared state, whatever it is answered: the statements it may
record, the keys it may write in Redis, and whether it writes to the document storage or sends
mails.  A footprint is read off the script (`Within`), one rule for each way it is built.

Among other scripts, what is within a footprint stays within every relation on the shared state
that the footprint allows (`Footprint.Allows`).  `Footprint.Allows` is asked of the statements,
the keys, the storage and the mails by themselves.

## Main definitions

* `adds`, `edits`, `removes` — sets of statements
* `Footprint`, `Within` — footprints, and the scripts within them
* `Footprint.Allows` — what a footprint cannot break
* `among_of_within` — a script within a footprint, among others

## Why footprints

A script branches on what it is answered, and among other scripts it may be answered
anything. A footprint forgets the answers: it is the union over all branches, and so it
is right in every interleaving. What it costs is precision. A row that is only ever
added after a check is in the footprint without the check; results that need the check
are proved along the script.
-/

namespace Rooti

open Json Relational Program

variable {V D α β : Type}

/-! ## Footprints -/

/-- Rows with a property are added to a table. -/
def adds (t : Entity) (P : Row t → Prop) : Set Statement := {d | ∃ r, P r ∧ d = .insert t r}

/-- A row of a table is changed into one it may become. -/
def edits (t : Entity) (P : Row t → Row t → Prop) : Set Statement :=
  {d | ∃ k f, (∀ r, P r (f r)) ∧ d = .update t k f}

/-- Rows of a table are deleted. -/
def removes (t : Entity) : Set Statement := {d | ∃ k, d = .delete t k}

/-- Any row. -/
def anyRow {t : Entity} (_ : Row t) : Prop := True

/-- **What a script may do to the shared state.** -/
structure Footprint where
  statements : Set Statement := ∅
  keys : Set String := ∅
  files : Bool := false
  mails : Bool := false

/-- One footprint is contained in another. -/
structure Footprint.Le (F F' : Footprint) : Prop where
  statements : F.statements ⊆ F'.statements
  keys : F.keys ⊆ F'.keys
  files : F.files → F'.files
  mails : F.mails → F'.mails

/-- A command within a footprint; a call of the storage that changes nothing is a reading. -/
def Cmd.within (F : Footprint) : Cmd V D α → Prop
  | .add t mk => ∀ new, .insert t (mk new) ∈ F.statements
  | .modify t row f =>
      ∀ now, .update t (keyOf t row) (setUpdatedAt now t ∘ f) ∈ F.statements
  | .delete t row => .delete t (keyOf t row) ∈ F.statements
  | .redisSet key _ _ => key ∈ F.keys
  | .redisDel key => key ∈ F.keys
  | .storage op => F.files ∨ ∀ disk, (op disk).2 = disk
  | .sendEmail _ => F.mails
  | _ => True

/-- **A script within a footprint**, which leaves the numbering of rows to the sequences. -/
def Within (F : Footprint) (p : Async V D α) : Prop := p.Only fun c => c.within F ∧ c.keyed

namespace Within

variable {F F' : Footprint} {p : Async V D α}

/-- A script within a footprint leaves the numbers of rows to the sequences. -/
theorem keyed (h : Within F p) : Keyed p := Prog.Only.mono h fun _ hc => hc.2

/-- A larger footprint. -/
theorem mono (h : Within F p) (hle : F.Le F') : Within F' p := by
  refine Prog.Only.mono h fun c ⟨hc, hkeyed⟩ => ⟨?_, hkeyed⟩
  cases c with
  | add t mk => exact fun new => hle.statements (hc new)
  | modify t row f => exact fun now => hle.statements (hc now)
  | delete t row => exact hle.statements hc
  | redisSet key value ex => exact hle.keys hc
  | redisDel key => exact hle.keys hc
  | storage op => exact hc.imp_left hle.files
  | sendEmail mail => exact hle.mails hc
  | _ => trivial

/-- Returning does nothing. -/
theorem ret {a : α} : Within F (.ret a : Async V D α) := Prog.Only.ret

/-- Raising does nothing. -/
theorem raise {e : Err} : Within F (.raise e : Async V D α) := Prog.Only.raise

/-- One script after another. -/
theorem bind {f : α → Async V D β} (hp : Within F p) (hf : ∀ a, Within F (f a)) :
    Within F (Prog.bind p f) := Prog.Only.bind hp hf

/-- A script and what handles its exceptions. -/
theorem handle {h : Err → Async V D α} (hp : Within F p) (hh : ∀ e, Within F (h e)) :
    Within F (Prog.handle p h) := Prog.Only.handle hp hh

/-- Either branch. -/
theorem ite {b : Prop} [Decidable b] {p' : Async V D α} (h : Within F p) (h' : Within F p') :
    Within F (if b then p else p') := Prog.Only.ite (fun _ => h) fun _ => h'

/-- A computation. -/
theorem ofExcept {r : Except Err α} : Within F (Prog.ofExcept r : Async V D α) :=
  Prog.Only.ofExcept

/-- A value that has to be there. -/
theorem orRaise {e : Err} {o : Option α} : Within F (Prog.orRaise e o : Async V D α) :=
  Prog.Only.orRaise

/-- A check. -/
theorem raiseIf {b : Bool} {e : Err} : Within F (Prog.raiseIf b e : Async V D Unit) :=
  Prog.Only.raiseIf

/-- A query. -/
theorem select {binds : List Bind} {q : RowOrder → Db → α} :
    Within F (select binds q : Async V D α) := Prog.Only.lift ⟨trivial, trivial⟩

/-- Loading an object. -/
theorem dbGet {t : Entity} {id : ℤ} : Within F (dbGet t id : Async V D (Option (Row t))) :=
  select

/-- Loading an object that has to exist. -/
theorem getOrRaise {t : Entity} {id : ℤ} {e : Err} :
    Within F ((Rooti.dbGet t id).bind (Prog.orRaise e) : Async V D (Row t)) :=
  dbGet.bind fun _ => orRaise

/-- A new row has the property. -/
theorem add {t : Entity} {P : Row t → Prop} (h : adds t P ⊆ F.statements)
    {mk : NewRow → Row t} (hmk : ∀ new, P (mk new))
    (hkey : ∀ new, keyOf t (mk new) = new.id) :
    Within F (add t mk : Async V D NewRow) :=
  Prog.Only.lift ⟨fun new => h ⟨_, hmk new, rfl⟩, hkey⟩

/-- The assignments keep to the columns. -/
theorem modify {t : Entity} {P : Row t → Row t → Prop} (h : edits t P ⊆ F.statements)
    {row : Row t} {f : Row t → Row t} (hf : ∀ now r, P r (setUpdatedAt now t (f r)))
    (hkey : ∀ r, keyOf t (f r) = keyOf t r) :
    Within F (modify t row f : Async V D Unit) :=
  Prog.Only.lift ⟨fun now => h ⟨_, _, hf now, rfl⟩, hkey⟩

/-- Deleting a row needs the table. -/
theorem delete {t : Entity} (h : removes t ⊆ F.statements) {row : Row t} :
    Within F (delete t row : Async V D Unit) := Prog.Only.lift ⟨h ⟨_, rfl⟩, trivial⟩

/-- A flush sends statements that were recorded. -/
theorem flush : Within F (flush : Async V D Unit) := Prog.Only.lift ⟨trivial, trivial⟩

/-- A commit adds no statement. -/
theorem commit : Within F (commit : Async V D Unit) := Prog.Only.lift ⟨trivial, trivial⟩

/-- A rollback drops statements. -/
theorem rollback : Within F (rollback : Async V D Unit) := Prog.Only.lift ⟨trivial, trivial⟩

theorem now : Within F (now : Async V D ℤ) := Prog.Only.lift ⟨trivial, trivial⟩

theorem gensalt : Within F (gensalt : Async V D ℕ) := Prog.Only.lift ⟨trivial, trivial⟩

theorem datetimeNow {env : Env} : Within F (datetimeNow env : Async V D DateTime) :=
  now.bind fun _ => ret

theorem utcNow : Within F (utcNow : Async V D DateTime) := now.bind fun _ => ret

theorem redisGet {key : String} : Within F (redisGet key : Async V D (Option V)) :=
  Prog.Only.lift ⟨trivial, trivial⟩

/-- Setting a key needs the key. -/
theorem redisSet {key : String} {value : V} {ex : ℤ} (h : key ∈ F.keys) :
    Within F (redisSet key value ex : Async V D Unit) := Prog.Only.lift ⟨h, trivial⟩

/-- So does dropping it. -/
theorem redisDel {key : String} (h : key ∈ F.keys) : Within F (redisDel key : Async V D Unit) :=
  Prog.Only.lift ⟨h, trivial⟩

/-- A call of the storage needs the storage, unless it only reads. -/
theorem storage {op : D → Except String α × D} (h : F.files ∨ ∀ disk, (op disk).2 = disk) :
    Within F (storage op : Async V D α) := Prog.Only.lift ⟨h, trivial⟩

/-- Sending needs the mails. -/
theorem sendEmail {mail : Mail} (h : F.mails) :
    Within F (sendEmail mail : Async V D (Option String)) := Prog.Only.lift ⟨h, trivial⟩

theorem scalarOneOrNone {l : List α} : Within F (scalarOneOrNone l : Async V D (Option α)) := by
  rcases l with _ | ⟨a, _ | ⟨b, l⟩⟩
  · exact ret
  · exact ret
  · exact raise

theorem one {l : List α} : Within F (one l : Async V D α) := by
  rcases l with _ | ⟨a, _ | ⟨b, l⟩⟩
  · exact raise
  · exact ret
  · exact raise

theorem assertSome {o : Option α} : Within F (assertSome o : Async V D α) := orRaise

theorem assertCompany {scope : CompanyScopeValue} {companyId : Option ℤ} :
    Within F (assertCompany scope companyId : Async V D Unit) := raiseIf

theorem resolveCompanyFilter {scope : CompanyScopeValue} {requested : Option ℤ} :
    Within F (resolveCompanyFilter scope requested : Async V D (Option ℤ)) := by
  cases scope with
  | none => exact ret
  | some c => exact raiseIf.bind fun _ => ret

/-- A page of a listing only asks. -/
theorem listPage {γ : Type} {binds : List Bind} {matching : Db → List γ}
    {order : RowOrder → List γ → List γ} {respond : γ → Except Err β} {params : PageParams} :
    Within F (listPage binds matching order respond params : Async V D (Page β)) :=
  select.bind fun _ => select.bind fun _ => ofExcept.bind fun _ => ret

section Cache

variable {M κ : Type} [ToString κ] {pydantic : Pydantic V} {cls : Codec M} {ns : String} {key : κ}

/-- Reading an entry of the cache. -/
theorem getModel : Within F (getModel pydantic cls ns key : Async V D (Option M)) :=
  (handle redisGet fun _ => ret).bind fun _ => ret

/-- Caching a model writes its key. -/
theorem setModel {model : M} {ttlSeconds : ℤ} (h : cacheKey ns key ∈ F.keys) :
    Within F (setModel pydantic cls model ns key ttlSeconds : Async V D Unit) :=
  handle (redisSet h) fun _ => ret

/-- Dropping an entry writes its key. -/
theorem evict (h : cacheKey ns key ∈ F.keys) : Within F (evict ns key : Async V D Unit) :=
  handle (redisDel h) fun _ => ret

end Cache

/-- The end of a transaction adds nothing to what its script has recorded. -/
theorem endTransaction {env : Env} : Within F (endTransaction env : Async V D Unit) := by
  unfold Rooti.endTransaction
  exact ite rollback commit

end Within

/-! ## What a footprint cannot break -/

/-- **A relation on shared states that no command within the footprint leaves**, in a session
whose statements are of the footprint too. -/
structure Footprint.Allows (F : Footprint) (R : Rely (World V D)) : Prop where
  commit : ∀ (w : World V D) ds db, (∀ d ∈ ds, d ∈ F.statements) →
    Dml.applyAll ds w.db = .ok db → R.may w { w.tick with db := db }
  redis : ∀ (w : World V D) redis, (∀ key ∉ F.keys, redis key = w.redis key) →
    R.may w { w.tick with redis := redis }
  disk : F.files → ∀ (w : World V D) disk, R.may w { w.tick with disk := disk }
  outbox : F.mails → ∀ (w : World V D) outbox, R.may w { w.tick with outbox := outbox }
  seq : ∀ (w : World V D) seq, R.may w { w.tick with seq := seq }

/-- A statement stays within a relation on databases. -/
def Dml.Steps (K : Rely Db) (d : Statement) : Prop :=
  ∀ db db', d.apply db = .ok db' → K.may db db'

/-- Statements that stay within a relation do so one after the other. -/
theorem Dml.Steps.applyAll {K : Rely Db} {ds : List Statement} (hds : ∀ d ∈ ds, Dml.Steps K d)
    {db db' : Db} (h : Dml.applyAll ds db = .ok db') : K.may db db' := by
  induction ds generalizing db with
  | nil =>
      cases h
      exact K.refl _
  | cons d ds ih =>
      rw [List.forall_mem_cons] at hds
      obtain ⟨db₁, hd, hrest⟩ := Dml.applyAll_cons_eq_ok.mp h
      exact K.trans (hds.1 db db₁ hd) (ih hds.2 hrest)

namespace Footprint.Allows

variable {F F' : Footprint} {R : Rely (World V D)}

/-- A smaller footprint allows more. -/
theorem mono (h : F'.Allows R) (hle : F.Le F') : F.Allows R where
  commit w ds _ hds := h.commit w ds _ fun d hd => hle.statements (hds d hd)
  redis w redis hkeys := h.redis w redis fun key hkey => hkeys key fun hF => hkey (hle.keys hF)
  disk hfiles := h.disk (hle.files hfiles)
  outbox hmails := h.outbox (hle.mails hmails)
  seq := h.seq

/-- What a footprint does not leave is not left by doing nothing. -/
theorem idle (h : F.Allows R) : ({} : Footprint).Allows R :=
  h.mono ⟨Set.empty_subset _, Set.empty_subset _, Bool.false_ne_true.elim,
    Bool.false_ne_true.elim⟩

/-- A relation on databases, by the statements. -/
theorem db {K : Rely Db} (h : ∀ d ∈ F.statements, Dml.Steps K d) :
    F.Allows (K.comap World.db : Rely (World V D)) where
  commit _ _ _ hds happly := Dml.Steps.applyAll (fun d hd => h d (hds d hd)) happly
  redis w _ _ := K.refl w.db
  disk _ w _ := K.refl w.db
  outbox _ w _ := K.refl w.db
  seq w _ := K.refl w.db

/-- The life cycles of rows, by the statements. -/
theorem lifeCycle {L : LifeCycle schema} (h : ∀ d ∈ F.statements, L.Permits d) :
    F.Allows (L.rely.comap World.db : Rely (World V D)) :=
  db fun d hd _ _ happly => LifeCycle.may_apply (h d hd) happly

/-- The entry of a key the footprint leaves out. -/
theorem key {key : String} (h : key ∉ F.keys) :
    F.Allows (Rely.frame fun w : World V D => w.redis key) where
  commit _ _ _ _ _ := rfl
  redis _ _ hkeys := hkeys key h
  disk _ _ _ := rfl
  outbox _ _ _ := rfl
  seq _ _ := rfl

/-- The document storage, where the footprint leaves it out. -/
theorem storage (h : F.files = false) : F.Allows (Rely.frame fun w : World V D => w.disk) where
  commit _ _ _ _ _ := rfl
  redis _ _ _ := rfl
  disk hfiles := absurd hfiles (by simp [h])
  outbox _ _ _ := rfl
  seq _ _ := rfl

/-- The mails, where the footprint leaves them out. -/
theorem mailing (h : F.mails = false) : F.Allows (Rely.frame fun w : World V D => w.outbox) where
  commit _ _ _ _ _ := rfl
  redis _ _ _ := rfl
  disk _ _ _ := rfl
  outbox hmails := absurd hmails (by simp [h])
  seq _ _ := rfl

/-- **A command within a footprint** makes a step that the footprint allows, and the statements
of its session stay of the footprint. -/
theorem exec (h : F.Allows R) (env : Env) {c : Cmd V D α} (hc : c.within F) {s : Session}
    (w : World V D) (hs : ∀ d ∈ s.statements, d ∈ F.statements) :
    R.may w (Rooti.exec env c s w).2.2 ∧
      ∀ d ∈ (Rooti.exec env c s w).2.1.statements, d ∈ F.statements := by
  constructor
  · have htick : R.may w w.tick := h.seq w w.seq
    cases c with
    | select binds q =>
        simp only [Rooti.exec, execSelect]
        split
        · exact htick
        · split <;> exact htick
    -- only an id is drawn; the row comes with the flush
    | add t mk => exact h.seq w _
    | modify t row f =>
        simp only [Rooti.exec]
        split <;> exact htick
    | commit =>
        -- a commit touches nothing but the tables
        have hsame : (execCommit env s w).2.2 =
            { w.tick with db := (execCommit env s w).2.2.db } := by
          unfold execCommit
          split
          · rfl
          · split <;> rfl
        obtain hdb | ⟨ds, hperm, happly⟩ := execCommit_db env s w
        · rw [show (Rooti.exec env Cmd.commit s w).2.2 = (execCommit env s w).2.2 from rfl, hsame,
            hdb]
          exact htick
        · rw [show (Rooti.exec env Cmd.commit s w).2.2 = (execCommit env s w).2.2 from rfl, hsame]
          exact h.commit w ds _ (fun d hd => hs d (hperm.mem_iff.mp hd)) happly
    | redisSet key value ex =>
        simp only [Rooti.exec]
        split
        · exact htick
        · refine h.redis w _ fun key' hkey' => KeyValue.Store.set_of_ne _ _ _ ?_
          rintro rfl
          exact hkey' hc
    | redisDel key =>
        refine h.redis w _ fun key' hkey' => KeyValue.Store.del_of_ne _ ?_
        rintro rfl
        exact hkey' hc
    | storage op =>
        -- an operation outside the files of the footprint only reads
        obtain hfiles | hsame := hc
        · exact h.disk hfiles w _
        · have hdisk : (Rooti.exec env (Cmd.storage op) s w).2.2 = w.tick := by
            rw [Rooti.exec, hsame]
            rfl
          rw [hdisk]
          exact htick
    | sendEmail mail => exact h.outbox hc w _
    | _ => exact htick
  · intro d hd
    -- a statement of the session was there before, or the command has recorded it
    obtain hold | hnew := List.mem_append.mp ((exec_statements env c s w).subset hd)
    · exact hs d hold
    · cases c with
      | add t mk =>
          obtain rfl := List.mem_singleton.mp hnew
          exact hc _
      | modify t row f =>
          simp only [Cmd.recorded] at hnew
          split at hnew
          · cases hnew
          · obtain rfl := List.mem_singleton.mp hnew
            exact hc _
      | delete t row =>
          obtain rfl := List.mem_singleton.mp hnew
          exact hc
      | _ => cases hnew

end Footprint.Allows

/-! ## Statements of a life cycle -/

section LifeCycle

variable {L : LifeCycle schema} {t : Entity}

/-- New rows have to be ones that may be born. -/
theorem permits_adds {P : Row t → Prop} (h : ∀ r, P r → L.born t r) :
    ∀ d ∈ adds t P, L.Permits d := by
  rintro _ ⟨r, hr, rfl⟩
  exact h r hr

/-- Changes have to be ones that rows may undergo. -/
theorem permits_edits {P : Row t → Row t → Prop} (h : ∀ r r', P r r' → L.becomes t r r') :
    ∀ d ∈ edits t P, L.Permits d := by
  rintro _ ⟨k, f, hf, rfl⟩
  exact fun r => h r (f r) (hf r)

/-- Rows that are deleted have to be mortal. -/
theorem permits_removes (h : L.mortal t) : ∀ d ∈ removes t, L.Permits d := by
  rintro _ ⟨k, rfl⟩
  exact h

/-- Statements of two kinds. -/
theorem permits_union {S S' : Set Statement} (h : ∀ d ∈ S, L.Permits d)
    (h' : ∀ d ∈ S', L.Permits d) : ∀ d ∈ S ∪ S', L.Permits d :=
  fun d hd => hd.elim (h d) (h' d)

/-- No statements. -/
theorem permits_nothing : ∀ d ∈ (∅ : Set Statement), L.Permits d := by
  rintro _ ⟨⟩

end LifeCycle

/-! ## Among others -/

/-- **The session has recorded statements of the footprint only.** -/
def drafts {R : Rely (World V D)} (F : Footprint) : Assertion Session R :=
  .own fun s => ∀ d ∈ s.statements, d ∈ F.statements

variable {env : Env} {F : Footprint} {R : Rely (World V D)}

/-- **A script within a footprint, among others**: its steps are those the footprint allows. -/
theorem among_of_within {p : Async V D α} (hp : Within F p) (hR : F.Allows R)
    (R' : Rely (World V D)) :
    (server env).Among R' R (drafts F) p (fun _ => drafts F) fun _ => drafts F :=
  .of_only hp fun _ hc _ w hs => hR.exec env hc.1 w hs

end Rooti

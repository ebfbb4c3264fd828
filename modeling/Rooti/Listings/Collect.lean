import Mathlib.Data.List.Perm.Basic
import Rooti.Core.Pagination
import Rooti.Core.Transactions
import Rooti.Lib.Paging

/-!
# Collecting the pages of a listing

A client asks for the first page, which says how many there are, and then for the others.
The database sorts the rows for every page anew, and may return rows of equal keys in
another order each time (`RowOrder`); whatever order `ORDER BY` allows, some `RowOrder`
gives (`exists_rowOrder`).

## Main definitions

* `collect` — what a client collects
* `Query` — what a listing asks the database, and how it shows a row
* `Query.Served` — the requests for its pages are answered
* `Query.CollectsAll` — the pages show every matching row once
* `collectsAll_iff` — when they do

## What carries the proof

A listing runs two queries, for the number of rows and for the rows of the page, and
fails only if a parameter does not fit or a row cannot be shown. Both are settled by the
rows that match, and not by their order (`Query.Served`), so that a client either gets
all pages whatever the orders are, or may fail to get one. What the pages show is then
the question of `Lib.Paging`, and it transfers because any sorting that `ORDER BY`
allows is the answer of some `RowOrder`: the order that shows a row twice is one the
database may use.

Answers carry ids (`Query.Identified`); this is what turns rows that are repeated into
answers that are.
-/

namespace Rooti

open Relational Program

variable {V D α β : Type}

/-! ## Orders of rows -/

/-- Rows drawn by their places. -/
theorem filterMap_range_getElem? (l : List α) :
    (List.range l.length).filterMap (l[·]?) = l := by
  induction l with
  | nil => rfl
  | cons a rest ih =>
      rw [List.length_cons, List.range_succ_eq_map,
        List.filterMap_cons_some (f := fun i => (a :: rest)[i]?) rfl, List.filterMap_map]
      exact congrArg (a :: ·) ih

/-- Rows in the order of `places`, where these are the places of the list. -/
def RowOrder.ofPlaces (places : List ℕ) : RowOrder where
  scan l := if places.Perm (List.range l.length) then places.filterMap (l[·]?) else l
  perm l := by
    split
    · rename_i h
      exact (h.filterMap _).trans (.of_eq (filterMap_range_getElem? l))
    · exact .refl l

/-- **Every order of the rows is possible.** -/
theorem exists_rowOrder {rows l : List α} (h : l.Perm rows) : ∃ o : RowOrder, o.scan rows = l := by
  have hrows : rows.map some = (List.range rows.length).map (rows[·]?) := by
    refine List.ext_getElem? fun i => ?_
    by_cases hi : i < rows.length <;> simp [hi]
  obtain ⟨places, hl, hplaces⟩ : Relation.Comp (· = List.map (rows[·]?) ·) List.Perm
      (l.map some) (List.range rows.length) := by
    rw [List.eq_map_comp_perm]
    show (l.map some).Perm ((List.range rows.length).map (rows[·]?))
    rw [← hrows]
    exact h.map some
  refine ⟨.ofPlaces places, (if_pos hplaces).trans ?_⟩
  have hdrawn := congrArg (List.filterMap id) hl
  simpa [List.filterMap_map] using hdrawn.symm

/-! ## The client -/

/-- The same page size, another page. -/
def PageParams.onPage (params : PageParams) (page : ℕ) : PageParams :=
  { params with page := page }

/-- **What a client collects**: the first page says how many there are. -/
def collect (answer : ℕ → Except Err (Page β)) : Except Err (List β) := do
  let first ← answer 0
  let others ← (List.range' 1 (first.totalPages - 1)).mapM answer
  return (first :: others).flatMap Page.content

/-- What a page shows, if there is one. -/
def shownOn (answer : Except Err (Page β)) : List β := (answer.toOption.map Page.content).getD []

/-- **The client gets all pages, or nothing**, if the pages agree on how many there
are. -/
theorem collect_eq_ok_iff {answer : ℕ → Except Err (Page β)} {n : ℕ} (hn : 0 < n)
    (htotal : ∀ i page, answer i = .ok page → page.totalPages = n) {collected : List β} :
    collect answer = .ok collected ↔
      (∀ i < n, ∃ page, answer i = .ok page) ∧
        collected = (List.range n).flatMap fun i => shownOn (answer i) := by
  -- the client asks for page 0 first, and for the others when it knows how many there
  -- are
  have hrange : List.range n = 0 :: List.range' 1 (n - 1) := by
    obtain ⟨m, rfl⟩ : ∃ m, n = m + 1 := ⟨n - 1, by omega⟩
    rw [List.range_eq_range', List.range'_succ]
    rfl
  have hcontents : ∀ l : List ℕ, (l.filterMap fun i => (answer i).toOption).flatMap Page.content =
      l.flatMap fun i => shownOn (answer i) := by
    intro l
    induction l with
    | nil => rfl
    | cons i rest ih =>
        rw [List.flatMap_cons, ← ih, shownOn, List.filterMap_cons]
        cases (answer i).toOption <;> rfl
  rw [collect]
  cases hfirst : answer 0 with
  | error e =>
      refine iff_of_false (fun h => by cases h) fun h => ?_
      obtain ⟨page, hpage⟩ := h.1 0 hn
      cases hfirst.symm.trans hpage
  | ok first =>
      have hall : (∀ i < n, ∃ page, answer i = .ok page) ↔
          ∀ i ∈ List.range' 1 (n - 1), ∃ page, answer i = .ok page := by
        have hmem : (∀ i < n, ∃ page, answer i = .ok page) ↔
            ∀ i ∈ List.range n, ∃ page, answer i = .ok page := by simp only [List.mem_range]
        rw [hmem, hrange, List.forall_mem_cons]
        exact and_iff_right ⟨first, hfirst⟩
      have hshown : shownOn (answer 0) = first.content := by rw [hfirst]; rfl
      rw [hall, hrange, List.flatMap_cons, hshown, ← hcontents]
      show ((List.range' 1 (first.totalPages - 1)).mapM answer >>= fun others =>
        pure ((first :: others).flatMap Page.content)) = Except.ok collected ↔ _
      rw [htotal 0 first hfirst]
      cases hothers : (List.range' 1 (n - 1)).mapM answer with
      | error e =>
          refine iff_of_false (fun h => by cases h) fun h => ?_
          cases hothers.symm.trans (mapM_eq_ok_iff.mpr ⟨h.1, rfl⟩)
      | ok others =>
          obtain ⟨hanswers, rfl⟩ := mapM_eq_ok_iff.mp hothers
          rw [and_iff_right hanswers]
          constructor
          · intro h
            exact (Except.ok.inj h).symm
          · rintro rfl
            rfl

/-- **The pages show certain answers, each once**, however the database sorts the rows. -/
def Collects (list : PageParams → Async V D (Page β)) (params : PageParams) (db : Db)
    (answers : List β) : Prop :=
  ∀ (env : ℕ → Env) (w : ℕ → World V D), (∀ i, (w i).db = db) →
    ∃ collected, collect (fun i => (serve (env i) (list (params.onPage i)) (w i)).1) =
      .ok collected ∧ collected.Perm answers

/-! ## A listing -/

/-- **What a listing asks the database, and how it shows a row.** -/
structure Query where
  Item : Type
  Answer : Type
  /-- the request is refused before it asks -/
  refused : Bool := false
  binds : List Bind
  matching : Db → List Item
  key : Item → ℤ
  descending : Bool
  respond : Item → Except Err Answer
  /-- the ids that rows and answers carry -/
  itemId : Item → ℤ
  answerId : Answer → ℤ

namespace Query

variable (q : Query)

/-- The order of the listing. -/
def le (a b : q.Item) : Bool :=
  if q.descending then decide (q.key b ≤ q.key a) else decide (q.key a ≤ q.key b)

/-- The rows in this order. -/
def order (o : RowOrder) (rows : List q.Item) : List q.Item := (o.scan rows).mergeSort q.le

/-- The request for a page. -/
def list (e : Err) (params : PageParams) : Async V D (Page q.Answer) := do
  Prog.raiseIf q.refused e
  listPage q.binds q.matching q.order q.respond params

/-- **The requests for the pages are answered.** -/
structure Served (size : ℕ) (db : Db) : Prop where
  accepted : q.refused = false
  binds : q.binds.all Bind.fits
  /-- so are the offsets -/
  offsets : ∀ page < pageCount (q.matching db).length size, bigint (page * size : ℕ)
  shown : ∀ row ∈ q.matching db, ∃ answer, q.respond row = .ok answer

/-- **The pages show every matching row once**: the responses a client collects are those
of the matching rows, whatever order the database returns rows of equal keys in, for each
page anew. -/
def CollectsAll (list : PageParams → Async V D (Page q.Answer)) (params : PageParams)
    (db : Db) : Prop :=
  ∃ answers, (q.matching db).mapM q.respond = .ok answers ∧
    ∀ (env : ℕ → Env) (w : ℕ → World V D), (∀ i, (w i).db = db) →
      ∃ collected, collect (fun i => (serve (env i) (list (params.onPage i)) (w i)).1) =
        .ok collected ∧ collected.Perm answers

/-- Rows are told apart by their ids, and the answers carry them. -/
structure Identified (db : Db) : Prop where
  nodup : ((q.matching db).map q.itemId).Nodup
  answers : ∀ row answer, q.respond row = .ok answer → q.answerId answer = q.itemId row

section Order

variable {q}

/-- The order of a listing is transitive. -/
theorem le_trans (a b c : q.Item) (hab : q.le a b) (hbc : q.le b c) : q.le a c := by
  unfold le at *
  split at hab
  · rw [if_pos ‹_›] at hbc ⊢
    exact decide_eq_true ((of_decide_eq_true hbc).trans (of_decide_eq_true hab))
  · rw [if_neg ‹_›] at hbc ⊢
    exact decide_eq_true ((of_decide_eq_true hab).trans (of_decide_eq_true hbc))

/-- It compares any two rows. -/
theorem le_total (a b : q.Item) : q.le a b || q.le b a := by
  unfold le
  split <;> simpa using Int.le_total _ _

/-- What the database returns is sorted. -/
theorem sorts_order (o : RowOrder) (rows : List q.Item) :
    Paging.Sorts q.le rows (q.order o rows) :=
  ⟨(List.mergeSort_perm _ _).trans (o.perm rows), List.pairwise_mergeSort le_trans le_total _⟩

/-- **Every sorting is possible.** -/
theorem exists_order {rows l : List q.Item} (h : Paging.Sorts q.le rows l) :
    ∃ o : RowOrder, q.order o rows = l := by
  obtain ⟨o, ho⟩ := exists_rowOrder h.1
  exact ⟨o, by rw [order, ho, List.mergeSort_of_pairwise h.2]⟩

end Order

section Serve

variable {q} {env : Env} {w : World V D} {params : PageParams} {e : Err}

/-- The rows of a page. -/
def pageRows (q : Query) (env : Env) (w : World V D) (params : PageParams) : List q.Item :=
  params.slice (q.order (env.rowOrder (w.ticks + 1)) (q.matching w.db))

/-- The size of a page fits. -/
theorem bigint_limit (params : PageParams) : bigint params.limit := by
  have hle : params.limit ≤ 100 := params.size_le
  simp only [bigint, decide_eq_true_eq]
  omega

/-- The parameters of the second query. -/
theorem fits_page_iff :
    (q.binds ++ [Bind.int params.limit, Bind.int params.offset]).all Bind.fits ↔
      q.binds.all Bind.fits ∧ bigint params.offset := by
  rw [List.all_append, Bool.and_eq_true]
  have hlast : ([Bind.int params.limit, Bind.int params.offset]).all Bind.fits =
      (bigint params.limit && (bigint params.offset && true)) := rfl
  rw [hlast, bigint_limit, Bool.true_and, Bool.and_true]

variable (env w) in
/-- A request whose parameters fit. -/
theorem run_listPage (hbinds : q.binds.all Bind.fits) (hoffset : bigint params.offset) :
    (server env).run (listPage q.binds q.matching q.order q.respond params) {} w =
      (((q.pageRows env w params).mapM q.respond).map fun content =>
        Page.build content params (q.matching w.db).length, {}, w.tick.tick) := by
  rw [listPage, Prog.bind_eq, run_select_bind_clean, if_pos hbinds]
  rw [Prog.bind_eq, run_select_bind_clean, if_pos (fits_page_iff.mpr ⟨hbinds, hoffset⟩)]
  rw [Prog.bind_eq, Machine.run_bind, Machine.run_ofExcept]
  have hrows : q.pageRows env w params =
      params.slice (q.order (env.rowOrder w.tick.ticks) (q.matching w.tick.db)) := rfl
  rw [hrows]
  generalize (params.slice _).mapM q.respond = content
  cases content <;> rfl

/-- A request whose parameters do not fit. -/
theorem run_listPage_unfit (h : ¬(q.binds.all Bind.fits ∧ bigint params.offset)) :
    ∃ e s w', (server env).run (listPage q.binds q.matching q.order q.respond params) {} w =
      (.error e, s, w') := by
  rw [listPage, Prog.bind_eq, run_select_bind_clean]
  by_cases hbinds : q.binds.all Bind.fits
  · rw [if_pos hbinds, Prog.bind_eq, run_select_bind_clean,
      if_neg fun hfits => h (fits_page_iff.mp hfits)]
    exact ⟨_, _, _, rfl⟩
  · rw [if_neg hbinds]
    exact ⟨_, _, _, rfl⟩

/-- **The answer of one request.** -/
theorem serve_list_eq_ok_iff {page : Page q.Answer} :
    (serve env (q.list e params) w).1 = .ok page ↔
      q.refused = false ∧ (q.binds.all Bind.fits ∧ bigint params.offset) ∧
        ∃ content, (q.pageRows env w params).mapM q.respond = .ok content ∧
          page = Page.build content params (q.matching w.db).length := by
  rw [list, Prog.bind_eq]
  cases hrefused : q.refused with
  | true =>
      have hrun : (server env).run (Prog.bind (Prog.raiseIf true e) fun _ =>
        (listPage q.binds q.matching q.order q.respond params : Async V D _)) {} w =
          (.error e, {}, w) := rfl
      rw [serve_of_error hrun]
      exact iff_of_false (fun h => by cases h) fun h => by cases h.1
  | false =>
      rw [Prog.raiseIf_false, Prog.ret_bind]
      by_cases hfits : q.binds.all Bind.fits ∧ bigint params.offset
      · have hrun := run_listPage env w hfits.1 hfits.2
        cases hcontent : (q.pageRows env w params).mapM q.respond with
        | error e' =>
            rw [hcontent] at hrun
            rw [serve_of_error hrun]
            refine iff_of_false (fun h => by cases h) fun h => ?_
            obtain ⟨content, hok, -⟩ := h.2.2
            cases hok
        | ok content =>
            rw [hcontent] at hrun
            rw [serve_of_clean hrun]
            simp [hfits, eq_comm]
      · obtain ⟨e', s, w', hrun⟩ := run_listPage_unfit (V := V) (D := D) (w := w) hfits
        rw [serve_of_error hrun]
        exact iff_of_false (fun h => by cases h) fun h => hfits h.2.1

end Serve

/-! ### All pages -/

section Pages

variable {q} {params : PageParams} {db : Db} {e : Err}

/-- The answer that shows a row. -/
def answerOf (q : Query) (row : q.Item) : Option q.Answer := (q.respond row).toOption

/-- How the rows are sorted for the page `i`. -/
def sorting (q : Query) (env : ℕ → Env) (w : ℕ → World V D) (i : ℕ) : List q.Item :=
  q.order ((env i).rowOrder ((w i).ticks + 1)) (q.matching (w i).db)

/-- **What a client collects** when the requests are answered. -/
theorem collect_of_served (h : q.Served params.size db) (env : ℕ → Env) (w : ℕ → World V D)
    (hdb : ∀ i, (w i).db = db) :
    collect (fun i => (serve (env i) (q.list e (params.onPage i)) (w i)).1) =
      .ok ((Paging.pages params.size (q.sorting env w)
        (pageCount (q.matching db).length params.size)).filterMap q.answerOf) := by
  have hanswer : ∀ i < pageCount (q.matching db).length params.size,
      (serve (env i) (q.list e (params.onPage i)) (w i)).1 =
        .ok (Page.build ((q.pageRows (env i) (w i) (params.onPage i)).filterMap q.answerOf)
          (params.onPage i) (q.matching db).length) := by
    intro i hi
    refine serve_list_eq_ok_iff.mpr ⟨h.accepted, ⟨h.binds, h.offsets i hi⟩, _,
      mapM_eq_ok_iff.mpr ⟨fun row hrow => h.shown row ?_, rfl⟩, by rw [hdb i]; rfl⟩
    have hmem := List.mem_of_mem_drop (List.mem_of_mem_take hrow)
    rw [(sorts_order _ _).1.mem_iff, hdb i] at hmem
    exact hmem
  have htotal : ∀ i page, (serve (env i) (q.list e (params.onPage i)) (w i)).1 = .ok page →
      page.totalPages = pageCount (q.matching db).length params.size := by
    intro i page hpage
    obtain ⟨-, -, content, -, rfl⟩ := serve_list_eq_ok_iff.mp hpage
    rw [hdb i]
    rfl
  refine (collect_eq_ok_iff (pageCount_pos _ _) htotal).mpr ⟨fun i hi => ⟨_, hanswer i hi⟩, ?_⟩
  rw [Paging.pages, List.filterMap_flatMap]
  refine List.flatMap_congr fun i hi => ?_
  rw [hanswer i (List.mem_range.mp hi)]
  rfl

/-- **A client that gets all pages** was served. -/
theorem served_of_collect {env : ℕ → Env} {w : ℕ → World V D} (hdb : ∀ i, (w i).db = db)
    {answers collected : List q.Answer} (hanswers : (q.matching db).mapM q.respond = .ok answers)
    (h : collect (fun i => (serve (env i) (q.list e (params.onPage i)) (w i)).1) =
      .ok collected) : q.Served params.size db := by
  have htotal : ∀ i page, (serve (env i) (q.list e (params.onPage i)) (w i)).1 = .ok page →
      page.totalPages = pageCount (q.matching db).length params.size := by
    intro i page hpage
    obtain ⟨-, -, content, -, rfl⟩ := serve_list_eq_ok_iff.mp hpage
    rw [← hdb i]
    rfl
  have hall := ((collect_eq_ok_iff (pageCount_pos _ _) htotal).mp h).1
  have hfits : ∀ i < pageCount (q.matching db).length params.size, q.refused = false ∧
      q.binds.all Bind.fits ∧ bigint (params.onPage i).offset := by
    intro i hi
    obtain ⟨page, hpage⟩ := hall i hi
    obtain ⟨haccepted, hfits, -⟩ := serve_list_eq_ok_iff.mp hpage
    exact ⟨haccepted, hfits⟩
  have hfirst := hfits 0 (pageCount_pos _ _)
  exact ⟨hfirst.1, hfirst.2.1, fun i hi => (hfits i hi).2.2, (mapM_eq_ok_iff.mp hanswers).1⟩

/-- Answers carry the ids of their rows. -/
theorem map_answerId (hid : q.Identified db) {rows : List q.Item}
    (h : ∀ row ∈ rows, ∃ answer, q.respond row = .ok answer) :
    (rows.filterMap q.answerOf).map q.answerId = rows.map q.itemId :=
  map_of_mapM hid.answers (mapM_eq_ok_iff.mpr ⟨h, rfl⟩)

/-- **Where a page splits a tie**, a client may be shown a row twice. -/
theorem exists_repeated_collected {w : World V D} (hid : q.Identified w.db)
    (hserved : q.Served params.size w.db)
    (hsplit : Paging.SplitsTie q.le params.size (q.matching w.db)) :
    ∃ env : ℕ → Env, ∀ collected,
      collect (fun i => (serve (env i) (q.list e (params.onPage i)) w).1) = .ok collected →
        ¬(collected.map q.answerId).Nodup := by
  obtain ⟨sorting, hsorting, hrepeated⟩ := Paging.exists_repeated le_trans le_total hsplit
    (le_pageCount_mul (q.matching w.db).length (Nat.lt_of_lt_of_le Nat.one_pos params.size_pos))
  -- a database that sorts the rows this way
  choose o ho using fun i => exists_order (hsorting i)
  let env : ℕ → Env := fun i => { still with rowOrder := fun _ => o i }
  refine ⟨env, fun collected hcollect hnodup => hrepeated ?_⟩
  have hsorts : q.sorting env (fun _ => w) = sorting := funext ho
  have hpages : ∀ row ∈ Paging.pages params.size sorting
      (pageCount (q.matching w.db).length params.size), row ∈ q.matching w.db := by
    intro row hrow
    obtain ⟨i, -, hrow⟩ := List.mem_flatMap.mp hrow
    exact (hsorting i).1.mem_iff.mp (List.mem_of_mem_drop (List.mem_of_mem_take hrow))
  rw [collect_of_served hserved env (fun _ => w) fun _ => rfl, hsorts] at hcollect
  obtain rfl := Except.ok.inj hcollect
  rw [map_answerId hid fun row hrow => hserved.shown row (hpages row hrow)] at hnodup
  exact List.Nodup.of_map _ hnodup

variable (e params) in
/-- **When a listing loses and repeats nothing**: its requests are answered, and no page
ends between two rows with equal keys. -/
theorem collectsAll_iff {w : World V D} (hid : q.Identified w.db) :
    q.CollectsAll (q.list e : PageParams → Async V D (Page q.Answer)) params w.db ↔
      q.Served params.size w.db ∧ ¬Paging.SplitsTie q.le params.size (q.matching w.db) := by
  have hroom := le_pageCount_mul (q.matching w.db).length
    (Nat.lt_of_lt_of_le Nat.one_pos params.size_pos)
  constructor
  · rintro ⟨answers, hanswers, hcollects⟩
    obtain ⟨collected, hcollect, -⟩ := hcollects (fun _ => still) (fun _ => w) fun _ => rfl
    have hserved := served_of_collect (fun _ => rfl) hanswers hcollect
    refine ⟨hserved, fun hsplit => ?_⟩
    obtain ⟨env, hrepeated⟩ := exists_repeated_collected (e := e) hid hserved hsplit
    obtain ⟨collected, hcollect, hperm⟩ := hcollects env (fun _ => w) fun _ => rfl
    refine hrepeated collected hcollect ((hperm.map q.answerId).nodup_iff.mpr ?_)
    rw [map_of_mapM hid.answers hanswers]
    exact hid.nodup
  · rintro ⟨hserved, hsplit⟩
    refine ⟨_, mapM_eq_ok_iff.mpr ⟨hserved.shown, rfl⟩, fun env w' hdb =>
      ⟨_, collect_of_served hserved env w' hdb, List.Perm.filterMap _ ?_⟩⟩
    refine Paging.pages_perm le_trans le_total hsplit (fun i => ?_) hroom
    rw [sorting, hdb i]
    exact sorts_order _ _

variable (e params) in
/-- **When the pages show what was meant**: all matching rows are shown, and these are
what was meant. -/
theorem collects_iff {w : World V D} (hid : q.Identified w.db) {meant answers : List q.Answer}
    (hmeant : (meant.map q.answerId).Nodup)
    (hanswers : (q.matching w.db).mapM q.respond = .ok answers) :
    Collects (q.list e : PageParams → Async V D (Page q.Answer)) params w.db meant ↔
      (q.Served params.size w.db ∧ ¬Paging.SplitsTie q.le params.size (q.matching w.db)) ∧
        meant.Perm answers := by
  constructor
  · intro hcollects
    obtain ⟨collected, hcollect, hperm⟩ := hcollects (fun _ => still) (fun _ => w) fun _ => rfl
    have hserved := served_of_collect (fun _ => rfl) hanswers hcollect
    have hsplit : ¬Paging.SplitsTie q.le params.size (q.matching w.db) := by
      intro hsplit
      obtain ⟨env, hrepeated⟩ := exists_repeated_collected (e := e) hid hserved hsplit
      obtain ⟨collected, hcollect, hperm⟩ := hcollects env (fun _ => w) fun _ => rfl
      exact hrepeated collected hcollect ((hperm.map q.answerId).nodup_iff.mpr hmeant)
    refine ⟨⟨hserved, hsplit⟩, ?_⟩
    obtain ⟨answers', hanswers', hall⟩ :=
      (collectsAll_iff params e (w := w) hid).mpr ⟨hserved, hsplit⟩
    obtain rfl := Except.ok.inj (hanswers.symm.trans hanswers')
    obtain ⟨collected', hcollect', hperm'⟩ := hall (fun _ => still) (fun _ => w) fun _ => rfl
    obtain rfl := Except.ok.inj (hcollect.symm.trans hcollect')
    exact hperm.symm.trans hperm'
  · rintro ⟨hcomplete, hperm⟩ env w' hdb
    obtain ⟨answers', hanswers', hall⟩ := (collectsAll_iff params e (w := w) hid).mpr hcomplete
    obtain rfl := Except.ok.inj (hanswers.symm.trans hanswers')
    obtain ⟨collected, hcollect, hperm'⟩ := hall env w' hdb
    exact ⟨collected, hcollect, hperm'.trans hperm.symm⟩

/-- A listing by id leaves no ties. -/
theorem not_splitsTie_of_key (hid : q.Identified db) (hkey : ∀ row, q.key row = q.itemId row)
    (size : ℕ) : ¬Paging.SplitsTie q.le size (q.matching db) := by
  refine Paging.not_splitsTie le_trans le_total (List.Nodup.of_map _ hid.nodup)
    fun a ha b hb hab hba => ?_
  have hsame : q.key a = q.key b := by
    unfold le at hab hba
    split at hab
    · rw [if_pos ‹_›] at hba
      exact le_antisymm (of_decide_eq_true hba) (of_decide_eq_true hab)
    · rw [if_neg ‹_›] at hba
      exact le_antisymm (of_decide_eq_true hab) (of_decide_eq_true hba)
  rw [hkey, hkey] at hsame
  exact List.inj_on_of_nodup_map hid.nodup ha hb hsame

end Pages

end Query

end Rooti

import Rooti.Listings.Pages

/-!
# Leaves in some days

Three listings ask for the leaves that reach into some days: those that end on the first
day or later, and start on the last day or earlier.  Each bound may be absent.  Where the
last day comes before the first, no day is asked for, but a leave over both is listed.

## Main definitions

* `Overlaps` — some day of the leave is within the bounds
* `LeavesInDays` — what the listings are for
* `leavesInDays_iff` — when they do it

## What carries the proof

The filter compares each bound with one end of the leave and never looks at a day. For
bounds in order that comes to the same; `withinDates_iff_overlaps` says what is left
over for bounds the other way round, the leaves that straddle. Since the two lists of
`meantLeaves_perm_iff` differ in these rows alone, and ids tell rows apart, one of them
is enough to make the lists differ.

A client that asks for one worker or for approved leaves gets a list that is filtered
less than the search is. To compare the three, `LeavesInDays` narrows the answers down
to what the search was asked for.
-/

namespace Rooti

open Relational Program LeaveService

variable {V D : Type}

/-! ## Days of a leave -/

/-- **Some day of the leave is within the bounds.** -/
def Overlaps (from_ to_ : Option Date) (leave : Leave) : Prop :=
  ∃ d : Date, leave.startDate.days ≤ d.days ∧ d.days ≤ leave.endDate.days ∧
    (∀ f ∈ from_, f.days ≤ d.days) ∧ ∀ t ∈ to_, d.days ≤ t.days

/-- The bounds are the wrong way round, and the leave reaches over both. -/
def Straddles (from_ to_ : Option Date) (leave : Leave) : Prop :=
  ∃ f ∈ from_, ∃ t ∈ to_, t.days < f.days ∧ leave.startDate.days ≤ t.days ∧
    f.days ≤ leave.endDate.days

section Overlap

variable {from_ to_ : Option Date} {leave : Leave}

/-- The filter, as comparisons of days. -/
theorem withinDates_iff : withinDates from_ to_ leave ↔
    (∀ f ∈ from_, f.days ≤ leave.endDate.days) ∧ ∀ t ∈ to_, leave.startDate.days ≤ t.days := by
  cases from_ <;> cases to_ <;> simp [withinDates]

/-- **The filter of the listings**: the leaves that overlap, and those that straddle. -/
theorem withinDates_iff_overlaps (hdates : leave.startDate.days ≤ leave.endDate.days) :
    withinDates from_ to_ leave ↔ Overlaps from_ to_ leave ∨ Straddles from_ to_ leave := by
  rw [withinDates_iff]
  constructor
  · rintro ⟨hfrom, hto⟩
    by_cases hreversed : ∃ f ∈ from_, ∃ t ∈ to_, t.days < f.days
    · obtain ⟨f, hf, t, ht, hlt⟩ := hreversed
      exact .inr ⟨f, hf, t, ht, hlt, hto t ht, hfrom f hf⟩
    · push Not at hreversed
      left
      -- the later one of the first days
      obtain rfl | ⟨f, rfl⟩ := Option.eq_none_or_eq_some from_
      · exact ⟨leave.startDate, le_rfl, hdates, nofun, hto⟩
      · refine ⟨⟨max leave.startDate.days f.days⟩, le_max_left .., max_le hdates (hfrom f rfl), ?_,
          fun t ht => max_le (hto t ht) (hreversed f rfl t ht)⟩
        rintro _ ⟨⟩
        exact le_max_right ..
  · rintro (⟨d, hstart, hend, hfrom, hto⟩ | ⟨f, hf, t, ht, hlt, hstart, hend⟩)
    · exact ⟨fun f hf => (hfrom f hf).trans hend, fun t ht => hstart.trans (hto t ht)⟩
    · obtain rfl := Option.mem_def.mp hf
      obtain rfl := Option.mem_def.mp ht
      exact ⟨fun f' hf' => by cases hf'; exact hend, fun t' ht' => by cases ht'; exact hstart⟩

/-- A leave that straddles has no day within the bounds. -/
theorem Straddles.not_overlaps (h : Straddles from_ to_ leave) : ¬Overlaps from_ to_ leave := by
  obtain ⟨f, hf, t, ht, hlt, -⟩ := h
  rintro ⟨d, -, -, hfrom, hto⟩
  have hf' := hfrom f hf
  have ht' := hto t ht
  omega

/-- The days of the leave and the bounds, as four comparisons. -/
theorem overlaps_iff : Overlaps from_ to_ leave ↔
    leave.startDate.days ≤ leave.endDate.days ∧ withinDates from_ to_ leave ∧
      ¬Straddles from_ to_ leave := by
  constructor
  · intro h
    have hdates : leave.startDate.days ≤ leave.endDate.days := by
      obtain ⟨d, hstart, hend, -⟩ := h
      exact hstart.trans hend
    exact ⟨hdates, (withinDates_iff_overlaps hdates).mpr (.inl h), fun hs => hs.not_overlaps h⟩
  · rintro ⟨hdates, hwithin, hnot⟩
    exact ((withinDates_iff_overlaps hdates).mp hwithin).resolve_right hnot

instance : Decidable (Straddles from_ to_ leave) :=
  decidable_of_iff (from_.any fun f => to_.any fun t => decide (t.days < f.days ∧
    leave.startDate.days ≤ t.days ∧ f.days ≤ leave.endDate.days))
    (by cases from_ <;> cases to_ <;> simp [Straddles])

instance : Decidable (Overlaps from_ to_ leave) := decidable_of_iff _ overlaps_iff.symm

end Overlap

/-! ## What is listed, and what is meant -/

/-- The answer that shows a leave. -/
def leaveResponse (db : Db) (leave : Leave) : LeaveResponse where
  id := leave.id
  workerId := leave.workerId
  workerName := ((db.find? .challengedWorker leave.workerId).bind fun worker =>
    db.find? .user worker.userId).map User.name
  companyId := leave.companyId
  companyName := (db.find? .company leave.companyId).map Company.name
  type := leave.type
  startDate := leave.startDate
  endDate := leave.endDate
  days := leave.days
  status := leave.status
  reason := leave.reason
  createdBy := leave.createdBy
  createdByName := (leave.createdBy.bind fun id => db.find? .user id).map User.name
  createdAt := leave.createdAt

/-- The leaves of a company, of a worker and with a status, as far as these are given. -/
def LeaveFilter.restricts (filter : LeaveFilter) (leave : Leave) : Bool :=
  filter.companyId.all (leave.companyId = ·) && filter.workerId.all (leave.workerId = ·) &&
    filter.status.all (leave.status = ·)

/-- **The leaves with a day within the bounds.** -/
def meantLeaves (filter : LeaveFilter) (db : Db) : List LeaveResponse :=
  ((db.rows .leave).filter fun leave =>
    filter.restricts leave && decide (Overlaps filter.from_ filter.to_ leave)).map
    (leaveResponse db)

/-- The leaves that pass the filter of the listings. -/
def listedLeaves (filter : LeaveFilter) (db : Db) : List LeaveResponse :=
  ((db.rows .leave).filter fun leave =>
    filter.restricts leave && withinDates filter.from_ filter.to_ leave).map (leaveResponse db)

section Leaves

variable {filter : LeaveFilter} {db : Db}

/-- Every leave has a company and a worker who is a user, so the joins lose none. -/
theorem map_leaveRows (hkeys : db.ForeignKeys) (ok : Leave → Bool) :
    (leaveRows db fun row => ok row.leave).map LeaveRow.toResponse =
      ((db.rows .leave).filter ok).map (leaveResponse db) := by
  have hmet : ∀ (t : Entity) (row : Row t), row ∈ db.rows t → ∀ ref ∈ refs t row,
      ∃ r', db.find? ref.table ref.key = some r' :=
    fun t row hmem ref href => Option.isSome_iff_exists.mp (hkeys t row hmem ref href)
  have hrow : ∀ leave ∈ db.rows .leave, ∃ row, leaveRow db leave = some row ∧
      row.leave = leave ∧ row.toResponse = leaveResponse db leave := by
    intro leave hleave
    obtain ⟨company, hcompany⟩ := hmet .leave leave hleave
      ⟨.company, Leave.companyId leave, .restrict⟩ (by simp [refs])
    obtain ⟨worker, hworker⟩ := hmet .leave leave hleave
      ⟨.challengedWorker, Leave.workerId leave, .cascade⟩ (by simp [refs])
    obtain ⟨user, huser⟩ := hmet .challengedWorker worker (Table.find?_mem hworker)
      ⟨.user, ChallengedWorker.userId worker, .restrict⟩ (by simp [refs])
    dsimp only at hcompany hworker huser
    refine ⟨⟨leave, company.name, user.name,
      (leave.createdBy.bind fun id => db.find? .user id).map User.name⟩, ?_, rfl, ?_⟩
    · simp [leaveRow, hcompany, hworker, huser]
    · simp [LeaveRow.toResponse, leaveResponse, hcompany, hworker, huser]
  rw [leaveRows]
  generalize db.rows .leave = leaves at hrow ⊢
  induction leaves with
  | nil => rfl
  | cons leave rest ih =>
      obtain ⟨⟨row, hfound, hleave, hresp⟩, hrest⟩ := List.forall_mem_cons.mp hrow
      rw [List.filterMap_cons_some hfound, List.filter_cons, List.filter_cons, hleave]
      by_cases hok : ok leave
      · rw [if_pos hok, if_pos hok, List.map_cons, List.map_cons, ih hrest, hresp]
      · rw [if_neg hok, if_neg hok, ih hrest]

/-- No leave ends before it starts. -/
theorem dates_of_mem {leave : Leave} (h : leave ∈ db.rows .leave) :
    leave.startDate.days ≤ leave.endDate.days := by
  have hcheck : (shape .leave).check leave = true := (db.table .leave).check_of_mem h
  simp only [shape, Bool.and_eq_true, decide_eq_true_eq] at hcheck
  tauto

/-- **A listing shows what is meant** exactly if no leave straddles the bounds. -/
theorem meantLeaves_perm_iff :
    (meantLeaves filter db).Perm (listedLeaves filter db) ↔
      ∀ leave ∈ db.rows .leave, filter.restricts leave →
        ¬Straddles filter.from_ filter.to_ leave := by
  constructor
  · intro h leave hleave hrestricts hstraddles
    have hmem : leaveResponse db leave ∈ meantLeaves filter db := by
      refine h.symm.subset (List.mem_map_of_mem (List.mem_filter.mpr ⟨hleave, ?_⟩))
      rw [Bool.and_eq_true]
      exact ⟨hrestricts, (withinDates_iff_overlaps (dates_of_mem hleave)).mpr (.inr hstraddles)⟩
    obtain ⟨leave', hleave', heq⟩ := List.mem_map.mp hmem
    obtain ⟨hrow, hmeant⟩ := List.mem_filter.mp hleave'
    -- the answer shows the id
    have hid : leave'.id = leave.id := congrArg LeaveResponse.id heq
    obtain rfl := List.inj_on_of_nodup_map (db.table .leave).nodup_key hrow hleave hid
    exact hstraddles.not_overlaps (of_decide_eq_true (Bool.and_eq_true_iff.mp hmeant).2)
  · intro h
    have hsame : ∀ leave ∈ db.rows .leave,
        (filter.restricts leave && decide (Overlaps filter.from_ filter.to_ leave)) =
          (filter.restricts leave && withinDates filter.from_ filter.to_ leave) := by
      intro leave hleave
      rw [Bool.eq_iff_iff, Bool.and_eq_true, Bool.and_eq_true, decide_eq_true_eq,
        withinDates_iff_overlaps (dates_of_mem hleave)]
      exact and_congr_right fun hrestricts =>
        (or_iff_left (h leave hleave hrestricts)).symm
    rw [meantLeaves, listedLeaves, List.filter_congr hsame]

/-- The ids of the answers tell them apart. -/
theorem nodup_meantLeaves : ((meantLeaves filter db).map LeaveResponse.id).Nodup := by
  rw [meantLeaves, List.map_map]
  exact Listing.nodup_filtered (t := .leave) _ db

end Leaves

/-! ## The listings -/

/-- **What the three listings are for**: for the same company, worker and status they show
the leaves with a day within the bounds. -/
structure LeavesInDays (ilike : String → String → Bool) (w : World V D) (filter : LeaveFilter)
    (params : PageParams) : Prop where
  search : Collects (search ilike filter : PageParams → Async V D _) params w.db
    (meantLeaves filter w.db)
  byWorker : ∀ workerId ∈ filter.workerId, ∀ (env : Env) (w' : World V D), w'.db = w.db →
    ∃ resps, (serve env (listByWorker workerId filter.from_ filter.to_ filter.companyId) w').1 =
        .ok resps ∧
      (resps.filter fun resp => filter.status.all (resp.status = ·)).Perm
        (meantLeaves filter w.db)
  approved : filter.status = some .approved → ∀ (env : Env) (w' : World V D), w'.db = w.db →
    ∃ resps, (serve env (listApproved filter.companyId filter.from_ filter.to_) w').1 =
        .ok resps ∧
      (resps.filter fun resp => filter.workerId.all (resp.workerId = ·)).Perm
        (meantLeaves filter w.db)

section Listings

variable {ilike : String → String → Bool} {env : Env} {w : World V D} {filter : LeaveFilter}
  {params : PageParams}

variable (env) in
/-- A listing without pages. -/
theorem serve_listLeaves (hkeys : w.db.ForeignKeys) {binds : List Bind}
    (hbinds : binds.all Bind.fits) (ok : Leave → Bool) :
    ∃ resps, (serve env (listLeaves binds fun row => ok row.leave) w).1 = .ok resps ∧
      resps.Perm (((w.db.rows .leave).filter ok).map (leaveResponse w.db)) := by
  have hrun : (server env).run (listLeaves binds fun row => ok row.leave) {} w =
      (.ok (((env.rowOrder w.ticks).orderByDesc (fun row => row.leave.startDate.days)
        (leaveRows w.db fun row => ok row.leave)).map LeaveRow.toResponse), {}, w.tick) := by
    rw [listLeaves, Prog.bind_eq, run_select_bind_clean, if_pos hbinds]
    rfl
  rw [serve_of_clean hrun, ← map_leaveRows hkeys ok]
  exact ⟨_, rfl, ((List.mergeSort_perm _ _).trans (RowOrder.perm _ _)).map _⟩

/-- Shown leaves, narrowed down by what is shown of them. -/
theorem filter_map_leaveResponse {db : Db} {leaves : List Leave} (narrow : LeaveResponse → Bool) :
    (leaves.map (leaveResponse db)).filter narrow =
      (leaves.filter fun leave => narrow (leaveResponse db leave)).map (leaveResponse db) := by
  rw [List.filter_map]
  rfl

variable (env) in
/-- **The listing of a worker**, narrowed down to a status. -/
theorem serve_listByWorker (hkeys : w.db.ForeignKeys) {workerId : ℤ}
    (hworker : filter.workerId = some workerId) (hid : bigint workerId)
    (hcompany : (filter.companyId.toList.map Bind.int).all Bind.fits) :
    ∃ resps, (serve env (listByWorker workerId filter.from_ filter.to_ filter.companyId) w).1 =
        .ok resps ∧
      (resps.filter fun resp => filter.status.all (resp.status = ·)).Perm
        (listedLeaves filter w.db) := by
  have hfits : (.int workerId :: filter.companyId.toList.map Bind.int : List Bind).all Bind.fits := by
    rw [List.all_cons, hcompany]
    simpa [Bind.fits] using hid
  obtain ⟨resps, hserve, hperm⟩ := serve_listLeaves env hkeys hfits fun leave =>
    decide (leave.workerId = workerId) && filter.companyId.all (leave.companyId = ·) &&
      withinDates filter.from_ filter.to_ leave
  refine ⟨resps, hserve, (hperm.filter _).trans ?_⟩
  rw [filter_map_leaveResponse, List.filter_filter, listedLeaves]
  refine .of_eq (congrArg _ (List.filter_congr fun leave _ => ?_))
  rw [LeaveFilter.restricts, hworker]
  dsimp only [leaveResponse, Option.all_some]
  ac_rfl

variable (env) in
/-- **The listing of approved leaves**, narrowed down to a worker. -/
theorem serve_listApproved (hkeys : w.db.ForeignKeys) (hstatus : filter.status = some .approved)
    (hcompany : (filter.companyId.toList.map Bind.int).all Bind.fits) :
    ∃ resps, (serve env (listApproved filter.companyId filter.from_ filter.to_) w).1 =
        .ok resps ∧
      (resps.filter fun resp => filter.workerId.all (resp.workerId = ·)).Perm
        (listedLeaves filter w.db) := by
  obtain ⟨resps, hserve, hperm⟩ := serve_listLeaves env hkeys hcompany fun leave =>
    decide (leave.status = .approved) && filter.companyId.all (leave.companyId = ·) &&
      withinDates filter.from_ filter.to_ leave
  refine ⟨resps, hserve, (hperm.filter _).trans ?_⟩
  rw [filter_map_leaveResponse, List.filter_filter, listedLeaves]
  refine .of_eq (congrArg _ (List.filter_congr fun leave _ => ?_))
  rw [LeaveFilter.restricts, hstatus]
  dsimp only [leaveResponse, Option.all_some]
  ac_rfl

/-- The answers of the search. -/
theorem mapM_search (hkeys : w.db.ForeignKeys) (hplain : filter.keyword = none ∧ filter.type = none) :
    (((Listing.leaves filter).query ilike).matching w.db).mapM
        ((Listing.leaves filter).query ilike).respond = .ok (listedLeaves filter w.db) := by
  refine mapM_eq_ok_iff.mpr ⟨fun row _ => ⟨_, rfl⟩, ?_⟩
  have hfilter : filter.ok ilike = fun row =>
      filter.restricts row.leave && withinDates filter.from_ filter.to_ row.leave := by
    funext row
    rw [LeaveFilter.ok, hplain.1, hplain.2, LeaveFilter.restricts]
    simp [keywordMatches, Py.truthy]
  show _ = (leaveRows w.db (filter.ok ilike)).filterMap fun row => some row.toResponse
  rw [hfilter, List.filterMap_eq_map']
  exact (map_leaveRows hkeys fun leave =>
    filter.restricts leave && withinDates filter.from_ filter.to_ leave).symm

end Listings

/-- **When the listings of leaves are by days**: the requests for the pages of the search
are answered, its pages split no ties, and no leave straddles the bounds. -/
theorem leavesInDays_iff (ilike : String → String → Bool) (w : World V D)
    (hkeys : w.db.ForeignKeys) (filter : LeaveFilter)
    (hplain : filter.keyword = none ∧ filter.type = none) (params : PageParams) :
    LeavesInDays ilike w filter params ↔
      (((Listing.leaves filter).query ilike).Served params.size w.db ∧
        (Listing.leaves filter).Untied ilike params.size w.db) ∧
      ∀ leave ∈ w.db.rows .leave, filter.restricts leave →
        ¬Straddles filter.from_ filter.to_ leave := by
  have hsearch : (Collects (search ilike filter : PageParams → Async V D _) params w.db
      (meantLeaves filter w.db) ↔ _) :=
    Query.collects_iff params (businessExceptionWith .invalidInput "date range must be ≤ 31 days")
      ((Listing.leaves filter).identified ilike w.db) nodup_meantLeaves (mapM_search hkeys hplain)
  rw [← meantLeaves_perm_iff]
  refine ⟨fun h => hsearch.mp h.search, fun h => ?_⟩
  have hbinds : (filter.companyId.toList.map Bind.int ++ filter.workerId.toList.map Bind.int ++
    keywordBinds filter.keyword).all Bind.fits := h.1.1.binds
  rw [List.all_append, List.all_append, Bool.and_eq_true, Bool.and_eq_true] at hbinds
  obtain ⟨⟨hcompany, hworker⟩, -⟩ := hbinds
  refine ⟨hsearch.mpr h, fun workerId hid env w' hdb => ?_, fun hstatus env w' hdb => ?_⟩
  · have hfits : bigint workerId := by
      rw [Option.mem_def.mp hid] at hworker
      simpa [Bind.fits] using hworker
    obtain ⟨resps, hserve, hperm⟩ := serve_listByWorker env (w := w') (hdb ▸ hkeys)
      hid hfits hcompany
    rw [hdb] at hperm
    exact ⟨resps, hserve, hperm.trans h.2.symm⟩
  · obtain ⟨resps, hserve, hperm⟩ := serve_listApproved env (w := w') (hdb ▸ hkeys)
      hstatus hcompany
    rw [hdb] at hperm
    exact ⟨resps, hserve, hperm.trans h.2.symm⟩

/-- The sample with an approved leave of ten days. -/
def Db.onLeave : Db :=
  Db.sample.set .leave
    { rows := [⟨1, 1, 1, .annual, ⟨0⟩, ⟨9⟩, 10, .approved, none, none, ⟨0, none⟩⟩]
      valid := ⟨List.pairwise_singleton _ _, by decide +kernel⟩ }

/-- The rows that the leave refers to are those of the sample. -/
theorem foreignKeys_onLeave : Db.onLeave.ForeignKeys := by
  intro t
  cases t <;> decide +kernel

/-- The approved leaves of the sample worker. -/
def approvedWithin (from_ to_ : ℤ) : LeaveFilter :=
  { companyId := some 1, workerId := some 1, status := some .approved
    from_ := some ⟨from_⟩, to_ := some ⟨to_⟩ }

/-- Bounds in order. -/
theorem leavesInDays_onLeave : LeavesInDays (fun _ _ => false)
    (World.fresh Db.onLeave () : World Unit Unit) (approvedWithin 3 5) {} := by
  refine (leavesInDays_iff (fun _ _ => false) (World.fresh Db.onLeave () : World Unit Unit)
    foreignKeys_onLeave (approvedWithin 3 5) ⟨rfl, rfl⟩ {}).mpr ⟨⟨?_, ?_⟩, ?_⟩
  · refine ⟨rfl, by decide, ?_, fun row _ => ⟨_, rfl⟩⟩
    show ∀ page < pageCount (leaveRows Db.onLeave
      ((approvedWithin 3 5).ok fun _ _ => false)).length 20, bigint (page * 20 : ℕ)
    decide +kernel
  · rintro ⟨i, r, -, hbefore, hupto⟩
    have hone : (leaveRows Db.onLeave ((approvedWithin 3 5).ok fun _ _ => false)).length = 1 := by
      decide +kernel
    have hle := (List.countP_le_length (p := fun x =>
      ((Listing.leaves (approvedWithin 3 5)).query fun _ _ => false).le x r)
      (l := leaveRows Db.onLeave ((approvedWithin 3 5).ok fun _ _ => false))).trans_eq hone
    have hzero := hupto.trans_le hle
    omega
  · rintro leave - - ⟨f, ⟨⟩, t, ⟨⟩, hlt, -⟩
    exact absurd hlt (by decide)

/-- **A leave without a day in the bounds that is listed**: no day is the fifth or later and
the third or earlier. -/
theorem leavesInDays_reversed : ¬LeavesInDays (fun _ _ => false)
    (World.fresh Db.onLeave () : World Unit Unit) (approvedWithin 5 3) {} := by
  intro h
  obtain ⟨resps, hserve, hmeant⟩ := h.byWorker 1 rfl still (World.fresh Db.onLeave ()) rfl
  obtain ⟨resps', hserve', hlisted⟩ := @serve_listByWorker Unit Unit still
    (World.fresh Db.onLeave ()) (approvedWithin 5 3) foreignKeys_onLeave 1 rfl (by decide)
    (by decide)
  obtain rfl := Except.ok.inj (hserve.symm.trans hserve')
  have hlength := (hmeant.symm.trans hlisted).length_eq
  exact absurd hlength (by decide +kernel)

end Rooti

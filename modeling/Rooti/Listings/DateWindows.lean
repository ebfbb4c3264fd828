import Rooti.Journals.Preview
import Rooti.Listings.Pages

/-!
# Days of shifts

The shifts of a job worker or of a standard are listed for some days.  The listings stop
before the last microsecond of the last day, `datetime.combine(to, time.max)`, while the
bulk mail and its preview include it.  A shift that starts at that instant is mailed for
its day and listed for the day and the one after it, but not for the day.

## Main definitions

* `meantShifts` — the shifts that start in some days, by the calendar
* `WholeDaysOfWorker`, `WholeDaysOfStandard` — what the listings by days are for
* `dateWindows_iff` — when the listings are by whole days

## What carries the proof

A shift in the days is in the window of the listing unless it starts at the one instant
in between (`startsBetween_iff`), so a listing shows what is meant exactly if no such
shift is there. The condition on all days from the first to the last, and not on the
last alone, is what asking for parts of them adds: each of the days is the last one of
some part.

The other direction goes through any of the three uses. If a shift starts at the
instant, then the listing of its day alone does not show it, although the day is one of
those asked for.
-/

namespace Rooti

open Relational Program WorkJournalBulkEmailService WorkScheduleService

variable {V D : Type}

/-! ## Days and instants -/

/-- The shift starts in the days, by the calendar. -/
def startsInDays (from_ to_ : Date) (s : WorkSchedule) : Bool :=
  decide (from_.days ≤ s.startAt.date.days) && decide (s.startAt.date.days ≤ to_.days)

/-- The shift starts at the last microsecond of the day. -/
def EndsDay (d : Date) (s : WorkSchedule) : Prop :=
  s.startAt.micros = (DateTime.dayEnd d).micros

/-- The window of the listings. -/
def startsBetween (from_ to_ : Date) (s : WorkSchedule) : Bool :=
  decide ((DateTime.dayStart from_).micros ≤ s.startAt.micros) &&
    decide (s.startAt.micros < (DateTime.dayEnd to_).micros)

section Instants

variable {from_ to_ d : Date} {s : WorkSchedule}

/-- A day is all its instants. -/
theorem startsInDays_iff : startsInDays from_ to_ s ↔
    (DateTime.dayStart from_).micros ≤ s.startAt.micros ∧
      s.startAt.micros ≤ (DateTime.dayEnd to_).micros := by
  rw [startsInDays, Bool.and_eq_true, decide_eq_true_eq, decide_eq_true_eq]
  simp only [DateTime.date, DateTime.dayStart, DateTime.dayEnd, DateTime.dayMicros]
  omega

/-- **The window of a listing** leaves one instant out. -/
theorem startsBetween_iff :
    startsBetween from_ to_ s ↔ startsInDays from_ to_ s ∧ ¬EndsDay to_ s := by
  rw [startsInDays_iff, EndsDay, startsBetween, Bool.and_eq_true, decide_eq_true_eq,
    decide_eq_true_eq]
  omega

/-- A shift at the end of a day is in the days around it. -/
theorem EndsDay.startsInDays (h : EndsDay d s) (hfrom : from_.days ≤ d.days)
    (hto : d.days ≤ to_.days) : startsInDays from_ to_ s := by
  rw [startsInDays_iff, h]
  simp only [DateTime.dayStart, DateTime.dayEnd, DateTime.dayMicros]
  omega

/-- A day more, and what the days before were. -/
theorem startsInDays_split {m : Date} (hfrom : from_.days ≤ m.days) (hto : m.days < to_.days) :
    startsInDays from_ to_ s = (startsInDays from_ m s || startsInDays ⟨m.days + 1⟩ to_ s) := by
  simp only [startsInDays]
  rw [Bool.eq_iff_iff]
  simp only [Bool.and_eq_true, Bool.or_eq_true, decide_eq_true_eq]
  omega

/-- No shift is both before and after. -/
theorem not_both_days {m : Date} :
    ¬(startsInDays from_ m s ∧ startsInDays ⟨m.days + 1⟩ to_ s) := by
  simp only [startsInDays, Bool.and_eq_true, decide_eq_true_eq]
  omega

/-- A bulk mail is about whole days. -/
theorem startsInDays_of_inBulk {companyId : ℤ} {db : Db} (h : inBulk companyId d db s) :
    startsInDays d d s := by
  rw [inBulk, Bool.and_eq_true, decide_eq_true_eq] at h
  exact startsInDays_iff.mpr h.2

end Instants

/-! ## What is listed, and what is meant -/

/-- The answer that shows a shift. -/
def shiftResponse (db : Db) (s : WorkSchedule) : ScheduleResponse :=
  toScheduleResponse s (db.find? .jobStandard s.jobStandardId)

/-- **The shifts of a kind that start in the days.** -/
def meantShifts (own : WorkSchedule → Bool) (from_ to_ : Date) (db : Db) : List ScheduleResponse :=
  ((db.rows .workSchedule).filter fun s => own s && startsInDays from_ to_ s).map
    (shiftResponse db)

/-- The shifts of a kind in the window of the listings. -/
def listedShifts (own : WorkSchedule → Bool) (from_ to_ : Date) (db : Db) :
    List ScheduleResponse :=
  ((db.rows .workSchedule).filter fun s => own s && startsBetween from_ to_ s).map
    (shiftResponse db)

section Shifts

variable {own : WorkSchedule → Bool} {from_ to_ : Date} {db : Db}

/-- What is meant is shown for a shift. -/
theorem mem_meantShifts {resp : ScheduleResponse} : resp ∈ meantShifts own from_ to_ db ↔
    ∃ s ∈ db.rows .workSchedule, own s ∧ startsInDays from_ to_ s ∧ shiftResponse db s = resp := by
  simp only [meantShifts, List.mem_map, List.mem_filter, Bool.and_eq_true, and_assoc]

/-- Every shift has a standard, so the join loses none. -/
theorem map_allRows (hkeys : db.ForeignKeys) (ok : WorkSchedule → Bool) :
    ((allRows db).filter fun row => ok row.1).map rowToResponse =
      ((db.rows .workSchedule).filter ok).map (shiftResponse db) := by
  have hstandard : ∀ s ∈ db.rows .workSchedule,
      ∃ standard, db.find? .jobStandard s.jobStandardId = some standard := fun s hs =>
    Option.isSome_iff_exists.mp (hkeys .workSchedule s hs
      ⟨.jobStandard, WorkSchedule.jobStandardId s, .restrict⟩
      (show _ ∈ refs .workSchedule s by simp [refs]))
  rw [allRows]
  generalize db.rows .workSchedule = shifts at hstandard ⊢
  induction shifts with
  | nil => rfl
  | cons s rest ih =>
      obtain ⟨⟨standard, hfound⟩, hrest⟩ := List.forall_mem_cons.mp hstandard
      have hrow : withStandard db s = some (s, standard) := by
        rw [withStandard, hfound, Option.map_some]
      rw [List.filterMap_cons_some hrow, List.filter_cons, List.filter_cons]
      by_cases hok : ok s
      · rw [if_pos hok, if_pos hok, List.map_cons, List.map_cons, ih hrest, rowToResponse,
          shiftResponse, hfound]
      · rw [if_neg hok, if_neg hok, ih hrest]

/-- **A listing shows what is meant** exactly if no shift starts at the instant left out. -/
theorem meantShifts_perm_iff (hle : from_.days ≤ to_.days) :
    (meantShifts own from_ to_ db).Perm (listedShifts own from_ to_ db) ↔
      ∀ s ∈ db.rows .workSchedule, own s → ¬EndsDay to_ s := by
  constructor
  · intro h s hs hown hend
    have hmem : shiftResponse db s ∈ listedShifts own from_ to_ db :=
      h.subset (mem_meantShifts.mpr ⟨s, hs, hown, hend.startsInDays hle le_rfl, rfl⟩)
    obtain ⟨s', hs', heq⟩ := List.mem_map.mp hmem
    have hbetween := (Bool.and_eq_true_iff.mp (List.mem_filter.mp hs').2).2
    -- the response shows when the shift starts
    have hstart : s'.startAt = s.startAt := congrArg ScheduleResponse.startAt heq
    refine (startsBetween_iff.mp hbetween).2 ?_
    rw [EndsDay, hstart]
    exact hend
  · intro h
    have hsame : ∀ s ∈ db.rows .workSchedule,
        (own s && startsInDays from_ to_ s) = (own s && startsBetween from_ to_ s) := by
      intro s hs
      rw [Bool.eq_iff_iff, Bool.and_eq_true, Bool.and_eq_true, startsBetween_iff]
      exact and_congr_right fun hown => (and_iff_left (h s hs hown)).symm
    rw [meantShifts, listedShifts, List.filter_congr hsame]

/-- Rows of either of two kinds that exclude each other. -/
theorem filter_or_perm {α : Type} {p q : α → Bool} (h : ∀ a, ¬(p a ∧ q a)) (l : List α) :
    (l.filter fun a => p a || q a).Perm (l.filter p ++ l.filter q) := by
  have hparts := List.filter_append_perm p (l.filter fun a => p a || q a)
  rw [List.filter_filter, List.filter_filter] at hparts
  have hfirst : ∀ a ∈ l, (p a && (p a || q a)) = p a := fun a _ => by cases p a <;> simp
  have hsecond : ∀ a ∈ l, ((!p a) && (p a || q a)) = q a := by
    intro a _
    have hnot := h a
    cases hp : p a <;> simp_all
  rw [List.filter_congr hfirst, List.filter_congr hsecond] at hparts
  exact hparts.symm

/-- The days before and the days after are all the days. -/
theorem meantShifts_split {m : Date} (hfrom : from_.days ≤ m.days) (hto : m.days < to_.days) :
    (meantShifts own from_ to_ db).Perm
      (meantShifts own from_ m db ++ meantShifts own ⟨m.days + 1⟩ to_ db) := by
  rw [meantShifts, meantShifts, meantShifts, ← List.map_append]
  refine List.Perm.map _ ?_
  have hsplit : ∀ s, (own s && startsInDays from_ to_ s) =
      ((own s && startsInDays from_ m s) || (own s && startsInDays ⟨m.days + 1⟩ to_ s)) := by
    intro s
    rw [startsInDays_split hfrom hto, Bool.and_or_distrib_left]
  simp only [hsplit]
  refine filter_or_perm (fun s => ?_) _
  rintro ⟨hbefore, hafter⟩
  exact not_both_days ⟨(Bool.and_eq_true_iff.mp hbefore).2, (Bool.and_eq_true_iff.mp hafter).2⟩

/-- The ids of the answers tell them apart. -/
theorem nodup_meantShifts : ((meantShifts own from_ to_ db).map ScheduleResponse.id).Nodup := by
  rw [meantShifts, List.map_map]
  exact Listing.nodup_filtered (t := .workSchedule) _ db

end Shifts

/-! ## The listings -/

section Listings

variable {env : Env} {w : World V D} {db : Db} {jobWorkerId jobStandardId : ℤ} {from_ to_ : Date}

variable (env w from_ to_) in
/-- **The listing of a job worker.** -/
theorem serve_listForJobWorker (hkeys : w.db.ForeignKeys) (hid : bigint jobWorkerId)
    (hspan : to_.days - from_.days ≤ maxDateSpanDays) :
    ∃ resps, (serve env (listForJobWorker jobWorkerId from_ to_) w).1 = .ok resps ∧
      resps.Perm (listedShifts (fun s => s.jobWorkerId = jobWorkerId) from_ to_ w.db) := by
  have hrun : (server env).run (listForJobWorker jobWorkerId from_ to_) {} w =
      (.ok (((env.rowOrder w.ticks).orderBy (fun row => row.1.startAt.micros)
        (rowsForJobWorker jobWorkerId from_ to_ w.db)).map rowToResponse), {}, w.tick) := by
    have hfits : [Bind.int jobWorkerId].all Bind.fits := by
      simpa [Bind.fits] using hid
    rw [listForJobWorker, decide_eq_false (by omega), Prog.bind_eq, Prog.raiseIf_false,
      Prog.ret_bind, Prog.bind_eq, run_select_bind_clean, if_pos hfits]
    rfl
  rw [serve_of_clean hrun]
  refine ⟨_, rfl, ((List.mergeSort_perm _ _).trans (RowOrder.perm _ _)).map _ |>.trans ?_⟩
  refine .of_eq ?_
  have hwindow : rowsForJobWorker jobWorkerId from_ to_ w.db = (allRows w.db).filter fun row =>
      decide (row.1.jobWorkerId = jobWorkerId) && startsBetween from_ to_ row.1 := by
    refine List.filter_congr fun row _ => ?_
    rw [startsWithinOf, startsBetween, Bool.and_assoc]
  rw [hwindow]
  exact map_allRows hkeys fun s => decide (s.jobWorkerId = jobWorkerId) && startsBetween from_ to_ s

/-- **The answers of the listing of a standard.** -/
theorem mapM_rowsForStandard (hkeys : db.ForeignKeys) :
    (((Listing.schedulesOf jobStandardId from_ to_).query fun _ _ => false).matching db).mapM
        ((Listing.schedulesOf jobStandardId from_ to_).query fun _ _ => false).respond =
      .ok (listedShifts (fun s => s.jobStandardId = jobStandardId) from_ to_ db) := by
  refine mapM_eq_ok_iff.mpr ⟨fun row _ => ⟨_, rfl⟩, ?_⟩
  have hwindow : rowsForStandard jobStandardId from_ to_ db = (allRows db).filter fun row =>
      decide (row.1.jobStandardId = jobStandardId) && startsBetween from_ to_ row.1 := by
    refine List.filter_congr fun row _ => ?_
    rw [startsWithin, startsBetween, Bool.and_assoc]
  show _ = (rowsForStandard jobStandardId from_ to_ db).filterMap fun row =>
    some (rowToResponse row)
  rw [hwindow, List.filterMap_eq_map']
  exact (map_allRows hkeys fun s =>
    decide (s.jobStandardId = jobStandardId) && startsBetween from_ to_ s).symm

end Listings

/-! ## Whole days -/

/-- The shift is one that a bulk mail of the company and the day, or its preview, is about. -/
def Mailable (db : Db) (companyId : ℤ) (d : Date) (s : WorkSchedule) : Prop :=
  (∃ o, s ∈ schedulesOf companyId d o db) ∨
    ∃ o, s.id ∈ (previewRows companyId d o db).map BulkPreviewItem.scheduleId

/-- **What the listing of a job worker is for**: it shows the shifts of whole days, so days
are put together from their parts, and what is mailed for a day is listed for it. -/
structure WholeDaysOfWorker (w : World V D) (jobWorkerId : ℤ) (from_ to_ : Date) : Prop where
  shown : ∀ a b, from_.days ≤ a.days → a.days ≤ b.days → b.days ≤ to_.days →
    ∀ (env : Env) (w' : World V D), w'.db = w.db →
      ∃ resps, (serve env (listForJobWorker jobWorkerId a b) w').1 = .ok resps ∧
        resps.Perm (meantShifts (fun s => s.jobWorkerId = jobWorkerId) a b w.db)
  union : ∀ m, from_.days ≤ m.days → m.days < to_.days →
    ∀ (env : Env) (w₁ w₂ w₃ : World V D), w₁.db = w.db → w₂.db = w.db → w₃.db = w.db →
      ∃ all before after,
        (serve env (listForJobWorker jobWorkerId from_ to_) w₁).1 = .ok all ∧
        (serve env (listForJobWorker jobWorkerId from_ m) w₂).1 = .ok before ∧
        (serve env (listForJobWorker jobWorkerId ⟨m.days + 1⟩ to_) w₃).1 = .ok after ∧
        all.Perm (before ++ after)
  mailed : ∀ d, from_.days ≤ d.days → d.days ≤ to_.days →
    ∀ companyId, ∀ s ∈ w.db.rows .workSchedule, s.jobWorkerId = jobWorkerId →
      Mailable w.db companyId d s → ∀ (env : Env) (w' : World V D), w'.db = w.db →
        ∃ resps, (serve env (listForJobWorker jobWorkerId d d) w').1 = .ok resps ∧
          shiftResponse w.db s ∈ resps

/-- **What the listing of a standard is for**: its pages show the shifts of whole days. -/
structure WholeDaysOfStandard (w : World V D) (jobStandardId : ℤ) (from_ to_ : Date)
    (params : PageParams) : Prop where
  shown : ∀ a b, from_.days ≤ a.days → a.days ≤ b.days → b.days ≤ to_.days →
    Collects (listForStandard jobStandardId a b : PageParams → Async V D _) params w.db
      (meantShifts (fun s => s.jobStandardId = jobStandardId) a b w.db)
  union : ∀ m, from_.days ≤ m.days → m.days < to_.days →
    ∃ before after : List ScheduleResponse,
      Collects (listForStandard jobStandardId from_ m : PageParams → Async V D _) params w.db
        before ∧
      Collects (listForStandard jobStandardId ⟨m.days + 1⟩ to_ : PageParams → Async V D _) params
        w.db after ∧
      Collects (listForStandard jobStandardId from_ to_ : PageParams → Async V D _) params w.db
        (before ++ after)

section WholeDays

variable {w : World V D} {from_ to_ : Date} {jobWorkerId jobStandardId : ℤ} {params : PageParams}

/-- What is mailed for a day starts on it. -/
theorem startsInDays_of_mailable (hkeys : w.db.ForeignKeys) {companyId : ℤ} {d : Date}
    {s : WorkSchedule} (hs : s ∈ w.db.rows .workSchedule) (h : Mailable w.db companyId d s) :
    startsInDays d d s := by
  obtain ⟨o, h⟩ | ⟨o, h⟩ := h
  · exact startsInDays_of_inBulk (List.mem_filter.mp (schedulesOf_perm.subset h)).2
  · obtain ⟨s', hs', hid⟩ := List.mem_map.mp ((map_scheduleId_previewRows hkeys).subset h)
    obtain ⟨hs', hbulk⟩ := List.mem_filter.mp hs'
    -- the preview shows ids, which tell shifts apart
    obtain rfl := List.inj_on_of_nodup_map (w.db.table .workSchedule).nodup_key hs' hs hid
    exact startsInDays_of_inBulk hbulk

/-- **When the listing of a job worker is by whole days.** -/
theorem wholeDaysOfWorker_iff (hkeys : w.db.ForeignKeys) (hid : bigint jobWorkerId)
    (hspan : to_.days - from_.days ≤ maxDateSpanDays) :
    WholeDaysOfWorker w jobWorkerId from_ to_ ↔
      ∀ s ∈ w.db.rows .workSchedule, s.jobWorkerId = jobWorkerId →
        ∀ d : Date, from_.days ≤ d.days → d.days ≤ to_.days → ¬EndsDay d s := by
  constructor
  · intro h s hs hown d hfrom hto
    obtain ⟨resps, hserve, hmeant⟩ := h.shown from_ d le_rfl hfrom hto still w rfl
    obtain ⟨resps', hserve', hlisted⟩ := serve_listForJobWorker still w from_ d hkeys hid
      (by omega)
    obtain rfl := Except.ok.inj (hserve.symm.trans hserve')
    exact (meantShifts_perm_iff hfrom).mp (hmeant.symm.trans hlisted) s hs (decide_eq_true hown)
  · intro h
    have hshown : ∀ a b, from_.days ≤ a.days → a.days ≤ b.days → b.days ≤ to_.days →
        ∀ (env : Env) (w' : World V D), w'.db = w.db →
          ∃ resps, (serve env (listForJobWorker jobWorkerId a b) w').1 = .ok resps ∧
            resps.Perm (meantShifts (fun s => s.jobWorkerId = jobWorkerId) a b w.db) := by
      intro a b ha hab hb env w' hdb
      obtain ⟨resps, hserve, hlisted⟩ := serve_listForJobWorker env w' a b (hdb ▸ hkeys) hid
        (by omega)
      rw [hdb] at hlisted
      exact ⟨resps, hserve, hlisted.trans ((meantShifts_perm_iff hab).mpr fun s hs hown =>
        h s hs (of_decide_eq_true hown) b (by omega) hb).symm⟩
    refine ⟨hshown, fun m hfrom hto env w₁ w₂ w₃ h₁ h₂ h₃ => ?_,
      fun d hfrom hto companyId s hs hown hmail env w' hdb => ?_⟩
    · obtain ⟨all, hall, hpall⟩ := hshown from_ to_ le_rfl (by omega) le_rfl env w₁ h₁
      obtain ⟨before, hbefore, hpbefore⟩ := hshown from_ m le_rfl hfrom (by omega) env w₂ h₂
      obtain ⟨after, hafter, hpafter⟩ :=
        hshown ⟨m.days + 1⟩ to_ (by dsimp only; omega) (by dsimp only; omega) le_rfl env w₃ h₃
      exact ⟨all, before, after, hall, hbefore, hafter,
        (hpall.trans (meantShifts_split hfrom hto)).trans (hpbefore.symm.append hpafter.symm)⟩
    · obtain ⟨resps, hserve, hperm⟩ := hshown d d hfrom le_rfl hto env w' hdb
      exact ⟨resps, hserve, hperm.symm.subset (mem_meantShifts.mpr
        ⟨s, hs, decide_eq_true hown, startsInDays_of_mailable hkeys hs hmail, rfl⟩)⟩

/-- **When the listing of a standard is by whole days.** -/
theorem wholeDaysOfStandard_iff (hkeys : w.db.ForeignKeys) (hle : from_.days ≤ to_.days) :
    WholeDaysOfStandard w jobStandardId from_ to_ params ↔
      (∀ a b : Date, from_.days ≤ a.days → a.days ≤ b.days → b.days ≤ to_.days →
        ((Listing.schedulesOf jobStandardId a b).query fun _ _ => false).Served params.size w.db ∧
          (Listing.schedulesOf jobStandardId a b).Untied (fun _ _ => false) params.size w.db) ∧
      ∀ s ∈ w.db.rows .workSchedule, s.jobStandardId = jobStandardId →
        ∀ d : Date, from_.days ≤ d.days → d.days ≤ to_.days → ¬EndsDay d s := by
  have hcollects : ∀ a b : Date,
      (Collects (listForStandard jobStandardId a b : PageParams → Async V D _) params w.db
        (meantShifts (fun s => s.jobStandardId = jobStandardId) a b w.db) ↔ _) := fun a b =>
    Query.collects_iff params (businessExceptionWith .invalidInput "date range must be ≤ 31 days")
      ((Listing.schedulesOf jobStandardId a b).identified (fun _ _ => false) w.db)
      nodup_meantShifts (mapM_rowsForStandard hkeys)
  constructor
  · intro h
    refine ⟨fun a b ha hab hb => ((hcollects a b).mp (h.shown a b ha hab hb)).1,
      fun s hs hown d hfrom hto => ?_⟩
    have hperm := ((hcollects from_ d).mp (h.shown from_ d le_rfl hfrom hto)).2
    exact (meantShifts_perm_iff hfrom).mp hperm s hs (decide_eq_true hown)
  · rintro ⟨hpages, hends⟩
    have hshown : ∀ a b : Date, from_.days ≤ a.days → a.days ≤ b.days → b.days ≤ to_.days →
        Collects (listForStandard jobStandardId a b : PageParams → Async V D _) params w.db
          (meantShifts (fun s => s.jobStandardId = jobStandardId) a b w.db) := by
      intro a b ha hab hb
      refine (hcollects a b).mpr ⟨hpages a b ha hab hb, (meantShifts_perm_iff hab).mpr ?_⟩
      exact fun s hs hown => hends s hs (of_decide_eq_true hown) b (by omega) hb
    refine ⟨hshown, fun m hfrom hto => ⟨_, _, hshown from_ m le_rfl hfrom (by omega),
      hshown ⟨m.days + 1⟩ to_ (by dsimp only; omega) (by dsimp only; omega) le_rfl, ?_⟩⟩
    intro env w' hdb
    obtain ⟨collected, hcollect, hperm⟩ := hshown from_ to_ le_rfl hle le_rfl env w' hdb
    exact ⟨collected, hcollect, hperm.trans (meantShifts_split hfrom hto)⟩

end WholeDays

/-- **When the listings are by whole days**: no shift of the job worker, or of the standard,
starts at the last microsecond of one of the days; and the pages of a standard are answered
and split no ties. -/
theorem dateWindows_iff (w : World V D) (hkeys : w.db.ForeignKeys) (from_ to_ : Date)
    (hle : from_.days ≤ to_.days) (hspan : to_.days - from_.days ≤ maxDateSpanDays)
    (params : PageParams) :
    (∀ jobWorkerId jw, w.db.find? .jobWorker jobWorkerId = some jw →
      (WholeDaysOfWorker w jobWorkerId from_ to_ ↔
        ∀ s ∈ w.db.rows .workSchedule, s.jobWorkerId = jobWorkerId →
          ∀ d : Date, from_.days ≤ d.days → d.days ≤ to_.days → ¬EndsDay d s)) ∧
    ∀ jobStandardId standard, w.db.find? .jobStandard jobStandardId = some standard →
      (WholeDaysOfStandard w jobStandardId from_ to_ params ↔
        (∀ a b : Date, from_.days ≤ a.days → a.days ≤ b.days → b.days ≤ to_.days →
          ((Listing.schedulesOf jobStandardId a b).query fun _ _ => false).Served params.size w.db ∧
            (Listing.schedulesOf jobStandardId a b).Untied (fun _ _ => false) params.size w.db) ∧
        ∀ s ∈ w.db.rows .workSchedule, s.jobStandardId = jobStandardId →
          ∀ d : Date, from_.days ≤ d.days → d.days ≤ to_.days → ¬EndsDay d s) :=
  ⟨fun _ _ hfound => wholeDaysOfWorker_iff hkeys (bigint_of_find? hfound) hspan,
    fun _ _ _ => wholeDaysOfStandard_iff hkeys hle⟩

/-- The shifts of the branches start at full hours, on two days. -/
theorem dateWindows_sample :
    WholeDaysOfWorker (World.fresh Db.branches () : World Unit Unit) 1 ⟨0⟩ ⟨1⟩ := by
  have hkeys : Db.branches.ForeignKeys := by
    intro t
    cases t <;> decide +kernel
  refine ((dateWindows_iff (World.fresh Db.branches () : World Unit Unit) hkeys ⟨0⟩ ⟨1⟩
    (by decide) (by decide) {}).1 1 ⟨1, 1, 1, true⟩ (by decide +kernel)).mpr fun s hs _ d _ _ hend => ?_
  have hhours : ∀ s ∈ Db.branches.rows .workSchedule, s.startAt.micros % 3600000000 = 0 := by
    decide +kernel
  have hhour := hhours s hs
  rw [EndsDay] at hend
  simp only [DateTime.dayEnd, DateTime.dayMicros] at hend
  omega

/-- The sample with a shift that starts at the last microsecond of 1970-01-01. -/
def Db.lateShift : Db :=
  Db.sample.set .workSchedule
    { rows := [⟨1, 1, none, 1, ⟨DateTime.dayMicros - 1, none⟩, none, none, false⟩]
      valid := ⟨List.pairwise_singleton _ _, by decide +kernel⟩ }

/-- **A shift of the day that is not listed for the day**, though it is mailed for it. -/
theorem lateShift_missed :
    ¬WholeDaysOfWorker (World.fresh Db.lateShift () : World Unit Unit) 1 ⟨0⟩ ⟨0⟩ := by
  intro h
  have hmailed := h.mailed ⟨0⟩ le_rfl le_rfl 1
    ⟨1, 1, none, 1, ⟨DateTime.dayMicros - 1, none⟩, none, none, false⟩ (by decide +kernel) rfl
    (.inl ⟨.stored, (RowOrder.mem_orderBy _).mpr (by decide +kernel)⟩) still
    (World.fresh Db.lateShift ()) rfl
  obtain ⟨resps, hserve, hmem⟩ := hmailed
  have hkeys : Db.lateShift.ForeignKeys := by
    intro t
    cases t <;> decide +kernel
  obtain ⟨resps', hserve', hlisted⟩ := serve_listForJobWorker still
    (World.fresh Db.lateShift () : World Unit Unit) ⟨0⟩ ⟨0⟩ hkeys (by decide : bigint 1) (by decide)
  obtain rfl := Except.ok.inj (hserve.symm.trans hserve')
  have hnone : listedShifts (fun s => s.jobWorkerId = 1) ⟨0⟩ ⟨0⟩ Db.lateShift = [] := by
    decide +kernel
  exact absurd (hlisted.subset hmem) (by
    rw [World.fresh, hnone]
    exact List.not_mem_nil)

end Rooti

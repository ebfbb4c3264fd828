import Mathlib.Data.List.TakeDrop
import Mathlib.Order.Bounds.Defs
import Rooti.Core.Decimal
import Rooti.Services.JournalSchedule

/-!
# The next run of an e-mail schedule

The time of a schedule is four digits, and any script's digits will do for two of them.  All of
them are read, and the next run is the first instant from now on at that time of the day.

## Main definitions

* `ClockTime` — the hour and the minute that a text names
* `computeNextRun_isLeast` — the next run

## What carries the proof

Two things are shown apart. The pattern lets through four digits, whose values are
bounded, and `int(...)` reads any two digits, so the time is what the text says
(`clockTime_of_pattern`, `hourMinute_of_clockTime`) and the default of nine o'clock is
out of reach. And the instants with a given time of day are those with a given remainder
modulo a day, so the answer is least by `isLeast_next`: either the one in the period of
`now` or the one after it. The only way to fail is that the calendar has no day after.
-/

namespace Rooti

open Program

variable {V D : Type}

/-- The text is an hour and a minute, of two digits each. -/
def ClockTime (timeStr : String) (h m : ℕ) : Prop :=
  ∃ c₁ c₂ c₃ c₄ d₁ d₂ d₃ d₄, timeStr.toList = [c₁, c₂, ':', c₃, c₄] ∧
    (Py.digit? c₁ = some d₁ ∧ Py.digit? c₂ = some d₂ ∧ h = 10 * d₁ + d₂) ∧
      Py.digit? c₃ = some d₃ ∧ Py.digit? c₄ = some d₄ ∧ m = 10 * d₃ + d₄

/-! ## Two digits -/

namespace Py

section Digits

variable {c c' : Char} {d d' : ℕ}

/-- Where the digits of a script are. -/
theorem digit?_eq_some (h : digit? c = some d) : ∃ z ∈ zeros, d < 10 ∧ c = Char.ofNat (z + d) := by
  obtain ⟨z, hz, rfl⟩ := Option.map_eq_some_iff.mp h
  have hrange := List.find?_some hz
  simp only [decide_eq_true_eq] at hrange
  refine ⟨z, List.mem_of_find?_eq_some hz, by omega, ?_⟩
  rw [Nat.add_sub_cancel' hrange.1, Char.ofNat_toNat]

/-- A digit is less than ten. -/
theorem digit?_lt (h : digit? c = some d) : d < 10 := by
  obtain ⟨_, -, hlt, -⟩ := digit?_eq_some h
  exact hlt

/-- Digits are neither blanks nor signs. -/
theorem digit_plain (h : digit? c = some d) : isSpace c = false ∧ c ≠ '-' ∧ c ≠ '+' := by
  obtain ⟨z, hz, hlt, rfl⟩ := digit?_eq_some h
  have hall : ∀ z ∈ zeros, ∀ d < 10, isSpace (Char.ofNat (z + d)) = false ∧
      Char.ofNat (z + d) ≠ '-' ∧ Char.ofNat (z + d) ≠ '+' := by decide +kernel
  exact hall z hz d hlt

/-- A digit up to a certain one. -/
theorem exists_digit {last : Char} (hlo : '0' ≤ c) (hhi : c ≤ last) (hlast : last ≤ '9') :
    ∃ d, digit? c = some d ∧ d ≤ last.toNat - 48 := by
  have hle : ∀ {a b : Char}, a ≤ b → a.toNat ≤ b.toNat := fun h => h
  have hge : 48 ≤ c.toNat := hle hlo
  have hc := hle hhi
  have hnine : last.toNat ≤ 57 := hle hlast
  exact ⟨_, digit?_of_isDigit (isDigit_iff.mpr ⟨hge, hc.trans hnine⟩), by omega⟩

/-- **Two digits are a number.** -/
theorem int?_two (h : digit? c = some d) (h' : digit? c' = some d') :
    int? (String.ofList [c, c']) = some ((10 * d + d' : ℕ) : ℤ) := by
  obtain ⟨hspace, hminus, hplus⟩ := digit_plain h
  obtain ⟨hspace', -, -⟩ := digit_plain h'
  have hstrip : stripBy isNumberSpace [c, c'] = [c, c'] := by
    refine stripBy_of_not_isSpace ?_
    simp [hspace, hspace']
  have hshort : ([c, c'].filter fun c => (digit? c).isSome).length ≤ 4300 :=
    (List.length_filter_le _ _).trans (by simp)
  simp only [int?, String.toList_ofList, hstrip, if_neg (Nat.not_lt.mpr hshort)]
  have hnatural : natural? [c, c'] = some (10 * d + d') := by
    simp [natural?, h, digits?, h']
  split
  · next heq => exact absurd (List.cons.inj heq).1 hminus
  · next heq => exact absurd (List.cons.inj heq).1 hplus
  · rw [hnatural]
    rfl

end Digits

end Py

/-! ## The time of a schedule -/

/-- **The pattern lets times of a day through, and nothing else.** -/
theorem clockTime_of_pattern {timeStr : String} (h : timePattern timeStr.toList) :
    ∃ hour minute, ClockTime timeStr hour minute ∧ hour ≤ 23 ∧ minute ≤ 59 := by
  unfold timePattern at h
  split at h
  · next c₁ c₂ c₃ c₄ heq =>
      simp only [Bool.and_eq_true, Bool.or_eq_true, decide_eq_true_eq] at h
      obtain ⟨hhour, ⟨hlo, hhi⟩, hminute⟩ := h
      have hhours : ∃ d₁ d₂, Py.digit? c₁ = some d₁ ∧ Py.digit? c₂ = some d₂ ∧
          10 * d₁ + d₂ ≤ 23 := by
        obtain ⟨hfirst, hsecond⟩ | ⟨⟨rfl, hlo⟩, hhi⟩ := hhour
        · obtain ⟨d₂, hd₂⟩ := Option.isSome_iff_exists.mp hsecond
          have hlt := Py.digit?_lt hd₂
          obtain rfl | rfl := hfirst
          · exact ⟨0, d₂, by decide, hd₂, by omega⟩
          · exact ⟨1, d₂, by decide, hd₂, by omega⟩
        · obtain ⟨d₂, hd₂, hle⟩ := Py.exists_digit hlo hhi (by decide)
          have hthree : '3'.toNat - 48 = 3 := rfl
          exact ⟨2, d₂, by decide, hd₂, by omega⟩
      obtain ⟨d₁, d₂, hd₁, hd₂, hbound⟩ := hhours
      obtain ⟨d₃, hd₃, hle⟩ := Py.exists_digit hlo hhi (by decide)
      have hfive : '5'.toNat - 48 = 5 := rfl
      obtain ⟨d₄, hd₄⟩ := Option.isSome_iff_exists.mp hminute
      have hlt := Py.digit?_lt hd₄
      exact ⟨_, _, ⟨c₁, c₂, c₃, c₄, d₁, d₂, d₃, d₄, heq, ⟨hd₁, hd₂, rfl⟩, hd₃, hd₄, rfl⟩, hbound,
        by omega⟩
  · cases h

/-- **All four digits are read**, so the fallback is never taken. -/
theorem hourMinute_of_clockTime {timeStr : String} {hour minute : ℕ}
    (h : ClockTime timeStr hour minute) :
    hourMinute timeStr = some ((hour : ℤ), (minute : ℤ)) := by
  obtain ⟨c₁, c₂, c₃, c₄, d₁, d₂, d₃, d₄, htext, ⟨hd₁, hd₂, rfl⟩, hd₃, hd₄, rfl⟩ := h
  have hcolon : ∀ {c : Char} {d : ℕ}, Py.digit? c = some d → c ≠ ':' := by
    rintro c d hd rfl
    have hnone : Py.digit? ':' = none := by decide
    rw [hnone] at hd
    cases hd
  have hspan : timeStr.toList.span (· ≠ ':') = ([c₁, c₂], [':', c₃, c₄]) := by
    rw [htext, List.span_eq_takeWhile_dropWhile]
    simp [hcolon hd₁, hcolon hd₂]
  rw [hourMinute, hspan]
  simp only [Py.int?_two hd₁ hd₂, Py.int?_two hd₃ hd₄]
  rfl

/-! ## The next instant -/

/-- **The least instant from `a` on at the offset `r` of a period**: in the period of `a`, or in
the one after it. -/
theorem isLeast_next {a p r : ℤ} (hr : 0 ≤ r) (hp : r < p) :
    IsLeast {t : ℤ | a ≤ t ∧ t % p = r}
      (if a / p * p + r < a then a / p * p + r + p else a / p * p + r) := by
  have hpos : 0 < p := hr.trans_lt hp
  have hdecomp : ∀ t : ℤ, t / p * p + t % p = t := fun t => by
    rw [Int.mul_comm, Int.mul_ediv_add_emod]
  have hoffset : ∀ k : ℤ, (k * p + r) % p = r := fun k => by
    rw [Int.add_comm, Int.add_mul_emod_self_right, Int.emod_eq_of_lt hr hp]
  have ha := hdecomp a
  have hlt := Int.emod_lt_of_pos a hpos
  have hperiod : ∀ t ∈ {t : ℤ | a ≤ t ∧ t % p = r}, a / p ≤ t / p ∧ t = t / p * p + r := by
    rintro t ⟨hle, rfl⟩
    exact ⟨Int.ediv_le_ediv hpos hle, (hdecomp t).symm⟩
  by_cases hpassed : a / p * p + r < a
  · rw [if_pos hpassed]
    have hnext : a / p * p + r + p = (a / p + 1) * p + r := by
      rw [Int.add_mul, Int.one_mul]
      omega
    refine ⟨⟨by omega, hnext ▸ hoffset _⟩, fun t ht => ?_⟩
    obtain ⟨hle, heq⟩ := hperiod t ht
    -- the instant of the period of `a` has passed
    have hlater : a / p + 1 ≤ t / p := by
      by_contra hnot
      have hsame : t / p = a / p := by omega
      rw [hsame] at heq
      have hge : a ≤ t := ht.1
      omega
    have hmul := Int.mul_le_mul_of_nonneg_right hlater hpos.le
    rw [hnext]
    omega
  · rw [if_neg hpassed]
    refine ⟨⟨by omega, hoffset _⟩, fun t ht => ?_⟩
    obtain ⟨hle, heq⟩ := hperiod t ht
    have hmul := Int.mul_le_mul_of_nonneg_right hle hpos.le
    omega

/-- `datetime.now()` at the next command. -/
def localNow (env : Env) (w : World V D) : DateTime := ⟨env.clock w.ticks + env.utcOffset, none⟩

/-- The time of day `hour:minute` on the day of `now`. -/
def onDayOf (now : DateTime) (hour minute : ℕ) : ℤ :=
  (DateTime.dayStart now.date).micros + ((hour : ℤ) * 60 + minute) * 60000000

/-- The time of day on the day of `now`, or on the day after if it has passed. -/
def nextAt (now : DateTime) (hour minute : ℕ) : DateTime :=
  ⟨if onDayOf now hour minute < now.micros then onDayOf now hour minute + DateTime.dayMicros
    else onDayOf now hour minute, none⟩

/-- **What `_compute_next_run` answers**: today's instant or tomorrow's, if there is a tomorrow. -/
theorem run_computeNextRun {timeStr : String} {hour minute : ℕ}
    (hclock : ClockTime timeStr hour minute) (hhour : hour ≤ 23) (hminute : minute ≤ 59)
    (env : Env) (s : Session) (w : World V D) :
    (server env).run (computeNextRun env timeStr) s w =
      if onDayOf (localNow env w) hour minute < (localNow env w).micros ∧
          Date.max.days ≤ (localNow env w).date.days then
        (.error (.python "OverflowError" "date value out of range"), s, w.tick)
      else (.ok (nextAt (localNow env w) hour minute), s, w.tick) := by
  have hhours : (!(decide (0 ≤ (hour : ℤ) ∧ (hour : ℤ) ≤ 23))) = false := by
    simp only [Bool.not_eq_false', decide_eq_true_eq]
    omega
  have hminutes : (!(decide (0 ≤ (minute : ℤ) ∧ (minute : ℤ) ≤ 59))) = false := by
    simp only [Bool.not_eq_false', decide_eq_true_eq]
    omega
  unfold computeNextRun
  rw [hourMinute_of_clockTime hclock]
  simp only [Option.getD_some, datetimeNow, Prog.bind_eq, Prog.pure_eq, Prog.bind_assoc,
    Prog.ret_bind, run_now_bind]
  rw [hhours, hminutes]
  by_cases hlast : onDayOf (localNow env w) hour minute < (localNow env w).micros ∧
      Date.max.days ≤ (localNow env w).date.days
  · rw [if_pos hlast]
    have hraise := decide_eq_true hlast
    unfold onDayOf localNow at hraise
    rw [hraise]
    rfl
  · rw [if_neg hlast]
    have hraise := decide_eq_false hlast
    unfold onDayOf localNow at hraise
    rw [hraise]
    rfl

/-- The answer is the earliest instant from now on at that time of day. -/
theorem isLeast_nextAt (now : DateTime) {hour minute : ℕ} (hhour : hour ≤ 23)
    (hminute : minute ≤ 59) :
    IsLeast {t : ℤ | now.micros ≤ t ∧
        t % DateTime.dayMicros = ((hour : ℤ) * 60 + minute) * 60000000}
      (nextAt now hour minute).micros := by
  have hlength : DateTime.dayMicros = 86400000000 := rfl
  exact isLeast_next (a := now.micros) (p := DateTime.dayMicros)
    (r := ((hour : ℤ) * 60 + minute) * 60000000) (by omega) (by omega)

/-- **The next run at a time**: the earliest instant from `now` on at that time of day, unless
the calendar ends before. -/
structure IsNextRun (now : DateTime) (timeStr : String) (next : DateTime) : Prop where
  naive : next.offset = none
  earliest : ∃ hour minute : ℕ, ClockTime timeStr hour minute ∧
    IsLeast {t : ℤ | now.micros ≤ t ∧
      t % DateTime.dayMicros = ((hour : ℤ) * 60 + minute) * 60000000} next.micros
  inCalendar : now.date.days < Date.max.days ∨ next.date = now.date

/-- A text names at most one time. -/
theorem ClockTime.unique {timeStr : String} {hour minute hour' minute' : ℕ}
    (h : ClockTime timeStr hour minute) (h' : ClockTime timeStr hour' minute') :
    hour = hour' ∧ minute = minute' := by
  have hread := hourMinute_of_clockTime h
  rw [hourMinute_of_clockTime h'] at hread
  simp only [Option.some.injEq, Prod.mk.injEq, Int.natCast_inj] at hread
  exact ⟨hread.1.symm, hread.2.symm⟩

/-- It is what `_compute_next_run` answers with. -/
theorem isNextRun_iff {now next : DateTime} {timeStr : String} {hour minute : ℕ}
    (hclock : ClockTime timeStr hour minute) (hhour : hour ≤ 23) (hminute : minute ≤ 59) :
    IsNextRun now timeStr next ↔ next = nextAt now hour minute ∧
      ¬(onDayOf now hour minute < now.micros ∧ Date.max.days ≤ now.date.days) := by
  have hleast := isLeast_nextAt now hhour hminute
  have hdate : (nextAt now hour minute).date = now.date ↔
      ¬onDayOf now hour minute < now.micros := by
    simp only [DateTime.date, nextAt, onDayOf, DateTime.dayStart, DateTime.dayMicros,
      Date.mk.injEq]
    omega
  constructor
  · rintro ⟨hnaive, ⟨hour', minute', hclock', hearliest⟩, hcalendar⟩
    obtain ⟨rfl, rfl⟩ := hclock.unique hclock'
    have hnext : next = nextAt now hour minute := by
      obtain ⟨micros, offset⟩ := next
      cases hnaive
      exact congrArg (DateTime.mk · none) (le_antisymm (hearliest.2 hleast.1) (hleast.2 hearliest.1))
    subst hnext
    rw [hdate] at hcalendar
    exact ⟨rfl, fun h => hcalendar.elim (fun hday => by omega) fun htoday => htoday h.1⟩
  · rintro ⟨rfl, hlast⟩
    refine ⟨rfl, ⟨hour, minute, hclock, hleast⟩, ?_⟩
    rw [hdate]
    by_cases htoday : onDayOf now hour minute < now.micros
    · exact .inl (by omega)
    · exact .inr htoday

end Rooti

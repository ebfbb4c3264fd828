import Rooti.Core.UploadValidation

/-!
# Safe file names

The name that `sanitize_filename` makes shall be safe to show and to sanitise
again.  The characters are replaced first, then the blanks at the ends go and a
name of dots is given up; but the name is cut short last, and the cut can leave a
blank at the end or nothing but dots.

## Main definitions

* `SafeFilename` — what is asked of the name
* `CutsSafely` — names whose 255th character is where a name may end
* `sanitizeFilename_safe_iff` — when the name is safe
* `sanitizeFilename_dots` — a name that is cut down to its dots

## What carries the proof

Replacing a character and asking whether it is white space can be done in the other
order (`isSpace_substituted`), so what is left of a name is described by the name
itself: trimmed of blanks that are no control characters, then replaced (`cleaned_eq`).
After that the name has no bad characters, and of all that is asked of it only two
things depend on the cut: that something other than dots is left, and that no blank is
at its end, where sanitising again would take it away (`safe_iff`).
-/

namespace Rooti

open Trim UploadValidation

/-- **A safe name**: short, with nothing that separates or controls, not only dots, and
sanitised already. -/
structure SafeFilename (name : String) : Prop where
  nonempty : name ≠ ""
  short : name.length ≤ 255
  noControl : ∀ c ∈ name.toList, 0x20 ≤ c.toNat
  noSeparator : '/' ∉ name.toList ∧ '\\' ∉ name.toList
  notDots : ∃ c ∈ name.toList, c ≠ '.'
  stable : sanitizeFilename (some name) = name

/-- White space that is not a control character. -/
def isBlank (c : Char) : Bool := Py.isSpace c && !isBad c

/-- **The name may be cut**: without the blanks at its ends it is at most 255 characters long
or all dots, or else its 255th character is no blank and one of the first 255 is no dot. -/
def CutsSafely (name : String) : Prop :=
  let shown := trim isBlank name.toList
  shown.length ≤ 255 ∨ (∀ c ∈ shown, c = '.') ∨
    (∀ c ∈ shown[254]?, ¬isBlank c) ∧ ∃ c ∈ shown.take 255, c ≠ '.'

section Characters

variable {c : Char} {name : String}

/-- White space that is no control character is what stays white space. -/
theorem isSpace_substituted (c : Char) : Py.isSpace (substituted c) = isBlank c := by
  unfold substituted isBlank
  split_ifs with h
  · rw [h, Bool.not_true, Bool.and_false]
    rfl
  · simp [h]

/-- **What is left of a name**: the blanks at its ends go, then the characters are replaced. -/
theorem cleaned_eq : cleaned name = (trim isBlank name.toList).map substituted := by
  have htrim : cleaned name = trim Py.isSpace (name.toList.map substituted) := rfl
  rw [htrim, trim_map]
  exact congrArg (fun p => (trim p name.toList).map substituted) (funext isSpace_substituted)

/-- What is put in place of a bad character is a good one. -/
theorem not_isBad_substituted (c : Char) : ¬isBad (substituted c) := by
  unfold substituted
  split_ifs with h
  · decide
  · exact h

/-- No dot is put in place of anything. -/
theorem substituted_eq_dot : substituted c = '.' ↔ c = '.' := by
  unfold substituted
  split_ifs with h
  · refine iff_of_false (by decide) ?_
    rintro rfl
    exact absurd h (by decide)
  · rfl

/-- No dot comes of another character. -/
theorem exists_ne_dot_map {s : List Char} :
    (∃ c ∈ s.map substituted, c ≠ '.') ↔ ∃ c ∈ s, c ≠ '.' := by
  constructor
  · rintro ⟨d, hd, hdot⟩
    obtain ⟨c, hc, rfl⟩ := List.mem_map.mp hd
    exact ⟨c, hc, fun h => hdot (substituted_eq_dot.mpr h)⟩
  · rintro ⟨c, hc, hdot⟩
    exact ⟨substituted c, List.mem_map_of_mem hc, fun h => hdot (substituted_eq_dot.mp h)⟩

/-- Good characters stay. -/
theorem map_substituted_of_not_bad {s : List Char} (h : ∀ c ∈ s, ¬isBad c) :
    s.map substituted = s :=
  (List.map_congr_left fun c hc => if_neg (h c hc)).trans (List.map_id s)

end Characters

section Cut

variable {s : List Char}

/-- The test for a name of dots. -/
theorem all_dots_iff : s.all (· = '.') ↔ ∀ c ∈ s, c = '.' := by simp

/-- **A name without bad characters** that is not too long and not all dots is sanitised
already exactly if it is trimmed. -/
theorem sanitize_eq_self_iff (hdots : ∃ c ∈ s, c ≠ '.') (hgood : ∀ c ∈ s, ¬isBad c)
    (hshort : s.length ≤ 255) :
    sanitizeFilename (some (String.ofList s)) = String.ofList s ↔ Trimmed Py.isSpace s := by
  have hne : s ≠ [] := by
    rintro rfl
    obtain ⟨c, hc, -⟩ := hdots
    cases hc
  have hcleaned : cleaned (String.ofList s) = trim Py.isSpace s := by
    rw [cleaned, String.toList_ofList, map_substituted_of_not_bad hgood]
    rfl
  unfold sanitizeFilename
  dsimp only
  rw [hcleaned, if_neg (by rwa [String.ofList_eq_empty_iff])]
  constructor
  · intro h
    by_contra htrim
    split_ifs at h with hgiven
    · -- the name that stands for a bad one is trimmed itself
      have hupload : s = "upload".toList := by rw [h, String.toList_ofList]
      rw [hupload] at htrim
      exact htrim (by decide)
    · have hcut : (trim Py.isSpace s).take 255 = s := String.ofList_injective h
      have hle : s.length ≤ (trim Py.isSpace s).length := by
        conv_lhs => rw [← hcut]
        rw [List.length_take]
        omega
      exact absurd (length_trim_lt htrim) (Nat.not_lt.mpr hle)
  · intro htrim
    rw [trim_eq_self_iff.mpr htrim, if_neg, List.take_of_length_le hshort]
    rintro (hnil | hall)
    · exact hne hnil
    · obtain ⟨c, hc, hdot⟩ := hdots
      exact hdot (all_dots_iff.mp hall c hc)

/-- **A name that is cut short** is safe if the cut leaves more than dots and no blank at the
end. -/
theorem safe_iff (hne : s ≠ []) (hgood : ∀ c ∈ s, ¬isBad c) (hshort : s.length ≤ 255) :
    SafeFilename (String.ofList s) ↔ (∃ c ∈ s, c ≠ '.') ∧ Trimmed Py.isSpace s := by
  have htoList : (String.ofList s).toList = s := String.toList_ofList
  constructor
  · intro h
    have hdots := h.notDots
    rw [htoList] at hdots
    exact ⟨hdots, (sanitize_eq_self_iff hdots hgood hshort).mp h.stable⟩
  · rintro ⟨hdots, htrim⟩
    refine ⟨by rwa [ne_eq, String.ofList_eq_empty_iff], ?_, ?_, ?_, ?_, ?_⟩
    · rwa [String.length_ofList]
    · rw [htoList]
      intro c hc
      by_contra hlt
      exact hgood c hc (by simp [isBad, Nat.lt_of_not_le hlt])
    · rw [htoList]
      exact ⟨fun hc => hgood _ hc (by decide), fun hc => hgood _ hc (by decide)⟩
    · rwa [htoList]
    · exact (sanitize_eq_self_iff hdots hgood hshort).mpr htrim

/-- The name that stands in for one that was given up. -/
theorem safeFilename_upload : SafeFilename "upload" where
  nonempty := by decide
  short := by decide
  noControl := by
    have hall : "upload".toList.all (fun c => 0x20 ≤ c.toNat) := by decide
    exact fun c hc => of_decide_eq_true (List.all_eq_true.mp hall c hc)
  noSeparator := by decide
  notDots := ⟨'u', by decide, by decide⟩
  stable := by decide +kernel

/-- The last character that a cut leaves. -/
theorem trimmed_take_255_iff (h : Trimmed isBlank s) :
    Trimmed isBlank (s.take 255) ↔ s.length ≤ 255 ∨ ∀ c ∈ s[254]?, ¬isBlank c := by
  rw [trimmed_take_iff h, List.getLast?_take, if_neg (by decide)]
  by_cases hshort : s.length ≤ 254
  · rw [List.getElem?_eq_none hshort, Option.none_or]
    exact iff_of_true h.2 (.inl (hshort.trans (by decide)))
  · have hlong : 254 < s.length := Nat.lt_of_not_le hshort
    rw [List.getElem?_eq_getElem hlong, Option.some_or]
    refine ⟨.inr, ?_⟩
    rintro (heq | hlast)
    · have hlast : s.getLast? = some s[254] := by
        rw [List.getLast?_eq_getElem?, show s.length - 1 = 254 by omega,
          List.getElem?_eq_getElem hlong]
      exact hlast ▸ h.2
    · exact hlast

/-- **What is left of a cleaned name** after the cut. -/
theorem safe_cleaned_iff {name : String} (hne : cleaned name ≠ []) :
    SafeFilename (String.ofList ((cleaned name).take 255)) ↔
      (∃ c ∈ (trim isBlank name.toList).take 255, c ≠ '.') ∧
        ((trim isBlank name.toList).length ≤ 255 ∨
          ∀ c ∈ (trim isBlank name.toList)[254]?, ¬isBlank c) := by
  rw [cleaned_eq, ne_eq, List.map_eq_nil_iff] at hne
  have hspace : Py.isSpace ∘ substituted = isBlank := funext isSpace_substituted
  rw [cleaned_eq, ← List.map_take, safe_iff, trimmed_map, hspace,
    trimmed_take_255_iff trimmed_trim]
  · rw [exists_ne_dot_map]
  · rw [ne_eq, List.map_eq_nil_iff, List.take_eq_nil_iff]
    exact fun h => h.elim nofun hne
  · rw [List.forall_mem_map]
    exact fun c _ => not_isBad_substituted c
  · rw [List.length_map, List.length_take]
    omega

end Cut

/-- **The name is safe** exactly if the name it is made of may be cut.

The condition is on the given name, blanks at its ends apart: it has no more than 255
characters, or consists of dots, or its first 255 characters end in none that would be
taken away and are not all dots. -/
theorem sanitizeFilename_safe_iff (name : Option String) :
    SafeFilename (sanitizeFilename name) ↔ ∀ n ∈ name, CutsSafely n := by
  cases name with
  | none => exact iff_of_true safeFilename_upload nofun
  | some n =>
      have hsome : (∀ m ∈ some n, CutsSafely m) ↔ CutsSafely n :=
        ⟨fun h => h n rfl, fun h m hm => Option.some.inj hm ▸ h⟩
      rw [hsome]
      by_cases hempty : n = ""
      · rw [hempty]
        exact iff_of_true safeFilename_upload (.inl (by decide))
      unfold sanitizeFilename CutsSafely
      dsimp only
      rw [if_neg hempty]
      by_cases hgiven : cleaned n = [] ∨ (cleaned n).all (· = '.')
      · -- nothing to show is left of the name
        rw [if_pos hgiven]
        refine iff_of_true safeFilename_upload ?_
        rw [all_dots_iff, cleaned_eq, List.map_eq_nil_iff, List.forall_mem_map] at hgiven
        obtain hnil | hall := hgiven
        · rw [hnil]
          exact .inl (Nat.zero_le _)
        · exact .inr (.inl fun c hc => substituted_eq_dot.mp (hall c hc))
      · rw [if_neg hgiven, safe_cleaned_iff fun h => hgiven (.inl h)]
        rw [not_or, all_dots_iff, cleaned_eq, List.forall_mem_map] at hgiven
        have hdots : ¬∀ c ∈ trim isBlank n.toList, c = '.' :=
          fun h => hgiven.2 fun c hc => substituted_eq_dot.mpr (h c hc)
        by_cases hshort : (trim isBlank n.toList).length ≤ 255
        · rw [List.take_of_length_le hshort]
          push Not at hdots
          exact iff_of_true ⟨hdots, .inl hshort⟩ (.inl hshort)
        · tauto

/-- Two hundred and fifty-five dots and a letter. -/
def manyDots : String := String.ofList (List.replicate 255 '.' ++ ['x'])

/-- **A name that is cut down to its dots** is shown as such. -/
theorem sanitizeFilename_dots : ¬SafeFilename (sanitizeFilename (some manyDots)) := by
  intro h
  obtain ⟨c, hc, hdot⟩ := h.notDots
  have htoList : manyDots.toList = List.replicate 255 '.' ++ ['x'] := String.toList_ofList
  have hcleaned : cleaned manyDots = List.replicate 255 '.' ++ ['x'] := by
    rw [cleaned, htoList]
    decide +kernel
  have hgiven : ¬(cleaned manyDots = [] ∨ (cleaned manyDots).all (· = '.')) := by
    rw [hcleaned]
    decide +kernel
  have hname : (sanitizeFilename (some manyDots)).toList = List.replicate 255 '.' := by
    unfold sanitizeFilename
    dsimp only
    rw [if_neg, if_neg hgiven, hcleaned, String.toList_ofList]
    · decide +kernel
    · intro hempty
      rw [hempty] at htoList
      cases htoList
  rw [hname] at hc
  exact hdot (List.eq_of_mem_replicate hc)

end Rooti

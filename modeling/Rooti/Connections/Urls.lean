import Rooti.Connections.MakeUrl
import Rooti.Connections.ParseUrl
import Rooti.Lib.Quoting

/-!
# Credentials in URLs

The URLs of the database and of Redis are put together from the settings as they are.  A
password with an at sign ends too early, and the rest of it becomes the host; a slash in the
password for Redis ends the authority; a percent sign with two digits behind it is decoded.
The names of downloaded files, in contrast, are percent-encoded.

## Main definitions

* `CarriesCredentials` — the readers of the URLs get the settings back
* `carriesCredentials_iff` — when they do
* `redisPlain_of_unreserved` — secrets that are safe
-/

namespace Rooti

open Splitting Percent ParseUrl

/-- **The readers of the URLs get the settings back.** -/
structure CarriesCredentials (rules : UrlRules) (settings : ConnectionSettings) : Prop where
  database : makeUrl settings.databaseUrl = some ⟨some settings.dbUsername,
    some settings.dbPassword, some settings.dbHost, some settings.dbPort, some settings.dbName⟩
  redis : ∃ parsed, parseUrl rules settings.redisUrl = some parsed ∧
    parsed.password = settings.redisSecret ∧ parsed.host = some settings.redisHost ∧
      parsed.port = some settings.redisPort

/-- **When the URLs carry the credentials**: nothing in the settings ends a part too early, is
dropped, decoded or turned into lower case. -/
theorem carriesCredentials_iff {rules : UrlRules} (hrules : rules.Lowers)
    (settings : ConnectionSettings) :
    CarriesCredentials rules settings ↔ DatabasePlain settings ∧ RedisPlain rules settings := by
  rw [← makeUrl_databaseUrl_iff, ← parseUrl_redisUrl_iff hrules]
  exact ⟨fun h => ⟨h.database, h.redis⟩, fun h => ⟨h.1, h.2⟩⟩

/-- A letter that quoting leaves alone stops nothing. -/
theorem unreserved_letter {c : Char} (h : isUnreserved c.toNat) :
    c.toNat < 128 ∧ ¬endsNetloc c ∧ ¬isUnsafe c ∧ c ∉ ['@', ':', '[', ']', '%'] := by
  have hall : ∀ n < 128, isUnreserved n → ¬endsNetloc (Char.ofNat n) ∧
      ¬isUnsafe (Char.ofNat n) ∧ Char.ofNat n ∉ ['@', ':', '[', ']', '%'] := by decide
  have hlt : c.toNat < 128 := by
    simp only [isUnreserved, Bool.or_eq_true, Bool.and_eq_true, decide_eq_true_eq] at h
    omega
  have hn := hall c.toNat hlt h
  rw [Char.ofNat_toNat] at hn
  exact ⟨hlt, hn⟩

/-- The authority of a secret and a host of such letters. -/
theorem unreserved_authority {settings : ConnectionSettings}
    (hsecret : ∀ password ∈ settings.redisSecret, ∀ c ∈ password.toList, isUnreserved c.toNat)
    (hname : ∀ c ∈ settings.redisHost.toList, isUnreserved c.toNat) :
    ∀ c ∈ secretInfo settings ++ redisAddress settings, c.toNat < 128 ∧ c ≠ '[' ∧ c ≠ ']' := by
  have hkept : ∀ c : Char, isUnreserved c.toNat → c.toNat < 128 ∧ c ≠ '[' ∧ c ≠ ']' := by
    intro c hc
    obtain ⟨hlt, -, -, hnone⟩ := unreserved_letter hc
    simp only [List.mem_cons, not_or] at hnone
    exact ⟨hlt, hnone.2.2.1, hnone.2.2.2.1⟩
  unfold secretInfo redisAddress
  rw [List.forall_mem_append, List.forall_mem_append, List.forall_mem_cons]
  refine ⟨?_, fun c hc => hkept c (hname c hc), by decide, fun c hc => ?_⟩
  · cases hpassword : settings.redisSecret with
    | none => nofun
    | some password =>
        rw [List.forall_mem_cons, List.forall_mem_append, List.forall_mem_singleton]
        exact ⟨by decide, fun c hc => hkept c (hsecret password hpassword c hc), by decide⟩
  · obtain hdigit | rfl := Py.isDigit_or_minus settings.redisPort c hc
    · refine hkept c ?_
      have hrange := Py.isDigit_iff.mp hdigit
      simp only [isUnreserved, Bool.or_eq_true, Bool.and_eq_true, decide_eq_true_eq]
      omega
    · decide

/-- **A secret of letters that quoting leaves alone** is carried, to a host of such letters in
lower case: the brackets fit, nothing ends early, and nothing is decoded. -/
theorem redisPlain_of_unreserved {rules : UrlRules} {settings : ConnectionSettings}
    (hsecret : ∀ password ∈ settings.redisSecret, ∀ c ∈ password.toList, isUnreserved c.toNat)
    (hhost : settings.redisHost ≠ "")
    (hname : ∀ c ∈ settings.redisHost.toList, isUnreserved c.toNat ∧ c.toLower = c)
    (hport : 1 ≤ settings.redisPort ∧ settings.redisPort ≤ 65535) :
    RedisPlain rules settings := by
  have hplain : ∀ s : List Char, (∀ c ∈ s, isUnreserved c.toNat) → hasEscape s = false := by
    intro s hs
    exact unquote_eq_self_iff.mp (unquote_of_not_mem fun h =>
      (unreserved_letter (hs '%' h)).2.2.2 (by decide))
  have hlower : rules.lower (cut (· = '%') settings.redisHost.toList).1 =
      (cut (· = '%') settings.redisHost.toList).1 := by
    have hfree : ∀ c ∈ settings.redisHost.toList, ¬decide (c = '%') := by
      rintro c hc hpercent
      obtain rfl := of_decide_eq_true hpercent
      exact (unreserved_letter (hname '%' hc).1).2.2.2 (by decide)
    have hascii : isAscii settings.redisHost.toList :=
      List.all_eq_true.mpr fun c hc => decide_eq_true (unreserved_letter (hname c hc).1).1
    rw [cut_of_forall hfree, UrlRules.lower, if_pos hascii]
    exact (List.map_congr_left fun c hc => (hname c hc).2).trans (List.map_id _)
  have hauthority := unreserved_authority hsecret fun c hc => (hname c hc).1
  refine ⟨fun password h => ⟨fun c hc => ?_, hplain _ (hsecret password h)⟩, hhost, fun c hc => ?_,
    hplain _ fun c hc => (hname c hc).1, hlower, hport, ?_, ?_⟩
  · obtain ⟨-, hends, hdropped, -⟩ := unreserved_letter (hsecret password h c hc)
    exact ⟨hends, hdropped⟩
  · obtain ⟨-, hends, hdropped, hnone⟩ := unreserved_letter (hname c hc).1
    simp only [List.mem_cons, not_or] at hnone
    exact ⟨hends, hdropped, hnone.1, hnone.2.1, hnone.2.2.1⟩
  · exact Brackets.bracketsFit_of_not_mem (fun h => (hauthority _ h).2.1 rfl)
      fun h => (hauthority _ h).2.2 rfl
  · have hascii : isAscii (secretInfo settings ++ redisAddress settings) :=
      List.all_eq_true.mpr fun c hc => decide_eq_true (hauthority c hc).1
    exact decide_eq_true (.inl hascii)

/-- The settings of a local installation. -/
def ConnectionSettings.localhost : ConnectionSettings where
  dbHost := "localhost"
  dbName := "rooti"
  dbUsername := "rooti"
  dbPassword := "rooti_local_pw"

/-- A local installation connects to where it should. -/
theorem carriesCredentials_localhost :
    UrlRules.ascii.Lowers ∧ CarriesCredentials .ascii .localhost ∧
      DatabasePlain .localhost ∧ RedisPlain .ascii .localhost := by
  have hcarries : CarriesCredentials .ascii .localhost := by
    refine ⟨by decide +kernel, ⟨none, none, some "localhost", some 6379⟩, ?_, rfl, rfl, rfl⟩
    decide +kernel
  exact ⟨lowers_ascii, hcarries, (carriesCredentials_iff lowers_ascii .localhost).mp hcarries⟩

/-- **A password with an at sign**: its end is taken for the host. -/
theorem not_carriesCredentials_at :
    ¬CarriesCredentials .ascii { ConnectionSettings.localhost with dbPassword := "p@ss" } ∧
      makeUrl { ConnectionSettings.localhost with dbPassword := "p@ss" }.databaseUrl =
        some ⟨some "rooti", some "p", some "ss@localhost", some 5432, some "rooti"⟩ := by
  have hread : makeUrl { ConnectionSettings.localhost with dbPassword := "p@ss" }.databaseUrl =
      some ⟨some "rooti", some "p", some "ss@localhost", some 5432, some "rooti"⟩ := by
    decide +kernel
  refine ⟨fun h => ?_, hread⟩
  have hsecret := congrArg (Option.map DatabaseUrl.password) (hread.symm.trans h.database)
  exact absurd hsecret (by decide)

end Rooti

import Rooti.Core.Config
import Rooti.Core.Decimal
import Rooti.Lib.Percent
import Rooti.Lib.Splitting

/-!
# Reading the URL of the database

`make_url` reads a URL from left to right: the user information is what stands in front of an
at sign, and its first colon ends the name; the host ends at a colon or a slash, unless it is
in brackets; the rest is a port, a database and options.  Name and password are decoded.  The
secrets are not encoded, so what they contain may end them too early.

## Main definitions

* `makeUrl` — the reader
* `DatabasePlain` — settings without what the reader stops at or decodes
* `makeUrl_databaseUrl_iff` — when the settings are read back

## What carries the proof

Each part of the reader has a lemma for a text without its delimiters
(`userinfo_append`, `hostinfo_append`, `portinfo_append`) and one in the other
direction: if the settings are read back, then no delimiter was there
(`of_userinfo_unquote`, `of_hostinfo`). For the name and the password the second rests
on decoding never making a text longer: what is read ends no later than the setting
does, so it cannot decode to the setting unless it is the setting. That makes the
condition exact (`makeUrl_databaseUrl_iff`).
-/

namespace Rooti

open Splitting Percent

/-- What `make_url` reads. -/
structure DatabaseUrl where
  username : Option String
  password : Option String
  host : Option String
  port : Option ℤ
  database : Option String
  deriving DecidableEq

namespace MakeUrl

/-- A letter of the name of a dialect and its driver. -/
def isNameChar (c : Char) : Bool := c.isAlphanum || c = '_' || c = '+'

/-- The text behind `name://`. -/
def afterName (s : List Char) : Option (List Char) :=
  match cut (fun c => !isNameChar c) s with
  | (_ :: _, some (':', '/' :: '/' :: rest)) => some rest
  | _ => none

/-- A name without password: the last at sign of the letters ends it. -/
def nameOnly (run s : List Char) : Option (List Char) × Option (List Char) × List Char :=
  match rcut (· = '@') run with
  | (some name, _) => (some name, none, s.drop (name.length + 1))
  | (none, _) => (none, none, s)

/-- The user information, and the text behind it. -/
def userinfo (s : List Char) : Option (List Char) × Option (List Char) × List Char :=
  match cut (fun c => c = ':' ∨ c = '/') s with
  | (name, some (':', rest)) =>
      match cut (· = '@') rest with
      | (password, some (_, rest)) => (some name, some password, rest)
      | (_, none) => nameOnly name s
  | (run, _) => nameOnly run s

/-- A host in brackets: the last bracket ends it. -/
def bracketed : List Char → Option (List Char × List Char)
  | '[' :: rest =>
      match rcut (· = ']') (cut (fun c => c = '/' ∨ c = '?') rest).1 with
      | (some (c :: host), _) => some (c :: host, rest.drop (host.length + 2))
      | _ => none
  | _ => none

/-- The host, and the text behind it. -/
def hostinfo (s : List Char) : Option (List Char) × List Char :=
  match bracketed s with
  | some (host, rest) => (some host, rest)
  | none =>
      match (cut (fun c => c = '/' ∨ c = ':' ∨ c = '?') s).1 with
      | [] => (none, s)
      | c :: host => (some (c :: host), s.drop (host.length + 1))

/-- The port, and the text behind it. -/
def portinfo : List Char → Option (List Char) × List Char
  | ':' :: rest =>
      let port := (cut (fun c => c = '/' ∨ c = '?') rest).1
      (some port, rest.drop port.length)
  | s => (none, s)

/-- The name of the database. -/
def database : List Char → Option (List Char)
  | '/' :: rest => some (cut (· = '?') rest).1
  | _ => none

/-- `int(port)`, if there is one. -/
def readPort : Option (List Char) → Option (Option ℤ)
  | some port => (Py.int? (String.ofList port)).map some
  | none => some none

end MakeUrl

open MakeUrl in
/-- `make_url`: names, passwords, host, port and database of a URL; `none` is an exception. -/
def makeUrl (url : String) : Option DatabaseUrl :=
  (afterName url.toList).bind fun s =>
    let user := userinfo s
    let host := hostinfo user.2.2
    let port := portinfo host.2
    (readPort port.1).map fun number => {
      username := user.1.map fun name => String.ofList (unquote name)
      password := user.2.1.map fun password => String.ofList (unquote password)
      host := host.1.map String.ofList
      port := number
      database := (database port.2).map String.ofList }

example : makeUrl "postgresql+asyncpg://rooti:p%40ss@[::1]:5432/rooti?ssl=require" =
    some ⟨some "rooti", some "p@ss", some "::1", some 5432, some "rooti"⟩ := by decide +kernel

open MakeUrl

/-! ## The parts of the URL -/

/-- The reader takes the host for one in brackets. -/
def isBracketed : List Char → Bool
  | '[' :: rest => ']' ∈ rest.tail
  | _ => false

/-- **Settings without what the reader stops at or decodes.** -/
structure DatabasePlain (settings : ConnectionSettings) : Prop where
  username : ∀ c ∈ settings.dbUsername.toList, c ≠ ':' ∧ c ≠ '/'
  usernameEscapes : hasEscape settings.dbUsername.toList = false
  password : '@' ∉ settings.dbPassword.toList
  passwordEscapes : hasEscape settings.dbPassword.toList = false
  host : settings.dbHost ≠ ""
  hostDelimiters : ∀ c ∈ settings.dbHost.toList, c ≠ '/' ∧ c ≠ ':' ∧ c ≠ '?'
  hostBrackets : isBracketed settings.dbHost.toList = false
  port : Py.strFits settings.dbPort
  name : '?' ∉ settings.dbName.toList

section Parts

variable {s h n u p q r t : List Char}

/-- **A text that is read as itself**: it stands in front of a stop, and is the decoded form of
what the reader takes. -/
theorem eq_of_unquote (stop : Char → Bool) {c : Char} (h : unquote n ++ c :: t = n ++ r)
    (hn : ∀ a ∈ n, ¬stop a) (hc : stop c) : unquote n = n :=
  unquote_eq_of_length_le (length_le_of_append_eq h hn hc)

/-- Without colons, slashes and at signs in the wrong places, name and password are read
whole. -/
theorem userinfo_append (hu : ∀ c ∈ u, c ≠ ':' ∧ c ≠ '/') (hp : '@' ∉ p) :
    userinfo (u ++ ':' :: (p ++ '@' :: t)) = (some u, some p, t) := by
  have hname : cut (fun c => c = ':' ∨ c = '/') (u ++ ':' :: (p ++ '@' :: t)) =
      (u, some (':', p ++ '@' :: t)) := by
    refine cut_append (fun c hc => ?_) (by decide)
    simpa using hu c hc
  have hpassword : cut (· = '@') (p ++ '@' :: t) = (p, some ('@', t)) := by
    refine cut_append (fun c hc => ?_) (by decide)
    rintro hat
    exact hp (of_decide_eq_true hat ▸ hc)
  rw [userinfo, hname]
  simp only [hpassword]

/-- **A name and a password** that are read are there. -/
theorem of_userinfo (h : userinfo s = (some n, some q, r)) :
    s = n ++ ':' :: (q ++ '@' :: r) ∧ (∀ c ∈ n, c ≠ ':' ∧ c ≠ '/') ∧ '@' ∉ q := by
  have hname : ∀ run, nameOnly run s ≠ (some n, some q, r) := by
    intro run hrun
    unfold nameOnly at hrun
    split at hrun <;> cases hrun
  unfold userinfo at h
  split at h
  · next name rest hcut =>
      split at h
      · next password c rest' hcut' =>
          cases h
          obtain ⟨rfl, -, hfree⟩ := cut_eq_some_iff.mp hcut
          obtain ⟨rfl, hc, hfree'⟩ := cut_eq_some_iff.mp hcut'
          obtain rfl := of_decide_eq_true hc
          refine ⟨rfl, fun c hc => ?_, fun hmem => hfree' '@' hmem (by decide)⟩
          simpa using hfree c hc
      · exact absurd h (hname _)
  · exact absurd h (hname _)

/-- **A name and a password that are read back** end where they end in the text. -/
theorem of_userinfo_unquote (hread : userinfo (u ++ ':' :: (p ++ '@' :: t)) = (some n, some q, r))
    (hu : unquote n = u) (hp : unquote q = p) :
    ((∀ c ∈ u, c ≠ ':' ∧ c ≠ '/') ∧ hasEscape u = false) ∧ '@' ∉ p ∧ hasEscape p = false := by
  obtain ⟨htext, hn, hq⟩ := of_userinfo hread
  rw [← hu, ← hp] at htext
  have hname : unquote n = n := eq_of_unquote (fun c => c = ':' ∨ c = '/') htext
    (fun c hc => by simpa using hn c hc) (by decide)
  rw [hname, List.append_cancel_left_eq, List.cons.injEq] at htext
  have hpassword : unquote q = q := eq_of_unquote (fun c => c = '@') htext.2
    (fun c hc hat => hq (of_decide_eq_true hat ▸ hc)) (by decide)
  rw [← hu, ← hp, hname, hpassword]
  exact ⟨⟨hn, unquote_eq_self_iff.mp hname⟩, hq, unquote_eq_self_iff.mp hpassword⟩

/-- The host in brackets of a text that starts with one. -/
theorem bracketed_eq_some_iff (hn : ∀ c ∈ n, c ≠ '/' ∧ c ≠ '?') :
    (bracketed ('[' :: (n ++ '/' :: t)) ≠ none) ↔ ']' ∈ n.tail := by
  have hrun : (cut (fun c => c = '/' ∨ c = '?') (n ++ '/' :: t)).1 = n := by
    rw [cut_append (fun c hc => by simpa using hn c hc) (by decide)]
  rcases hcut : rcut (· = ']') n with ⟨_ | _ | ⟨c, host⟩, after⟩
  · obtain ⟨-, hfree⟩ := rcut_eq_none_iff.mp hcut
    rw [bracketed, hrun, hcut]
    refine iff_of_false (fun h => h rfl) fun h => ?_
    exact hfree ']' (List.mem_of_mem_tail h) (by decide)
  · obtain ⟨c, rfl, -, hfree⟩ := rcut_eq_some_iff.mp hcut
    rw [bracketed, hrun, hcut]
    exact iff_of_false (fun h => h rfl) fun h => hfree ']' h (by decide)
  · obtain ⟨d, rfl, hd, -⟩ := rcut_eq_some_iff.mp hcut
    obtain rfl := of_decide_eq_true hd
    rw [bracketed, hrun, hcut]
    refine iff_of_true nofun ?_
    exact List.mem_append_right _ List.mem_cons_self

/-- A host in brackets is there, between its brackets. -/
theorem of_bracketed (hs : bracketed s = some (n, r)) : ∃ t, s = '[' :: (n ++ ']' :: t) := by
  unfold bracketed at hs
  split at hs
  · next rest =>
      split at hs
      · next c host after hcut =>
          cases hs
          obtain ⟨d, hrun, hd, -⟩ := rcut_eq_some_iff.mp hcut
          obtain rfl := of_decide_eq_true hd
          obtain ⟨t, ht⟩ := exists_append_cut (fun c => c = '/' ∨ c = '?') rest
          rw [hrun, List.append_assoc] at ht
          exact ⟨after ++ t, congrArg ('[' :: ·) ht⟩
      · cases hs
  · cases hs

/-- A text does not start with a letter and itself, up to a stop. -/
theorem cons_append_ne {c d : Char} (hcd : c ≠ d) : c :: (n ++ r) ≠ n ++ d :: t := by
  induction n generalizing c with
  | nil => exact fun h => hcd (List.cons.inj h).1
  | cons a n ih =>
      intro h
      obtain ⟨rfl, h⟩ := List.cons.inj h
      exact ih hcd h

/-- The text in front of the database: a host, and a port without delimiters. -/
theorem bracketed_host_iff (hh : ∀ c ∈ h, c ≠ '/' ∧ c ≠ '?') (hp : ∀ c ∈ p, c ≠ '/' ∧ c ≠ '?')
    (hbracket : ']' ∉ p) :
    bracketed (h ++ ':' :: (p ++ '/' :: t)) ≠ none ↔ isBracketed h := by
  cases h with
  | nil => exact iff_of_false (fun hne => hne rfl) nofun
  | cons c rest =>
      by_cases hc : c = '['
      · subst hc
        have htext : '[' :: rest ++ ':' :: (p ++ '/' :: t) =
            '[' :: ((rest ++ ':' :: p) ++ '/' :: t) := by simp
        have hfree : ∀ c ∈ rest ++ ':' :: p, c ≠ '/' ∧ c ≠ '?' := by
          rw [List.forall_mem_append, List.forall_mem_cons]
          exact ⟨fun c hc => hh c (List.mem_cons_of_mem _ hc), by decide, hp⟩
        rw [htext, bracketed_eq_some_iff hfree, isBracketed, decide_eq_true_iff]
        cases rest with
        | nil => exact iff_of_false hbracket nofun
        | cons a m => simp [hbracket]
      · refine iff_of_false (fun hne => hne ?_) ?_
        · rw [List.cons_append, bracketed]
          intro rest' heq
          exact hc (List.cons.inj heq).1
        · rw [isBracketed]
          · exact Bool.false_ne_true
          · intro rest' heq
            exact hc (List.cons.inj heq).1

/-- **The host that is read** has no delimiters. -/
theorem of_hostinfo (hp : ∀ c ∈ p, c ≠ '/' ∧ c ≠ '?') (hbracket : ']' ∉ p)
    (hread : (hostinfo (h ++ ':' :: (p ++ '/' :: t))).1 = some h) :
    (h ≠ [] ∧ ∀ c ∈ h, c ≠ '/' ∧ c ≠ ':' ∧ c ≠ '?') ∧ isBracketed h = false := by
  unfold hostinfo at hread
  split at hread
  · next host rest hb =>
      cases hread
      obtain ⟨t', htext⟩ := of_bracketed hb
      exact absurd htext.symm (cons_append_ne (by decide))
  · next hb =>
      have hfree := forall_cut (fun c => c = '/' ∨ c = ':' ∨ c = '?') (h ++ ':' :: (p ++ '/' :: t))
      split at hread
      · cases hread
      · next c host hcut =>
          cases hread
          rw [hcut] at hfree
          have hfree : ∀ a ∈ c :: host, a ≠ '/' ∧ a ≠ ':' ∧ a ≠ '?' :=
            fun a ha => by simpa using hfree a ha
          refine ⟨⟨List.cons_ne_nil _ _, hfree⟩, Bool.not_eq_true _ ▸ fun hbracketed => ?_⟩
          have hiff := bracketed_host_iff (t := t) (fun a ha => ⟨(hfree a ha).1, (hfree a ha).2.2⟩)
            hp hbracket
          exact hiff.mpr hbracketed hb

/-- A host without delimiters is read whole. -/
theorem hostinfo_append (hp : ∀ c ∈ p, c ≠ '/' ∧ c ≠ '?') (hbracket : ']' ∉ p) (hne : h ≠ [])
    (hfree : ∀ c ∈ h, c ≠ '/' ∧ c ≠ ':' ∧ c ≠ '?') (hb : isBracketed h = false) :
    hostinfo (h ++ ':' :: (p ++ '/' :: t)) = (some h, ':' :: (p ++ '/' :: t)) := by
  have hnone : bracketed (h ++ ':' :: (p ++ '/' :: t)) = none := by
    by_contra hsome
    have hiff := bracketed_host_iff (t := t) (fun a ha => ⟨(hfree a ha).1, (hfree a ha).2.2⟩)
      hp hbracket
    exact Bool.false_ne_true (hb.symm.trans (hiff.mp hsome))
  rw [hostinfo, hnone, cut_append (fun c hc => by simpa using hfree c hc) (by decide)]
  cases h with
  | nil => exact absurd rfl hne
  | cons c host => simp

/-- A port is read up to the slash. -/
theorem portinfo_append (hp : ∀ c ∈ p, c ≠ '/' ∧ c ≠ '?') :
    portinfo (':' :: (p ++ '/' :: t)) = (some p, '/' :: t) := by
  rw [portinfo, cut_append (fun c hc => by simpa using hp c hc) (by decide)]
  simp only [List.drop_left]

/-- **When the name of the database is read**, in front of options or nothing. -/
theorem database_eq_iff (ht : t = [] ∨ ∃ r, t = '?' :: r) :
    database ('/' :: (n ++ t)) = some n ↔ '?' ∉ n := by
  rw [database, Option.some_inj]
  constructor
  · intro hcut hmem
    have hfree := forall_cut (· = '?') (n ++ t)
    rw [hcut] at hfree
    exact hfree '?' hmem (by decide)
  · intro hfree
    have hstop : ∀ c ∈ n, ¬decide (c = '?') := by
      intro c hc hd
      exact hfree (of_decide_eq_true hd ▸ hc)
    obtain rfl | ⟨r, rfl⟩ := ht
    · rw [List.append_nil, cut_of_forall hstop]
    · rw [cut_append hstop (by decide)]

end Parts

/-! ## The settings -/

section Settings

variable (settings : ConnectionSettings)

/-- The options of the URL. -/
def sslOption : List Char := if settings.dbSslRequired then "?ssl=require".toList else []

/-- The URL behind the name of the driver. -/
theorem afterName_databaseUrl :
    afterName settings.databaseUrl.toList = some (settings.dbUsername.toList ++
      ':' :: (settings.dbPassword.toList ++ '@' :: (settings.dbHost.toList ++
        ':' :: ((toString settings.dbPort).toList ++ '/' ::
          (settings.dbName.toList ++ sslOption settings))))) := by
  have hssl : (if settings.dbSslRequired then "?ssl=require" else "").toList =
      sslOption settings := by
    unfold sslOption
    split <;> rfl
  have htext : settings.databaseUrl.toList = "postgresql+asyncpg://".toList ++
      (settings.dbUsername.toList ++ ':' :: (settings.dbPassword.toList ++
        '@' :: (settings.dbHost.toList ++ ':' :: ((toString settings.dbPort).toList ++
          '/' :: (settings.dbName.toList ++ sslOption settings))))) := by
    rw [← hssl]
    unfold ConnectionSettings.databaseUrl
    simp only [String.toList_append, List.append_assoc]
    rfl
  rw [htext]
  rfl

/-- The digits of the port. -/
theorem toList_port (n : ℤ) :
    (∀ c ∈ (toString n).toList, c ≠ '/' ∧ c ≠ '?') ∧ ']' ∉ (toString n).toList := by
  have hall := Py.isDigit_or_minus n
  refine ⟨fun c hc => ⟨?_, ?_⟩, fun hc => ?_⟩
  · rintro rfl
    simpa using hall _ hc
  · rintro rfl
    simpa using hall _ hc
  · simpa using hall _ hc

/-- **When the settings are read back** from the URL of the database. -/
theorem makeUrl_databaseUrl_iff :
    makeUrl settings.databaseUrl = some ⟨some settings.dbUsername, some settings.dbPassword,
      some settings.dbHost, some settings.dbPort, some settings.dbName⟩ ↔ DatabasePlain settings := by
  obtain ⟨hport, hbracket⟩ := toList_port settings.dbPort
  have hssl : sslOption settings = [] ∨ ∃ r, sslOption settings = '?' :: r := by
    unfold sslOption
    split
    · exact .inr ⟨_, rfl⟩
    · exact .inl rfl
  have hnumber : readPort (some (toString settings.dbPort).toList) =
      if Py.strFits settings.dbPort then some (some settings.dbPort) else none := by
    rw [readPort, String.ofList_toList, Py.int?_toString]
    split <;> rfl
  have hofList : ∀ {l : List Char} {s : String}, String.ofList l = s ↔ l = s.toList := by
    intro l s
    rw [← String.toList_inj, String.toList_ofList]
  rw [makeUrl, afterName_databaseUrl, Option.bind_some, Option.map_eq_some_iff]
  constructor
  · rintro ⟨number, hread, hparts⟩
    rw [DatabaseUrl.mk.injEq] at hparts
    obtain ⟨husername, hpassword, hhost, rfl, hname⟩ := hparts
    obtain ⟨n, hn, husername⟩ := Option.map_eq_some_iff.mp husername
    obtain ⟨q, hq, hpassword⟩ := Option.map_eq_some_iff.mp hpassword
    obtain ⟨host, hh, hhost⟩ := Option.map_eq_some_iff.mp hhost
    obtain ⟨name, hd, hname⟩ := Option.map_eq_some_iff.mp hname
    rw [hofList] at husername hpassword hhost hname
    -- from the left to the right: each part that is read back fixes where the next one
    -- begins
    have huser := of_userinfo_unquote (Prod.ext hn (Prod.ext hq rfl)) husername hpassword
    rw [userinfo_append huser.1.1 huser.2.1, hhost] at hh
    obtain ⟨⟨hne, hfree⟩, hb⟩ := of_hostinfo hport hbracket hh
    rw [userinfo_append huser.1.1 huser.2.1, hostinfo_append hport hbracket hne hfree hb,
      portinfo_append hport] at hread hd
    rw [hname] at hd
    rw [hnumber] at hread
    refine ⟨huser.1.1, huser.1.2, huser.2.1, huser.2.2, ?_, hfree, hb, ?_,
      (database_eq_iff hssl).mp hd⟩
    · rintro hempty
      exact hne (String.toList_eq_nil_iff.mpr hempty)
    · by_contra hport'
      rw [if_neg hport'] at hread
      cases hread
  · intro h
    have hne : settings.dbHost.toList ≠ [] := fun hnil => h.host (String.toList_eq_nil_iff.mp hnil)
    rw [userinfo_append h.username h.password,
      hostinfo_append hport hbracket hne h.hostDelimiters h.hostBrackets, portinfo_append hport]
    refine ⟨some settings.dbPort, hnumber.trans (if_pos h.port), ?_⟩
    simp only [Option.map_some, unquote_eq_self_iff.mpr h.usernameEscapes,
      unquote_eq_self_iff.mpr h.passwordEscapes, (database_eq_iff hssl).mpr h.name,
      String.ofList_toList]

end Settings

end Rooti

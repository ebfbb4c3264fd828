import Rooti.Connections.Brackets
import Rooti.Core.Config

/-!
# Reading the URL of Redis

`parse_url` leaves the URL to `urllib.parse`: line breaks and tabs are dropped, the authority
ends at the first slash, question mark or hash, its last at sign ends the user information,
and the host is turned into lower case.  Password and host are decoded afterwards.  Before all
that the authority is checked: its brackets, and, where it is not of ASCII characters alone,
that nothing in it normalises to a delimiter.

## Main definitions

* `UrlRules` — what the reader takes from the Unicode database
* `parseUrl` — the reader
* `RedisPlain` — settings without what the reader stops at, drops or decodes
* `parseUrl_redisUrl_iff` — when the settings are read back

## From the text back to the settings

That plain settings are read back is a computation (`parseUrl_of_plain`): each delimiter
is the one that was put there. The converse is where a setting with a delimiter in it
might still be read back by accident, for instance a password with an `@`, if what is
cut off is made up for elsewhere. The proof counts delimiters. Every `@`, `:` and `[` of
the URL ends up in one part or is used up as a delimiter, lower case moves none
(`UrlRules.Lowers`), and decoding only makes a text shorter. A part that comes out as it
went in has therefore lost nothing, so no delimiter in it was used up and nothing in it
was decoded.

`bracketsFit` is the check of the authority that `urllib` makes of its brackets, from
`Connections.Brackets`. What remains a parameter is the Unicode database: the lower case
of characters beyond ASCII and the normal form NFKC. The first is asked to leave alone
the delimiters and what is in lower case already; of the second nothing is asked.
-/

namespace Rooti

open Splitting Percent

/-- The release of `urllib.parse`, and what it takes from the Unicode database: lower case and
the normal form NFKC of texts that are not of ASCII characters alone. -/
structure UrlRules where
  bracketsInHost : Bool
  lowerOther : List Char → List Char
  nfkc : List Char → List Char

/-- `isascii`. -/
def isAscii (s : List Char) : Bool := s.all fun c => c.toNat < 128

/-- `lower`. -/
def UrlRules.lower (rules : UrlRules) (s : List Char) : List Char :=
  if isAscii s then s.map Char.toLower else rules.lowerOther s

/-- `_checknetloc`: what the delimiters stand between does not normalise to one. -/
def UrlRules.normal (rules : UrlRules) (netloc : List Char) : Bool :=
  let text := netloc.filter fun c => c ∉ ['@', ':', '#', '?']
  isAscii netloc ∨ rules.nfkc text = text ∨
    ['/', '?', '#', '@', ':'].all fun c => c ∉ rules.nfkc text

/-- The authorities that `urlsplit` takes. -/
def UrlRules.accepts (rules : UrlRules) (netloc : List Char) : Bool :=
  Brackets.bracketsFit rules.bracketsInHost netloc ∧ rules.normal netloc

/-- What `parse_url` reads, apart from options. -/
structure RedisUrl where
  username : Option String
  password : Option String
  host : Option String
  port : Option ℤ
  deriving DecidableEq

namespace ParseUrl

/-- A character that is dropped. -/
def isUnsafe (c : Char) : Bool := c = '\t' ∨ c = '\r' ∨ c = '\n'

/-- A character that ends the authority. -/
def endsNetloc (c : Char) : Bool := c = '/' ∨ c = '?' ∨ c = '#'

/-- The authority. -/
def netloc (s : List Char) : List Char := (cut endsNetloc (s.filter fun c => !isUnsafe c)).1

/-- `username` and `password`. -/
def userinfo (netloc : List Char) : Option (List Char) × Option (List Char) :=
  match (rcut (· = '@') netloc).1 with
  | some info => (some (cut (· = ':') info).1, (cut (· = ':') info).2.map Prod.snd)
  | none => (none, none)

/-- The host and the text of the port. -/
def hostport (info : List Char) : List Char × Option (List Char) :=
  match (cut (· = '[') info).2 with
  | some (_, bracketed) =>
      ((cut (· = ']') bracketed).1,
        (cut (· = ']') bracketed).2.bind fun rest => (cut (· = ':') rest.2).2.map Prod.snd)
  | none => ((cut (· = ':') info).1, (cut (· = ':') info).2.map Prod.snd)

/-- They stand behind the last at sign. -/
def hostinfo (netloc : List Char) : List Char × Option (List Char) :=
  hostport (rcut (· = '@') netloc).2

/-- `hostname`: a zone behind a percent sign keeps its case. -/
def hostname (rules : UrlRules) (host : List Char) : List Char :=
  match cut (· = '%') host with
  | (name, some (_, zone)) => rules.lower name ++ '%' :: zone
  | (name, none) => rules.lower name

/-- `port`; the outer `none` is an exception. -/
def port : Option (List Char) → Option (Option ℤ)
  | none | some [] => some none
  | some digits =>
      if digits.all Char.isDigit then
        ((Py.int? (String.ofList digits)).filter fun n => n ≤ 65535).map some
      else none

/-- A part that is there, decoded. -/
def decoded (part : Option (List Char)) : Option String :=
  (part.filter fun s => s ≠ []).map fun s => String.ofList (unquote s)

end ParseUrl

open ParseUrl in
/-- `parse_url` of a `redis://` URL: what is found in the authority; `none` is an exception. -/
def parseUrl (rules : UrlRules) (url : String) : Option RedisUrl :=
  (url.toList.dropPrefix? "redis://".toList).bind fun s =>
    if rules.accepts (netloc s) then
      (port (hostinfo (netloc s)).2).map fun number => {
        username := decoded (userinfo (netloc s)).1
        password := decoded (userinfo (netloc s)).2
        host := if (hostinfo (netloc s)).1 = [] then none
          else decoded (some (hostname rules (hostinfo (netloc s)).1))
        port := number.filter fun n => n ≠ 0 }
    else none

/-- Rules that know no characters but those of ASCII. -/
def UrlRules.ascii : UrlRules := ⟨true, id, id⟩

example : parseUrl .ascii "redis://:p@ss%21@Redis:6379/0" =
    some ⟨none, some "p@ss!", some "redis", some 6379⟩ := by decide +kernel

/-- A bracket without a counterpart makes the authority invalid. -/
example : parseUrl .ascii "redis://:a]b@localhost:6379/0" = none := by decide +kernel

open ParseUrl

/-! ## Lower case -/

/-- A character that means something in an authority. -/
def isDelimiter (c : Char) : Bool := c ∈ ['%', ':', '@', '[', '\t', '\r', '\n']

/-- **What lower case leaves alone** beyond ASCII: the delimiters of a text, and all of a text
that its lower case starts with. -/
structure UrlRules.Lowers (rules : UrlRules) : Prop where
  otherDelimiters : ∀ s, isAscii s = false →
    (rules.lowerOther s).filter isDelimiter = s.filter isDelimiter
  otherFixed : ∀ s, isAscii s = false → s <+: rules.lowerOther s → rules.lowerOther s = s

/-- No letter becomes a delimiter, and no delimiter another character. -/
theorem isDelimiter_toLower (c : Char) :
    isDelimiter c.toLower = isDelimiter c ∧ (isDelimiter c → c.toLower = c) := by
  have hascii : ∀ n < 128, isDelimiter (Char.ofNat n).toLower = isDelimiter (Char.ofNat n) ∧
      (isDelimiter (Char.ofNat n) → (Char.ofNat n).toLower = Char.ofNat n) := by decide
  by_cases hc : c.toNat < 128
  · have hn := hascii c.toNat hc
    rwa [Char.ofNat_toNat] at hn
  · -- capital letters are below
    have hsame : c.toLower = c := by
      refine dif_neg fun hupper => hc ?_
      have hle : c.toNat ≤ 'Z'.toNat := UInt32.le_iff_toNat_le.mp hupper.2
      exact Nat.lt_of_le_of_lt hle (by decide)
    rw [hsame]
    exact ⟨rfl, fun _ => rfl⟩

/-- Lower case of ASCII letters keeps every delimiter, in its order. -/
theorem filter_map_toLower (s : List Char) :
    (s.map Char.toLower).filter isDelimiter = s.filter isDelimiter := by
  induction s with
  | nil => rfl
  | cons c rest ih =>
      rw [List.map_cons, List.filter_cons, List.filter_cons, (isDelimiter_toLower c).1, ih]
      split
      · next hc => rw [(isDelimiter_toLower c).2 hc]
      · rfl

section Lower

variable {rules : UrlRules}

/-- The delimiters of any text keep their places. -/
theorem UrlRules.Lowers.delimiters (hrules : rules.Lowers) (s : List Char) :
    (rules.lower s).filter isDelimiter = s.filter isDelimiter := by
  unfold UrlRules.lower
  split
  · exact filter_map_toLower s
  · next hother => exact hrules.otherDelimiters s ((Bool.not_eq_true _).mp hother)

/-- A text that its lower case starts with is in lower case. -/
theorem UrlRules.Lowers.fixed (hrules : rules.Lowers) (s : List Char) (hs : s <+: rules.lower s) :
    rules.lower s = s := by
  unfold UrlRules.lower at hs ⊢
  split
  · next hascii =>
      rw [if_pos hascii] at hs
      exact (hs.eq_of_length (List.length_map _).symm).symm
  · next hother =>
      rw [if_neg hother] at hs
      exact hrules.otherFixed s ((Bool.not_eq_true _).mp hother) hs

/-- Where nothing beyond ASCII is changed. -/
theorem lowers_ascii : UrlRules.ascii.Lowers := ⟨fun _ _ => rfl, fun _ _ _ => rfl⟩

end Lower

section Host

variable {rules : UrlRules} {h h' n s t u v : List Char} {p : Char → Bool}

theorem countP_lower (hrules : rules.Lowers) (hp : ∀ c, p c → isDelimiter c) (s : List Char) :
    (rules.lower s).countP p = s.countP p := by
  have hfilter : ∀ l : List Char, (l.filter isDelimiter).countP p = l.countP p := by
    intro l
    rw [List.countP_filter]
    refine List.countP_congr fun c _ => ?_
    rw [Bool.and_eq_true]
    exact ⟨And.left, fun hc => ⟨hc, hp c hc⟩⟩
  rw [← hfilter, hrules.delimiters, hfilter]

/-- So the host keeps them. -/
theorem countP_hostname (hrules : rules.Lowers) (hp : ∀ c, p c → isDelimiter c) (s : List Char) :
    (hostname rules s).countP p = s.countP p := by
  unfold hostname
  obtain ⟨hcut, -⟩ | ⟨x, c, y, hcut, rfl, hc, -⟩ := cut_cases (· = '%') s <;> rw [hcut]
  · exact countP_lower hrules hp s
  · obtain rfl := of_decide_eq_true hc
    simp only [List.countP_append, countP_lower hrules hp]

/-- **A host is not read from a part of itself** that leaves a delimiter out: decoding pays for
every delimiter with a percent sign. -/
theorem not_delimiter_mem (hrules : rules.Lowers) {d : Char} (hd : isDelimiter d)
    (hh' : h.filter (fun c => !isUnsafe c) = u ++ n ++ v) (hsafe : isUnsafe d = false)
    (hread : unquote (hostname rules n) = h) : d ∉ u ∧ d ∉ v := by
  let p : Char → Bool := fun c => c = '%' ∨ c = d
  have hp : ∀ c, p c → isDelimiter c := by
    intro c hc
    obtain rfl | rfl := of_decide_eq_true hc
    · rfl
    · exact hd
  have hkept : (h.filter fun c => !isUnsafe c).countP p = h.countP p := by
    rw [List.countP_filter]
    refine List.countP_congr fun c _ => ?_
    rw [Bool.and_eq_true]
    refine ⟨And.left, fun hc => ⟨hc, ?_⟩⟩
    obtain rfl | rfl := of_decide_eq_true hc
    · rfl
    · rw [hsafe]
      rfl
  have hle := countP_unquote_le (p := p) (by simp [p]) (hostname rules n)
  rw [hread, countP_hostname hrules hp, ← hkept, hh', List.countP_append, List.countP_append] at hle
  have hnone : ∀ l : List Char, l.countP p = 0 → d ∉ l := by
    intro l hl hmem
    exact List.countP_eq_zero.mp hl d hmem (by simp [p])
  exact ⟨hnone u (by omega), hnone v (by omega)⟩

/-- **A host that is read from itself** has nothing to drop or decode, and is in lower case. -/
theorem of_unquote_hostname (hrules : rules.Lowers)
    (hread : unquote (hostname rules (h.filter fun c => !isUnsafe c)) = h) :
    (∀ c ∈ h, isUnsafe c = false) ∧ hasEscape h = false ∧
      rules.lower (cut (· = '%') h).1 = (cut (· = '%') h).1 := by
  have hsafe : ∀ c ∈ h, isUnsafe c = false := by
    let p : Char → Bool := fun c => c = '%' ∨ isUnsafe c
    have hp : ∀ c, p c → isDelimiter c := by
      intro c hc
      obtain rfl | hc := of_decide_eq_true hc
      · rfl
      · obtain rfl | rfl | rfl := of_decide_eq_true hc <;> rfl
    have hle := countP_unquote_le (p := p) (by simp [p])
      (hostname rules (h.filter fun c => !isUnsafe c))
    rw [hread, countP_hostname hrules hp] at hle
    have hsum := List.countP_eq_countP_filter_add h p fun c => !isUnsafe c
    have hnone : (h.filter fun c => !!isUnsafe c).countP p = 0 := by omega
    intro c hc
    by_contra hdropped
    rw [Bool.not_eq_false] at hdropped
    refine List.countP_eq_zero.mp hnone c (List.mem_filter.mpr ⟨hc, ?_⟩) ?_
    · rw [hdropped]
      rfl
    · simp [p, hdropped]
  refine ⟨hsafe, ?_⟩
  have hkept : (h.filter fun c => !isUnsafe c) = h :=
    List.filter_eq_self.mpr fun c hc => by rw [hsafe c hc]; rfl
  rw [hkept] at hread
  have hpercent : ∀ x : List Char, (∀ c ∈ x, ¬decide (c = '%')) →
      '%' ∉ x ∧ '%' ∉ rules.lower x := by
    intro x hx
    have hnone : x.countP (fun c => c = '%') = 0 := List.countP_eq_zero.mpr hx
    have hlower : (rules.lower x).countP (fun c => c = '%') = 0 := by
      rw [countP_lower hrules (fun c hc => ?_), hnone]
      obtain rfl := of_decide_eq_true hc
      rfl
    exact ⟨fun hmem => hx '%' hmem (by decide),
      fun hmem => List.countP_eq_zero.mp hlower '%' hmem (by decide)⟩
  unfold hostname at hread
  obtain ⟨hcut, hfree⟩ | ⟨x, c, y, hcut, rfl, hc, hfree⟩ := cut_cases (· = '%') h <;>
    rw [hcut] at hread ⊢
  · obtain ⟨hnot, hnot'⟩ := hpercent h hfree
    simp only at hread ⊢
    rw [unquote_of_not_mem hnot'] at hread
    exact ⟨unquote_eq_self_iff.mp (unquote_of_not_mem hnot), hread⟩
  · obtain rfl := of_decide_eq_true hc
    obtain ⟨hnot, hnot'⟩ := hpercent x hfree
    simp only at hread ⊢
    rw [unquote_append hnot'] at hread
    -- the zone does not grow, so the name is a part of its lower case
    have hlength := congrArg List.length hread
    have hzone := length_unquote_le ('%' :: y)
    rw [List.length_append, List.length_append] at hlength
    have hprefix : x <+: rules.lower x := List.prefix_of_prefix_length_le
      (List.prefix_append x ('%' :: y)) (hread ▸ List.prefix_append _ _) (by omega)
    have hlower := hrules.fixed x hprefix
    rw [hlower, List.append_cancel_left_eq] at hread
    refine ⟨unquote_eq_self_iff.mp ?_, hlower⟩
    rw [unquote_append hnot, hread]

/-- **Where a host and a port are read**: in brackets, or in front of the first colon. -/
theorem of_hostport (hread : hostport s = (n, some t)) :
    (∃ a r, s = a ++ '[' :: (n ++ ']' :: r)) ∨ s = n ++ ':' :: t ∧ '[' ∉ s ∧ ':' ∉ n := by
  unfold hostport at hread
  obtain ⟨hcut, hfree⟩ | ⟨a, c, b, hcut, rfl, hc, -⟩ := cut_cases (· = '[') s <;>
    rw [hcut] at hread
  · right
    obtain ⟨hcut', -⟩ | ⟨x, c, y, hcut', rfl, hc, hx⟩ := cut_cases (· = ':') s <;>
      rw [hcut'] at hread
    · cases hread
    · cases hread
      obtain rfl := of_decide_eq_true hc
      exact ⟨rfl, fun hmem => hfree '[' hmem (by decide), fun hmem => hx ':' hmem (by decide)⟩
  · left
    obtain rfl := of_decide_eq_true hc
    obtain ⟨hcut', -⟩ | ⟨x, c, y, hcut', rfl, hc, -⟩ := cut_cases (· = ']') b <;>
      simp only [hcut'] at hread
    · cases hread
    · obtain rfl := of_decide_eq_true hc
      cases (Prod.mk.inj hread).1
      exact ⟨a, y, rfl⟩

/-- **The host that is read back** is all that stands in front of the port. -/
theorem of_host_read (hrules : rules.Lowers) (hu : ':' ∉ u ∧ ']' ∉ u)
    (htext : (h.filter fun c => !isUnsafe c) ++ ':' :: u = v ++ (s ++ h')) (hv : v = [] ∨ '@' ∈ v)
    (hport : hostport s = (n, some t)) (hread : unquote (hostname rules n) = h) :
    v = [] ∧ n = (h.filter fun c => !isUnsafe c) ∧ s = n ++ ':' :: t ∧ '[' ∉ s ∧ ':' ∉ n := by
  obtain ⟨a, r, rfl⟩ | ⟨rfl, hbracket, hcolon⟩ := of_hostport hport
  · -- the brackets are in the host, so the host is longer than what is in them
    exfalso
    have htext' : (h.filter fun c => !isUnsafe c) ++ ':' :: u =
        (v ++ a ++ ['['] ++ n) ++ ']' :: (r ++ h') := by
      rw [htext]
      simp
    obtain ⟨-, hcolon, -⟩ | ⟨w, hw⟩ := append_eq_cases htext' hu.2
    · cases hcolon
    · exact (not_delimiter_mem hrules (d := '[') rfl hw rfl hread).1 (by simp)
  · have htext' : (h.filter fun c => !isUnsafe c) ++ ':' :: u = (v ++ n) ++ ':' :: (t ++ h') := by
      rw [htext]
      simp
    obtain ⟨hhost, -, -⟩ | ⟨w, hw⟩ := append_eq_cases htext' hu.1
    · have hhost' : (h.filter fun c => !isUnsafe c) = v ++ n ++ [] := by
        rw [List.append_nil, hhost]
      have hat := (not_delimiter_mem hrules (d := '@') rfl hhost' rfl hread).1
      obtain rfl := hv.resolve_right hat
      exact ⟨rfl, hhost, rfl, hbracket, hcolon⟩
    · exact absurd List.mem_cons_self (not_delimiter_mem hrules (d := ':') rfl hw rfl hread).2

/-- **A password that is read back** ends where it ends in the text: decoding keeps at signs. -/
theorem of_password_read (htext : (s.filter fun c => !isUnsafe c) ++ '@' :: t = n ++ '@' :: v)
    (hread : unquote n = s) :
    n = s ∧ (∀ c ∈ s, ¬isUnsafe c) ∧ hasEscape s = false ∧ t = v := by
  have hkept : (s.filter fun c => !isUnsafe c).countP (fun c => c = '@') =
      s.countP fun c => c = '@' := by
    rw [List.countP_filter]
    refine List.countP_congr fun c _ => ?_
    rw [Bool.and_eq_true]
    refine ⟨And.left, fun hc => ⟨hc, ?_⟩⟩
    obtain rfl := of_decide_eq_true hc
    rfl
  have hhex : ∀ c, (hexValue c).isSome → decide (c = '@') = false := by
    intro c hc
    refine decide_eq_false ?_
    rintro rfl
    exact absurd hc (by decide)
  have hcount := le_countP_unquote (p := fun c => c = '@') (by decide) hhex n
  have hlength := length_unquote_le n
  have hshorter := List.length_filter_le (fun c => !isUnsafe c) s
  rw [hread] at hcount hlength
  -- of the two readings of the text, one would leave an at sign too much, the other be
  -- too short
  have hcut : n = (s.filter fun c => !isUnsafe c) ∧ t = v := by
    obtain ⟨as, hn, has⟩ | ⟨bs, hs, hbs⟩ := List.append_eq_append_iff.mp htext
    · cases as with
      | nil =>
          rw [List.append_nil] at hn
          exact ⟨hn, (List.cons.inj has).2⟩
      | cons a as =>
          obtain ⟨rfl, -⟩ := List.cons.inj has
          rw [hn, List.countP_append, List.countP_cons_of_pos (by decide)] at hcount
          omega
    · cases bs with
      | nil =>
          rw [List.append_nil] at hs
          exact ⟨hs.symm, (List.cons.inj hbs).2.symm⟩
      | cons b bs =>
          rw [hs, List.length_append, List.length_cons] at hshorter
          omega
  obtain ⟨hn, hrest⟩ := hcut
  -- decoding does not lengthen, so nothing was filtered out
  have hall : (s.filter fun c => !isUnsafe c) = s := by
    refine List.filter_eq_self.mpr (List.length_filter_eq_length_iff.mp ?_)
    rw [← hn] at hshorter ⊢
    omega
  rw [hall] at hn
  refine ⟨hn, fun c hc hdropped => ?_, unquote_eq_self_iff.mp (hn ▸ hread), hrest⟩
  have hsafe := List.filter_eq_self.mp hall c hc
  rw [hdropped] at hsafe
  cases hsafe

end Host

/-! ## The settings -/

/-- The secret in front of the host. -/
def secretInfo (settings : ConnectionSettings) : List Char :=
  match settings.redisSecret with
  | some password => ':' :: (password.toList ++ ['@'])
  | none => []

/-- The host and the port. -/
def redisAddress (settings : ConnectionSettings) : List Char :=
  settings.redisHost.toList ++ ':' :: (toString settings.redisPort).toList

/-- **Settings without what the reader stops at, drops or decodes.** -/
structure RedisPlain (rules : UrlRules) (settings : ConnectionSettings) : Prop where
  password : ∀ password ∈ settings.redisSecret,
    (∀ c ∈ password.toList, ¬endsNetloc c ∧ ¬isUnsafe c) ∧ hasEscape password.toList = false
  host : settings.redisHost ≠ ""
  hostDelimiters : ∀ c ∈ settings.redisHost.toList,
    ¬endsNetloc c ∧ ¬isUnsafe c ∧ c ≠ '@' ∧ c ≠ ':' ∧ c ≠ '['
  hostEscapes : hasEscape settings.redisHost.toList = false
  hostCase : rules.lower (cut (· = '%') settings.redisHost.toList).1 =
    (cut (· = '%') settings.redisHost.toList).1
  port : 1 ≤ settings.redisPort ∧ settings.redisPort ≤ 65535
  brackets : Brackets.bracketsFit rules.bracketsInHost
    (secretInfo settings ++ redisAddress settings)
  normal : rules.normal (secretInfo settings ++ redisAddress settings)

section Settings

variable (settings : ConnectionSettings)

/-- The URL behind its scheme. -/
theorem dropPrefix?_redisUrl :
    settings.redisUrl.toList.dropPrefix? "redis://".toList =
      some (secretInfo settings ++ (settings.redisHost.toList ++
        ':' :: ((toString settings.redisPort).toList ++ ['/', '0']))) := by
  have htext : settings.redisUrl.toList = "redis://".toList ++ (secretInfo settings ++
      (settings.redisHost.toList ++
        ':' :: ((toString settings.redisPort).toList ++ ['/', '0']))) := by
    unfold ConnectionSettings.redisUrl secretInfo
    cases settings.redisSecret with
    | none =>
        simp only [String.toList_append, List.append_assoc]
        rfl
    | some password =>
        simp only [String.toList_append, List.append_assoc, List.cons_append]
        rfl
  rw [htext, List.dropPrefix?_eq_some_iff]
  exact ⟨_, rfl, beq_self_eq_true _⟩

/-- **The port of a URL.** -/
theorem port_toString (n : ℤ) : ParseUrl.port (some (toString n).toList) =
    if 0 ≤ n ∧ n ≤ 65535 then some (some n) else none := by
  have hread := Py.int?_toString n
  have htext := Py.toList_toString n
  by_cases hsign : 0 ≤ n
  · rw [if_pos hsign] at htext
    have hall : ∀ c ∈ (toString n).toList, c.isDigit := by
      rw [htext]
      exact fun c hc => Py.isDigit_toDigits _ _ hc
    have hne : (toString n).toList ≠ [] := by
      rw [htext]
      exact Nat.toDigits_ne_nil
    have hport : ParseUrl.port (some (toString n).toList) =
        ((Py.int? (String.ofList (toString n).toList)).filter fun m => m ≤ 65535).map some := by
      revert hall hne
      cases (toString n).toList with
      | nil => exact fun _ hne => absurd rfl hne
      | cons c cs => exact fun hall _ => if_pos (List.all_eq_true.mpr hall)
    rw [hport, String.ofList_toList, hread]
    by_cases hle : n ≤ 65535
    · have hfits : Py.strFits n := by
        refine Nat.lt_of_lt_of_le (m := 10 ^ 5) (by omega) ?_
        exact Nat.pow_le_pow_right (by decide) (by decide)
      rw [if_pos hfits, if_pos ⟨hsign, hle⟩, Option.filter_some, if_pos (decide_eq_true hle)]
      rfl
    · have hout : ¬(0 ≤ n ∧ n ≤ 65535) := fun h => hle h.2
      rw [if_neg hout]
      split
      · rw [Option.filter_some, if_neg (by simpa using hle)]
        rfl
      · rfl
  · rw [if_neg hsign] at htext
    rw [htext, if_neg fun h => hsign h.1, ParseUrl.port]
    · rfl
    · nofun

/-- The characters of the port. -/
theorem safe_port (n : ℤ) : ∀ c ∈ (toString n).toList,
    (¬endsNetloc c ∧ ¬isUnsafe c) ∧ c ≠ '@' ∧ c ≠ ':' ∧ c ≠ '[' ∧ c ≠ ']' := by
  intro c hc
  have hclass := Py.isDigit_or_minus n c hc
  have hne : ∀ d : Char, d.isDigit = false → d ≠ '-' → c ≠ d := by
    rintro d hd hminus rfl
    obtain hdigit | rfl := hclass
    · exact Bool.false_ne_true (hd.symm.trans hdigit)
    · exact hminus rfl
  refine ⟨⟨fun hends => ?_, fun hdropped => ?_⟩, ?_⟩
  · obtain hc | hc | hc := of_decide_eq_true hends <;> exact hne _ rfl (by decide) hc
  · obtain hc | hc | hc := of_decide_eq_true hdropped <;> exact hne _ rfl (by decide) hc
  · exact ⟨hne _ rfl (by decide), hne _ rfl (by decide), hne _ rfl (by decide),
      hne _ rfl (by decide)⟩

variable {settings} {rules : UrlRules}

/-- A part that is there and has no escapes. -/
theorem decoded_text {s : String} (hs : s ≠ "") (hescape : hasEscape s.toList = false) :
    decoded (some s.toList) = some s := by
  have hne : s.toList ≠ [] := fun hnil => hs (String.toList_eq_nil_iff.mp hnil)
  rw [decoded, Option.filter_some, if_pos (decide_eq_true hne), Option.map_some,
    unquote_eq_self_iff.mpr hescape, String.ofList_toList]

/-- A secret is not empty. -/
theorem redisSecret_ne {password : String} (h : settings.redisSecret = some password) :
    password ≠ "" := of_decide_eq_true (Option.filter_eq_some_iff.mp h).2

/-- The authority of plain settings. -/
theorem netloc_of_plain (h : RedisPlain rules settings) :
    netloc (secretInfo settings ++ (settings.redisHost.toList ++
      ':' :: ((toString settings.redisPort).toList ++ ['/', '0']))) =
        secretInfo settings ++ redisAddress settings := by
  have hsecret : ∀ c ∈ secretInfo settings, ¬endsNetloc c ∧ ¬isUnsafe c := by
    unfold secretInfo
    cases hpassword : settings.redisSecret with
    | none => nofun
    | some password =>
        rw [List.forall_mem_cons, List.forall_mem_append, List.forall_mem_singleton]
        exact ⟨by decide, (h.password password hpassword).1, by decide⟩
  have hall : ∀ c ∈ secretInfo settings ++ redisAddress settings, ¬endsNetloc c ∧ ¬isUnsafe c := by
    unfold redisAddress
    rw [List.forall_mem_append, List.forall_mem_append, List.forall_mem_cons]
    exact ⟨hsecret, fun c hc => ⟨(h.hostDelimiters c hc).1, (h.hostDelimiters c hc).2.1⟩,
      by decide, fun c hc => (safe_port _ c hc).1⟩
  have htext : secretInfo settings ++ (settings.redisHost.toList ++
      ':' :: ((toString settings.redisPort).toList ++ ['/', '0'])) =
        (secretInfo settings ++ redisAddress settings) ++ '/' :: ['0'] := by
    simp [redisAddress]
  have hsafe : ((secretInfo settings ++ redisAddress settings) ++ '/' :: ['0']).filter
      (fun c => !isUnsafe c) = (secretInfo settings ++ redisAddress settings) ++ '/' :: ['0'] := by
    refine List.filter_eq_self.mpr (List.forall_mem_append.mpr ⟨fun c hc => ?_, by simp [isUnsafe]⟩)
    rw [Bool.not_eq_true']
    exact Bool.not_eq_true _ ▸ (hall c hc).2
  rw [netloc, htext, hsafe, cut_append (fun c hc => (hall c hc).1) (by decide)]

/-- What stands in front of the host and behind the last at sign. -/
theorem rcut_of_plain (h : RedisPlain rules settings) :
    rcut (fun c => c = '@') (secretInfo settings ++ redisAddress settings) =
      (settings.redisSecret.map fun password => ':' :: password.toList, redisAddress settings) := by
  have haddress : ∀ c ∈ redisAddress settings, ¬decide (c = '@') := by
    unfold redisAddress
    rw [List.forall_mem_append, List.forall_mem_cons]
    exact ⟨fun c hc => by simpa using (h.hostDelimiters c hc).2.2.1, by decide,
      fun c hc => by simpa using (safe_port _ c hc).2.1⟩
  unfold secretInfo
  cases settings.redisSecret with
  | none => exact rcut_eq_none_iff.mpr ⟨rfl, haddress⟩
  | some password =>
      refine rcut_eq_some_iff.mpr ⟨'@', ?_, by decide, haddress⟩
      simp

/-- The host and the port of plain settings. -/
theorem hostport_of_plain (h : RedisPlain rules settings) :
    hostport (redisAddress settings) =
      (settings.redisHost.toList, some (toString settings.redisPort).toList) := by
  have hbracket : ∀ c ∈ redisAddress settings, ¬decide (c = '[') := by
    unfold redisAddress
    rw [List.forall_mem_append, List.forall_mem_cons]
    exact ⟨fun c hc => by simpa using (h.hostDelimiters c hc).2.2.2.2, by decide,
      fun c hc => by simpa using (safe_port _ c hc).2.2.2.1⟩
  have hcolon : cut (fun c => c = ':') (redisAddress settings) =
      (settings.redisHost.toList, some (':', (toString settings.redisPort).toList)) :=
    cut_append (fun c hc => by simpa using (h.hostDelimiters c hc).2.2.2.1) (by decide)
  rw [hostport, cut_of_forall hbracket]
  simp only [hcolon, Option.map_some]

/-- **Plain settings are read back.** -/
theorem parseUrl_of_plain (h : RedisPlain rules settings) :
    ∃ parsed, parseUrl rules settings.redisUrl = some parsed ∧
      parsed.password = settings.redisSecret ∧ parsed.host = some settings.redisHost ∧
        parsed.port = some settings.redisPort := by
  have hhostname : hostname rules settings.redisHost.toList = settings.redisHost.toList := by
    have hcase := h.hostCase
    unfold hostname
    obtain ⟨hcut, -⟩ | ⟨x, c, y, hcut, htext, hc, -⟩ :=
        cut_cases (fun c => c = '%') settings.redisHost.toList <;>
      rw [hcut] at hcase ⊢
    · exact hcase
    · obtain rfl := of_decide_eq_true hc
      simp only at hcase ⊢
      rw [hcase, htext]
  have hne : settings.redisHost.toList ≠ [] :=
    fun hnil => h.host (String.toList_eq_nil_iff.mp hnil)
  have hport := port_toString settings.redisPort
  rw [if_pos ⟨by have := h.port.1; omega, h.port.2⟩] at hport
  have hinfo := rcut_of_plain h
  have hhostinfo : hostinfo (secretInfo settings ++ redisAddress settings) =
      (settings.redisHost.toList, some (toString settings.redisPort).toList) := by
    rw [hostinfo, hinfo]
    exact hostport_of_plain h
  have haccepts : rules.accepts (secretInfo settings ++ redisAddress settings) :=
    decide_eq_true ⟨h.brackets, h.normal⟩
  rw [parseUrl, dropPrefix?_redisUrl, Option.bind_some, netloc_of_plain h, if_pos haccepts,
    hhostinfo, hport]
  refine ⟨_, rfl, ?_, ?_, ?_⟩
  · show decoded (userinfo (secretInfo settings ++ redisAddress settings)).2 = settings.redisSecret
    rw [userinfo, hinfo]
    cases hpassword : settings.redisSecret with
    | none => rfl
    | some password =>
        exact decoded_text (redisSecret_ne hpassword) (h.password password hpassword).2
  · show (if settings.redisHost.toList = [] then none
      else decoded (some (hostname rules settings.redisHost.toList))) = some settings.redisHost
    rw [if_neg hne, hhostname]
    exact decoded_text h.host h.hostEscapes
  · show (some settings.redisPort).filter (fun n => n ≠ 0) = some settings.redisPort
    have hport := h.port.1
    rw [Option.filter_some, if_pos (decide_eq_true (by omega))]

/-- What a URL that is read has in its authority. -/
theorem of_parseUrl {url host : String} {n : ℤ} {s : List Char} {parsed : RedisUrl}
    (hurl : url.toList.dropPrefix? "redis://".toList = some s)
    (hread : parseUrl rules url = some parsed) (hhost : parsed.host = some host)
    (hport : parsed.port = some n) :
    (Brackets.bracketsFit rules.bracketsInHost (netloc s) ∧ rules.normal (netloc s)) ∧
      parsed.password = decoded (userinfo (netloc s)).2 ∧
      ∃ name t, hostinfo (netloc s) = (name, some t) ∧ name ≠ [] ∧
        unquote (hostname rules name) = host.toList ∧
        ParseUrl.port (some t) = some (some n) ∧ n ≠ 0 := by
  rw [parseUrl, hurl, Option.bind_some] at hread
  split at hread
  · next haccepts =>
      obtain ⟨number, hnumber, rfl⟩ := Option.map_eq_some_iff.mp hread
      refine ⟨of_decide_eq_true haccepts, rfl, ?_⟩
      obtain ⟨rfl, hzero⟩ := Option.filter_eq_some_iff.mp hport
      rcases hinfo : hostinfo (netloc s) with ⟨name, _ | t⟩ <;> rw [hinfo] at hnumber hhost
      · cases hnumber
      · change (if name = [] then none
          else decoded (some (hostname rules name))) = some host at hhost
        split at hhost
        · cases hhost
        · next hne =>
          refine ⟨name, t, rfl, hne, ?_, hnumber, of_decide_eq_true hzero⟩
          obtain ⟨text, htext, rfl⟩ := Option.map_eq_some_iff.mp hhost
          obtain ⟨htext, -⟩ := Option.filter_eq_some_iff.mp htext
          cases htext
          rw [String.toList_ofList]
  · cases hread

/-- Where the authority ends. -/
theorem netloc_spec {s : List Char} (hs : '/' ∈ s) :
    ∃ c y, (s.filter fun c => !isUnsafe c) = netloc s ++ c :: y ∧ endsNetloc c ∧
      ∀ a ∈ netloc s, ¬endsNetloc a := by
  obtain ⟨-, hfree⟩ | ⟨x, c, y, hcut, htext, hc, hfree⟩ :=
    cut_cases endsNetloc (s.filter fun c => !isUnsafe c)
  · exact absurd (by decide) (hfree '/' (List.mem_filter.mpr ⟨hs, by decide⟩))
  · rw [netloc, hcut]
    exact ⟨c, y, htext, hc, hfree⟩

/-- **The address that is read back** is that of the settings. -/
theorem of_address_read (hrules : rules.Lowers) {v s y name t : List Char} {c : Char}
    (htext : (settings.redisHost.toList.filter fun c => !isUnsafe c) ++
      ':' :: ((toString settings.redisPort).toList ++ ['/', '0']) = v ++ (s ++ c :: y))
    (hv : v = [] ∨ '@' ∈ v) (hc : endsNetloc c) (hfree : ∀ a ∈ s, ¬endsNetloc a) (hat : '@' ∉ s)
    (hport : hostport s = (name, some t))
    (hread : unquote (hostname rules name) = settings.redisHost.toList) :
    (v = [] ∧ s = redisAddress settings ∧ name = settings.redisHost.toList ∧
        t = (toString settings.redisPort).toList) ∧
      (∀ c ∈ settings.redisHost.toList, ¬endsNetloc c ∧ ¬isUnsafe c ∧ c ≠ '@' ∧ c ≠ ':' ∧ c ≠ '[') ∧
      hasEscape settings.redisHost.toList = false ∧
      rules.lower (cut (· = '%') settings.redisHost.toList).1 =
        (cut (· = '%') settings.redisHost.toList).1 := by
  have hdigits : ':' ∉ (toString settings.redisPort).toList ++ ['/', '0'] ∧
      ']' ∉ (toString settings.redisPort).toList ++ ['/', '0'] := by
    simp only [List.mem_append, not_or]
    exact ⟨⟨fun h => (safe_port _ _ h).2.2.1 rfl, by decide⟩,
      ⟨fun h => (safe_port _ _ h).2.2.2.2 rfl, by decide⟩⟩
  obtain ⟨rfl, rfl, rfl, hbracket, hcolon⟩ := of_host_read hrules hdigits htext hv hport hread
  obtain ⟨hsafe, hescape, hcase⟩ := of_unquote_hostname hrules hread
  have hkept : (settings.redisHost.toList.filter fun c => !isUnsafe c) =
      settings.redisHost.toList :=
    List.filter_eq_self.mpr fun c hc => by rw [hsafe c hc]; rfl
  rw [hkept] at htext hfree hat hbracket hcolon ⊢
  rw [List.nil_append, List.append_assoc, List.append_cancel_left_eq, List.cons_append,
    List.cons.injEq] at htext
  -- the port ends where the authority ends
  have hends : cut endsNetloc (t ++ c :: y) = (t, some (c, y)) :=
    cut_append (fun a ha => hfree a (List.mem_append_right _ (List.mem_cons_of_mem _ ha))) hc
  rw [← htext.2, cut_append (fun a ha => (safe_port _ a ha).1.1) (by decide), Prod.mk.injEq]
    at hends
  obtain ⟨rfl, -⟩ := hends
  refine ⟨⟨rfl, rfl, rfl, rfl⟩, fun a ha => ?_, hescape, hcase⟩
  refine ⟨hfree a (List.mem_append_left _ ha), ne_true_of_eq_false (hsafe a ha), ?_, ?_, ?_⟩
  · rintro rfl
    exact hat (List.mem_append_left _ ha)
  · rintro rfl
    exact hcolon ha
  · rintro rfl
    exact hbracket (List.mem_append_left _ ha)

/-- The user information that is read. -/
theorem of_userinfo_password {s password : List Char} (hread : (userinfo s).2 = some password) :
    ∃ name hi, s = name ++ ':' :: (password ++ '@' :: hi) ∧ ':' ∉ name ∧ '@' ∉ hi ∧
      rcut (fun c => c = '@') s = (some (name ++ ':' :: password), hi) := by
  unfold userinfo at hread
  rcases hinfo : rcut (fun c => c = '@') s with ⟨_ | i, hi⟩ <;> rw [hinfo] at hread
  · cases hread
  · rcases hcut : cut (fun c => c = ':') i with ⟨name, _ | ⟨c, rest⟩⟩ <;>
      simp only [hcut] at hread
    · cases hread
    · cases hread
      obtain ⟨rfl, hc, hname⟩ := cut_eq_some_iff.mp hcut
      obtain rfl := of_decide_eq_true hc
      obtain ⟨d, rfl, hd, hhi⟩ := rcut_eq_some_iff.mp hinfo
      obtain rfl := of_decide_eq_true hd
      refine ⟨name, hi, by simp, fun hmem => hname ':' hmem (by decide),
        fun hmem => hhi '@' hmem (by decide), rfl⟩

/-- Nothing of the address but the host may be dropped. -/
theorem filter_address :
    (settings.redisHost.toList ++
      ':' :: ((toString settings.redisPort).toList ++ ['/', '0'])).filter (fun c => !isUnsafe c) =
        (settings.redisHost.toList.filter fun c => !isUnsafe c) ++
          ':' :: ((toString settings.redisPort).toList ++ ['/', '0']) := by
  have hport : ((toString settings.redisPort).toList ++ ['/', '0']).filter (fun c => !isUnsafe c) =
      (toString settings.redisPort).toList ++ ['/', '0'] := by
    refine List.filter_eq_self.mpr (List.forall_mem_append.mpr ⟨fun c hc => ?_, by simp [isUnsafe]⟩)
    rw [Bool.not_eq_true']
    exact Bool.not_eq_true _ ▸ (safe_port _ c hc).1.2
  rw [List.filter_append, List.filter_cons_of_pos (by decide), hport]

/-- **The address in an authority that is read back**, behind the secret and behind what else
ends in an at sign. -/
theorem exists_address {s y : List Char} {c : Char}
    (htext : (secretInfo settings ++ (settings.redisHost.toList ++
      ':' :: ((toString settings.redisPort).toList ++ ['/', '0']))).filter (fun c => !isUnsafe c) =
        s ++ c :: y)
    (hfree : ∀ a ∈ s, ¬endsNetloc a) (hsecret : settings.redisSecret = decoded (userinfo s).2) :
    ∃ v hi, (v = [] ∨ '@' ∈ v) ∧
      (settings.redisHost.toList.filter fun c => !isUnsafe c) ++
        ':' :: ((toString settings.redisPort).toList ++ ['/', '0']) = v ++ (hi ++ c :: y) ∧
      '@' ∉ hi ∧ hostinfo s = hostport hi ∧ s = secretInfo settings ++ (v ++ hi) ∧
      ∀ password ∈ settings.redisSecret, (∀ c ∈ password.toList, ¬endsNetloc c ∧ ¬isUnsafe c) ∧
        hasEscape password.toList = false := by
  rw [List.filter_append, filter_address] at htext
  unfold secretInfo at htext ⊢
  cases hsec : settings.redisSecret with
  | none =>
      rw [hsec] at htext
      rcases hcut : rcut (fun c => c = '@') s with ⟨_ | i, hi⟩
      · obtain ⟨rfl, hat⟩ := rcut_eq_none_iff.mp hcut
        refine ⟨[], hi, .inl rfl, htext, fun hmem => hat '@' hmem (by decide), ?_, rfl, nofun⟩
        rw [hostinfo, hcut]
      · obtain ⟨d, rfl, hd, hat⟩ := rcut_eq_some_iff.mp hcut
        obtain rfl := of_decide_eq_true hd
        refine ⟨i ++ ['@'], hi, .inr (by simp), ?_, fun hmem => hat '@' hmem (by decide), ?_,
          by simp, nofun⟩
        · rw [List.filter_nil, List.nil_append] at htext
          rw [htext]
          simp
        · rw [hostinfo, hcut]
  | some password =>
      rw [hsec] at htext hsecret
      obtain ⟨q, hq, rfl⟩ := Option.map_eq_some_iff.mp hsecret.symm
      obtain ⟨name, hi, rfl, hname, hat, hcut⟩ :=
        of_userinfo_password (Option.filter_eq_some_iff.mp hq).1
      -- the authority starts with the colon of the secret
      cases name with
      | cons a name =>
          have hcolon := (List.cons.inj htext).1
          exact absurd (hcolon ▸ List.mem_cons_self) hname
      | nil =>
          have hunquote : unquote q = (String.ofList (unquote q)).toList :=
            String.toList_ofList.symm
          generalize String.ofList (unquote q) = password at *
          have htext' : (password.toList.filter fun c => !isUnsafe c) ++
              '@' :: ((settings.redisHost.toList.filter fun c => !isUnsafe c) ++
                ':' :: ((toString settings.redisPort).toList ++ ['/', '0'])) =
              q ++ '@' :: (hi ++ c :: y) := by
            rw [List.filter_cons_of_pos (by decide), List.filter_append,
              List.filter_cons_of_pos (by decide), List.filter_nil] at htext
            simpa using htext
          obtain ⟨rfl, hsafe, hescape, haddress⟩ := of_password_read htext' hunquote
          refine ⟨[], hi, .inl rfl, haddress, hat, ?_, by simp, ?_⟩
          · rw [hostinfo, hcut]
          · rintro _ ⟨⟩
            refine ⟨fun a ha => ⟨hfree a ?_, hsafe a ha⟩, hescape⟩
            exact List.mem_cons_of_mem _ (List.mem_append_left _ ha)

/-- **When the settings are read back** from the URL of Redis. -/
theorem parseUrl_redisUrl_iff (hrules : rules.Lowers) :
    (∃ parsed, parseUrl rules settings.redisUrl = some parsed ∧
      parsed.password = settings.redisSecret ∧ parsed.host = some settings.redisHost ∧
        parsed.port = some settings.redisPort) ↔ RedisPlain rules settings := by
  refine ⟨?_, parseUrl_of_plain⟩
  rintro ⟨parsed, hread, hpassword, hhost, hport⟩
  obtain ⟨haccepts, hsecret, name, t, hinfo, hne, hname, hnumber, hzero⟩ :=
    of_parseUrl (dropPrefix?_redisUrl settings) hread hhost hport
  rw [hpassword] at hsecret
  obtain ⟨c, y, htext, hc, hfree⟩ := netloc_spec (s := secretInfo settings ++
    (settings.redisHost.toList ++ ':' :: ((toString settings.redisPort).toList ++ ['/', '0'])))
    (by simp)
  obtain ⟨v, hi, hv, haddress, hat, hsame, hauthority, hpasswords⟩ :=
    exists_address htext hfree hsecret
  have hfree' : ∀ a ∈ hi, ¬endsNetloc a := by
    intro a ha
    refine hfree a ?_
    rw [hauthority]
    exact List.mem_append_right _ (List.mem_append_right _ ha)
  obtain ⟨⟨rfl, rfl, rfl, rfl⟩, hdelimiters, hescapes, hcase⟩ :=
    of_address_read hrules haddress hv hc hfree' hat (hsame.symm.trans hinfo) hname
  rw [port_toString] at hnumber
  rw [hauthority] at haccepts
  split at hnumber
  · next hrange =>
      exact ⟨hpasswords, fun hempty => hne (String.toList_eq_nil_iff.mpr hempty), hdelimiters,
        hescapes, hcase, ⟨by omega, hrange.2⟩, haccepts.1, haccepts.2⟩
  · cases hnumber

end Settings

end Rooti

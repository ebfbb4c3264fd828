import Rooti.Core.Decimal
import Rooti.Core.Security

/-!
# Tokens are read as they were issued

`parse_token` reads seven claims that `create_token` wrote: the subject as a decimal
text, the instants in seconds, the type by its name.  A token is read back until it
expires, by a caller that expects its type or none.

Two calls in `create_token` can fail: `str(...)` of an id of more than 4300 digits,
and `timedelta(...)` of more than 999999999 days.

## Main definitions

* `createTokenOrRaise` — `create_token` with these failures
* `createTokenOrRaise_parse` — what becomes of a token

## What carries the proof

`validateClaims_eq` puts the checks of the decoder in the order in which they raise. The
claims of a token that was created pass those on texts without looking at the clock, so
that only the three on instants are left: the token is not from the future, it may have
no `nbf`, and it has not expired. Reading back the subject is `Py.int?_toString`.
-/

namespace Rooti

open Program

variable {V D : Type}

/-! ## Creating tokens -/

/-- A `timedelta` of so many seconds is one of at most 999999999 days. -/
def timedeltaFits (seconds : ℤ) : Prop :=
  -999999999 * 86400 ≤ seconds ∧ seconds < 1000000000 * 86400

instance (seconds : ℤ) : Decidable (timedeltaFits seconds) :=
  inferInstanceAs (Decidable (_ ∧ _))

/-- `create_token` with the exceptions of `timedelta(...)` and `str(user_id)`, which the
services do not meet: their ids come from the database, and their lifetimes are of minutes and
days.  It is `createToken` wherever it returns (`createTokenOrRaise_eq`). -/
def createTokenOrRaise (env : Env) (crypto : Crypto V) (userId : ℤ) (username : String)
    (roles : List String) (tokenType : TokenType) : Async V D V := do
  let t ← now
  Prog.raiseIf (decide ¬timedeltaFits (ttlSeconds env.settings tokenType))
    overflowError
  Prog.raiseIf (decide ¬Py.strFits userId) valueError
  return tokenAt env.settings crypto userId username roles tokenType t

/-- The token can be created. -/
def Creatable (settings : Settings) (userId : ℤ) (tokenType : TokenType) : Prop :=
  timedeltaFits (ttlSeconds settings tokenType) ∧ Py.strFits userId

instance (settings : Settings) (userId : ℤ) (tokenType : TokenType) :
    Decidable (Creatable settings userId tokenType) := inferInstanceAs (Decidable (_ ∧ _))

section Create

variable {env : Env} {crypto : Crypto V} {userId : ℤ} {username : String} {roles : List String}
  {tokenType : TokenType}

/-- Where nothing fails, this is `createToken`. -/
theorem createTokenOrRaise_eq (h : Creatable env.settings userId tokenType) :
    (createTokenOrRaise env crypto userId username roles tokenType : Async V D V) =
      createToken env crypto userId username roles tokenType := by
  unfold createTokenOrRaise createToken
  rw [decide_eq_false (not_not.mpr h.1), decide_eq_false (not_not.mpr h.2)]
  rfl

/-- Creating a token reads the clock once and signs the claims. -/
theorem run_createToken (s : Session) (w : World V D) :
    (server env).run (createToken env crypto userId username roles tokenType) s w =
      (.ok (crypto.jwt.encode (tokenClaims env.settings userId username roles tokenType
        (nowEpoch (env.clock w.ticks)))), s, w.tick) := rfl

/-- Reading a token reads the clock once, whatever it finds. -/
theorem run_parseToken {expectedType : Option TokenType} {token : V} (s : Session)
    (w : World V D) :
    (server env).run (parseToken env crypto expectedType token) s w =
      (parseTokenAt env.settings crypto expectedType (env.clock w.ticks) token, s, w.tick) := by
  unfold parseToken
  cases h : parseTokenAt env.settings crypto expectedType (env.clock w.ticks) token <;>
    simp [h, Prog.ofExcept]

/-- A token that cannot be created. -/
theorem run_createTokenOrRaise_of_not (h : ¬Creatable env.settings userId tokenType)
    (s : Session) (w : World V D) :
    ∃ e, (server env).run (createTokenOrRaise env crypto userId username roles tokenType) s w =
      (.error e, s, w.tick) := by
  unfold createTokenOrRaise
  by_cases httl : timedeltaFits (ttlSeconds env.settings tokenType)
  · have hid : ¬Py.strFits userId := fun hid => h ⟨httl, hid⟩
    rw [decide_eq_false (not_not.mpr httl), decide_eq_true hid]
    exact ⟨_, rfl⟩
  · rw [decide_eq_true httl]
    exact ⟨_, rfl⟩

end Create

/-! ## Reading them -/

section Checks

variable {claims : Json} {name text : String} {issuer : String} {now : ℤ} {ok : ℤ → Bool}
  {e : JwtError}

/-- The claims that a token must have. -/
def requireClaims (claims : Json) : Except JwtError Unit :=
  ["exp", "iat", "sub", "typ"].forM fun name =>
    check ((claims.field? name).any (· ≠ .null))
      (.invalid ("Token is missing the \"" ++ name ++ "\" claim"))

/-- A claim that is an instant, if there is one. -/
def instantClaim (claims : Json) (name text : String) (ok : ℤ → Bool) (e : JwtError) :
    Except JwtError Unit :=
  match claims.field? name with
  | none => .ok ()
  | some j => do
      let n ← intClaim text j
      check (ok n) e

/-- The claims that are texts. -/
def otherClaims (issuer : String) (claims : Json) : Except JwtError Unit := do
  checkIssuer issuer (claims.field? "iss")
  check (isFalsyClaim (claims.field? "aud")) (.invalid "Invalid audience")
  check (isStringClaim (claims.field? "sub")) (.invalid "Subject must be a string")
  check (isStringClaim (claims.field? "jti")) (.invalid "JWT ID must be a string")

/-- **The checks of the decoder**, one after the other. -/
theorem validateClaims_eq (issuer : String) (now : ℤ) (claims : Json) :
    validateClaims issuer now claims = (do
      requireClaims claims
      instantClaim claims "iat" "Issued At claim (iat) must be an integer."
        (fun n => n * 1000000 ≤ now) (.invalid "The token is not yet valid (iat)")
      instantClaim claims "nbf" "Not Before claim (nbf) must be an integer."
        (fun n => n * 1000000 ≤ now) (.invalid "The token is not yet valid (nbf)")
      instantClaim claims "exp" "Expiration Time claim (exp) must be an integer."
        (fun n => now < n * 1000000) .expired
      otherClaims issuer claims) := by
  unfold validateClaims instantClaim requireClaims otherClaims
  rcases claims.field? "iat" with _ | iat <;> rcases claims.field? "nbf" with _ | nbf <;>
    rcases claims.field? "exp" with _ | exp <;> simp only [bind_assoc]

/-- A list of checks that all hold. -/
theorem forM_check_ok {names : List String} {b : String → Bool} {err : String → JwtError}
    (h : ∀ name ∈ names, b name) : (names.forM fun name => check (b name) (err name)) = .ok () := by
  induction names with
  | nil => rfl
  | cons name names ih =>
      obtain ⟨hname, hnames⟩ := List.forall_mem_cons.mp h
      have hstep : ((name :: names).forM fun name => check (b name) (err name)) =
          (check (b name) (err name)).bind fun _ =>
            names.forM fun name => check (b name) (err name) := rfl
      rw [hstep, ih hnames, check, if_pos hname]
      rfl

/-- A claim that is an integer is checked as one. -/
theorem instantClaim_int {n : ℤ} (h : claims.field? name = some (.int n)) :
    instantClaim claims name text ok e = check (ok n) e := by
  rw [instantClaim, h]
  rfl

/-- A claim that is missing is not checked. -/
theorem instantClaim_none (h : claims.field? name = none) :
    instantClaim claims name text ok e = .ok () := by
  rw [instantClaim, h]

end Checks

section Parse

variable {settings : Settings} {crypto : Crypto V} {userId : ℤ} {username : String}
  {roles : List String} {tokenType : TokenType} {expectedType : Option TokenType} {iat now : ℤ}

/-- The claims of a token, by name. -/
theorem field?_tokenClaims {name : String} {j : Json}
    (h : (name, j) ∈ [("iss", Json.str settings.jwtIssuer), ("sub", .str (toString userId)),
      ("iat", .int iat), ("exp", .int (iat + ttlSeconds settings tokenType)),
      ("usn", .str username), ("roles", .arr (roles.map .str)), ("typ", .str tokenType.value)]) :
    (tokenClaims settings userId username roles tokenType iat).field? name = some j :=
  Json.field?_of_mem (by simp) h

/-- A token has seven claims and no others. -/
theorem field?_tokenClaims_eq_none {name : String}
    (h : name ∉ ["iss", "sub", "iat", "exp", "usn", "roles", "typ"]) :
    (tokenClaims settings userId username roles tokenType iat).field? name = none :=
  Json.field?_eq_none h

/-- None of the claims that are required is missing. -/
theorem requireClaims_tokenClaims :
    requireClaims (tokenClaims settings userId username roles tokenType iat) = .ok () := by
  refine forM_check_ok fun name hname => ?_
  obtain ⟨j, hj, hnull⟩ : ∃ j, (tokenClaims settings userId username roles tokenType iat).field?
      name = some j ∧ j ≠ .null := by
    simp only [List.mem_cons, List.not_mem_nil, or_false] at hname
    obtain rfl | rfl | rfl | rfl := hname
    · exact ⟨.int (iat + ttlSeconds settings tokenType), field?_tokenClaims (by simp), nofun⟩
    · exact ⟨.int iat, field?_tokenClaims (by simp), nofun⟩
    · exact ⟨.str (toString userId), field?_tokenClaims (by simp), nofun⟩
    · exact ⟨.str tokenType.value, field?_tokenClaims (by simp), nofun⟩
  rw [hj, Option.any_some]
  exact decide_eq_true hnull

/-- The issuer is the one that is expected, there is no audience and no id, and the
subject is a text. -/
theorem otherClaims_tokenClaims :
    otherClaims settings.jwtIssuer
      (tokenClaims settings userId username roles tokenType iat) = .ok () := by
  have hiss : (tokenClaims settings userId username roles tokenType iat).field? "iss" =
      some (.str settings.jwtIssuer) := field?_tokenClaims (by simp)
  have hsub : (tokenClaims settings userId username roles tokenType iat).field? "sub" =
      some (.str (toString userId)) := field?_tokenClaims (by simp)
  have haud : (tokenClaims settings userId username roles tokenType iat).field? "aud" = none :=
    field?_tokenClaims_eq_none (by decide)
  have hjti : (tokenClaims settings userId username roles tokenType iat).field? "jti" = none :=
    field?_tokenClaims_eq_none (by decide)
  rw [otherClaims, hiss, hsub, haud, hjti, checkIssuer, decide_eq_true rfl]
  rfl

/-- **The checks of the decoder**: a token that was issued before is good until it expires. -/
theorem validateClaims_tokenClaims (h : iat * 1000000 ≤ now) :
    validateClaims settings.jwtIssuer now
        (tokenClaims settings userId username roles tokenType iat) =
      if now < (iat + ttlSeconds settings tokenType) * 1000000 then .ok () else .error .expired := by
  have hiat : instantClaim (tokenClaims settings userId username roles tokenType iat) "iat"
      "Issued At claim (iat) must be an integer." (fun n => n * 1000000 ≤ now)
      (.invalid "The token is not yet valid (iat)") = .ok () := by
    have hfield : (tokenClaims settings userId username roles tokenType iat).field? "iat" =
        some (.int iat) := field?_tokenClaims (by simp)
    rw [instantClaim_int hfield, check, decide_eq_true h]
    rfl
  have hnbf : instantClaim (tokenClaims settings userId username roles tokenType iat) "nbf"
      "Not Before claim (nbf) must be an integer." (fun n => n * 1000000 ≤ now)
      (.invalid "The token is not yet valid (nbf)") = .ok () :=
    instantClaim_none (field?_tokenClaims_eq_none (by decide))
  have hexp : instantClaim (tokenClaims settings userId username roles tokenType iat) "exp"
      "Expiration Time claim (exp) must be an integer." (fun n => now < n * 1000000) .expired =
      if now < (iat + ttlSeconds settings tokenType) * 1000000 then .ok ()
      else .error .expired := by
    have hfield : (tokenClaims settings userId username roles tokenType iat).field? "exp" =
        some (.int (iat + ttlSeconds settings tokenType)) := field?_tokenClaims (by simp)
    rw [instantClaim_int hfield, check]
    exact if_congr decide_eq_true_iff rfl rfl
  rw [validateClaims_eq, requireClaims_tokenClaims, hiat, hnbf, hexp]
  split_ifs
  · rw [otherClaims_tokenClaims]
    rfl
  · rfl

/-- The payload a token was issued for. -/
def issuedPayload (settings : Settings) (userId : ℤ) (username : String) (roles : List String)
    (tokenType : TokenType) (iat : ℤ) : JwtPayload :=
  { userId, username, tokenType
    roles := roles.map .str
    issuedAt := iat
    expiresAt := iat + ttlSeconds settings tokenType }

/-- The names of the types differ. -/
theorem TokenType.value_injective : Function.Injective TokenType.value := by
  intro a b h
  cases a <;> cases b <;> first | rfl | exact absurd h (by decide)

/-- The type written into a token is the type read. -/
theorem tokenType_of_value :
    (if Json.str tokenType.value = .str "REFRESH" then TokenType.refresh else .access) =
      tokenType := by
  cases tokenType <;> rfl

/-- What is made of the claims of a token that passed. -/
theorem payloadOfClaims_tokenClaims (hstr : ∀ s, crypto.str (.str s) = s)
    (hid : Py.strFits userId) :
    payloadOfClaims crypto expectedType
        (tokenClaims settings userId username roles tokenType iat) =
      if ∀ t ∈ expectedType, t = tokenType then
        .ok (issuedPayload settings userId username roles tokenType iat)
      else .error (authTokenInvalidException ("Unexpected token type: expected " ++
        (expectedType.getD .access).value ++ ", got " ++ tokenType.value)) := by
  have htyp : (tokenClaims settings userId username roles tokenType iat).field? "typ" =
      some (.str tokenType.value) := field?_tokenClaims (by simp)
  have hsub : subjectOf (tokenClaims settings userId username roles tokenType iat) =
      .ok userId := by
    have hfield : (tokenClaims settings userId username roles tokenType iat).field? "sub" =
        some (.str (toString userId)) := field?_tokenClaims (by simp)
    have hint : Py.intOf (.str (toString userId)) = .ok userId := by
      simp only [Py.intOf, Py.int?_toString, if_pos hid]
    rw [subjectOf, hfield, Option.map_some, hint]
  have hroles : rolesOf (tokenClaims settings userId username roles tokenType iat) =
      .ok (roles.map .str) := by
    have hfield : (tokenClaims settings userId username roles tokenType iat).field? "roles" =
        some (.arr (roles.map .str)) := field?_tokenClaims (by simp)
    rw [rolesOf, hfield]
    rfl
  have hiat : (tokenClaims settings userId username roles tokenType iat).field? "iat" =
      some (.int iat) := field?_tokenClaims (by simp)
  have hexp : (tokenClaims settings userId username roles tokenType iat).field? "exp" =
      some (.int (iat + ttlSeconds settings tokenType)) := field?_tokenClaims (by simp)
  have husn : (tokenClaims settings userId username roles tokenType iat).field? "usn" =
      some (.str username) := field?_tokenClaims (by simp)
  -- every claim that is read is one that was written
  unfold payloadOfClaims
  dsimp only
  rw [htyp, hsub, hroles, hiat, hexp, husn]
  simp only [Option.getD_some, hstr, tokenType_of_value]
  rcases expectedType with _ | t
  · rw [if_pos (by simp)]
    rfl
  · by_cases ht : t = tokenType
    · subst ht
      rw [if_pos (by simp), checkType, if_pos rfl]
      rfl
    · have hne : Json.str tokenType.value ≠ .str t.value := fun h =>
        ht (TokenType.value_injective (Json.str.inj h).symm)
      rw [if_neg (by simpa using ht), checkType, if_neg hne, hstr]
      rfl

/-- **Reading a token that was issued before.** -/
theorem parseTokenAt_encode (hstr : ∀ s, crypto.str (.str s) = s) (hid : Py.strFits userId)
    (h : iat * 1000000 ≤ now) :
    parseTokenAt settings crypto expectedType now
        (crypto.jwt.encode (tokenClaims settings userId username roles tokenType iat)) =
      if now < (iat + ttlSeconds settings tokenType) * 1000000 then
        if ∀ t ∈ expectedType, t = tokenType then
          .ok (issuedPayload settings userId username roles tokenType iat)
        else .error (authTokenInvalidException ("Unexpected token type: expected " ++
          (expectedType.getD .access).value ++ ", got " ++ tokenType.value))
      else .error authTokenExpiredException := by
  rw [parseTokenAt, PyJWT.decode, crypto.jwt.verify_encode]
  dsimp only
  rw [validateClaims_tokenClaims h]
  by_cases hlive : now < (iat + ttlSeconds settings tokenType) * 1000000
  · rw [if_pos hlive, if_pos hlive]
    exact payloadOfClaims_tokenClaims hstr hid
  · rw [if_neg hlive, if_neg hlive]
    rfl

end Parse

/-- **Tokens are read as they were issued.**  A token of a `Creatable` kind comes back
with all it was issued for until its lifetime is over, to a caller that expects its
type or none; any other is not created. -/
theorem createTokenOrRaise_parse (env : Env) (crypto : Crypto V)
    (hstr : ∀ s, crypto.str (.str s) = s) (userId : ℤ) (username : String) (roles : List String)
    (tokenType : TokenType) (expectedType : Option TokenType) (s s' : Session) (w w' : World V D)
    (hlater : nowEpoch (env.clock w.ticks) ≤ env.clock w'.ticks / 1000000) :
    (Creatable env.settings userId tokenType →
      ∃ token,
        (server env).run (createTokenOrRaise env crypto userId username roles tokenType) s w =
          (.ok token, s, w.tick) ∧
        (server env).run (parseToken env crypto expectedType token) s' w' =
          (if env.clock w'.ticks / 1000000 <
                nowEpoch (env.clock w.ticks) + ttlSeconds env.settings tokenType then
              if ∀ t ∈ expectedType, t = tokenType then
                .ok (issuedPayload env.settings userId username roles tokenType
                  (nowEpoch (env.clock w.ticks)))
              else .error (authTokenInvalidException ("Unexpected token type: expected " ++
                (expectedType.getD .access).value ++ ", got " ++ tokenType.value))
            else .error authTokenExpiredException,
            s', w'.tick)) ∧
    (¬Creatable env.settings userId tokenType →
      ∃ e, (server env).run
        (createTokenOrRaise env crypto userId username roles tokenType) s w =
          (.error e, s, w.tick)) := by
  refine ⟨fun hcreate => ?_, fun hcreate => run_createTokenOrRaise_of_not hcreate s w⟩
  rw [createTokenOrRaise_eq hcreate]
  refine ⟨_, run_createToken s w, ?_⟩
  have hbefore : nowEpoch (env.clock w.ticks) * 1000000 ≤ env.clock w'.ticks := by omega
  have hparse : parseTokenAt env.settings crypto expectedType (env.clock w'.ticks)
      (crypto.jwt.encode (tokenClaims env.settings userId username roles tokenType
        (nowEpoch (env.clock w.ticks)))) = _ := parseTokenAt_encode hstr hcreate.2 hbefore
  -- the decoder compares instants, the caller counts seconds
  have hseconds : env.clock w'.ticks <
        (nowEpoch (env.clock w.ticks) + ttlSeconds env.settings tokenType) * 1000000 ↔
      env.clock w'.ticks / 1000000 <
        nowEpoch (env.clock w.ticks) + ttlSeconds env.settings tokenType := by
    omega
  rw [if_congr hseconds rfl rfl] at hparse
  rw [← hparse]
  exact run_parseToken s' w'

/-- A token of user 7 is good in the second it was issued in. -/
theorem createTokenOrRaise_parse_still :
    ∃ token : Json,
      (server still).run (createTokenOrRaise still Crypto.plain 7 "kim" ["ADMIN"] .access) {}
          (World.fresh Db.sample ()) =
        (.ok token, {}, (World.fresh Db.sample ()).tick) ∧
      (server still).run (parseToken still Crypto.plain (some .access) token) {}
          (World.fresh Db.sample ()) =
        (.ok (issuedPayload still.settings 7 "kim" ["ADMIN"] .access 0), {},
          (World.fresh Db.sample ()).tick) := by
  have hcreate : Creatable still.settings 7 .access :=
    ⟨by decide, Py.strFits_of_lt_ten (by decide)⟩
  obtain ⟨token, htoken, hread⟩ := (createTokenOrRaise_parse still Crypto.plain (fun _ => rfl)
    7 "kim" ["ADMIN"] .access (some .access) {} {} (World.fresh Db.sample ())
    (World.fresh Db.sample ()) (by decide)).1 hcreate
  refine ⟨token, htoken, ?_⟩
  rw [hread, if_pos (by decide), if_pos (by simp)]
  rfl

/-- No token is created for a user whose id has 4301 digits. -/
theorem createTokenOrRaise_long_id :
    ¬∃ token : Json,
      ((server still).run (createTokenOrRaise still Crypto.plain (10 ^ 4300) "kim" ["ADMIN"]
        .access) {} (World.fresh Db.sample ())).1 = .ok token := by
  have hcreate : ¬Creatable still.settings (10 ^ 4300) .access := by
    rintro ⟨-, hid⟩
    exact lt_irrefl Py.maxStrDigits (Py.strFits_ten_pow.mp hid)
  obtain ⟨e, he⟩ : ∃ e, (server still).run (createTokenOrRaise still Crypto.plain (10 ^ 4300)
      "kim" ["ADMIN"] .access) {} (World.fresh Db.sample ()) =
        (.error e, {}, (World.fresh Db.sample ()).tick) :=
    run_createTokenOrRaise_of_not hcreate {} _
  rintro ⟨token, htoken⟩
  rw [he] at htoken
  cases htoken

end Rooti

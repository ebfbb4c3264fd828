import Rooti.RefreshTokens.History

/-!
# Rotation of refresh tokens

A refresh is meant to consume its token: the new pair overwrites the stored
token, and the consumed one is rejected from then on.  Tokens carry no unique
id; a token is its user, username, role and the second of its issuance.  What
makes a new token differ from the consumed one is therefore the clock alone:
while every accepted refresh mints its token in a later second than the `iat` of
the token it consumes, a consumed token never comes back
(`singleUse_of_allLater`); within the same second it is minted again and
accepted again (`singleUse_fails`).

## Main definitions

* `SingleUse` — a consumed token is rejected for ever, and presenting it revokes
* `Later`, `AllLater` — refreshes in a later second than their token's `iat`
* `Minted`, `Superseded` — the invariants of the proof

## What carries the proof

Two invariants go through a run, one for each half of the argument. Before the token is
accepted, every stored token was minted for its user in the past (`StoreMinted`), so the
`iat` of the accepted one is the second in which it was minted. From then on the second
of that `iat` is over, and whatever is stored for the user has been minted later
(`Superseded`). `entry_serve` is all that both need to know about an operation: it
leaves the entry, removes it, or replaces it by a token minted now.

A token stored later differs from the consumed one since its second does, and reading a
token twice gives the same payload (`parseTokenAt_unique`), so a second refresh looks
under the same user.
-/

namespace Rooti

open Relational Program

variable {V D : Type} (env : Env) (crypto : Crypto V)

/-! ## Tokens and their seconds -/

/-- The token was issued to a user with the clock read at tick `n`. -/
def Minted (userId : ℤ) (token : V) (n : ℕ) : Prop :=
  ∃ username roles, token = crypto.jwt.encode
    (tokenClaims env.settings userId username roles .refresh (nowEpoch (env.clock n)))

/-- The refresh token of a pair is minted with it. -/
theorem minted_issuedPair (user : User) (n : ℕ) :
    Minted env crypto user.id (issuedPair env crypto user n).refreshToken (n + 1) :=
  ⟨user.username, [user.role.value], rfl⟩

/-- Tokens issued in different seconds are different. -/
theorem nowEpoch_eq_of_minted {env : Env} {crypto : Crypto V} {u u' : ℤ} {token : V} {n n' : ℕ}
    (h : Minted env crypto u token n) (h' : Minted env crypto u' token n') :
    nowEpoch (env.clock n) = nowEpoch (env.clock n') := by
  obtain ⟨_, _, rfl⟩ := h
  obtain ⟨_, _, h'⟩ := h'
  have hclaims := crypto.jwt.encode_injective h'
  simp only [tokenClaims, Json.obj.injEq, List.cons.injEq, Prod.mk.injEq, Json.int.injEq] at hclaims
  exact hclaims.2.2.1.2

/-- What a validly decoded token says does not depend on when it is read. -/
theorem parseTokenAt_ok {settings : Settings} {crypto : Crypto V} {ty : Option TokenType} {t : ℤ}
    {token : V} {p : JwtPayload} (h : parseTokenAt settings crypto ty t token = .ok p) :
    ∃ claims, crypto.jwt.verify token = .ok claims ∧ payloadOfClaims crypto ty claims = .ok p := by
  unfold parseTokenAt PyJWT.decode at h
  cases hv : crypto.jwt.verify token with
  | error text => simp [hv] at h
  | ok claims =>
      simp only [hv] at h
      cases hc : validateClaims settings.jwtIssuer t claims with
      | error e => cases e <;> simp [hc, bind, Except.bind] at h
      | ok _ => exact ⟨claims, rfl, by simpa [hc, bind, Except.bind, pure, Except.pure] using h⟩

/-- A token that is read at different times is read alike. -/
theorem parseTokenAt_unique {settings : Settings} {crypto : Crypto V} {ty : Option TokenType}
    {t t' : ℤ} {token : V} {p p' : JwtPayload}
    (h : parseTokenAt settings crypto ty t token = .ok p)
    (h' : parseTokenAt settings crypto ty t' token = .ok p') : p = p' := by
  obtain ⟨claims, hv, hp⟩ := parseTokenAt_ok h
  obtain ⟨claims', hv', hp'⟩ := parseTokenAt_ok h'
  obtain rfl : claims = claims' := Except.ok.inj (hv.symm.trans hv')
  exact Except.ok.inj (hp.symm.trans hp')

/-- The `iat` a token is read with is the second it was issued in. -/
theorem issuedAt_of_minted {env : Env} {crypto : Crypto V} {ty : Option TokenType} {t : ℤ}
    {token : V} {p : JwtPayload} {u : ℤ} {n : ℕ} (hm : Minted env crypto u token n)
    (h : parseTokenAt env.settings crypto ty t token = .ok p) :
    p.issuedAt = nowEpoch (env.clock n) := by
  obtain ⟨username, roles, rfl⟩ := hm
  obtain ⟨claims, hv, hp⟩ := parseTokenAt_ok h
  rw [crypto.jwt.verify_encode] at hv
  cases hv
  exact (Except.ok.inj (issuedAt_of_payloadOfClaims hp)).symm

/-! ## What one operation does to one user's entry -/

section Entry

variable [DecidableEq V]

/-- **One operation, one user**: the user's entry stays, goes, or becomes a token
minted by the operation. -/
theorem entry_serve (op : AuthOp V) (w : World V D) (u : ℤ) :
    w.ticks ≤ (op.serve env crypto w).2.ticks ∧
      ((op.serve env crypto w).2.redis (RefreshTokenStore.key u) =
          w.redis (RefreshTokenStore.key u) ∨
        (op.serve env crypto w).2.redis (RefreshTokenStore.key u) = none ∨
        ∃ token e n, (op.serve env crypto w).2.redis (RefreshTokenStore.key u) =
            some ⟨token, e⟩ ∧ Minted env crypto u token n ∧ w.ticks ≤ n ∧
          n < (op.serve env crypto w).2.ticks) := by
  have hserve := serve_redis env (op.script env crypto) w
  have heffect := op.effect env crypto w
  change _ ∧ (op.run env crypto w).2.2.ticks ≤ (op.serve env crypto w).2.ticks at hserve
  rw [AuthOp.redis_serve]
  generalize op.event env crypto w = event at heffect ⊢
  cases heffect with
  | none h => exact ⟨h.ticks.trans hserve.2, .inl rfl⟩
  | issued user n ticks _ _ _ =>
      refine ⟨by omega, ?_⟩
      by_cases hu : u = user.id
      · subst hu
        exact .inr (.inr ⟨_, _, n + 1, KeyValue.Store.set_same .., minted_issuedPair ..,
          by omega, by omega⟩)
      · exact .inl (apply_of_ne (e := .issued user.id _ _) (fun h => hu h.symm) _)
  | revoked userId ticks _ _ =>
      refine ⟨ticks.trans hserve.2, ?_⟩
      by_cases hu : u = userId
      · subst hu
        exact .inr (.inl (KeyValue.Store.del_same ..))
      · exact .inl (apply_of_ne (e := .revoked userId) (fun h => hu h.symm) _)

/-- **An accepted refresh**, read backwards: the token parsed and was the stored
one, its user was there and enabled, and a token minted by the refresh replaced it. -/
theorem serve_refresh_eq_ok {token : V} {w : World V D} {a : Option (TokenResponse V)}
    (h : ((AuthOp.refresh token).serve env crypto w).1 = .ok a) :
    ∃ p e, parseTokenAt env.settings crypto (some .refresh) (env.clock w.ticks) token = .ok p ∧
      w.redis.get (env.redisClock (w.ticks + 1)) (RefreshTokenStore.key p.userId) =
        some token ∧
      (∃ user, w.db.find? .user p.userId = some user ∧ user.enabled) ∧
      ((AuthOp.refresh token).serve env crypto w).2.redis (RefreshTokenStore.key p.userId) =
        some e ∧
      Minted env crypto p.userId e.value (w.ticks + 4) ∧
      w.ticks + 4 < ((AuthOp.refresh token).serve env crypto w).2.ticks := by
  have hserve := serve_redis env ((AuthOp.refresh token).script env crypto) w
  change ((AuthOp.refresh token).serve env crypto w).2.redis = _ ∧ _ ≤
    ((AuthOp.refresh token).serve env crypto w).2.ticks at hserve
  rw [hserve.1]
  have hticks := hserve.2
  unfold AuthOp.serve at h
  rw [serve_eq] at h
  -- of all the branches only the one that issues a pair answers
  simp only [AuthOp.script, Prog.bind_eq, Prog.pure_eq, Machine.run_bind, run_refresh] at h hticks ⊢
  cases hp : parseTokenAt env.settings crypto (some .refresh) (env.clock w.ticks) token with
  | error e => simp [hp] at h
  | ok p =>
      simp only [hp] at h hticks ⊢
      by_cases hstored : w.redis.get (env.redisClock (w.ticks + 1))
          (RefreshTokenStore.key p.userId) = some token
      · simp only [hstored, if_true] at h hticks ⊢
        cases hfind : w.db.find? .user p.userId with
        | none => by_cases hid : bigint p.userId <;> simp [hid, hfind] at h
        | some user =>
            have hkey : user.id = p.userId := Table.find?_key hfind
            simp only [bigint_of_find? hfind, hfind, if_true] at h hticks ⊢
            by_cases hen : user.enabled
            · simp only [hen, if_true, run_issueTokenPair] at h hticks ⊢
              by_cases httl : refreshTtlSeconds env.settings ≤ 0
              · simp [httl] at h
              · simp only [httl, if_false, Machine.run_ret, World.tick_ticks] at h hticks ⊢
                refine ⟨p, ⟨(issuedPair env crypto user (w.ticks + 3)).refreshToken,
                  storedUntil env (w.ticks + 5)⟩, rfl, hstored, ⟨user, hfind, hen⟩, ?_, ?_, by omega⟩
                · rw [← hkey]
                  exact KeyValue.Store.set_same ..
                · rw [← hkey]
                  exact minted_issuedPair ..
            · simp [hen] at h
      · simp [hstored] at h

/-- A refresh with a readable token that is not the stored one revokes. -/
theorem redis_of_mismatch {token : V} {w : World V D} {p : JwtPayload}
    (hp : parseTokenAt env.settings crypto (some .refresh) (env.clock w.ticks) token = .ok p)
    (h : w.redis.get (env.redisClock (w.ticks + 1)) (RefreshTokenStore.key p.userId) ≠
      some token) :
    ((AuthOp.refresh token).serve env crypto w).2.redis (RefreshTokenStore.key p.userId) =
      none := by
  have hevent : (AuthOp.refresh token).event env crypto w = some (.revoked p.userId) := by
    simp [AuthOp.event, hp, h]
  rw [AuthOp.redis_serve, hevent]
  exact KeyValue.Store.del_same ..

end Entry

/-! ## Single use -/

section SingleUse

variable [DecidableEq V]

/-- **Single use**: in the run, whatever refresh token was accepted once is
rejected whenever it is presented again; if it can still be read, presenting it
leaves its user without a stored token. -/
def SingleUse (ops : List (AuthOp V)) (w₀ : World V D) : Prop :=
  ∀ before between after token,
    ops = before ++ .refresh token :: (between ++ .refresh token :: after) →
    let w₁ := AuthOp.runAll env crypto before w₀
    let w₂ := AuthOp.runAll env crypto (before ++ .refresh token :: between) w₀
    ((AuthOp.refresh token).serve env crypto w₁).1.isOk →
      ¬((AuthOp.refresh token).serve env crypto w₂).1.isOk ∧
        ∀ p, parseTokenAt env.settings crypto (some .refresh) (env.clock w₂.ticks) token =
            .ok p →
          ((AuthOp.refresh token).serve env crypto w₂).2.redis (RefreshTokenStore.key p.userId) =
            none

/-- An accepted refresh mints its token in a later second than the `iat` of the
token it consumes.  The refresh token's clock is read by the fifth command.  A refresh
whose user is gone or disabled mints nothing, and nothing is asked of it. -/
def Later (op : AuthOp V) (w : World V D) : Prop :=
  ∀ token p user, op = .refresh token →
    parseTokenAt env.settings crypto (some .refresh) (env.clock w.ticks) token = .ok p →
    w.redis.get (env.redisClock (w.ticks + 1)) (RefreshTokenStore.key p.userId) = some token →
    w.db.find? .user p.userId = some user → user.enabled →
    p.issuedAt < nowEpoch (env.clock (w.ticks + 4))

/-- Every operation of the run is `Later`. -/
def AllLater : List (AuthOp V) → World V D → Prop
  | [], _ => True
  | op :: ops, w => Later env crypto op w ∧ AllLater ops (op.serve env crypto w).2

/-- Every stored token was minted for the user it is stored under, in the past. -/
def StoreMinted (w : World V D) : Prop :=
  ∀ u token e, w.redis (RefreshTokenStore.key u) = some ⟨token, e⟩ →
    ∃ n, Minted env crypto u token n ∧ n < w.ticks

/-- Second `i` is over, and the token stored for user `u` is from after it. -/
def Superseded (u i : ℤ) (w : World V D) : Prop :=
  i < nowEpoch (env.clock w.ticks) ∧
    ∀ token e, w.redis (RefreshTokenStore.key u) = some ⟨token, e⟩ →
      ∃ n, Minted env crypto u token n ∧ i < nowEpoch (env.clock n)

/-- The seconds do not run backwards. -/
theorem nowEpoch_mono (hclock : Monotone env.clock) {n n' : ℕ} (h : n ≤ n') :
    nowEpoch (env.clock n) ≤ nowEpoch (env.clock n') :=
  Int.tdiv_le_tdiv (by decide) (hclock h)

variable {env} {crypto}

/-- Operations store what they mint. -/
theorem StoreMinted.serve {w : World V D} (h : StoreMinted env crypto w) (op : AuthOp V) :
    StoreMinted env crypto (op.serve env crypto w).2 := by
  intro u token e hentry
  obtain ⟨hticks, hsame | hnone | ⟨token', e', n, hnew, hminted, -, hn⟩⟩ :=
    entry_serve env crypto op w u
  · obtain ⟨n, hminted, hn⟩ := h u token e (hsame ▸ hentry)
    exact ⟨n, hminted, hn.trans_le hticks⟩
  · simp [hnone] at hentry
  · obtain ⟨rfl, rfl⟩ : token' = token ∧ e' = e := by simpa [hnew] using hentry
    exact ⟨n, hminted, hn⟩

/-- A second that is over stays so, and operations mint in the present one. -/
theorem Superseded.serve (hclock : Monotone env.clock) {u i : ℤ} {w : World V D}
    (h : Superseded env crypto u i w) (op : AuthOp V) :
    Superseded env crypto u i (op.serve env crypto w).2 := by
  obtain ⟨hticks, hentry⟩ := entry_serve env crypto op w u
  refine ⟨h.1.trans_le (nowEpoch_mono env hclock hticks), fun token e htoken => ?_⟩
  obtain hsame | hnone | ⟨token', e', n, hnew, hminted, hn, -⟩ := hentry
  · exact h.2 token e (hsame ▸ htoken)
  · simp [hnone] at htoken
  · obtain ⟨rfl, rfl⟩ : token' = token ∧ e' = e := by simpa [hnew] using htoken
    exact ⟨n, hminted, h.1.trans_le (nowEpoch_mono env hclock hn)⟩

/-- Over several operations. -/
theorem Superseded.runAll (hclock : Monotone env.clock) {u i : ℤ} (ops : List (AuthOp V))
    {w : World V D} (h : Superseded env crypto u i w) :
    Superseded env crypto u i (AuthOp.runAll env crypto ops w) := by
  induction ops generalizing w with
  | nil => exact h
  | cons op ops ih => exact ih (h.serve hclock op)

/-- Over several operations. -/
theorem StoreMinted.runAll (ops : List (AuthOp V)) {w : World V D}
    (h : StoreMinted env crypto w) : StoreMinted env crypto (AuthOp.runAll env crypto ops w) := by
  induction ops generalizing w with
  | nil => exact h
  | cons op ops ih => exact ih (h.serve op)

/-- A run in two parts. -/
theorem AuthOp.runAll_append (ops ops' : List (AuthOp V)) (w : World V D) :
    AuthOp.runAll env crypto (ops ++ ops') w =
      AuthOp.runAll env crypto ops' (AuthOp.runAll env crypto ops w) := by
  induction ops generalizing w with
  | nil => rfl
  | cons op ops ih => exact ih _

/-- The second part of such a run. -/
theorem AllLater.append {ops ops' : List (AuthOp V)} {w : World V D}
    (h : AllLater env crypto (ops ++ ops') w) :
    AllLater env crypto ops' (AuthOp.runAll env crypto ops w) := by
  induction ops generalizing w with
  | nil => exact h
  | cons op ops ih => exact ih h.2

/-- The consumed token is superseded by an accepted later refresh. -/
theorem superseded_of_accepted (hclock : Monotone env.clock) {token : V} {w : World V D}
    {a : Option (TokenResponse V)} (hlater : Later env crypto (.refresh token) w)
    (h : ((AuthOp.refresh token).serve env crypto w).1 = .ok a) :
    ∃ p, parseTokenAt env.settings crypto (some .refresh) (env.clock w.ticks) token = .ok p ∧
      w.redis.get (env.redisClock (w.ticks + 1)) (RefreshTokenStore.key p.userId) =
        some token ∧
      Superseded env crypto p.userId p.issuedAt
        ((AuthOp.refresh token).serve env crypto w).2 := by
  obtain ⟨p, e, hp, hstored, ⟨user, hfind, henabled⟩, hentry, hminted, hticks⟩ :=
    serve_refresh_eq_ok env crypto h
  have hiat := hlater token p user rfl hp hstored hfind henabled
  refine ⟨p, hp, hstored, hiat.trans_le (nowEpoch_mono env hclock hticks.le), ?_⟩
  intro token' e' htoken'
  obtain rfl : e = ⟨token', e'⟩ := Option.some.inj (hentry.symm.trans htoken')
  exact ⟨_, hminted, hiat⟩

omit [DecidableEq V] in
/-- A superseded token is not the stored one. -/
theorem Superseded.not_stored {p p' : JwtPayload} {t t' t'' : ℤ} {token : V} {n : ℕ}
    {w : World V D} (hp : parseTokenAt env.settings crypto (some .refresh) t token = .ok p)
    (hminted : Minted env crypto p.userId token n)
    (h : Superseded env crypto p.userId p.issuedAt w)
    (hp' : parseTokenAt env.settings crypto (some .refresh) t' token = .ok p') :
    w.redis.get t'' (RefreshTokenStore.key p'.userId) ≠ some token := by
  intro hget
  obtain rfl := parseTokenAt_unique hp hp'
  obtain ⟨e, hentry, -⟩ := KeyValue.Store.get_eq_some.mp hget
  obtain ⟨n', hminted', hlt⟩ := h.2 token e hentry
  rw [issuedAt_of_minted hminted hp, nowEpoch_eq_of_minted hminted hminted'] at hlt
  exact lt_irrefl _ hlt

/-- **Rotation is single-use while the clock moves on.**  Under a non-decreasing
clock, in every run from a state without refresh tokens in which every accepted
refresh mints its token in a later second than the `iat` of the token it
consumes, every refresh token is accepted at most once. -/
theorem singleUse_of_allLater (hclock : Monotone env.clock) (w₀ : World V D)
    (h₀ : ∀ userId, w₀.redis (RefreshTokenStore.key userId) = none) (ops : List (AuthOp V))
    (hlater : AllLater env crypto ops w₀) : SingleUse env crypto ops w₀ := by
  rintro before between after token rfl w₁ w₂ hok
  obtain ⟨a, ha⟩ : ∃ a, ((AuthOp.refresh token).serve env crypto w₁).1 = .ok a := by
    cases h : ((AuthOp.refresh token).serve env crypto w₁).1 with
    | error e => simp [h, Except.isOk, Except.toBool] at hok
    | ok a => exact ⟨a, rfl⟩
  have hminted : StoreMinted env crypto w₁ :=
    StoreMinted.runAll before fun u token e h => by simp [h₀ u] at h
  obtain ⟨p, hp, hstored, hsup⟩ := superseded_of_accepted hclock hlater.append.1 ha
  obtain ⟨e, hentry, -⟩ := KeyValue.Store.get_eq_some.mp hstored
  obtain ⟨n, hn, -⟩ := hminted _ _ _ hentry
  have hw₂ : w₂ = AuthOp.runAll env crypto between
      ((AuthOp.refresh token).serve env crypto w₁).2 := by
    show AuthOp.runAll env crypto (before ++ .refresh token :: between) w₀ = _
    rw [AuthOp.runAll_append]
    rfl
  have hsup₂ : Superseded env crypto p.userId p.issuedAt w₂ := hw₂ ▸ hsup.runAll hclock between
  refine ⟨fun hok₂ => ?_, fun p' hp' =>
    redis_of_mismatch env crypto hp' (hsup₂.not_stored hp hn hp')⟩
  cases h : ((AuthOp.refresh token).serve env crypto w₂).1 with
  | error e => simp [h, Except.isOk, Except.toBool] at hok₂
  | ok a₂ =>
      obtain ⟨p', _, hp', hstored', -⟩ := serve_refresh_eq_ok env crypto h
      exact hsup₂.not_stored hp hn hp' hstored'

/-- A signup, its refresh, and the consumed token presented again, with a clock
that advances by a second at every command. -/
theorem singleUse_ticking :
    SingleUse ticking .plain
      [.sampleSignup, .refresh (sampleToken 8), .refresh (sampleToken 8)]
      (World.fresh (Database.empty schema) ()) := by
  have hclock : Monotone ticking.clock := fun n n' h =>
    Int.mul_le_mul_of_nonneg_right (Int.ofNat_le.mpr h) (by decide)
  refine singleUse_of_allLater hclock _ (fun _ => rfl) _ ⟨?_, ?_, ?_, trivial⟩
  · rintro token p user ⟨⟩
  all_goals
    rintro token p user ⟨⟩ hp - - -
    obtain rfl : samplePayload 8 = p := by
      refine Except.ok.inj (.trans ?_ hp)
      decide +kernel
    decide +kernel

/-- **Within one second a consumed token comes back.**  A self-signup, its
refresh, and the consumed token presented again, all in one second: the refresh
mints the very token it consumes, and the second refresh is accepted. -/
theorem singleUse_fails :
    ¬ ∀ clock : ℕ → ℤ, Monotone clock → ∀ ops : List (AuthOp Json),
      SingleUse (Env.ofClock {} clock) .plain ops (World.fresh (Database.empty schema) ()) := by
  intro h
  have huse := h (fun _ => 8000000) (fun _ _ _ => le_refl _)
    [.sampleSignup, .refresh (sampleToken 8), .refresh (sampleToken 8)]
    [.sampleSignup] [] [] (sampleToken 8) rfl
  exact (huse (by decide +kernel)).1 (by decide +kernel)

end SingleUse

end Rooti

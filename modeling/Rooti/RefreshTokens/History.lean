import Mathlib
import Rooti.RefreshTokens.Operations

/-!
# The token store and the history of a run

A run of account operations, one after another, leaves a history of issuances
and revocations.  The store is a function of that history: under every user's
key stands the token of the user's most recent issuance, unless a revocation
followed it or its time ran out.  A refresh token is accepted exactly when it is
that token.

## Main definitions

* `AuthOp.runAll`, `AuthOp.history` — runs and their histories
* `lastEntry`, `liveToken` — what a history leaves stored for a user
* `redis_runAll` — the store is what the history leaves
* `refresh_accepts_iff` — which refresh tokens are accepted after a run
-/

namespace Rooti

open Relational Program

variable {V D : Type}

/-- Different users have different keys. -/
theorem RefreshTokenStore.key_injective : Function.Injective RefreshTokenStore.key := by
  intro u u' h
  exact Int.repr_injective (by simpa [RefreshTokenStore.key, String.append_right_inj] using h)

/-! ## What a history leaves stored -/

/-- The entry a history leaves for a user: that of the last event about the
user, if it is an issuance. -/
def lastEntry (history : List (TokenEvent V)) (userId : ℤ) : Option (KeyValue.Entry V) :=
  match (history.filter fun e => e.userId = userId).getLast? with
  | some (.issued _ token expires) => some ⟨token, expires⟩
  | some (.revoked _) => none
  | none => none

/-- The token a history leaves for a user, while its time has not run out. -/
def liveToken (history : List (TokenEvent V)) (userId : ℤ) (t : ℤ) : Option V :=
  match lastEntry history userId with
  | some e => if t ≤ e.expires then some e.value else none
  | none => none

/-- The store after the events of a history. -/
def TokenEvent.applyAll (history : List (TokenEvent V)) (redis : KeyValue.Store String V) :
    KeyValue.Store String V :=
  history.foldl (fun r e => e.apply r) redis

theorem lastEntry_concat (history : List (TokenEvent V)) (e : TokenEvent V) (userId : ℤ) :
    lastEntry (history ++ [e]) userId =
      if e.userId = userId then e.apply KeyValue.Store.empty (RefreshTokenStore.key userId)
      else lastEntry history userId := by
  by_cases hu : e.userId = userId
  · subst hu
    simp only [lastEntry, List.filter_append, List.filter_cons, List.filter_nil, decide_true,
      if_true, List.getLast?_append, List.getLast?_singleton, Option.some_or]
    cases e <;> simp [TokenEvent.apply, TokenEvent.userId]
  · simp [lastEntry, hu]

theorem apply_of_ne {e : TokenEvent V} {userId : ℤ} (h : e.userId ≠ userId)
    (redis : KeyValue.Store String V) :
    e.apply redis (RefreshTokenStore.key userId) = redis (RefreshTokenStore.key userId) := by
  have hkey : RefreshTokenStore.key userId ≠ RefreshTokenStore.key e.userId :=
    fun hk => h (RefreshTokenStore.key_injective hk).symm
  cases e <;> simp only [TokenEvent.userId] at hkey <;> simp [TokenEvent.apply, hkey]

theorem apply_same (e : TokenEvent V) (redis redis' : KeyValue.Store String V) :
    e.apply redis (RefreshTokenStore.key e.userId) =
      e.apply redis' (RefreshTokenStore.key e.userId) := by
  cases e <;> simp [TokenEvent.apply, TokenEvent.userId]

/-- **The last event about a user decides**: replaying a history on a store
without tokens leaves what `lastEntry` says. -/
theorem applyAll_eq_lastEntry {redis : KeyValue.Store String V} {userId : ℤ}
    (h : redis (RefreshTokenStore.key userId) = none) (history : List (TokenEvent V)) :
    TokenEvent.applyAll history redis (RefreshTokenStore.key userId) =
      lastEntry history userId := by
  induction history using List.reverseRecOn with
  | nil => simpa [TokenEvent.applyAll, lastEntry] using h
  | append_singleton history e ih =>
      rw [lastEntry_concat, TokenEvent.applyAll, List.foldl_append]
      by_cases hu : e.userId = userId
      · subst hu
        simp only [if_true]
        exact apply_same e _ _
      · simp only [hu, if_false]
        rw [← ih]
        exact apply_of_ne hu _

/-! ## Runs -/

namespace AuthOp

variable (env : Env) (crypto : Crypto V) [DecidableEq V]

/-- The state after a run of operations, one after another. -/
def runAll : List (AuthOp V) → World V D → World V D
  | [], w => w
  | op :: ops, w => runAll ops (op.serve env crypto w).2

/-- The events of a run, in order. -/
def history : List (AuthOp V) → World V D → List (TokenEvent V)
  | [], _ => []
  | op :: ops, w => (op.event env crypto w).toList ++ history ops (op.serve env crypto w).2

/-- **The store is what the history leaves.** -/
theorem redis_runAll (ops : List (AuthOp V)) (w : World V D) :
    (runAll env crypto ops w).redis =
      TokenEvent.applyAll (history env crypto ops w) w.redis := by
  induction ops generalizing w with
  | nil => rfl
  | cons op ops ih =>
      rw [runAll, ih, redis_serve, history, TokenEvent.applyAll, TokenEvent.applyAll,
        List.foldl_append]
      cases op.event env crypto w <;> rfl

/-- Tokens are only ever issued with a positive lifetime. -/
theorem ttl_pos_of_issued {ops : List (AuthOp V)} {w : World V D} {u : ℤ} {token : V}
    {expires : ℤ} (h : TokenEvent.issued u token expires ∈ history env crypto ops w) :
    0 < refreshTtlSeconds env.settings := by
  induction ops generalizing w with
  | nil => cases h
  | cons op ops ih =>
      rw [history, List.mem_append] at h
      rcases h with h | h
      · have heffect := op.effect env crypto w
        rw [Option.mem_toList] at h
        rw [h] at heffect
        cases heffect with
        | issued _ _ _ httl _ _ => exact httl
      · exact ih h

/-- Where a token is live, lifetimes are positive. -/
theorem ttl_pos_of_liveToken {ops : List (AuthOp V)} {w : World V D} {u t : ℤ} {token : V}
    (h : liveToken (history env crypto ops w) u t = some token) :
    0 < refreshTtlSeconds env.settings := by
  unfold liveToken lastEntry at h
  cases hlast : ((history env crypto ops w).filter fun e => e.userId = u).getLast? with
  | none => simp [hlast] at h
  | some e =>
      cases e with
      | issued u' token' expires =>
          have hmem := List.mem_of_getLast? hlast
          exact ttl_pos_of_issued env crypto (List.mem_filter.mp hmem).1
      | revoked u' => simp [hlast] at h

end AuthOp

/-! ## Acceptance -/

section Acceptance

variable (env : Env) (crypto : Crypto V) [DecidableEq V]

/-- A refresh is accepted when the token parses, is the stored token of the user
it names, and that user exists and is enabled. -/
theorem serve_refresh_ok_iff (token : V) (w : World V D) :
    (∃ pair, (serve env (AuthService.refresh env crypto token) w).1 = .ok pair) ↔
      0 < refreshTtlSeconds env.settings ∧
        ∃ p, parseTokenAt env.settings crypto (some .refresh) (env.clock w.ticks) token = .ok p ∧
          w.redis.get (env.redisClock (w.ticks + 1)) (RefreshTokenStore.key p.userId) =
            some token ∧
          ∃ user, w.db.find? .user p.userId = some user ∧ user.enabled := by
  rw [serve_eq, run_refresh]
  cases parseTokenAt env.settings crypto (some .refresh) (env.clock w.ticks) token with
  | error e => simp
  | ok p =>
      simp only [Except.ok.injEq, exists_eq_left']
      by_cases hstored : w.redis.get (env.redisClock (w.ticks + 1))
          (RefreshTokenStore.key p.userId) = some token
      · simp only [hstored, if_true, true_and]
        cases hfind : w.db.find? .user p.userId with
        | none => by_cases hid : bigint p.userId <;> simp [hid]
        | some user =>
            simp only [bigint_of_find? hfind, if_true, Option.some.injEq, exists_eq_left']
            by_cases hen : user.enabled
            · simp only [hen, if_true, run_issueTokenPair, and_true]
              by_cases httl : refreshTtlSeconds env.settings ≤ 0
              · simp [httl, not_lt.mpr httl]
              · simp [httl, not_le.mp httl]
            · simp [hen]
      · simp [hstored]

/-- **Exact acceptance.**  After any run of account operations from a state
without refresh tokens, every user's key serves the token the history leaves
live, and a refresh is accepted exactly when its token parses as an unexpired
refresh token, is the live token of the user it names, and that user exists and
is enabled. -/
theorem refresh_accepts_iff (w₀ : World V D)
    (h₀ : ∀ userId, w₀.redis (RefreshTokenStore.key userId) = none) (ops : List (AuthOp V)) :
    (∀ userId t, (AuthOp.runAll env crypto ops w₀).redis.get t (RefreshTokenStore.key userId) =
        liveToken (AuthOp.history env crypto ops w₀) userId t) ∧
      ∀ token,
        (∃ pair, (serve env (AuthService.refresh env crypto token)
            (AuthOp.runAll env crypto ops w₀)).1 = .ok pair) ↔
          ∃ p,
            parseTokenAt env.settings crypto (some .refresh)
                (env.clock (AuthOp.runAll env crypto ops w₀).ticks) token = .ok p ∧
              liveToken (AuthOp.history env crypto ops w₀) p.userId
                  (env.redisClock ((AuthOp.runAll env crypto ops w₀).ticks + 1)) = some token ∧
              ∃ user, (AuthOp.runAll env crypto ops w₀).db.find? .user p.userId = some user ∧
                user.enabled := by
  have hlive : ∀ userId t,
      (AuthOp.runAll env crypto ops w₀).redis.get t (RefreshTokenStore.key userId) =
        liveToken (AuthOp.history env crypto ops w₀) userId t := by
    intro userId t
    rw [KeyValue.Store.get, AuthOp.redis_runAll, applyAll_eq_lastEntry (h₀ userId)]
    rfl
  refine ⟨hlive, fun token => ?_⟩
  rw [serve_refresh_ok_iff]
  simp only [hlive]
  refine ⟨fun h => h.2, fun h => ⟨?_, h⟩⟩
  obtain ⟨p, -, hstored, -⟩ := h
  exact AuthOp.ttl_pos_of_liveToken env crypto hstored

end Acceptance

/-! ## An account -/

/-- The self-signup of a caregiver. -/
def AuthOp.sampleSignup : AuthOp Json :=
  .signup { username := "carer", email := "carer@rooti", password := "secret", name := "Carer" }

/-- The refresh token it is answered with on a fresh installation in second `s`. -/
def sampleToken (s : ℤ) : Json := tokenClaims {} 1 "carer" ["CAREGIVER"] .refresh s

/-- What the token says. -/
def samplePayload (s : ℤ) : JwtPayload where
  userId := 1
  username := "carer"
  roles := [.str "CAREGIVER"]
  tokenType := .refresh
  issuedAt := s
  expiresAt := s + 14 * 86400

/-- An installation with a clock that advances by a second at every command. -/
def ticking : Env := Env.ofClock {} fun n => n * 1000000

/-- A freshly issued token is accepted. -/
theorem refresh_accepts_signup :
    ∃ pair, (serve ticking (AuthService.refresh ticking .plain (sampleToken 8))
      (AuthOp.runAll ticking .plain [.sampleSignup]
        (World.fresh (Database.empty schema) ()))).1 = .ok pair := by
  have haccepts := refresh_accepts_iff ticking .plain (World.fresh (Database.empty schema) ())
    (fun _ => rfl) [.sampleSignup]
  refine (haccepts.2 (sampleToken 8)).mpr ⟨samplePayload 8, ?_, ?_, ?_⟩
  · decide +kernel
  · decide +kernel
  · refine ⟨AuthService.caregiverUser
      ⟨"carer", "carer@rooti", "secret", "Carer", none⟩ "secret" ⟨1, ⟨0, none⟩⟩, ?_, rfl⟩
    decide +kernel

end Rooti

import Rooti.Lib.Protocol
import Rooti.RefreshTokens.Rotation

/-!
# Account operations as parties to a protocol

Seen from the token store, an account operation is a short protocol: a refresh
reads its user's entry and goes on to store a token only if it found its own; a
login or signup goes on to store a token once it has started; a logout or
password change removes an entry.  The checks and the store are separate round
trips, so other operations run in between.

A pool of operations (`AuthOp.pool`) interleaves their scripts; `AuthOp.watched`
is the same pool with the stages recorded.  `AuthOp.follows` says that the
scripts follow the protocol, and `tokenStep` is what one step of a pool can do
to stages and store.

## Main definitions

* `TokenStage`, `tokenProtocol` — the stages of an operation
* `AuthOp.pool`, `AuthOp.watched` — concurrent operations
* `TokenStep`, `tokenStep` — one step of a pool
-/

namespace Rooti

open Relational Program

variable {V D : Type}

/-- **How far an operation is** with the token store. -/
inductive TokenStage (V : Type)
  /-- a refresh that has not read the store yet -/
  | checking (token : V)
  /-- the check is passed, for the entry of `key` where it named one, and the new
  token is not stored yet -/
  | holding (key : Option String)
  /-- the new token is stored -/
  | issued
  /-- nothing will be stored -/
  | refused
  /-- the entry of `key` is to be removed -/
  | revoking (key : String)
  /-- the entry of `key` was removed -/
  | revoked (key : String)
  deriving DecidableEq

/-- Between a passed check and the store of the new token. -/
def TokenStage.isHolding : TokenStage V → Bool
  | holding _ => true
  | _ => false

namespace AuthOp

/-- The stage an operation starts in.  Nothing about the store is checked by a
login or a signup. -/
def stage : AuthOp V → TokenStage V
  | login _ => .holding none
  | signup _ => .holding none
  | refresh token => .checking token
  | logout userId => .revoking (RefreshTokenStore.key userId)
  | changePassword userId _ _ => .revoking (RefreshTokenStore.key userId)
  | setEnabled _ _ => .refused

/-- The stage an operation returns in. -/
def finalStage : AuthOp V → TokenStage V
  | login _ => .issued
  | signup _ => .issued
  | refresh _ => .issued
  | logout userId => .revoked (RefreshTokenStore.key userId)
  | changePassword userId _ _ => .revoked (RefreshTokenStore.key userId)
  | setEnabled _ _ => .refused

end AuthOp

variable (env : Env) (crypto : Crypto V)

/-- The entry a refresh token is about. -/
def NamesKey (token : V) (key : String) : Prop :=
  ∃ t p, parseTokenAt env.settings crypto (some .refresh) t token = .ok p ∧
    key = RefreshTokenStore.key p.userId

theorem NamesKey.unique {env : Env} {crypto : Crypto V} {token : V} {k k' : String}
    (h : NamesKey env crypto token k) (h' : NamesKey env crypto token k') : k = k' := by
  obtain ⟨t, p, hp, rfl⟩ := h
  obtain ⟨t', p', hp', rfl⟩ := h'
  rw [parseTokenAt_unique hp hp']

/-- The stage of an operation that stores nothing after all. -/
def TokenStage.letGo : TokenStage V → TokenStage V
  | holding _ => refused
  | q => q

theorem TokenStage.letGo_ne_holding (q : TokenStage V) (held : Option String) :
    q.letGo ≠ .holding held := by
  cases q <;> exact fun h => nomatch h

theorem TokenStage.letGo_eq_issued {q : TokenStage V} : q.letGo = .issued ↔ q = .issued := by
  cases q <;> simp [letGo]

variable [DecidableEq V]

/-- The stage after a command and its answer.  An operation that was past its check and
is refused nevertheless, since its user is gone or disabled, removes the entry or rolls
back; it is not about to store anything then. -/
def TokenStage.next {β : Type} (q : TokenStage V) (c : Cmd V D β) (_ : World V D)
    (r : Except Err β) : TokenStage V :=
  match q, c, r with
  | .checking token, .redisGet key, .ok answer =>
      if answer = some token then .holding (some key) else .refused
  | .holding _, .redisSet .., .ok _ => .issued
  | .holding _, .redisSet .., .error _ => .refused
  | .revoking _, .redisDel key, _ => .revoked key
  | q, .redisDel _, _ => q.letGo
  | q, .rollback, _ => q.letGo
  | q, _, _ => q

/-- The commands on the store allowed in a stage: reading and storing under the
key the operation is about, and storing only tokens minted from tick `n₀` on. -/
def TokenStage.allowed {β : Type} (n₀ : ℕ) (q : TokenStage V) (c : Cmd V D β) : Prop :=
  match c with
  | .redisGet key => ∀ token, q = .checking token → NamesKey env crypto token key
  | .redisSet key value _ => ∃ held, q = .holding held ∧ (∀ k, held = some k → key = k) ∧
      ∃ userId n, key = RefreshTokenStore.key userId ∧ Minted env crypto userId value n ∧ n₀ ≤ n
  | .redisDel key => ∀ k, q = .revoking k → key = k
  | _ => True

/-- **The token protocol**, from tick `n₀` on. -/
def tokenProtocol (n₀ : ℕ) : Protocol (Cmd V D) Err (World V D) (TokenStage V) where
  next := TokenStage.next
  allowed := TokenStage.allowed env crypto n₀

/-- The commands on the token store. -/
def Cmd.onStore {β : Type} : Cmd V D β → Bool
  | .redisGet _ | .redisSet .. | .redisDel _ => true
  | _ => false

/-- The commands that can move a stage on. -/
def Cmd.movesStage {β : Type} : Cmd V D β → Bool
  | .rollback => true
  | c => c.onStore

/-- Other commands are allowed in every stage and keep it. -/
theorem tokenProtocol_other {n₀ : ℕ} {β : Type} {c : Cmd V D β} (hc : c.movesStage = false)
    (q : TokenStage V) :
    (tokenProtocol env crypto n₀).allowed q c ∧
      ∀ w r, (tokenProtocol env crypto n₀).next q c w r = q := by
  cases c <;> first
    | cases hc
      done
    | exact ⟨trivial, fun w r => by cases q <;> rfl⟩

/-- A rollback is allowed in every stage, and lets go of what is held. -/
theorem tokenProtocol_rollback {n₀ : ℕ} (q : TokenStage V) :
    (tokenProtocol env crypto n₀).allowed q (.rollback : Cmd V D Unit) ∧
      ∀ w r, (tokenProtocol env crypto n₀).next q (.rollback : Cmd V D Unit) w r = q.letGo :=
  ⟨trivial, fun _ _ => by cases q <;> rfl⟩

/-! ## The scripts follow the protocol -/

section Follows

variable {env : Env} {crypto : Crypto V} {n₀ : ℕ}

/-- Quiet scripts keep every stage. -/
theorem follows_quiet {α : Type} {p : Async V D α} (hp : Quiet p) (q : TokenStage V) :
    (server env).Follows (tokenProtocol env crypto n₀) (fun _ _ w => n₀ ≤ w.ticks) p q
      fun q' _ => q' = q :=
  Machine.Follows.of_only hp fun c hc =>
    tokenProtocol_other env crypto (by cases c <;> first | rfl | cases hc) q

/-- A command that keeps every stage. -/
theorem follows_other {α : Type} {c : Cmd V D α} (hc : c.movesStage = false) (q : TokenStage V) :
    (server env).Follows (tokenProtocol env crypto n₀) (fun _ _ w => n₀ ≤ w.ticks) (Prog.lift c) q
      fun q' _ => q' = q :=
  .lift (tokenProtocol_other env crypto hc q).1 fun _ _ _ =>
    (tokenProtocol_other env crypto hc q).2 _ _

/-- Loading an object keeps every stage. -/
theorem follows_dbGet {t : Entity} {id : ℤ} (q : TokenStage V) :
    (server env).Follows (tokenProtocol env crypto n₀) (fun _ _ w => n₀ ≤ w.ticks)
      (dbGet t id : Async V D _) q
      fun q' r => q' = q ∧ ∀ row, r = .ok (some row) → keyOf t row = id :=
  .lift trivial fun l w _ => ⟨(tokenProtocol_other env crypto rfl q).2 _ _,
    fun _ h => keyOf_of_dbGet env l w h⟩

/-- A rollback lets go. -/
theorem follows_rollback (q : TokenStage V) :
    (server env).Follows (tokenProtocol env crypto n₀) (fun _ _ w => n₀ ≤ w.ticks)
      (rollback : Async V D Unit) q fun q' _ => q' = q.letGo :=
  .lift (tokenProtocol_rollback env crypto q).1 fun _ _ _ =>
    (tokenProtocol_rollback env crypto q).2 _ _

/-- The end of a transaction keeps a stage in which nothing is held. -/
theorem follows_endTransaction {q : TokenStage V} (hq : q.letGo = q) :
    (server env).Follows (tokenProtocol env crypto n₀) (fun _ _ w => n₀ ≤ w.ticks)
      (endTransaction env : Async V D Unit) q fun q' _ => q' = q :=
  .ite (fun _ => (follows_rollback q).weaken fun _ _ h => h.trans hq)
    fun _ => follows_other (c := .commit) rfl q

/-- A transaction returns in the stage its operation returns in. -/
theorem follows_getDbSession {α : Type} {p : Async V D α} {q q' : TokenStage V}
    (hq' : q'.letGo = q')
    (hp : (server env).Follows (tokenProtocol env crypto n₀) (fun _ _ w => n₀ ≤ w.ticks) p q
      fun q'' r => ∀ a, r = .ok a → q'' = q') :
    (server env).Follows (tokenProtocol env crypto n₀) (fun _ _ w => n₀ ≤ w.ticks)
      (getDbSession env p) q fun q'' r => ∀ a, r = .ok a → q'' = q' := by
  have hrollback : ∀ (q₁ : TokenStage V) e, (server env).Follows (tokenProtocol env crypto n₀)
      (fun _ _ w => n₀ ≤ w.ticks) (Prog.bind rollback fun _ => Prog.raise e : Async V D α) q₁
      fun q'' r => ∀ a, r = .ok a → q'' = q' :=
    fun q₁ e => .bind ((follows_rollback q₁).weaken fun q₂ r _ => by
      cases r <;> exact fun _ h => nomatch h)
  refine .handle (.bind (hp.weaken fun q₁ r h => ?_))
  cases r with
  | error e => exact hrollback q₁ e
  | ok a =>
      obtain rfl := h a rfl
      refine Machine.Follows.bind ((follows_endTransaction hq').weaken ?_)
      rintro q₂ (e | _) rfl
      · exact hrollback q₂ e
      · exact fun _ _ => rfl

theorem follows_issueTokenPair (user : User) {held : Option String}
    (hheld : ∀ k, held = some k → RefreshTokenStore.key user.id = k) :
    (server env).Follows (tokenProtocol env crypto n₀) (fun _ _ w => n₀ ≤ w.ticks)
      (issueTokenPair env crypto user : Async V D _) (.holding held)
      fun q r => ∀ a, r = .ok a → q = .issued := by
  refine ⟨trivial, fun _ _ _ => ⟨trivial, fun _ w hw =>
    ⟨⟨held, rfl, hheld, user.id, w.ticks, rfl, ⟨_, _, rfl⟩, hw⟩, fun _ _ _ => ?_⟩⟩⟩
  simp only [server_exec, exec]
  by_cases httl : refreshTtlSeconds env.settings ≤ 0
  · simp only [httl, if_true]
    exact fun _ h => by cases h
  · simp only [httl, if_false]
    exact fun _ _ => rfl

/-- A quiet prologue, then an issuance. -/
theorem follows_issue {p : Async V D User} (hp : Quiet p) :
    (server env).Follows (tokenProtocol env crypto n₀) (fun _ _ w => n₀ ≤ w.ticks)
      (Prog.bind p fun user => Prog.bind (issueTokenPair env crypto user) fun pair =>
        Prog.ret (some pair)) (.holding none)
      fun q r => ∀ a, r = .ok a → q = .issued := by
  refine .bind ((follows_quiet hp _).weaken ?_)
  rintro _ (e | user) rfl
  · exact fun _ h => nomatch h
  · refine .bind ((follows_issueTokenPair user (by simp)).weaken ?_)
    rintro q (e | pair) h
    · exact fun _ h => nomatch h
    · exact fun _ _ => h pair rfl

/-- A removal of the entry an operation is about. -/
theorem follows_remove (userId : ℤ) {α : Type} {a : α} :
    (server env).Follows (tokenProtocol env crypto n₀) (fun _ _ w => n₀ ≤ w.ticks)
      (Prog.bind (RefreshTokenStore.remove userId : Async V D Unit) fun _ => Prog.ret a)
      (.revoking (RefreshTokenStore.key userId))
      fun q r => ∀ a, r = .ok a → q = .revoked (RefreshTokenStore.key userId) :=
  ⟨fun _ h => by cases h; rfl, fun _ _ _ _ _ => rfl⟩

theorem follows_refresh (token : V) :
    (server env).Follows (tokenProtocol env crypto n₀) (fun _ _ w => n₀ ≤ w.ticks)
      (AuthService.refresh env crypto token : Async V D _) (.checking token)
      fun q r => ∀ a, r = .ok a → q = .issued := by
  have hrefused : ∀ {userId : ℤ} {q : TokenStage V}, (∀ k, q ≠ .revoking k) →
      (server env).Follows (tokenProtocol env crypto n₀) (fun _ _ w => n₀ ≤ w.ticks)
        (Prog.bind (RefreshTokenStore.remove userId) fun _ =>
          Prog.raise authRefreshNotFoundException : Async V D (TokenResponse V)) q
        fun q r => ∀ a, r = .ok a → q = .issued :=
    fun hq => ⟨fun k h => absurd h (hq k), fun _ _ _ _ h => by cases h⟩
  refine ⟨trivial, fun _ w _ => ?_⟩
  simp only [server_exec, exec, Prog.ofExcept, Prog.ret_bind, Prog.bind_eq]
  cases hp : parseTokenAt env.settings crypto (some .refresh) (env.clock w.ticks) token with
  | error e => exact fun _ h => by cases h
  | ok p =>
      refine ⟨fun t h => ?_, fun _ w _ => ?_⟩
      · cases h
        exact ⟨_, p, hp, rfl⟩
      simp only [tokenProtocol, TokenStage.next, server_exec, exec, Prog.ofExcept, Prog.ret_bind,
        Prog.pure_eq]
      by_cases hstored : w.redis.get (env.redisClock w.ticks) (RefreshTokenStore.key p.userId) =
          some token
      · simp only [hstored, decide_true, if_true]
        refine .bind ((follows_dbGet _).weaken ?_)
        rintro _ (e | _ | user) ⟨rfl, hkey⟩
        · exact fun _ h => by cases h
        · exact fun _ h => by cases h
        · refine .ite (fun _ => ?_) fun _ => hrefused fun k h => by cases h
          refine follows_issueTokenPair user fun k h => ?_
          rw [show user.id = p.userId from hkey user rfl]
          exact Option.some.inj h
      · simp only [hstored, decide_false, Bool.false_eq_true, if_false]
        exact hrefused (fun k h => by cases h)

/-- **The operations follow the protocol**, each from its first stage to its
last. -/
theorem AuthOp.follows (op : AuthOp V) :
    (server env).Follows (tokenProtocol env crypto n₀) (fun _ _ w => n₀ ≤ w.ticks)
      (getDbSession env (op.script env crypto) : Async V D _) op.stage
      fun q r => ∀ a, r = .ok a → q = op.finalStage := by
  refine follows_getDbSession (by cases op <;> rfl) ?_
  cases op with
  | login req =>
      rw [script_login]
      exact follows_issue (quiet_loginPrologue env crypto req)
  | signup req =>
      rw [script_signup]
      exact follows_issue (quiet_signupPrologue crypto req)
  | refresh token =>
      refine .bind ((follows_refresh token).weaken ?_)
      rintro q (e | pair) h
      · exact fun _ h => nomatch h
      · exact fun _ _ => h pair rfl
  | logout userId => exact follows_remove userId
  | changePassword userId current new =>
      rw [script_changePassword]
      refine .bind ((follows_quiet (quiet_changePasswordPrologue crypto userId current new) _).weaken
        ?_)
      rintro _ (e | _) rfl
      · exact fun _ h => nomatch h
      · exact follows_remove userId
  | setEnabled userId enabled =>
      exact (follows_quiet (.bind (quiet_setEnabled userId enabled) fun _ => .ret) _).weaken
        fun _ _ h _ _ => h

end Follows

/-! ## Concurrent operations -/

section Pool

variable {ι : Type}

/-- **Concurrent operations**, none of which has done anything yet. -/
def AuthOp.pool (ops : ι → AuthOp V) (w : World V D) :
    Pool (Cmd V D) Err Session (World V D) ι (Option (TokenResponse V)) where
  prog := fun i => getDbSession env ((ops i).script env crypto)
  loc := fun _ => {}
  shared := w

/-- The same operations with their stages recorded. -/
def AuthOp.watched (ops : ι → AuthOp V) (w : World V D) :
    Pool (Cmd V D) Err (Session × TokenStage V) (World V D) ι (Option (TokenResponse V)) where
  prog := fun i => getDbSession env ((ops i).script env crypto)
  loc := fun i => ({}, (ops i).stage)
  shared := w

/-- Concurrent operations after the commands of a schedule. -/
abbrev AuthOp.playAll [DecidableEq ι] (ops : ι → AuthOp V) (w : World V D) (sched : List ι) :
    Pool (Cmd V D) Err Session (World V D) ι (Option (TokenResponse V)) :=
  Pool.play (server env) (AuthOp.pool env crypto ops w) sched

/-- The key the next command of a script reads. -/
def nextRead {α : Type} : Async V D α → Option String
  | .call (.redisGet key) _ => some key
  | _ => none

/-- The key the next command of a script removes. -/
def nextRemoval {α : Type} : Async V D α → Option String
  | .call (.redisDel key) _ => some key
  | _ => none

variable {env} {crypto} [DecidableEq ι]
  {p p' : Pool (Cmd V D) Err (Session × TokenStage V) (World V D) ι (Option (TokenResponse V))}
  {n₀ : ℕ} {i : ι}

/-- **What a step can do to stages and store.** -/
inductive TokenStep (env : Env) (crypto : Crypto V) (n₀ : ℕ)
    (p p' : Pool (Cmd V D) Err (Session × TokenStage V) (World V D) ι
      (Option (TokenResponse V))) (i : ι) : Prop
  /-- nothing, or a read without consequence -/
  | silent (stage : p'.stage = p.stage) (redis : p'.shared.redis = p.shared.redis)
  /-- a refresh reads the entry its token is about -/
  | read (token : V) (key : String) (now : p.stage i = .checking token)
      (names : NamesKey env crypto token key) (next : nextRead (p.prog i) = some key)
      (stage : p'.stage = Function.update p.stage i
        (if p.shared.redis.get (env.redisClock p.shared.ticks) key = some token then
          .holding (some key) else .refused))
      (redis : p'.shared.redis = p.shared.redis)
  /-- a new token is stored -/
  | store (held : Option String) (userId : ℤ) (token : V) (n : ℕ) (expires : ℤ)
      (now : p.stage i = .holding held)
      (names : ∀ k, held = some k → RefreshTokenStore.key userId = k)
      (minted : Minted env crypto userId token n ∧ n₀ ≤ n)
      (stage : p'.stage = Function.update p.stage i .issued)
      (redis : p'.shared.redis =
        p.shared.redis.set (RefreshTokenStore.key userId) token expires)
  /-- storing fails, or nothing is stored after all -/
  | fail (held : Option String) (now : p.stage i = .holding held)
      (stage : p'.stage = Function.update p.stage i .refused)
      (redis : p'.shared.redis = p.shared.redis)
  /-- an entry is removed by an operation that is not a revocation, but is refused -/
  | remove (key : String) (now : ∀ k, p.stage i ≠ .revoking k)
      (stage : p'.stage = Function.update p.stage i (p.stage i).letGo)
      (redis : p'.shared.redis = p.shared.redis.del key)
  /-- the entry a revocation is about is removed -/
  | revoke (key : String) (now : p.stage i = .revoking key)
      (next : nextRemoval (p.prog i) = some key)
      (stage : p'.stage = Function.update p.stage i (.revoked key))
      (redis : p'.shared.redis = p.shared.redis.del key)

omit [DecidableEq V] in
/-- Other commands leave the store alone. -/
theorem exec_redis_other {β : Type} {c : Cmd V D β} (hc : c.onStore = false) (s : Session)
    (w : World V D) : (exec env c s w).2.2.redis = w.redis := by
  cases c with
  | select binds q =>
      simp only [exec, execSelect]
      split
      · rfl
      · split <;> rfl
  | modify t row f =>
      simp only [exec]
      split <;> rfl
  | commit =>
      simp only [exec, execCommit]
      split
      · rfl
      · split <;> rfl
  | redisGet key => cases hc
  | redisSet key value ex => cases hc
  | redisDel key => cases hc
  | _ => rfl

/-- The command count does not fall. -/
theorem ticks_step {done : ι → TokenStage V → Except Err (Option (TokenResponse V)) → Prop}
    (h : p.Follows (server env) (tokenProtocol env crypto n₀) (fun _ _ w => n₀ ≤ w.ticks) done)
    (i : ι) :
    n₀ ≤ (Pool.step ((server env).watch (tokenProtocol env crypto n₀)) p i).shared.ticks := by
  obtain ⟨-, hp⟩ | ⟨β, c, k, -, -, hshared, -⟩ := h.step_cases i
  · rw [hp]
    exact (h i).1
  · rw [hshared, server_exec, exec_ticks]
    exact Nat.le_succ_of_le (h i).1

/-- **A step of a pool of operations.** -/
theorem tokenStep {done : ι → TokenStage V → Except Err (Option (TokenResponse V)) → Prop}
    (h : p.Follows (server env) (tokenProtocol env crypto n₀) (fun _ _ w => n₀ ≤ w.ticks) done)
    (i : ι) :
    TokenStep env crypto n₀ p
      (Pool.step ((server env).watch (tokenProtocol env crypto n₀)) p i) i := by
  obtain ⟨-, hp⟩ | ⟨β, c, k, hprog, hallowed, hshared, -, hstage⟩ := h.step_cases i
  · rw [hp]
    exact .silent rfl rfl
  -- commands on the store show; of the others only a rollback moves the stage
  by_cases hc : c.onStore
  · cases c with
    | redisGet key =>
        cases hq : p.stage i with
        | checking token =>
            refine .read token key hq (hallowed token hq) (by rw [hprog]; rfl) ?_ (by rw [hshared]; rfl)
            rw [hstage, hq]
            rfl
        | _ =>
            refine .silent ?_ (by rw [hshared]; rfl)
            rw [hstage, hq]
            exact Function.update_eq_self_iff.mpr hq.symm
    | redisSet key value ex =>
        obtain ⟨held, hq, hheld, userId, n, rfl, hminted⟩ := hallowed
        simp only [server_exec, exec] at hshared hstage
        by_cases httl : ex ≤ 0
        -- Redis refuses a lifetime that is not positive, and the operation fails
        · simp only [httl, if_true, hq] at hshared hstage
          exact .fail held hq hstage (by rw [hshared]; rfl)
        · simp only [httl, if_false, hq] at hshared hstage
          exact .store held userId value n _ hq (fun k h => hheld k h) hminted hstage
            (by rw [hshared])
    | redisDel key =>
        cases hq : p.stage i with
        | revoking k =>
            obtain rfl : key = k := hallowed k hq
            refine .revoke key hq (by rw [hprog]; rfl) ?_ (by rw [hshared]; rfl)
            rw [hstage, hq]
            rfl
        | _ =>
            refine .remove key (fun k h => by cases hq.symm.trans h) ?_ (by rw [hshared]; rfl)
            rw [hstage, hq]
            rfl
    | _ => cases hc
  rw [Bool.not_eq_true] at hc
  have hredis := hshared ▸ exec_redis_other hc (p.loc i).1 p.shared
  by_cases hmoves : c.movesStage
  · cases c with
    | rollback =>
        rw [(tokenProtocol_rollback env crypto _).2] at hstage
        cases hq : p.stage i with
        | holding held =>
            rw [hq] at hstage
            exact .fail held hq hstage hredis
        | _ =>
            refine .silent ?_ hredis
            rw [hstage, hq]
            exact Function.update_eq_self_iff.mpr hq.symm
    | _ => cases hmoves.symm.trans hc
  · rw [Bool.not_eq_true] at hmoves
    refine .silent ?_ hredis
    rw [hstage, (tokenProtocol_other env crypto hmoves _).2]
    exact Function.update_eq_self ..

end Pool

end Rooti

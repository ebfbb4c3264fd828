import Rooti.RefreshTokens.Protocol

/-!
# Concurrent requests on one refresh token

Two properties that hold of operations run one after another are lost when they
interleave, both because a check of the store and the store that rests on it
are separate round trips.  A refresh token can be spent twice
(`refresh_spent_twice`), and a refresh that had passed its check restores a
session a logout just ended (`logout_undone`).

The steps that break them are reads and removals taken while another request is
between its check and its store.  In every schedule without such a step a token
is spent at most once (`refresh_returns_once`), and a revocation is final
(`revocation_final`).

## Main definitions

* `MatchesAlone` — no token is found stored while another request holds one
* `RevokesAlone` — no entry is removed while another request holds a token

## What carries the proof

A request that has found its token holds it until it stores another one, removes the
entry, or rolls back. `SpentOnce` counts those who hold the token together with those
who have replaced it, and says that they are one at most. A matching read adds one to
them, and can only do so while the token is stored: by then nobody has replaced it, as
new tokens are other tokens, and by `MatchesAlone` nobody holds it.

`RevokedFor` is about the time after a removal. The entry is absent, and stays so if
nobody is about to store one; that is what `RevokesAlone` provides at the moment of the
removal. Later on a refresh finds no entry and is rejected before it could hold one.
-/

namespace Rooti

open Relational Program

variable {V D ι : Type} [DecidableEq V] [DecidableEq ι]

/-! ## Double spending -/

section Spend

variable (env : Env) (crypto : Crypto V)

/-- A read that finds `token` is taken only while no other request is between
such a read and its store.  A request that is refused after such a read is not there any
more once it has removed the entry or rolled back. -/
def MatchesAlone (token : V)
    (p : Pool (Cmd V D) Err (Session × TokenStage V) (World V D) ι (Option (TokenResponse V)))
    (i : ι) : Prop :=
  ∀ key ∈ nextRead (p.prog i),
    p.shared.redis.get (env.redisClock p.shared.ticks) key = some token →
    ∀ j, j ≠ i → (p.stage j).isHolding = false

instance [Fintype ι] (token : V)
    (p : Pool (Cmd V D) Err (Session × TokenStage V) (World V D) ι (Option (TokenResponse V)))
    (i : ι) : Decidable (MatchesAlone env token p i) :=
  inferInstanceAs (Decidable (∀ key ∈ nextRead (p.prog i), _ → ∀ j, j ≠ i → _ = false))

/-- The parties that have found the token, or stored the one that replaces it. -/
def TokenStage.spending : TokenStage V → Bool
  | holding _ => true
  | issued => true
  | _ => false

omit [DecidableEq V] in
/-- Letting go of a token is not spending it. -/
theorem TokenStage.spending_of_letGo {q : TokenStage V} (h : q.letGo.spending) : q.spending := by
  cases q <;> first | exact h | cases h

/-- The stages of refreshes that all present `token`. -/
def Presents (token : V) : TokenStage V → Prop
  | .checking t => t = token
  | .holding held => ∃ key, held = some key ∧ NamesKey env crypto token key
  | .revoking _ => False
  | .issued | .refused | .revoked _ => True

omit [DecidableEq V] in
/-- A request that lets go of its token has presented the same one. -/
theorem Presents.letGo {env : Env} {crypto : Crypto V} {token : V} {q : TokenStage V}
    (h : Presents env crypto token q) : Presents env crypto token q.letGo := by
  cases q <;> first | exact h | trivial

/-- **The invariant of concurrent refreshes of one token**: at most one request
is spending it, and once a request has replaced it, it is not stored. -/
structure SpentOnce (n₀ : ℕ) (token : V)
    (p : Pool (Cmd V D) Err (Session × TokenStage V) (World V D) ι (Option (TokenResponse V))) :
    Prop where
  follows : p.Follows (server env) (tokenProtocol env crypto n₀) (fun _ _ w => n₀ ≤ w.ticks)
    fun _ q r => ∀ a, r = .ok a → q = .issued
  presents : ∀ i, Presents env crypto token (p.stage i)
  alone : ∀ i j, (p.stage i).spending → (p.stage j).spending → i = j
  spent : ∀ i, p.stage i = .issued → ∀ key, NamesKey env crypto token key →
    ∀ e, p.shared.redis key ≠ some ⟨token, e⟩

variable {env} {crypto} {n₀ : ℕ} {token : V}
  {p : Pool (Cmd V D) Err (Session × TokenStage V) (World V D) ι (Option (TokenResponse V))}

/-- One party moves to another stage. -/
theorem SpentOnce.move {q : TokenStage V} {i : ι} (h : SpentOnce env crypto n₀ token p)
    {p' : Pool (Cmd V D) Err (Session × TokenStage V) (World V D) ι (Option (TokenResponse V))}
    (hfollows : p'.Follows (server env) (tokenProtocol env crypto n₀) (fun _ _ w => n₀ ≤ w.ticks)
      fun _ q r => ∀ a, r = .ok a → q = .issued)
    (hstage : p'.stage = Function.update p.stage i q) (hq : Presents env crypto token q)
    (halone : q.spending → ∀ j, j ≠ i → (p.stage j).spending = false)
    (hspent : ∀ j, p'.stage j = .issued → ∀ key, NamesKey env crypto token key →
      ∀ e, p'.shared.redis key ≠ some ⟨token, e⟩) :
    SpentOnce env crypto n₀ token p' := by
  refine ⟨hfollows, ?_, ?_, hspent⟩ <;> rw [hstage]
  · exact (Function.forall_update_iff _ fun _ => Presents env crypto token).mpr
      ⟨hq, fun j _ => h.presents j⟩
  · intro j k hj hk
    by_cases hji : j = i <;> by_cases hki : k = i
    · rw [hji, hki]
    · subst hji
      simp only [Function.update_self, Function.update_of_ne hki] at hj hk
      simp [halone hj k hki] at hk
    · subst hki
      simp only [Function.update_self, Function.update_of_ne hji] at hj hk
      simp [halone hk j hji] at hj
    · simp only [Function.update_of_ne hji, Function.update_of_ne hki] at hj hk
      exact h.alone j k hj hk

/-- A step of one refresh, where it matches alone. -/
theorem SpentOnce.step (hfresh : ∀ userId n, n₀ ≤ n → ¬Minted env crypto userId token n) {i : ι}
    (hok : MatchesAlone env token p i) (h : SpentOnce env crypto n₀ token p) :
    SpentOnce env crypto n₀ token
      (Pool.step ((server env).watch (tokenProtocol env crypto n₀)) p i) := by
  have hfollows := h.follows.step fun _ => ticks_step h.follows i
  -- a party holding the token is the only one spending it
  have halone : ∀ {held}, p.stage i = .holding held → ∀ j, j ≠ i → (p.stage j).spending = false := by
    intro held hi j hji
    by_contra hj
    rw [Bool.not_eq_false] at hj
    exact hji (h.alone j i hj (by rw [hi]; rfl))
  cases tokenStep h.follows i with
  | silent stage redis =>
      exact ⟨hfollows, stage ▸ h.presents, stage ▸ h.alone, by rw [stage, redis]; exact h.spent⟩
  | read t key now names next stage redis =>
      have ht := h.presents i
      rw [now] at ht
      obtain rfl : t = token := ht
      have hissued : ∀ {q : TokenStage V}, q ≠ .issued →
          ∀ j, Function.update p.stage i q j = .issued →
          ∀ key, NamesKey env crypto t key → ∀ e, p.shared.redis key ≠ some ⟨t, e⟩ := by
        intro q hq j hj
        by_cases hji : j = i
        · subst hji
          rw [Function.update_self] at hj
          exact absurd hj hq
        · rw [Function.update_of_ne hji] at hj
          exact h.spent j hj
      by_cases hget : p.shared.redis.get (env.redisClock p.shared.ticks) key = some t
      · rw [if_pos hget] at stage
        refine h.move hfollows stage ⟨key, rfl, names⟩ (fun _ j hji => ?_) ?_
        · have hnot := hok key next hget j hji
          cases hj : p.stage j with
          | issued =>
              obtain ⟨e, hentry, -⟩ := KeyValue.Store.get_eq_some.mp hget
              exact absurd hentry (h.spent j hj key names e)
          | holding held => simp [hj, TokenStage.isHolding] at hnot
          | _ => rfl
        · rw [stage, redis]
          exact hissued (fun e => nomatch e)
      · rw [if_neg hget] at stage
        refine h.move hfollows stage trivial (fun e => nomatch e) ?_
        rw [stage, redis]
        exact hissued (fun e => nomatch e)
  | store held userId t n expires now names minted stage redis =>
      refine h.move hfollows stage trivial (fun _ => halone now) ?_
      have hheld := h.presents i
      rw [now] at hheld
      obtain ⟨k, rfl, hk⟩ := hheld
      intro _ _ key hkey e
      obtain rfl := hk.unique hkey
      rw [redis, names k rfl, KeyValue.Store.set_same]
      rintro ⟨⟩
      exact hfresh userId n minted.2 minted.1
  | fail held now stage redis =>
      refine h.move hfollows stage trivial (fun e => nomatch e) ?_
      intro j hj
      have hji : j ≠ i := by
        rintro rfl
        simp [stage] at hj
      rw [stage, Function.update_of_ne hji] at hj
      simpa [hj, TokenStage.spending] using halone now j hji
  | remove key now stage redis =>
      refine h.move hfollows stage (h.presents i).letGo (fun hi j hji => ?_) fun j hj k hk e => ?_
      · by_contra hj
        rw [Bool.not_eq_false] at hj
        exact hji (h.alone j i hj (TokenStage.spending_of_letGo hi))
      · have hissued : p.stage j = .issued := by
          rw [stage] at hj
          by_cases hji : j = i
          · subst hji
            rwa [Function.update_self, TokenStage.letGo_eq_issued] at hj
          · rwa [Function.update_of_ne hji] at hj
        rw [redis]
        by_cases hkey : k = key
        · subst hkey
          simp
        · rw [KeyValue.Store.del_of_ne _ hkey]
          exact h.spent j hissued k hk e
  | revoke key now =>
      have hrevoking := h.presents i
      rw [now] at hrevoking
      exact hrevoking.elim

/-- **A token is spent at most once** in every schedule whose matching reads are
taken while no other request is between its matching read and its store.  The
requests all present `token`, from any state; the tokens they mint are other
tokens. -/
theorem refresh_returns_once (w₀ : World V D)
    (hfresh : ∀ userId n, w₀.ticks ≤ n → ¬Minted env crypto userId token n) (sched : List ι)
    (hsched : Pool.Guarded ((server env).watch (tokenProtocol env crypto w₀.ticks))
      (MatchesAlone env token) (AuthOp.watched env crypto (fun _ => .refresh token) w₀) sched)
    (i j : ι) (a b : Option (TokenResponse V))
    (hi : (AuthOp.playAll env crypto (fun _ => .refresh token) w₀ sched).Returned i a)
    (hj : (AuthOp.playAll env crypto (fun _ => .refresh token) w₀ sched).Returned j b) :
    i = j := by
  have hinit : SpentOnce env crypto w₀.ticks token
      (AuthOp.watched env crypto (fun _ : ι => .refresh token) w₀) :=
    ⟨fun _ => ⟨le_rfl, AuthOp.follows (.refresh token)⟩, fun _ => rfl,
      fun _ _ h => (nomatch h), fun _ h => nomatch h⟩
  have h := Pool.Guarded.invariant (I := SpentOnce env crypto w₀.ticks token)
    (fun p i hok hp => hp.step hfresh hok) hinit hsched
  have hspending : ∀ {i a},
      (AuthOp.playAll env crypto (fun _ => .refresh token) w₀ sched).Returned i a →
      (Pool.stage (Pool.play ((server env).watch (tokenProtocol env crypto w₀.ticks))
        (AuthOp.watched env crypto (fun _ => .refresh token) w₀) sched) i).spending := by
    intro i a hi
    rw [h.follows.returned ((Pool.play_watch_prog sched i).trans hi) a rfl]
    rfl
  exact h.alone i j (hspending hi) (hspending hj)

/-- A signup has been served; its token was minted in second 8. -/
def signedUp : World Json Unit :=
  AuthOp.runAll ticking .plain [.sampleSignup] (World.fresh (Database.empty schema) ())

/-- Later tokens are other tokens. -/
theorem sampleToken_fresh (userId : ℤ) (n : ℕ) (hn : signedUp.ticks ≤ n) :
    ¬Minted ticking .plain userId (sampleToken 8) n := by
  intro h
  have hticks : signedUp.ticks = 11 := by decide +kernel
  have height : Minted ticking .plain 1 (sampleToken 8) 8 := ⟨"carer", ["CAREGIVER"], rfl⟩
  have hepoch := nowEpoch_eq_of_minted height h
  simp only [nowEpoch, ticking, Env.ofClock] at hepoch
  rw [Int.mul_tdiv_cancel _ (by decide), Int.mul_tdiv_cancel _ (by decide)] at hepoch
  omega

/-- Two refreshes, one after the other: the second is not answered. -/
theorem refresh_returns_once_two :
    ¬∃ b, (AuthOp.playAll ticking .plain (fun _ : Fin 2 => .refresh (sampleToken 8)) signedUp
      [0, 0, 0, 0, 0, 0, 0, 1, 1, 1, 1]).Returned 1 b := by
  rintro ⟨b, hb⟩
  obtain ⟨a, ha⟩ := Pool.returned_of_answer?
    (p := AuthOp.playAll ticking .plain (fun _ => .refresh (sampleToken 8)) signedUp
      [0, 0, 0, 0, 0, 0, 0, 1, 1, 1, 1]) (i := (0 : Fin 2)) (by decide +kernel)
  exact absurd (refresh_returns_once signedUp sampleToken_fresh _ (by decide +kernel) 0 1 a b ha hb)
    (by decide)

/-- **A token spent twice.**  Two refreshes read the store before either writes
it; both are answered with new tokens. -/
theorem refresh_spent_twice :
    ¬∀ (w : World Json Unit) (sched : List (Fin 2)),
      (∀ userId n, w.ticks ≤ n → ¬Minted ticking .plain userId (sampleToken 8) n) →
      ∀ i j a b,
        (AuthOp.playAll ticking .plain (fun _ => .refresh (sampleToken 8)) w sched).Returned i a →
        (AuthOp.playAll ticking .plain (fun _ => .refresh (sampleToken 8)) w sched).Returned j b →
        i = j := by
  intro h
  have hsched := h signedUp [0, 0, 1, 1, 0, 0, 0, 0, 0, 1, 1, 1, 1, 1] sampleToken_fresh 0 1
  obtain ⟨a, ha⟩ := Pool.returned_of_answer?
    (p := AuthOp.playAll ticking .plain (fun _ => .refresh (sampleToken 8)) signedUp
      [0, 0, 1, 1, 0, 0, 0, 0, 0, 1, 1, 1, 1, 1]) (i := (0 : Fin 2)) (by decide +kernel)
  obtain ⟨b, hb⟩ := Pool.returned_of_answer?
    (p := AuthOp.playAll ticking .plain (fun _ => .refresh (sampleToken 8)) signedUp
      [0, 0, 1, 1, 0, 0, 0, 0, 0, 1, 1, 1, 1, 1]) (i := (1 : Fin 2)) (by decide +kernel)
  exact absurd (hsched a b ha hb) (by decide)

end Spend

/-! ## Revocation -/

section Revocation

variable (env : Env) (crypto : Crypto V)

/-- The entry of `key` is removed by `r` only while no other request is between
its check and its store; one that was refused meanwhile and has removed the entry or
rolled back is not. -/
def RevokesAlone (r : ι) (key : String)
    (p : Pool (Cmd V D) Err (Session × TokenStage V) (World V D) ι (Option (TokenResponse V)))
    (i : ι) : Prop :=
  i = r → nextRemoval (p.prog i) = some key → ∀ j, j ≠ r → (p.stage j).isHolding = false

instance [Fintype ι] (r : ι) (key : String)
    (p : Pool (Cmd V D) Err (Session × TokenStage V) (World V D) ι (Option (TokenResponse V)))
    (i : ι) : Decidable (RevokesAlone r key p i) :=
  inferInstanceAs (Decidable (i = r → _ = some key → ∀ j, j ≠ r → _ = false))

/-- **The invariant of a revocation** by `r` of the entry of `key`: `r` is before
or after the removal, and after it the entry stays absent and nobody is about to
store it. -/
structure RevokedFor (ops : ι → AuthOp V) (n₀ : ℕ) (r : ι) (key : String)
    (p : Pool (Cmd V D) Err (Session × TokenStage V) (World V D) ι (Option (TokenResponse V))) :
    Prop where
  follows : p.Follows (server env) (tokenProtocol env crypto n₀) (fun _ _ w => n₀ ≤ w.ticks)
    fun i q r => ∀ a, r = .ok a → q = (ops i).finalStage
  revoker : p.stage r = .revoking key ∨ p.stage r = .revoked key
  gone : p.stage r = .revoked key → p.shared.redis key = none ∧
    ∀ j held, p.stage j = .holding held → ∃ k, held = some k ∧ k ≠ key

variable {env} {crypto} {ops : ι → AuthOp V} {n₀ : ℕ} {r : ι} {key : String}
  {p : Pool (Cmd V D) Err (Session × TokenStage V) (World V D) ι (Option (TokenResponse V))}

/-- A party other than `r` moves to another stage. -/
theorem RevokedFor.move {q : TokenStage V} {i : ι} (h : RevokedFor env crypto ops n₀ r key p)
    {p' : Pool (Cmd V D) Err (Session × TokenStage V) (World V D) ι (Option (TokenResponse V))}
    (hfollows : p'.Follows (server env) (tokenProtocol env crypto n₀) (fun _ _ w => n₀ ≤ w.ticks)
      fun i q r => ∀ a, r = .ok a → q = (ops i).finalStage)
    (hir : i ≠ r) (hstage : p'.stage = Function.update p.stage i q)
    (hgone : p.stage r = .revoked key → p'.shared.redis key = none ∧
      ∀ held, q = .holding held → ∃ k, held = some k ∧ k ≠ key) :
    RevokedFor env crypto ops n₀ r key p' := by
  have hr : p'.stage r = p.stage r := by rw [hstage, Function.update_of_ne hir.symm]
  refine ⟨hfollows, hr ▸ h.revoker, fun hrevoked => ?_⟩
  rw [hr] at hrevoked
  refine ⟨(hgone hrevoked).1, fun j held hj => ?_⟩
  rw [hstage] at hj
  by_cases hji : j = i
  · subst hji
    rw [Function.update_self] at hj
    exact (hgone hrevoked).2 held hj
  · rw [Function.update_of_ne hji] at hj
    exact (h.gone hrevoked).2 j held hj

omit [DecidableEq ι] in
/-- The revoking party neither reads nor stores. -/
theorem RevokedFor.ne_revoker {i : ι} (h : RevokedFor env crypto ops n₀ r key p)
    (hi : ∀ k, p.stage i ≠ .revoking k ∧ p.stage i ≠ .revoked k) : i ≠ r := by
  rintro rfl
  exact h.revoker.elim (hi key).1 (hi key).2

/-- A step of one operation, where the revocation removes alone. -/
theorem RevokedFor.step {i : ι} (hok : RevokesAlone r key p i)
    (h : RevokedFor env crypto ops n₀ r key p) :
    RevokedFor env crypto ops n₀ r key
      (Pool.step ((server env).watch (tokenProtocol env crypto n₀)) p i) := by
  have hfollows := h.follows.step fun _ => ticks_step h.follows i
  cases tokenStep h.follows i with
  | silent stage redis =>
      exact ⟨hfollows, stage ▸ h.revoker, by rw [stage, redis]; exact h.gone⟩
  | read t k now names next stage redis =>
      refine h.move hfollows (h.ne_revoker (by simp [now])) stage fun hrevoked => ?_
      obtain ⟨hnone, -⟩ := h.gone hrevoked
      refine ⟨redis ▸ hnone, fun held hheld => ?_⟩
      -- what the refresh found is not the removed entry
      split at hheld
      · next hget =>
          cases hheld
          refine ⟨k, rfl, ?_⟩
          rintro rfl
          simp [KeyValue.Store.get_eq_none_of_none hnone] at hget
      · cases hheld
  | store held userId t n expires now names minted stage redis =>
      refine h.move hfollows (h.ne_revoker (by simp [now])) stage fun hrevoked => ?_
      obtain ⟨hnone, hholding⟩ := h.gone hrevoked
      obtain ⟨k, rfl, hk⟩ := hholding i held now
      refine ⟨?_, fun _ e => nomatch e⟩
      rw [redis, names k rfl, KeyValue.Store.set_of_ne _ _ _ hk.symm, hnone]
  | fail held now stage redis =>
      exact h.move hfollows (h.ne_revoker (by simp [now])) stage fun hrevoked =>
        ⟨redis ▸ (h.gone hrevoked).1, fun _ e => nomatch e⟩
  | remove k now stage redis =>
      by_cases hir : i = r
      · -- the revoking party has made its removal
        subst hir
        have hrevoked := h.revoker.resolve_left (now key)
        have hsame : (p.stage i).letGo = p.stage i := by rw [hrevoked]; rfl
        rw [hsame, Function.update_eq_self] at stage
        refine ⟨hfollows, stage ▸ h.revoker, fun _ => ?_⟩
        rw [stage, redis]
        exact ⟨KeyValue.Store.del_eq_none (h.gone hrevoked).1 k, (h.gone hrevoked).2⟩
      · exact h.move hfollows hir stage fun hrevoked =>
          ⟨redis ▸ KeyValue.Store.del_eq_none (h.gone hrevoked).1 k, fun held hheld =>
            (TokenStage.letGo_ne_holding _ held hheld).elim⟩
  | revoke k now next stage redis =>
      by_cases hir : i = r
      · subst hir
        have hk : k = key := by
          cases h.revoker with
          | inl hr => exact TokenStage.revoking.inj (now.symm.trans hr)
          | inr hr => cases now.symm.trans hr
        subst hk
        refine ⟨hfollows, .inr (by rw [stage, Function.update_self]), fun _ => ⟨?_, ?_⟩⟩
        · rw [redis, KeyValue.Store.del_same]
        · intro j held hj
          rw [stage] at hj
          by_cases hji : j = i
          · subst hji
            simp at hj
          · rw [Function.update_of_ne hji] at hj
            simpa [hj, TokenStage.isHolding] using hok rfl next j hji
      · exact h.move hfollows hir stage fun hrevoked =>
          ⟨redis ▸ KeyValue.Store.del_eq_none (h.gone hrevoked).1 k, fun _ e => nomatch e⟩

/-- **A revocation is final** in every schedule in which the revoking removal is
taken while no other request is between its check and its store.  When the
logout or password change `r` has returned, its user has no stored refresh
token, and every later refresh for that user is rejected.  The other operations
are arbitrary; a login or signup counts as past its check from its start. -/
theorem revocation_final (ops : ι → AuthOp V) (r : ι) (userId : ℤ)
    (hr : (ops r).stage = .revoking (RefreshTokenStore.key userId)) (w₀ : World V D)
    (sched : List ι)
    (hsched : Pool.Guarded ((server env).watch (tokenProtocol env crypto w₀.ticks))
      (RevokesAlone r (RefreshTokenStore.key userId)) (AuthOp.watched env crypto ops w₀) sched)
    {a : Option (TokenResponse V)}
    (hreturned : (AuthOp.playAll env crypto ops w₀ sched).Returned r a) :
    let w := (AuthOp.playAll env crypto ops w₀ sched).shared
    w.redis (RefreshTokenStore.key userId) = none ∧
      ∀ token p, parseTokenAt env.settings crypto (some .refresh) (env.clock w.ticks) token =
          .ok p → p.userId = userId →
        ∀ pair, (serve env (AuthService.refresh env crypto token) w).1 ≠ .ok pair := by
  intro w
  have hinit : RevokedFor env crypto ops w₀.ticks r (RefreshTokenStore.key userId)
      (AuthOp.watched env crypto ops w₀) :=
    ⟨fun i => ⟨le_rfl, (ops i).follows⟩, .inl hr, fun h => by cases hr.symm.trans h⟩
  have h := Pool.Guarded.invariant
    (I := RevokedFor env crypto ops w₀.ticks r (RefreshTokenStore.key userId))
    (fun p i hok hp => hp.step hok) hinit hsched
  have hfinal : (ops r).finalStage = .revoked (RefreshTokenStore.key userId) := by
    cases hop : ops r <;> simp_all [AuthOp.stage, AuthOp.finalStage]
  have hstage := h.follows.returned ((Pool.play_watch_prog sched r).trans hreturned) a rfl
  have hshared : (Pool.play ((server env).watch (tokenProtocol env crypto w₀.ticks))
      (AuthOp.watched env crypto ops w₀) sched).shared = w := Pool.play_watch_shared sched
  have hnone : w.redis (RefreshTokenStore.key userId) = none :=
    hshared ▸ (h.gone (hstage.trans hfinal)).1
  refine ⟨hnone, ?_⟩
  rintro token p hp rfl pair hpair
  obtain ⟨-, p', hp', hstored, -⟩ := (serve_refresh_ok_iff env crypto token _).mp ⟨pair, hpair⟩
  obtain rfl : p = p' := Except.ok.inj (hp.symm.trans hp')
  rw [KeyValue.Store.get_eq_none_of_none hnone] at hstored
  cases hstored

/-- A logout, then a refresh: the account is left without a stored token. -/
theorem revocation_final_logout :
    (AuthOp.playAll ticking .plain ![.logout 1, .refresh (sampleToken 8)] signedUp
      [0, 0, 1, 1, 1, 1]).shared.redis (RefreshTokenStore.key 1) = none := by
  obtain ⟨a, ha⟩ := Pool.returned_of_answer?
    (p := AuthOp.playAll ticking .plain ![.logout 1, .refresh (sampleToken 8)] signedUp
      [0, 0, 1, 1, 1, 1]) (i := (0 : Fin 2)) (by decide +kernel)
  exact (revocation_final _ 0 1 rfl signedUp _ (by decide +kernel) ha).1

/-- **A logout undone.**  A refresh that was running when the logout started has
passed its check and stores its token after the removal. -/
theorem logout_undone :
    ¬∀ (w : World Json Unit) (sched : List (Fin 2)) a,
      let p := AuthOp.playAll ticking .plain ![.logout 1, .refresh (sampleToken 8)] w (1 :: sched)
      p.Returned 0 a → (p.answer? 1).isSome → p.shared.redis (RefreshTokenStore.key 1) = none := by
  intro h
  obtain ⟨a, ha⟩ := Pool.returned_of_answer?
    (p := AuthOp.playAll ticking .plain ![.logout 1, .refresh (sampleToken 8)] signedUp
      [1, 1, 0, 0, 1, 1, 1, 1, 1]) (i := (0 : Fin 2)) (by decide +kernel)
  have hnone := h signedUp [1, 0, 0, 1, 1, 1, 1, 1] a ha (by decide +kernel)
  revert hnone
  decide +kernel

end Revocation

end Rooti

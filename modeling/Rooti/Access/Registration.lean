import Rooti.Access.LifeCycles

/-!
# Accounts that are registered

A registration adds the row of an account, has it sent to the database, and goes on; the account is
there once the transaction has been committed.  Between the two the row is among the statements
the session has sent (`sent`), where it stays as long as the transaction lasts.  `announcing` says
so of the account a result is about: the result of a registration announces its account
(`among_register`), and a commit that succeeds adds what was announced (`execCommit_sent`).

In read-only mode nothing is ever sent.

## Main definitions

* `sent`, `announcing` — accounts that are about to be added
-/

namespace Rooti

open Relational Program

variable {V D : Type}

/-! ## Rows that have been sent -/

section Sent

variable {env : Env} {α : Type}

/-- The row has been sent to the database. -/
def sent (u : User) : Session → Prop := fun s => Dml.insert .user u ∈ s.written

/-- What has been sent stays sent until the transaction ends. -/
def Cmd.midway {α : Type} : Cmd V D α → Bool
  | .commit | .rollback => false
  | _ => true

theorem written_flush (readOnly : Bool) (db : Db) (s : Session) :
    s.written ⊆ (s.flush readOnly db).2.written := by
  unfold Session.flush
  split
  · exact List.Subset.refl _
  · split
    · exact List.Subset.refl _
    · split
      · exact List.Subset.refl _
      · split
        · exact List.Subset.refl _
        · exact List.subset_append_left _ _

theorem written_exec (c : Cmd V D α) (hc : c.midway) (s : Session)
    (w : World V D) : s.written ⊆ (exec env c s w).2.1.written := by
  cases c with
  | commit => cases hc
  | rollback => cases hc
  | select binds q =>
      have hflush := written_flush env.settings.appReadOnly w.db s
      revert hflush
      simp only [exec, execSelect]
      rcases s.flush env.settings.appReadOnly w.db with ⟨e | _, s'⟩
      · exact id
      · by_cases hbinds : binds.all Bind.fits
        · simp only [hbinds, if_true]
          exact id
        · simp only [hbinds]
          exact id
  | modify t row f =>
      simp only [exec]
      split <;> exact List.Subset.refl _
  | flush => exact written_flush env.settings.appReadOnly w.db s
  | redisSet key value ex =>
      simp only [exec]
      split <;> exact List.Subset.refl _
  | _ => exact List.Subset.refl _

/-- The flush of a row that has been recorded sends it; nothing is sent in read-only mode. -/
theorem flush_insert {readOnly : Bool} {db : Db} {s : Session} {u : User}
    (hu : Dml.insert .user u ∈ s.pending) (h : (s.flush readOnly db).1 = .ok ()) :
    readOnly = false ∧ sent u (s.flush readOnly db).2 := by
  have hpending : s.pending.isEmpty = false := by
    cases hp : s.pending with
    | nil => rw [hp] at hu; cases hu
    | cons d ds => rfl
  unfold Session.flush at h ⊢
  simp only [hpending, Bool.false_eq_true, if_false] at h ⊢
  by_cases hfailed : s.failed
  · simp [hfailed] at h
  cases readOnly with
  | true => simp [hfailed] at h
  | false =>
      simp only [hfailed, Bool.false_eq_true, if_false] at h ⊢
      cases happly : Dml.applyAll (Session.flushOrder s.pending) (s.view db) with
      | error v => simp [happly] at h
      | ok db' =>
          simp only [sent]
          exact ⟨trivial, List.mem_append_right _
            ((Session.flushOrder_perm s.pending).mem_iff.mpr hu)⟩

/-- **A commit that succeeds** has applied what was sent. -/
theorem execCommit_sent {F : Footprint} {s : Session} {w : World V D} {u : User}
    (hs : ∀ d ∈ s.statements, d ∈ F.statements) (hu : sent u s)
    (h : (execCommit env s w).1 = .ok ()) :
    (execCommit env s w).2.1 = {} ∧ ∃ ds, (∀ d ∈ ds, d ∈ F.statements) ∧
      Dml.insert .user u ∈ ds ∧ Dml.applyAll ds w.db = .ok (execCommit env s w).2.2.db := by
  have hwritten := written_flush env.settings.appReadOnly w.db s
  have hflushed := (s.flush_statements env.settings.appReadOnly w.db).1.subset
  revert h
  unfold execCommit
  revert hwritten hflushed
  rcases s.flush env.settings.appReadOnly w.db with ⟨e | _, s'⟩
  · rintro _ _ ⟨⟩
  · intro hwritten hflushed
    dsimp only
    cases happly : Dml.applyAll s'.written w.db with
    | error v => rintro ⟨⟩
    | ok db => exact fun _ => ⟨rfl, s'.written, fun d hd =>
        hs d (hflushed (List.mem_append_left _ hd)), hwritten hu, happly⟩

end Sent

/-! ## Registrations -/

section Register

variable {env : Env} {R R' : Rely (World V D)} {F : Footprint} {α γ : Type}

/-- **An account is about to be added.** -/
def announcing (env : Env) (φ : User → Prop) : Assertion Session R' :=
  .own fun s => env.settings.appReadOnly = false ∧ ∃ u, φ u ∧ sent u s

variable (hF : F.Allows R)

include hF in
/-- The row of an account is recorded and sent. -/
theorem among_addUser (mk : NewRow → User) (hmk : ∀ new, Dml.insert .user (mk new) ∈ F.statements) :
    (server env).Among R' R blank
      ((add .user mk).bind fun new => flush.bind fun _ => .ret new : Async V D NewRow)
      (fun new => ((drafts F).both (.own (sent (mk new)))).knowing
        (env.settings.appReadOnly = false)) fun _ => recording R := by
  refine .bind (Q := fun new => (drafts F).both (.own fun s =>
    Dml.insert .user (mk new) ∈ s.pending)) (.lift fun s w hs => ?_) fun new =>
      .bind (Q := fun _ => ((drafts F).both (.own (sent (mk new)))).knowing
        (env.settings.appReadOnly = false)) (.lift fun s w hs => ?_) fun _ => .ret fun _ _ hs => hs
  · have hexec := hF.exec env (c := (.add .user mk : Cmd V D NewRow)) hmk w (drafts_of_blank hs)
    exact ⟨hexec.1, hexec.2, List.mem_append_right _ List.mem_cons_self⟩
  · have hexec := hF.exec env (c := (.flush : Cmd V D Unit)) trivial w hs.1
    refine ⟨hexec.1, ?_⟩
    have hsent : (s.flush env.settings.appReadOnly w.db).1 = .ok () →
        env.settings.appReadOnly = false ∧
          sent (mk new) (s.flush env.settings.appReadOnly w.db).2 := flush_insert hs.2
    have hdrafts := hexec.2
    change ∀ d ∈ (s.flush env.settings.appReadOnly w.db).2.statements, _ at hdrafts
    change Machine.outcome _ _ (s.flush env.settings.appReadOnly w.db).1
      (s.flush env.settings.appReadOnly w.db).2 w.tick
    revert hsent hdrafts
    rcases s.flush env.settings.appReadOnly w.db with ⟨e | _, s'⟩
    · exact fun _ hdrafts => recording_of_drafts hF hdrafts
    · exact fun hsent hdrafts => ⟨(hsent rfl).1, hdrafts, (hsent rfl).2⟩

include hF in
/-- **A registration announces its account** before it returns. -/
theorem among_register {before : Async V D γ} {mk : γ → NewRow → User}
    {after : γ → NewRow → Async V D α} {φ : α → User → Prop} (hbefore : Within {} before)
    (hmk : ∀ c new, Dml.insert .user (mk c new) ∈ F.statements)
    (hafter : ∀ c new, Within F (after c new))
    (hmidway : ∀ c new, (after c new).Only fun c => c.midway)
    (hφ : ∀ c new, (after c new).Returns fun a => φ a (mk c new)) :
    (server env).Among R' R blank
      (before.bind fun c => (add .user (mk c)).bind fun new => flush.bind fun _ => after c new)
      (fun a => (drafts F).both (announcing env (φ a))) fun _ => recording R := by
  refine .bind (among_reading hbefore hF.idle) fun c => ?_
  have hsplit : ((add .user (mk c)).bind fun new => flush.bind fun _ => after c new) =
      (((add .user (mk c)).bind fun new => flush.bind fun _ => .ret new) :
        Async V D NewRow).bind (after c) := by
    simp only [Prog.bind_assoc, Prog.ret_bind]
  rw [hsplit]
  refine .bind (among_addUser hF (mk c) (hmk c)) fun new => .of_knowing fun hro => ?_
  refine (((among_of_within (hafter c new) hF R').frameOwn (hmidway c new) fun _ hc s w hsent =>
    written_exec _ hc s w hsent).returning (hφ c new)).weaken (fun _ _ => id) ?_ fun _ _ _ h =>
      recording_of_drafts hF h.1
  exact fun a _ _ hs => ⟨hs.2.1, hro, _, hs.1, hs.2.2⟩

/-- Nothing is announced in read-only mode, so the transaction ends with a commit. -/
theorem endTransaction_eq_commit {φ : User → Prop} {s : Session} {w : World V D}
    (h : (announcing env φ : Assertion Session R') s w) :
    (endTransaction env : Async V D Unit) = commit := by
  rw [endTransaction, h.1]
  rfl

end Register

end Rooti

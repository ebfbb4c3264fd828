import Rooti.Core.Faults

/-!
# What a session sees

A session that has sent its changes sees the committed database with them
(`Sees`).  Queries are answered from there, a change that is flushed moves it on,
and a commit makes it the committed database.  A script described step by step in
these terms is described as a request by `serveFaulty_sees`.

## Main definitions

* `Sees` — what a session sees
* `ensures_query`, `ensures_save`, `ensures_insert` — how the view changes
* `serveFaulty_sees` — the database after a request

A request that changes and queries in turn is described by one database at each point,
the one its session sees. That database is the committed one with the statements of the
session applied, so the commit of a request that has not failed makes exactly what it
saw the committed state. A flush can fail in three ways (a constraint, read-only mode, a
fault), and all three end in `Broken`: the transaction is aborted and nothing more
happens in it, as PostgreSQL has it.

The triples are over the server with faults, so what is proved with them holds for
requests that are hit by one and, with no fault given, for the ordinary ones.
-/

namespace Rooti

open Relational Program

variable {V D α β : Type}

/-- **What a session sees**: it has not failed, has nothing left to send, and its
statements take the committed database of `w` to `d`. -/
def Sees (w : World V D) (d : Db) (s : Session) (w' : World V D) : Prop :=
  s.failed = false ∧ s.pending = [] ∧ Dml.applyAll s.written w.db = .ok d ∧ w'.db = w.db

/-- A statement has failed: the session does nothing any more. -/
def Broken (w : World V D) (s : Session) (w' : World V D) : Prop :=
  s.failed = true ∧ w'.db = w.db

/-- Nothing has been committed. -/
def Uncommitted (w : World V D) (_ : Session) (w' : World V D) : Prop := w'.db = w.db

section Rules

variable {env : Env} {fault : Option Fault} {w : World V D} {d : Db}

/-- A request begins by seeing what is committed. -/
theorem sees_start : Sees w w.db {} w := ⟨rfl, rfl, rfl, rfl⟩

/-- What a session sees is its own: the committed database has not moved. -/
theorem Sees.uncommitted {s : Session} {w' : World V D} (h : Sees w d s w') :
    Uncommitted w s w' := h.2.2.2

/-- A session that has failed has committed nothing either. -/
theorem Broken.uncommitted {s : Session} {w' : World V D} (h : Broken w s w') :
    Uncommitted w s w' := h.2

/-- Queries of the session are answered from what it sees. -/
theorem Sees.view {s : Session} {w' : World V D} (h : Sees w d s w') : s.view w'.db = d := by
  rw [h.2.2.2, Session.view, h.2.2.1]

/-- With nothing pending a flush does nothing. -/
theorem Sees.flush {s : Session} {w' : World V D} (h : Sees w d s w') (readOnly : Bool) (db : Db) :
    s.flush readOnly db = (.ok (), s) := by
  simp [Session.flush, h.1, h.2.1]

/-- A query is answered from what the session sees. -/
theorem ensures_query {binds : List Bind} {q : RowOrder → Db → α} :
    (faulty env fault).Ensures (Sees w d) (select binds q)
      (fun a s w' => (∃ o, a = q o d) ∧ Sees w d s w') (Broken w) := by
  refine Machine.Ensures.lift fun s w' h => ?_
  rw [faulty_exec]
  cases hs : fault.bind fun f => f.strikes (.select binds q : Cmd V D α) w'.ticks with
  | some e =>
      simp only [execFaulty, hs]
      exact ⟨rfl, h.uncommitted⟩
  | none =>
      rw [execFaulty_of_strikes hs]
      simp only [exec, execSelect, h.flush, h.view]
      by_cases hbinds : binds.all Bind.fits
      · rw [if_pos hbinds]
        exact ⟨⟨_, rfl⟩, h⟩
      · rw [if_neg hbinds]
        exact ⟨rfl, h.uncommitted⟩

/-- A row is looked up in what the session sees. -/
theorem ensures_find {t : Entity} {id : ℤ} :
    (faulty env fault).Ensures (Sees w d) (dbGet t id)
      (fun a s w' => a = d.find? t id ∧ Sees w d s w') (Broken w) :=
  ensures_query.weaken (fun _ _ h => h) (fun _ _ _ h => ⟨h.1.choose_spec, h.2⟩)
    fun _ _ h => h

/-- The clock gives an instant that fits a column. -/
theorem ensures_utcNow :
    (faulty env fault).Ensures (Sees w d) utcNow
      (fun t s w' => timestamp t ∧ Sees w d s w') (Uncommitted w) := by
  refine Machine.Ensures.bind (.lift (Q := fun _ s w' => Sees w d s w') fun s w' h => ?_)
    fun t => .ret fun s w' h => ⟨rfl, h⟩
  rw [faulty_exec, execFaulty_of_quiet _ (by simp)]
  exact h

variable (env fault) in
/-- The flush of recorded changes: they are sent, or it fails. -/
theorem exec_flush_cases {s : Session} {w' : World V D} (hfailed : s.failed = false)
    (hwritten : Dml.applyAll s.written w.db = .ok d) (hdb : w'.db = w.db) :
    match (faulty env fault).exec .flush s w' with
    | (.ok _, s', w'') =>
        ∃ d', Dml.applyAll (Session.flushOrder s.pending) d = .ok d' ∧ Sees w d' s' w''
    | (.error _, s', w'') => Uncommitted w s' w'' := by
  rw [faulty_exec]
  cases hs : fault.bind fun f => f.strikes (.flush : Cmd V D Unit) w'.ticks with
  | some e =>
      simp only [execFaulty, hs]
      exact hdb
  | none =>
      rw [execFaulty_of_strikes hs]
      simp only [exec, hdb]
      cases hpending : Dml.applyAll (Session.flushOrder s.pending) d with
      | ok d' =>
          cases hro : env.settings.appReadOnly with
          | false =>
              rw [flush_pending hfailed hwritten hpending]
              refine ⟨d', rfl, hfailed, rfl, ?_, hdb⟩
              rw [Dml.applyAll_append, hwritten]
              exact hpending
          | true =>
              -- in read-only mode a flush is answered only if nothing is pending
              obtain ⟨written, pending, failed⟩ := s
              dsimp only at hfailed hwritten hpending
              subst hfailed
              cases pending with
              | nil =>
                  cases hpending
                  exact ⟨d, rfl, rfl, rfl, hwritten, hdb⟩
              | cons d₁ ds => exact hdb
      | error v =>
          cases hro : env.settings.appReadOnly with
          | false =>
              rw [flush_refused hfailed hwritten hpending]
              exact hdb
          | true =>
              obtain ⟨written, pending, failed⟩ := s
              dsimp only at hfailed hwritten hpending
              subst hfailed
              cases pending with
              | nil => simp [Session.flushOrder, Session.byKey] at hpending
              | cons d₁ ds => exact hdb

/-- **A change that is flushed**: attribute assignments that change nothing send
nothing; otherwise the session sees the updated row. -/
theorem ensures_save {t : Entity} {row : Row t} {f : Row t → Row t} :
    (faulty env fault).Ensures (Sees w d) (Prog.bind (modify t row f) fun _ => flush)
      (fun _ s w' => ∃ d', ((f row = row ∧ d' = d) ∨ ∃ now,
        (Dml.update t (keyOf t row) (setUpdatedAt now t ∘ f) : Statement).apply d = .ok d') ∧
        Sees w d' s w') (Uncommitted w) := by
  refine Machine.Ensures.bind (Q := fun _ s w' =>
    (f row = row ∧ Sees w d s w') ∨ ∃ now, s.failed = false ∧
      s.pending = [.update t (keyOf t row) (setUpdatedAt now t ∘ f)] ∧
      Dml.applyAll s.written w.db = .ok d ∧ w'.db = w.db) (.lift fun s w' h => ?_)
    fun _ => .lift fun s w' h => ?_
  · rw [faulty_exec, execFaulty_of_quiet _ (by simp)]
    simp only [exec]
    by_cases hf : f row = row
    · rw [if_pos hf]
      exact .inl ⟨hf, h⟩
    · rw [if_neg hf]
      refine .inr ⟨⟨env.dbClock w'.ticks, none⟩, h.1, ?_, h.2.2.1, h.2.2.2⟩
      rw [h.2.1, List.nil_append]
  · obtain ⟨hf, h⟩ | ⟨now, hfailed, hpending, hwritten, hdb⟩ := h
    · have hflush := exec_flush_cases env fault h.1 h.2.2.1 h.2.2.2
      rcases hexec : (faulty env fault).exec .flush s w' with ⟨e | _, s', w''⟩ <;>
        rw [hexec] at hflush
      · exact hflush
      · obtain ⟨d', hd', hsees⟩ := hflush
        rw [h.2.1] at hd'
        cases hd'
        exact ⟨d, .inl ⟨hf, rfl⟩, hsees⟩
    · have hflush := exec_flush_cases env fault hfailed hwritten hdb
      rcases hexec : (faulty env fault).exec .flush s w' with ⟨e | _, s', w''⟩ <;>
        rw [hexec] at hflush
      · exact hflush
      · obtain ⟨d', hd', hsees⟩ := hflush
        rw [hpending] at hd'
        exact ⟨d', .inr ⟨now, (Dml.applyAll_singleton _ _).symm.trans hd'⟩, hsees⟩

/-- Attribute assignments and a flush that no failure strikes. -/
theorem run_modify_flush {n : ℕ} (hfault : StrikesFrom fault n) (t : Entity) (row : Row t)
    (f : Row t → Row t) (s : Session) (w' : World V D) :
    (faulty env fault).run (Prog.bind (modify t row f) fun _ => flush) s w' =
      let s' := if f row = row then s
        else { s with pending := s.pending ++
          [.update t (keyOf t row) (setUpdatedAt ⟨env.dbClock w'.ticks, none⟩ t ∘ f)] }
      ((s'.flush env.settings.appReadOnly w'.db).1, (s'.flush env.settings.appReadOnly w'.db).2,
        w'.after 2) := by
  have hmodify : execFaulty env fault (.modify t row f : Cmd V D Unit) s w' =
      exec env (.modify t row f) s w' := execFaulty_of_strikesFrom s hfault (by simp)
  have hflush : ∀ s' (w'' : World V D), execFaulty env fault .flush s' w'' =
      exec env .flush s' w'' := fun s' w'' => execFaulty_of_strikesFrom s' hfault (by simp)
  simp only [modify, flush, Machine.run_bind, Machine.run_lift, faulty_exec, hmodify, exec]
  by_cases hf : f row = row
  · simp only [if_pos hf, hflush]
    rfl
  · simp only [if_neg hf, hflush]
    rfl

/-- A change that the database takes is saved. -/
theorem run_save (hro : env.settings.appReadOnly = false) {n : ℕ} (hfault : StrikesFrom fault n)
    {t : Entity} {row : Row t} {f : Row t → Row t} {s : Session} {w' : World V D} {d' : Db}
    (h : Sees w d s w') (hsame : f row = row → d' = d)
    (happly : (Dml.update t (keyOf t row) (setUpdatedAt ⟨env.dbClock w'.ticks, none⟩ t ∘ f) :
      Statement).apply d = .ok d') :
    ∃ s', (faulty env fault).run (Prog.bind (modify t row f) fun _ => flush) s w' =
        (.ok (), s', w'.after 2) ∧ Sees w d' s' (w'.after 2) := by
  obtain ⟨hfailed, hpending, hwritten, hdb⟩ := h
  rw [run_modify_flush hfault, hro]
  by_cases hf : f row = row
  · rw [hsame hf, if_pos hf]
    refine ⟨s, ?_, hfailed, hpending, hwritten, hdb⟩
    simp only [Session.flush, hfailed, hpending]
    rfl
  · rw [if_neg hf, hpending, List.nil_append]
    have hsend : Dml.applyAll (Session.flushOrder [.update t (keyOf t row)
        (setUpdatedAt ⟨env.dbClock w'.ticks, none⟩ t ∘ f)]) d = .ok d' :=
      (Dml.applyAll_singleton _ _).trans happly
    have hflush := flush_pending (s := { s with pending := [.update t (keyOf t row)
      (setUpdatedAt ⟨env.dbClock w'.ticks, none⟩ t ∘ f)] }) hfailed hwritten hsend
    dsimp only at hflush ⊢
    rw [hdb, hflush]
    refine ⟨_, rfl, hfailed, rfl, ?_, hdb⟩
    rw [Dml.applyAll_append, hwritten]
    exact hsend

/-- A change that the database refuses is not. -/
theorem run_save_refused (hro : env.settings.appReadOnly = false) {n : ℕ}
    (hfault : StrikesFrom fault n) {t : Entity} {row : Row t} {f : Row t → Row t} {s : Session}
    {w' : World V D} {v : Violation} (h : Sees w d s w') (hne : f row ≠ row)
    (happly : (Dml.update t (keyOf t row) (setUpdatedAt ⟨env.dbClock w'.ticks, none⟩ t ∘ f) :
      Statement).apply d = .error v) :
    ∃ e s', (faulty env fault).run (Prog.bind (modify t row f) fun _ => flush) s w' =
      (.error e, s', w'.after 2) := by
  obtain ⟨hfailed, hpending, hwritten, hdb⟩ := h
  rw [run_modify_flush hfault, hro, if_neg hne, hpending, List.nil_append]
  have hsend : Dml.applyAll (Session.flushOrder [.update t (keyOf t row)
      (setUpdatedAt ⟨env.dbClock w'.ticks, none⟩ t ∘ f)]) d = .error v :=
    (Dml.applyAll_singleton _ _).trans happly
  have hflush := flush_refused (s := { s with pending := [.update t (keyOf t row)
    (setUpdatedAt ⟨env.dbClock w'.ticks, none⟩ t ∘ f)] }) hfailed hwritten hsend
  dsimp only at hflush ⊢
  rw [hdb, hflush]
  exact ⟨_, _, rfl⟩

/-- The commit of what a session sees. -/
theorem execCommit_sees (hro : env.settings.appReadOnly = false) {s : Session} {w' : World V D}
    (h : Sees w d s w') : execCommit env s w' = (.ok (), {}, { w'.tick with db := d }) := by
  have hwritten : Dml.applyAll s.written w'.db = .ok d := by
    rw [h.2.2.2]
    exact h.2.2.1
  exact execCommit_pending hro h.1 hwritten (by rw [h.2.1]; rfl)

/-- A broken session sends nothing. -/
theorem ensures_save_broken {t : Entity} {row : Row t} {f : Row t → Row t} :
    (faulty env fault).Ensures (Broken w) (Prog.bind (modify t row f) fun _ => flush)
      (fun _ _ _ => False) (Broken w) := by
  refine Machine.Ensures.bind (Q := fun _ s w' => Broken w s w') (.lift fun s w' h => ?_)
    fun _ => .lift fun s w' h => ?_
  · rw [faulty_exec, execFaulty_of_quiet _ (by simp)]
    simp only [exec]
    by_cases hf : f row = row
    · rw [if_pos hf]
      exact h
    · rw [if_neg hf]
      exact h
  · rw [faulty_exec]
    cases hs : fault.bind fun f => f.strikes (.flush : Cmd V D Unit) w'.ticks with
    | some e =>
        simp only [execFaulty, hs]
        exact ⟨rfl, h.2⟩
    | none =>
        rw [execFaulty_of_strikes hs]
        simp only [exec, Session.flush, h.1, if_true]
        exact h

/-- **A row that is added and flushed.** -/
theorem ensures_insert {t : Entity} {mk : NewRow → Row t} {k : NewRow → Async V D β}
    {Q : β → Session → World V D → Prop} {R : Session → World V D → Prop}
    (hk : ∀ new d', timestamp new.createdAt → (Dml.insert t (mk new) : Statement).apply d = .ok d' →
      (faulty env fault).Ensures (Sees w d') (k new) Q R)
    (hR : ∀ s w', Uncommitted w s w' → R s w') :
    (faulty env fault).Ensures (Sees w d)
      (Prog.bind (add t mk) fun new => Prog.bind flush fun _ => k new) Q R := by
  refine Machine.Ensures.bind (Q := fun new s w' => timestamp new.createdAt ∧
    s.failed = false ∧ s.pending = [.insert t (mk new)] ∧
      Dml.applyAll s.written w.db = .ok d ∧ w'.db = w.db) (.lift fun s w' h => ?_)
    fun new => .of_and fun hnaive => ?_
  · rw [faulty_exec, execFaulty_of_quiet _ (by simp)]
    refine ⟨rfl, h.1, ?_, h.2.2.1, h.2.2.2⟩
    show s.pending ++ _ = _
    rw [h.2.1]
    rfl
  · refine Machine.Ensures.bind (Q := fun _ s w' => ∃ d',
      (Dml.insert t (mk new) : Statement).apply d = .ok d' ∧ Sees w d' s w')
      (.lift fun s w' h => ?_) fun _ s w' h => ?_
    · obtain ⟨hfailed, hpending, hwritten, hdb⟩ := h
      have hflush := exec_flush_cases env fault hfailed hwritten hdb
      rcases hexec : (faulty env fault).exec .flush s w' with ⟨e | _, s', w''⟩ <;>
        rw [hexec] at hflush
      · exact hR _ _ hflush
      · obtain ⟨d', hd', hsees⟩ := hflush
        rw [hpending] at hd'
        exact ⟨d', (Dml.applyAll_singleton _ _).symm.trans hd', hsees⟩
    · obtain ⟨d', hd', hsees⟩ := h
      exact hk new d' hnaive hd' s w' hsees

/-- The session sees `d`, or a statement has failed. -/
def SeesOrBroken (w : World V D) (d : Db) (s : Session) (w' : World V D) : Prop :=
  Sees w d s w' ∨ Broken w s w'

/-- Queries and mails. -/
def Cmd.reports : Cmd V D α → Bool
  | .select .. | .sendEmail _ => true
  | _ => false

/-- **Queries and mails change nothing a session sees.** -/
theorem keeps_of_reports {p : Async V D α} (hp : p.Only fun c => c.reports) :
    (faulty env fault).Keeps (SeesOrBroken w d) p := by
  refine .of_only hp fun c hc s w' h => ?_
  rw [faulty_exec]
  cases hs : fault.bind fun f => f.strikes c w'.ticks with
  | some e =>
      simp only [execFaulty, hs]
      exact .inr ⟨rfl, h.elim (fun h => h.2.2.2) fun h => h.2⟩
  | none =>
      rw [execFaulty_of_strikes hs]
      cases c with
      | select binds q =>
          simp only [exec, execSelect]
          obtain h | h := h
          · rw [h.flush]
            by_cases hbinds : binds.all Bind.fits
            · simp only [hbinds, if_true]
              exact .inl h
            · simp only [hbinds]
              exact .inr ⟨rfl, h.2.2.2⟩
          · simp only [Session.flush, h.1, if_true]
            exact .inr h
      | sendEmail mail => exact h
      | _ => cases hc

/-- A session that has failed stays so through queries and mails. -/
theorem keeps_failed {p : Async V D α} (hp : p.Only fun c => c.reports) :
    (faulty env fault).Keeps (fun s _ => s.failed = true) p := by
  refine .of_only hp fun c hc s w' h => ?_
  rw [faulty_exec, execFaulty]
  split
  · rfl
  · cases c with
    | select binds q => simp [exec, execSelect, Session.flush, h]
    | sendEmail mail => exact h
    | _ => cases hc

/-- Queries and mails record nothing. -/
theorem keeps_statements {p : Async V D α} (hp : p.Only fun c => c.reports)
    (P : Statement → Prop) : (server env).Keeps (fun s _ => ∀ d ∈ s.statements, P d) p := by
  refine .of_only hp fun c hc s w' h => ?_
  have hrecorded : c.recorded env w' = [] := by
    cases c <;> first | rfl | cases hc
  have hsub := exec_statements env c s w'
  rw [hrecorded, List.append_nil] at hsub
  exact fun d hd => h d (hsub.subset hd)

variable (env fault) in
/-- **Queries and mails on a database that may fail**: as on one that does not, or
the session has failed. -/
theorem faulty_run_cases {p : Async V D α} (hp : p.Only fun c => c.reports) (s : Session)
    (w : World V D) :
    (faulty env fault).run p s w = (server env).run p s w ∨
      ((faulty env fault).run p s w).2.1.failed = true := by
  induction p generalizing s w with
  | ret a => exact .inl rfl
  | raise e => exact .inl rfl
  | call c k ih =>
      simp only [Machine.run_call, faulty_exec, server_exec]
      cases hs : fault.bind fun f => f.strikes c w.ticks with
      | some e =>
          right
          refine (keeps_failed (hp.2 _)).run ?_
          simp only [execFaulty, hs]
      | none =>
          rw [execFaulty_of_strikes hs]
          exact ih _ (hp.2 _) _ _

/-- A query of a session that has sent all its changes. -/
theorem run_select_sees {binds : List Bind} {q : RowOrder → Db → α} {s : Session} {w' : World V D}
    (h : Sees w d s w') (hbinds : binds.all Bind.fits) :
    (server env).run (select binds q) s w' =
      (.ok (q (env.rowOrder w'.ticks) d), s, w'.tick) := by
  rw [select, Machine.run_lift, server_exec]
  simp only [exec, execSelect, h.flush, h.view, hbinds, if_true]

/-- Nothing is recorded, unless the database may be written. -/
def MayRecord (env : Env) (pending : List Statement) : Prop :=
  env.settings.appReadOnly = true → pending = []

/-- The flush of recorded changes that the database takes. -/
theorem run_flush_taken {pending : List Statement} {db' : Db} {w' : World V D}
    (hmay : MayRecord env pending) (hdb : w'.db = w.db)
    (htaken : Dml.applyAll (Session.flushOrder pending) w.db = .ok db') :
    ∃ s, (server env).run flush { pending := pending } w' = (.ok (), s, w'.tick) ∧
      Sees w db' s w'.tick := by
  have hflush : ∃ s, ({ pending := pending } : Session).flush env.settings.appReadOnly w'.db =
      (.ok (), s) ∧ s.failed = false ∧ s.pending = [] ∧
        Dml.applyAll s.written w.db = .ok db' := by
    cases hro : env.settings.appReadOnly with
    | true =>
        obtain rfl := hmay hro
        exact ⟨{}, rfl, rfl, rfl, htaken⟩
    | false =>
        rw [hdb]
        exact ⟨_, flush_pending rfl rfl htaken, rfl, rfl, htaken⟩
  obtain ⟨s, hflush, hfailed, hpending, hwritten⟩ := hflush
  refine ⟨s, ?_, hfailed, hpending, hwritten, hdb⟩
  rw [flush, Machine.run_lift, server_exec, exec, hflush]

/-- The flush of recorded changes, read backwards. -/
theorem run_flush_eq_taken {pending : List Statement} {w' w'' : World V D} {s : Session}
    (hdb : w'.db = w.db)
    (h : (server env).run flush { pending := pending } w' = (.ok (), s, w'')) :
    MayRecord env pending ∧
      ∃ db', Dml.applyAll (Session.flushOrder pending) w.db = .ok db' ∧ Sees w db' s w'' := by
  rw [flush, Machine.run_lift, server_exec, exec] at h
  obtain ⟨hok, rfl, rfl⟩ : _ ∧ _ ∧ _ := by simpa [Prod.ext_iff] using h
  cases hro : env.settings.appReadOnly with
  | true =>
      rw [hro] at hok
      have hsame := (flush_readOnly w'.db (s := { pending := pending }) rfl).2 hok
      have hsent := ((Session.flush_statements true w'.db { pending := pending }).2 hok).2
      rw [hsame] at hsent
      dsimp only at hsent
      subst hsent
      exact ⟨fun _ => rfl, w.db, rfl, rfl, rfl, rfl, hdb⟩
  | false =>
      rw [hro] at hok
      refine ⟨fun hreadOnly => (by cases hro.symm.trans hreadOnly), ?_⟩
      have hstart : Dml.applyAll ({ pending := pending } : Session).written w'.db = .ok w.db := by
        rw [hdb]
        rfl
      cases hpending : Dml.applyAll (Session.flushOrder pending) w.db with
      | error v =>
          rw [flush_refused rfl hstart hpending] at hok
          cases hok
      | ok db' =>
          rw [flush_pending rfl hstart hpending]
          exact ⟨db', rfl, rfl, rfl, hpending, hdb⟩

/-- **The end of a request whose script returned**: its changes are kept. -/
theorem serve_of_sees {p : Async V D α} {a : α} {s : Session} {w' : World V D}
    (hrun : (server env).run p {} w = (.ok a, s, w')) (h : Sees w d s w') :
    (serve env p w).1 = .ok a ∧ (serve env p w).2.db = d := by
  cases hro : env.settings.appReadOnly with
  | true =>
      -- nothing was written
      have hkeeps : (faulty env none).Keeps (fun s w' => s.written = [] ∧ w'.db = w.db) p :=
        keeps_readOnly hro p
      have hwritten := hkeeps.run (l := {}) (s := w) ⟨rfl, rfl⟩
      rw [faulty_none, hrun] at hwritten
      have hd := h.2.2.1
      rw [hwritten.1] at hd
      cases hd
      have hserve : serve env p w = (.ok a, w'.tick) := by
        rw [serve_eq, hrun]
        simp only [hro, if_true]
      rw [hserve]
      exact ⟨rfl, h.2.2.2⟩
  | false =>
      have hserve : serve env p w = (.ok a, { w'.tick with db := d }) := by
        rw [serve_eq, hrun]
        simp only [hro, Bool.false_eq_true, if_false, execCommit_sees hro h]
      rw [hserve]
      exact ⟨rfl, rfl⟩

/-- **The database after a request**: as before, or what the session of a script that
returned saw. -/
theorem serveFaulty_sees {p : Async V D α} {φ : α → Db → Prop}
    (hp : (faulty env fault).Ensures (Sees w w.db) p
      (fun a s w' => ∃ d, φ a d ∧ Sees w d s w') (Uncommitted w)) :
    (serveFaulty env fault p w).2.db = w.db ∨
      ∃ a, (serveFaulty env fault p w).1 = .ok a ∧ φ a (serveFaulty env fault p w).2.db := by
  obtain ⟨e, s, w', hrun, hdb⟩ | ⟨a, s, w', hrun, d, hφ, hsees⟩ := hp.run_cases sees_start
  · left
    rw [serveFaulty_of_error hrun]
    exact hdb
  · have hwritten : Dml.applyAll s.written w'.db = .ok d := by
      rw [hsees.2.2.2]
      exact hsees.2.2.1
    obtain ⟨-, hserve⟩ | ⟨-, ⟨e, hserve, -⟩ | ⟨-, d', hd', hserve⟩⟩ :=
      serveFaulty_of_ok hrun hsees.1 hwritten
    · left
      rw [hserve]
      exact hsees.2.2.2
    · left
      rw [hserve]
      exact hsees.2.2.2
    · right
      rw [hsees.2.1] at hd'
      cases hd'
      rw [hserve]
      exact ⟨a, rfl, hφ⟩

end Rules

end Rooti

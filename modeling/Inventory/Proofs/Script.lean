import Inventory.Proofs.Operation

/-!
# Scripts

A script is what a session does in one go: operations one after another, whose faults it catches,
some of them grouped in transactions that are kept. What one operation preserves is proved once,
and for scripts by induction from it.
-/

namespace Inventory

open Database (Change)

/-- The answer to an operation, and the tables right after it. -/
abbrev Reply := Except Fault Answer × Database

/-- Operations one after another, grouped in transactions, while time passes. -/
inductive Script where
  | done
  | op (o : Operation) (rest : Script)
  | scope (inner rest : Script)
  | tick (now : String) (rest : Script)

namespace Session

/-- The session inside a scope, which joins the transaction that is open. -/
def enter (s : Session) : Session :=
  if s.saved.isSome then s else s.begin

/-- The session after a scope that was entered in `s` and has come to `t`. -/
def leave (s t : Session) : Session :=
  if s.saved.isSome then t else t.commit

end Session

namespace Script

/-- A session does a script. Faults of its operations are caught, so no transaction is undone. -/
def act : Script → Action (List Reply)
  | done => return []
  | op o rest => do
    let answer ← o.act.attempt
    let db := (← get).db
    return (answer, db) :: (← rest.act)
  | scope inner rest => do
    let replies ← Action.transaction inner.act
    return replies ++ (← rest.act)
  | tick now rest => do
    modify ({ · with now := now })
    rest.act

/-- The replies to a script and the session after it. -/
def run : Script → Session → List Reply × Session
  | done, s => ([], s)
  | op o rest, s =>
    let (answer, t) := o.act.exec s
    let (replies, u) := rest.run t
    ((answer, t.db) :: replies, u)
  | scope inner rest, s =>
    let (replies, t) := inner.run s.enter
    let (others, u) := rest.run (s.leave t)
    (replies ++ others, u)
  | tick now rest, s => rest.run { s with now := now }

/-- Two scripts one after the other. -/
def append : Script → Script → Script
  | done, q => q
  | op o rest, q => op o (rest.append q)
  | scope inner rest, q => scope inner (rest.append q)
  | tick now rest, q => tick now (rest.append q)

/-- A script does what its run says, and never fails as a whole. -/
theorem exec_act (p : Script) : ∀ s, p.act.exec s = (.ok (p.run s).1, (p.run s).2) := by
  induction p with
  | done => exact fun _ => rfl
  | op o rest ih =>
      intro s
      rw [act, Action.exec_bind, Action.exec_attempt]
      dsimp only
      rw [Action.exec_bind, Action.exec_get]
      dsimp only
      rw [Action.exec_bind, ih]
      rfl
  | scope inner rest ihi ihr =>
      intro s
      have hinner : (Action.transaction inner.act).exec s =
          (.ok (inner.run s.enter).1, s.leave (inner.run s.enter).2) := by
        rw [Action.transaction]
        cases hs : s.saved with
        | some db =>
            rw [Action.exec_transactionIf_joined _ _ (by simp [hs]), ihi, Session.enter,
              Session.leave, if_pos (by simp [hs]), if_pos (by simp [hs])]
        | none =>
            rw [Action.exec_transactionIf _ _ hs, ihi, Session.enter, Session.leave,
              if_neg (by simp [hs]), if_neg (by simp [hs])]
            rfl
      rw [act, Action.exec_bind, hinner]
      dsimp only
      rw [Action.exec_bind, ihr]
      rfl
  | tick now rest ih =>
      intro s
      rw [act, Action.exec_bind, Action.exec_modify]
      exact ih _

theorem run_append (p q : Script) : ∀ s,
    (p.append q).run s = ((p.run s).1 ++ (q.run (p.run s).2).1, (q.run (p.run s).2).2) := by
  induction p with
  | done => exact fun _ => rfl
  | op o rest ih =>
      intro s
      simp only [append, run, ih, List.cons_append]
  | scope inner rest _ ih =>
      intro s
      simp only [append, run, ih, List.append_assoc]
  | tick now rest ih =>
      intro s
      simp only [append, run, ih]

end Script

/-! ## Sessions stay in order -/

namespace Session

/-- What a session can become: it stays in the same transaction, the other side's commits are
not its own, and whenever it has changed the categories, it has committed or will do so. -/
structure Follows (s t : Session) : Prop where
  saved : t.saved = s.saved
  version : t.version = s.version
  remembers : t.remembers = s.remembers
  commits : s.commits ≤ t.commits
  dirty : s.dirty → t.dirty
  unnoticed : t.commits = s.commits → t.dirty = false → t.db.categories = s.db.categories

theorem Follows.refl (s : Session) : s.Follows s :=
  ⟨rfl, rfl, rfl, Nat.le_refl _, id, fun _ _ => rfl⟩

theorem Follows.trans {s t u : Session} (h : s.Follows t) (k : t.Follows u) : s.Follows u where
  saved := k.saved.trans h.saved
  version := k.version.trans h.version
  remembers := k.remembers.trans h.remembers
  commits := Nat.le_trans h.commits k.commits
  dirty := fun hs => k.dirty (h.dirty hs)
  unnoticed := by
    intro hcommits hdirty
    have hle := h.commits
    have hle' := k.commits
    have hclean : t.dirty = false := by
      cases ht : t.dirty with
      | false => rfl
      | true => exact absurd (k.dirty ht) (by simp [hdirty])
    rw [k.unnoticed (by omega) hdirty, h.unnoticed (by omega) hclean]

theorem Follows.withNow {s t : Session} (h : s.Follows t) (now : String) :
    s.Follows { t with now := now } :=
  ⟨h.saved, h.version, h.remembers, h.commits, h.dirty, h.unnoticed⟩

theorem Ready.withNow {s : Session} (h : s.Ready) (now : String) :
    ({ s with now := now } : Session).Ready :=
  ⟨h.clean, h.notAhead, h.coherent, h.forgetful⟩

theorem Ready.enter {s : Session} (h : s.Ready) : s.enter.Ready := by
  unfold Session.enter
  split
  · exact h
  · exact h.begin

theorem Ready.leave {s t : Session} (h : t.Ready) : (s.leave t).Ready := by
  unfold Session.leave
  split
  · exact h
  · exact h.commit

/-- A scope that is left behind has kept its changes and let others notice them. -/
theorem Follows.leave {s t : Session} (hs : s.Ready) (h : s.enter.Follows t) :
    s.Follows (s.leave t) := by
  unfold Session.enter at h
  unfold Session.leave
  split at h
  · next hsome => rwa [if_pos hsome]
  · next hnone =>
      have hsaved : s.saved = none := by simpa using hnone
      rw [if_neg hnone]
      refine ⟨hsaved.symm, h.version, h.remembers, ?_, ?_, ?_⟩
      · exact Nat.le_trans h.commits (Nat.le_add_right _ _)
      · simp [hs.clean hsaved]
      · intro hcommits _
        have hle := h.commits
        simp only [Session.commit, Session.begin] at hcommits hle
        cases hdirty : t.dirty with
        | false =>
            simp only [hdirty] at hcommits
            exact h.unnoticed hcommits hdirty
        | true =>
            simp only [hdirty, if_true] at hcommits
            omega

end Session

theorem Operation.act_follows (o : Operation) {s : Session} (hs : s.Ready) :
    (o.act.exec s).2.Ready ∧ s.Follows (o.act.exec s).2 := by
  obtain ⟨cache, hexec, hready⟩ := o.does_act s hs
  rw [hexec]
  refine ⟨hready, ?_⟩
  have hmarks := o.effect_marks s.now s.db
  generalize (o.effect s.now s.db).2 = c at hmarks
  cases hsaved : s.saved with
  | some db =>
      refine ⟨by simp, by simp, by simp, ?_, ?_, ?_⟩
      all_goals simp only [Session.apply, hsaved]
      · exact Nat.le_refl _
      · simp +contextual
      · intro _ hdirty
        simp only [Bool.or_eq_false_iff] at hdirty
        exact hmarks hdirty.2
  | none =>
      refine ⟨by simp, by simp, by simp, ?_, ?_, ?_⟩
      all_goals simp only [Session.apply, hsaved]
      · exact Nat.le_add_right _ _
      · exact id
      · intro hcommits _
        refine hmarks ?_
        cases hwritten : c.isWritten with
        | false => rfl
        | true =>
            simp only [hwritten, if_true] at hcommits
            omega

/-- A script leaves a session in order. -/
theorem Script.run_follows (p : Script) :
    ∀ s : Session, s.Ready → (p.run s).2.Ready ∧ s.Follows (p.run s).2 := by
  induction p with
  | done => exact fun s hs => ⟨hs, .refl s⟩
  | op o rest ih =>
      intro s hs
      obtain ⟨hready, hfollows⟩ := o.act_follows hs
      obtain ⟨hready', hfollows'⟩ := ih _ hready
      exact ⟨hready', hfollows.trans hfollows'⟩
  | scope inner rest ihi ihr =>
      -- what the scope has changed is noticed when it is left, not before
      intro s hs
      obtain ⟨hready, hfollows⟩ := ihi _ hs.enter
      obtain ⟨hready', hfollows'⟩ := ihr _ hready.leave
      exact ⟨hready', (Session.Follows.leave hs hfollows).trans hfollows'⟩
  | tick now rest ih =>
      intro s hs
      obtain ⟨hready, hfollows⟩ := ih _ (hs.withNow now)
      exact ⟨hready, ((Session.Follows.refl s).withNow now).trans hfollows⟩

/-! ## Invariants of the tables -/

@[simp] theorem Session.enter_db (s : Session) : s.enter.db = s.db := by
  unfold Session.enter
  split <;> rfl

@[simp] theorem Session.leave_db (s t : Session) : (s.leave t).db = t.db := by
  unfold Session.leave
  split <;> rfl

theorem Operation.act_db (o : Operation) {s : Session} (hs : s.Ready) :
    (o.act.exec s).2.db = (o.effect s.now s.db).2.db := by
  obtain ⟨cache, hexec, -⟩ := o.does_act s hs
  rw [hexec]
  simp

/-- What every operation preserves holds of the tables after a script. -/
theorem Script.run_keeps {I : Database → Prop}
    (hI : ∀ o : Operation, o.effect.Keeps I) (p : Script) :
    ∀ s : Session, s.Ready → I s.db → I (p.run s).2.db := by
  induction p with
  | done => exact fun s _ h => h
  | op o rest ih =>
      intro s hs h
      have hstep : I (o.act.exec s).2.db := by
        rw [o.act_db hs]
        exact hI o _ _ h
      exact ih _ (o.act_follows hs).1 hstep
  | scope inner rest ihi ihr =>
      intro s hs h
      have hinner := ihi _ hs.enter (by simpa using h)
      exact ihr _ (inner.run_follows _ hs.enter).1.leave (by simpa using hinner)
  | tick now rest ih =>
      intro s hs h
      exact ih _ (hs.withNow now) h

/-! ## Neither the cache nor the commits of others count -/

namespace Session

/-- Two sessions that may differ in their caches and in how often anyone has committed. -/
structure Like (s t : Session) : Prop where
  db : s.db = t.db
  now : s.now = t.now
  saved : s.saved = t.saved
  dirty : s.dirty = t.dirty

theorem Like.apply {s t : Session} (h : s.Like t) (c : Change) (cache cache' : Option Cache) :
    ({ s.apply c with cache := cache } : Session).Like { t.apply c with cache := cache' } := by
  refine ⟨by simp, by simp [h.now], by simp [h.saved], ?_⟩
  simp only [Session.apply, ← h.saved]
  cases s.saved with
  | none => exact h.dirty
  | some db => simp only [h.dirty]

theorem Like.enter {s t : Session} (h : s.Like t) : s.enter.Like t.enter := by
  unfold Session.enter
  rw [← h.saved]
  split
  · exact h
  · exact ⟨h.db, h.now, by simp [Session.begin, h.db], rfl⟩

theorem Like.leave {s t s' t' : Session} (h : s.Like t) (h' : s'.Like t') :
    (s.leave s').Like (t.leave t') := by
  unfold Session.leave
  rw [← h.saved]
  split
  · exact h'
  · exact ⟨h'.db, h'.now, rfl, rfl⟩

end Session

theorem Operation.act_like (o : Operation) {s t : Session} (hs : s.Ready) (ht : t.Ready)
    (h : s.Like t) :
    (o.act.exec s).1 = (o.act.exec t).1 ∧ (o.act.exec s).2.Like (o.act.exec t).2 := by
  obtain ⟨cache, hexec, -⟩ := o.does_act s hs
  obtain ⟨cache', hexec', -⟩ := o.does_act t ht
  rw [hexec, hexec', ← h.db, ← h.now]
  exact ⟨rfl, h.apply _ _ _⟩

/-- Like sessions in order give the same replies and stay like each other. -/
theorem Script.run_like (p : Script) : ∀ s t : Session, s.Ready → t.Ready → s.Like t →
    (p.run s).1 = (p.run t).1 ∧ (p.run s).2.Like (p.run t).2 := by
  induction p with
  | done => exact fun s t _ _ h => ⟨rfl, h⟩
  | op o rest ih =>
      intro s t hs ht h
      obtain ⟨hanswer, hlike⟩ := o.act_like hs ht h
      obtain ⟨hreplies, hlike'⟩ := ih _ _ (o.act_follows hs).1 (o.act_follows ht).1 hlike
      refine ⟨?_, hlike'⟩
      simp only [run, hanswer, hlike.db, hreplies]
  | scope inner rest ihi ihr =>
      intro s t hs ht h
      have hs' := (inner.run_follows _ hs.enter).1
      have ht' := (inner.run_follows _ ht.enter).1
      obtain ⟨hreplies, hlike⟩ := ihi _ _ hs.enter ht.enter h.enter
      obtain ⟨hreplies', hlike'⟩ := ihr _ _ hs'.leave ht'.leave (h.leave hlike)
      refine ⟨?_, hlike'⟩
      simp only [run, hreplies, hreplies']
  | tick now rest ih =>
      intro s t hs ht h
      exact ih _ _ (hs.withNow now) (ht.withNow now) ⟨h.db, rfl, h.saved, h.dirty⟩

end Inventory

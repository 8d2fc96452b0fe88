import Inventory.Database.Session

/-!
# What single actions do to a session

Equations for the result and the session after each of the actions that the registry and the
store are written with. They are the only place where the monad of actions is opened.
-/

namespace Inventory.Action

variable {α β : Type}

theorem exec_pure (x : α) (s : Session) : (pure x : Action α).exec s = (.ok x, s) := rfl

theorem exec_throw (e : Fault) (s : Session) :
    (throw e : Action α).exec s = (.error e, s) := rfl

theorem exec_get (s : Session) : (get : Action Session).exec s = (.ok s, s) := rfl

theorem exec_modify (f : Session → Session) (s : Session) :
    (modify f : Action Unit).exec s = (.ok (), f s) := rfl

theorem exec_bind (a : Action α) (k : α → Action β) (s : Session) :
    (a >>= k).exec s =
      match a.exec s with
      | (.ok x, t) => (k x).exec t
      | (.error e, t) => (.error e, t) := by
  unfold exec ExceptT.run StateT.run
  simp only [bind, ExceptT.bind, ExceptT.mk, StateT.bind, ExceptT.bindCont]
  rcases a s with ⟨_ | _, t⟩ <;> rfl

theorem exec_map (f : α → β) (a : Action α) (s : Session) :
    (f <$> a).exec s = ((a.exec s).1.map f, (a.exec s).2) := by
  rw [map_eq_pure_bind, exec_bind]
  rcases a.exec s with ⟨_ | _, t⟩ <;> rfl

theorem exec_discard (a : Action α) (s : Session) :
    (discard a).exec s = ((a.exec s).1.map fun _ => (), (a.exec s).2) :=
  exec_map (fun _ => ()) a s

theorem exec_tryCatch (a : Action α) (k : Fault → Action α) (s : Session) :
    (tryCatch a k : Action α).exec s =
      match a.exec s with
      | (.ok x, t) => (.ok x, t)
      | (.error e, t) => (k e).exec t := by
  unfold exec ExceptT.run StateT.run
  simp only [tryCatch, tryCatchThe, MonadExceptOf.tryCatch, ExceptT.tryCatch, ExceptT.mk, bind,
    StateT.bind]
  rcases a s with ⟨_ | _, t⟩ <;> rfl

theorem exec_ofExcept (e : Except Fault α) (s : Session) : (ofExcept e).exec s = (e, s) := by
  cases e <;> rfl

theorem exec_read (f : Database → Except Fault α) (s : Session) :
    (read f).exec s = (f s.db, s) := by
  rw [read, exec_bind, exec_get]
  exact exec_ofExcept (f s.db) s

theorem exec_write (f : String → Database.Statement) (s : Session) :
    (write f).exec s =
      match f s.now s.db with
      | .ok c => (.ok c.rows, { s with db := c.db, dirty := s.dirty || c.isWritten })
      | .error e => (.error e, s) := by
  simp only [write, exec_bind, exec_get, exec_ofExcept]
  cases f s.now s.db <;> rfl

theorem exec_attempt (a : Action α) (s : Session) :
    a.attempt.exec s = (.ok (a.exec s).1, (a.exec s).2) := rfl

/-- A transaction inside another one is just its action. -/
theorem exec_transactionIf_joined (keep : α → Bool) (a : Action α) {s : Session}
    (h : s.saved.isSome) : (transactionIf keep a).exec s = a.exec s := by
  show (if _ then _ else _ : Except Fault α × Session) = _
  rw [if_pos h]

theorem exec_transactionIf (keep : α → Bool) (a : Action α) {s : Session}
    (h : s.saved = none) :
    (transactionIf keep a).exec s =
      match a.exec s.begin with
      | (.ok x, t) => (.ok x, if keep x then t.commit else t.rollback)
      | (.error e, t) => (.error e, t.rollback) := by
  show (if _ then _ else _ : Except Fault α × Session) = _
  rw [if_neg (by simp [h])]
  rfl

/-- Actions are what they do to sessions. -/
theorem ext {a b : Action α} (h : ∀ s, a.exec s = b.exec s) : a = b :=
  funext h

theorem discard_bind (a : Action α) (k : Unit → Action β) :
    (discard a >>= k) = (a >>= fun _ => k ()) := by
  refine ext fun s => ?_
  rw [exec_bind, exec_bind, exec_discard]
  rcases a.exec s with ⟨_ | _, t⟩ <;> rfl

end Inventory.Action

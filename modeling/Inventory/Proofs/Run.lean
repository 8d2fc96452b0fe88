import Inventory.Database.Migration
import Inventory.Database.Workspace
import Inventory.Proofs.Script

/-!
# Runs of two sides

Two sides work on one database, each with its own cache, and do scripts in any order. Both stay
in order: a cache that is still used says what the tables say, whoever has changed them.
-/

namespace Inventory

/-- A side does a script, beginning at a time. While it is inside a transaction, the other side
can begin none, and what that one looks up is what was there before, so it has acted before. -/
structure Event where
  turn : Workspace.Turn
  now : String
  script : Script

/-- The session `u` of a side, after the other side has come from `s` to `t`. It uses its cache
only if nothing was committed, and then the categories are the same. -/
theorem Session.Ready.noticing {u s t : Session} (hu : u.Ready) (h : s.Follows t)
    (hclean : t.dirty = false) (hdb : u.db = s.db) (hversion : u.version = s.commits) :
    ({ u with db := t.db, version := t.commits } : Session).Ready where
  clean := hu.clean
  notAhead := fun c hc => Nat.le_trans (hu.notAhead c hc) (hversion ▸ h.commits)
  coherent := by
    intro c hc hv
    have hle : c.version ≤ s.commits := hversion ▸ hu.notAhead c hc
    have hcommits : t.commits = s.commits :=
      Nat.le_antisymm (Nat.le_trans (Nat.le_of_eq hv.symm) hle) h.commits
    have hread := hu.coherent c hc (hv.trans (hcommits.trans hversion.symm))
    rw [hdb, ← h.unnoticed hcommits hclean] at hread
    exact hread
  forgetful := hu.forgetful

namespace Workspace

/-- The replies to the scripts of events, and the workspace after them. -/
def run : List Event → Workspace → List Reply × Workspace
  | [], w => ([], w)
  | e :: rest, w =>
    let (replies, s) := e.script.run (w.session e.turn e.now)
    let (others, w) := run rest (w.keep e.turn s)
    (replies ++ others, w)

/-- An event is what a side does when it acts. -/
theorem act_script (w : Workspace) (turn : Turn) (now : String) (p : Script) :
    w.act turn now p.act =
      (.ok (p.run (w.session turn now)).1, w.keep turn (p.run (w.session turn now)).2) := by
  rw [act, p.exec_act]

/-- The session of a side that has done a script, by itself or in a transaction that it has begun
before and that is still open. -/
def during (w : Workspace) (turn : Turn) (now : String) (inScope : Bool) (p : Script) : Session :=
  (p.run (if inScope then (w.session turn now).begin else w.session turn now)).2

/-- Two sides of an inventory in which nothing has been defined yet. -/
def initial (stamp : String) : Workspace :=
  ofDatabase (Database.empty.migrate stamp)

/-- Both sides are in order. -/
def Ready (w : Workspace) : Prop :=
  ∀ turn now, (w.session turn now).Ready

theorem ofDatabase_ready (db : Database) : (ofDatabase db).Ready := by
  intro turn now
  cases turn <;> exact .ofNoCache (fun _ => rfl) rfl

theorem session_saved (w : Workspace) (turn : Turn) (now : String) :
    (w.session turn now).saved = none := by
  cases turn <;> rfl

@[simp] theorem session_db (w : Workspace) (turn : Turn) (now : String) :
    (w.session turn now).db = w.db := by
  cases turn <;> rfl

@[simp] theorem keep_db (w : Workspace) (turn : Turn) (s : Session) :
    (w.keep turn s).db = s.db := by
  cases turn <;> rfl

/-- What one side does leaves both sides in order. -/
theorem Ready.keep {w : Workspace} (hw : w.Ready) {turn : Turn} {now : String} {t : Session}
    (ht : t.Ready) (h : (w.session turn now).Follows t) : (w.keep turn t).Ready := by
  have hclean : t.dirty = false := ht.clean (h.saved.trans (w.session_saved turn now))
  have hversion := h.version
  intro turn' now'
  cases turn <;> cases turn'
  case first.first | second.second =>
    refine ⟨fun _ => rfl, ?_, ?_, nofun⟩
    · exact fun c hc => hversion ▸ ht.notAhead c hc
    · exact fun c hc hv => ht.coherent c hc (hv.trans hversion.symm)
  case first.second => exact (hw .second now').noticing h hclean rfl rfl
  case second.first => exact (hw .first now').noticing h hclean rfl rfl

theorem Ready.run (events : List Event) :
    ∀ w : Workspace, w.Ready → (w.run events).2.Ready := by
  induction events with
  | nil => exact fun w hw => hw
  | cons e rest ih =>
      intro w hw
      obtain ⟨hready, hfollows⟩ := e.script.run_follows _ (hw e.turn e.now)
      exact ih _ (hw.keep hready hfollows)

/-- What every operation preserves holds of the tables after a run. -/
theorem run_keeps {I : Database → Prop} (hI : ∀ o : Operation, o.effect.Keeps I)
    (events : List Event) : ∀ w : Workspace, w.Ready → I w.db → I (w.run events).2.db := by
  induction events with
  | nil => exact fun w _ h => h
  | cons e rest ih =>
      intro w hw h
      obtain ⟨hready, hfollows⟩ := e.script.run_follows _ (hw e.turn e.now)
      have hside := e.script.run_keeps hI _ (hw e.turn e.now) (by simpa using h)
      exact ih _ (hw.keep hready hfollows) (by simpa using hside)

/-! ## Sides in the middle of something -/

theorem during_ready {w : Workspace} (hw : w.Ready) (turn : Turn) (now : String)
    (inScope : Bool) (p : Script) : (w.during turn now inScope p).Ready := by
  unfold during
  split
  · exact (p.run_follows _ (hw turn now).begin).1
  · exact (p.run_follows _ (hw turn now)).1

theorem during_keeps {I : Database → Prop} (hI : ∀ o : Operation, o.effect.Keeps I)
    {w : Workspace} (hw : w.Ready) (h : I w.db) (turn : Turn) (now : String) (inScope : Bool)
    (p : Script) : I (w.during turn now inScope p).db := by
  unfold during
  split
  · exact p.run_keeps hI _ (hw turn now).begin (by simpa [Session.begin] using h)
  · exact p.run_keeps hI _ (hw turn now) (by simpa using h)

end Workspace

end Inventory

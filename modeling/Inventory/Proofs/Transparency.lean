import Inventory.Proofs.Run

/-!
# The caches are transparent

However two sides take turns, every operation answers as it would for a single session that keeps
no categories, and leaves the same tables. The simulation relates a workspace in order to such a
session with the same tables.
-/

namespace Inventory

namespace Session

/-- A session that keeps no categories, so that every lookup reads them from the tables. -/
def rereading (db : Database) : Session :=
  { fresh db "" with remembers := false }

theorem rereading_ready (db : Database) : (rereading db).Ready :=
  .ofNoCache (fun _ => rfl) rfl

/-- It never looks at anything but the tables. -/
theorem rereading_categories (db : Database) (p : Script) :
    let s := (p.run (rereading db)).2
    Registry.categories.exec s = (Tables.categories s.db, s) := by
  intro s
  obtain ⟨hready, hfollows⟩ := p.run_follows _ (rereading_ready db)
  have hremembers : s.remembers = false := hfollows.remembers
  rw [Registry.exec_categories, hready.forgetful hremembers]
  dsimp only
  rw [Registry.exec_reload]
  cases Tables.categories s.db with
  | error e => rfl
  | ok cs => rw [hremembers]; rfl

end Session

namespace Script

/-- The scripts of events as what a single session does. -/
def ofEvents : List Event → Script
  | [] => done
  | e :: rest => tick e.now (e.script.append (ofEvents rest))

end Script

namespace Workspace

/-- The simulation: a side that acts and the single session are like each other, and what is kept
of the side is all that counts for the events to come. -/
theorem run_like_single (events : List Event) : ∀ (w : Workspace) (t : Session),
    w.Ready → t.Ready → t.saved = none → w.db = t.db →
      (w.run events).1 = ((Script.ofEvents events).run t).1 ∧
        (w.run events).2.db = ((Script.ofEvents events).run t).2.db := by
  induction events with
  | nil => exact fun w t _ _ _ hdb => ⟨rfl, hdb⟩
  | cons e rest ih =>
      intro w t hw ht hsaved hdb
      -- neither of the two is inside a transaction, so only the tables must agree
      have hside := hw e.turn e.now
      have hsingle := ht.withNow e.now
      have hlike : (w.session e.turn e.now).Like { t with now := e.now } :=
        ⟨by simp [hdb], by cases e.turn <;> rfl, by rw [session_saved, hsaved],
          (hside.clean (session_saved ..)).trans (ht.clean hsaved).symm⟩
      obtain ⟨hreplies, hlike'⟩ := e.script.run_like _ _ hside hsingle hlike
      obtain ⟨hready, hfollows⟩ := e.script.run_follows _ hside
      obtain ⟨hready', hfollows'⟩ := e.script.run_follows _ hsingle
      have hkept : (w.keep e.turn (e.script.run (w.session e.turn e.now)).2).db =
          (e.script.run { t with now := e.now }).2.db := by
        rw [keep_db, hlike'.db]
      obtain ⟨hothers, hend⟩ :=
        ih _ _ (hw.keep hready hfollows) hready' (hfollows'.saved.trans hsaved) hkept
      refine ⟨?_, ?_⟩
      · simp only [run, Script.ofEvents, Script.run, Script.run_append, hreplies, hothers]
      · simp only [run, Script.ofEvents, Script.run, Script.run_append, hend]

/-- Whatever two sides do in turn, all answers and the tables after every operation are those of
a single session that reads the categories from the tables at every lookup. -/
theorem run_eq_rereading (db : Database) (events : List Event) :
    ((ofDatabase db).run events).1 =
        ((Script.ofEvents events).run (Session.rereading db)).1 ∧
      ((ofDatabase db).run events).2.db =
        ((Script.ofEvents events).run (Session.rereading db)).2.db :=
  run_like_single events _ _ (ofDatabase_ready db) (Session.rereading_ready db) rfl rfl

end Workspace

end Inventory

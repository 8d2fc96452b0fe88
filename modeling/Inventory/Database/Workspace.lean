import Inventory.Database.Session

/-!
Two sides that work on one database, each with its own cache. A side notices that the other one
has committed changes, and neither is inside a transaction of the other.
-/
namespace Inventory

/-- What a side keeps between its actions. -/
structure Side where
  /-- How often the side has committed changes. -/
  commits : Nat
  cache : Option Cache

structure Workspace where
  db : Database
  first : Side
  second : Side

namespace Workspace

/-- Which side acts. -/
inductive Turn where
  | first
  | second
  deriving DecidableEq, Repr

def ofDatabase (db : Database) : Workspace :=
  ⟨db, ⟨0, none⟩, ⟨0, none⟩⟩

/-- The session in which a side acts. -/
def session (w : Workspace) (turn : Turn) (now : String) : Session :=
  match turn with
  | .first => ⟨w.db, now, none, false, w.first.commits, w.second.commits, w.first.cache, true⟩
  | .second => ⟨w.db, now, none, false, w.second.commits, w.first.commits, w.second.cache, true⟩

/-- What is kept of a session after a side has acted. -/
def keep (w : Workspace) (turn : Turn) (s : Session) : Workspace :=
  match turn with
  | .first => { w with db := s.db, first := ⟨s.commits, s.cache⟩ }
  | .second => { w with db := s.db, second := ⟨s.commits, s.cache⟩ }

/-- Lets a side act. -/
def act (w : Workspace) (turn : Turn) (now : String) (a : Action α) : Except Fault α × Workspace :=
  let (result, s) := a.exec (w.session turn now)
  (result, w.keep turn s)

end Workspace

end Inventory

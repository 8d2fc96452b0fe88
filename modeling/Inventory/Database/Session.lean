import Inventory.Database.Table

/-!
Sessions: a connection to a database together with the categories it remembers. An action of a
session gives a result or a fault, and in both cases the session after it. Transactions nest by
joining: only the outermost one commits or rolls back, and a rollback restores the tables and
nothing else.
-/
namespace Inventory

/-- Categories as they were read when other sessions had committed `version` times. -/
structure Cache where
  version : Nat
  categories : List Category

structure Session where
  db : Database
  /-- The time at which statements run. -/
  now : String
  /-- The tables at the start of the open transaction. -/
  saved : Option Database
  /-- Something was written since the transaction began. -/
  dirty : Bool
  /-- How often this session has committed changes. -/
  commits : Nat
  /-- How often other sessions have committed changes. -/
  version : Nat
  cache : Option Cache
  /-- Categories that were read are kept for the next lookup. A session that keeps none reads the
  tables at every lookup. -/
  remembers : Bool

/-- Something a session does. -/
abbrev Action (α : Type) := ExceptT Fault (StateM Session) α

namespace Session

/-- A session that has done nothing yet. -/
def fresh (db : Database) (now : String) : Session :=
  ⟨db, now, none, false, 0, 0, none, true⟩

def begin (s : Session) : Session :=
  { s with saved := some s.db, dirty := false }

/-- Ends the transaction and keeps its changes. Without changes, other sessions notice nothing. -/
def commit (s : Session) : Session :=
  { s with saved := none, dirty := false, commits := s.commits + (if s.dirty then 1 else 0) }

/-- Ends the transaction and restores the tables. The cache stays as it is. -/
def rollback (s : Session) : Session :=
  { s with db := s.saved.getD s.db, saved := none, dirty := false }

end Session

namespace Action

/-- The result and the session after an action. -/
def exec (a : Action α) (s : Session) : Except Fault α × Session :=
  a.run.run s

/-- Does an action inside a transaction that is kept if the action succeeds with a result to
keep. -/
def transactionIf (keep : α → Bool) (a : Action α) : Action α := fun s =>
  if s.saved.isSome then a.exec s
  else
    match a.exec s.begin with
    | (.ok result, t) => (.ok result, if keep result then t.commit else t.rollback)
    | (.error f, t) => (.error f, t.rollback)

/-- Does an action as a whole: a fault undoes all of its changes. -/
def transaction (a : Action α) : Action α :=
  transactionIf (fun _ => true) a

/-- Does an action and makes its fault a result. -/
def attempt (a : Action α) : Action (Except Fault α) := fun s =>
  match a.exec s with
  | (result, t) => (.ok result, t)

/-- A result or a fault that needs no session. -/
def ofExcept : Except Fault α → Action α
  | .ok a => pure a
  | .error f => throw f

/-- Reads something from the tables. -/
def read (f : Database → Except Fault α) : Action α := do
  ofExcept (f (← get).db)

/-- Changes the tables at the time of the session; gives the number of rows that it was about. -/
def write (f : (now : String) → Database.Statement) : Action Nat := do
  let s ← get
  let c ← ofExcept (f s.now s.db)
  set { s with db := c.db, dirty := s.dirty || c.isWritten }
  return c.rows

end Action

end Inventory

import Inventory.Config.Settings
import Inventory.Console.Message
import Inventory.Database.Migration
import Inventory.Database.Session
import Inventory.Text.Lines

/-!
What commands are made of: they look at their surroundings, show lines and tables, ask
questions, and act on an inventory. A command can end early: with an exit code, after it has
said why, when a question stays without an answer, or with a fault that no message is made of.
-/
namespace Inventory

/-- An end before all is done. -/
inductive Ending where
  | exit (code : Nat)
  /-- The input ended before it answered a question. -/
  | unanswered
  /-- A fault for which there is no message. -/
  | fault (f : Fault)

/-- The course of a command so far. -/
structure Progress where
  surroundings : Surroundings
  /-- What was shown, in order. -/
  shown : List Console.Output
  /-- The questions and the answers as they stand on the screen. -/
  asked : String
  /-- The lines that were typed and not yet read. -/
  input : List (List Char)

/-- A part of a command. -/
abbrev Run (α : Type) := ExceptT Ending (StateM Progress) α

namespace Run

/-- The result and the progress after a part. -/
def exec (r : Run α) (p : Progress) : Except Ending α × Progress :=
  r.run.run p

def surroundings : Run Surroundings := do
  return (← get).surroundings

/-- Replaces what is on the disk. -/
def setDisk (d : Disk) : Run Unit :=
  modify fun p => { p with surroundings := { p.surroundings with disk := d } }

/-- What comes of looking at the disk or changing it; no message is made of a fault. -/
def onDisk : Except Fault α → Run α
  | .ok a => pure a
  | .error f => throw (.fault f)

/-- Changes the disk; what was changed before a fault stays. -/
def changeDisk (change : Disk → Except Disk.Broken Disk) : Run Unit := do
  match change (← surroundings).disk with
  | .ok d => setDisk d
  | .error broken => do
    setDisk broken.disk
    throw (.fault broken.fault)

/-! ### Showing and failing -/

def showOutput (o : Console.Output) : Run Unit :=
  modify fun p => { p with shown := p.shown ++ [o] }

def showLine (markup : String) : Run Unit :=
  showOutput (.line markup)

def showTable (t : Console.Table) : Run Unit :=
  showOutput (.table t)

/-- Shows that something was done. -/
def showDone (what : String) : Run Unit :=
  showLine ("[green]✓[/] " ++ what)

def exit (code : Nat) : Run α :=
  throw (.exit code)

/-- Says what is wrong and ends. -/
def fail (message : String) : Run α := do
  showLine message
  exit 1

/-- A result, or the end that `handle` makes of a fault for which there is a message. -/
def orFault (hasMessage : FaultKind → Bool) (handle : Fault → Run α) : Except Fault α → Run α
  | .ok a => pure a
  | .error f => if hasMessage f.kind then handle f else throw (.fault f)

/-- A result; a fault of the inventory's own kinds is shown as its message. -/
def reported : Except Fault α → Run α :=
  orFault FaultKind.isOwn fun f => fail (Message.ofFault f)

/-- A result; a fault of some kinds is shown as wrong input. -/
def accepted (kinds : List FaultKind) : Except Fault α → Run α :=
  orFault kinds.contains fun f => fail (Message.invalidInput f.message)

/-! ### Questions -/

/-- What a line says to a question: an empty one says no. -/
def answer? (line : List Char) : Option Bool :=
  let text := Text.trim (Text.lower (String.ofList line))
  if text = "y" || text = "yes" then some true
  else if text = "n" || text = "no" || text = "" then some false
  else none

/-- Reads lines until one answers: gives the answer, if there is one, what then stands on the
screen, and the lines that are left. -/
def readAnswer (question : String) : List (List Char) → Option Bool × String × List (List Char)
  | [] => (none, question, [])
  | line :: rest =>
    let screen := question ++ String.ofList line ++ "\n"
    match answer? line with
    | some b => (some b, screen, rest)
    | none =>
      let (b, later, rest) := readAnswer question rest
      (b, screen ++ "Error: invalid input\n" ++ later, rest)

/-- Asks a question that is answered with yes or no; the end of the input ends the command. -/
def confirm (question : String) : Run Bool := do
  let p ← get
  let (b, screen, rest) := readAnswer (question ++ " [y/N]: ") p.input
  set { p with asked := p.asked ++ screen, input := rest }
  match b with
  | some b => return b
  | none => throw .unanswered

/-- Goes on if the person wants it, and otherwise ends well. -/
def confirmed (question cancelled : String) : Run Unit := do
  if !(← confirm question) then
    showLine cancelled
    exit 0

/-! ### Settings and the inventory -/

/-- The settings; a fault in their files is shown. -/
def settings : Run Settings := do
  return (← accepted [.config] (Settings.load (← surroundings))).1

/-- Where the inventory is: as it is given, or as the settings say. -/
def databasePath : (given : Option Path) → Run Path
  | some p => pure p
  | none => do return (← settings).database

/-- The inventory in a file, with tables that are up to date; an empty file holds an empty one. -/
def stored (now : String) : Content → Except Fault Database
  | .inventory db => .ok (db.migrate now)
  | .bytes data =>
    if data.isEmpty then .ok (Database.empty.migrate now)
    else .error (.ofStatement .database "file is not a database")

/-- The disk after the inventory at a path was opened, or created if nothing is there. -/
def connected (s : Surroundings) (p : Path) : Except Fault Disk := do
  match ← s.disk.find? s.work p with
  | none => s.disk.write (s.work.join p) (.inventory (Database.empty.migrate s.now))
  | some (_, .directory) => throw (.ofStatement .database "unable to open database file")
  | some (place, .file content) =>
    return s.disk.put place (.file (.inventory (← stored s.now content)))

/-- Opens or creates the inventory at a path, in a directory that is created if it is missing. -/
def connect (p : Path) : Run Unit := do
  let s ← surroundings
  changeDisk (·.makeDirectory (s.work.join p).parent)
  setDisk (← reported (connected (← surroundings) p))

/-- Opens the inventory, which must be there, and gives its path. -/
def openInventory (given : Option Path) : Run Path := do
  let p ← databasePath given
  let s ← surroundings
  if !(← onDisk (s.disk.contains s.work p)) then
    fail (Message.noDatabase p.toText)
  connect p
  return p

/-- Does an action on the open inventory at a path. -/
def attempt (p : Path) (a : Action α) : Run (Except Fault α) := do
  let s ← surroundings
  match ← onDisk (s.disk.find? s.work p) with
  | some (place, .file (.inventory db)) =>
    let (result, session) := a.exec (Session.fresh db s.now)
    setDisk (s.disk.put place (.file (.inventory session.db)))
    return result
  | _ => throw (.fault (.ofStatement .database "unable to open database file"))

/-- Does an action on the open inventory at a path; a fault is shown. -/
def perform (p : Path) (a : Action α) : Run α := do
  reported (← attempt p a)

end Run

end Inventory

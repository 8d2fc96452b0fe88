import Inventory.Command.Execution
import Inventory.Proofs.ImportFaults
import Inventory.Proofs.Opening

/-!
# How imports end

The command that imports a file reads it, opens the inventory and creates the rows. It ends well with
one new entry for each row, or it says what is wrong. Only for a long cell and for a text with too
many digits does it end in another way.
-/

namespace Inventory

/-! ## Parts of the command -/

namespace Command

open Run

variable {q : Progress} {p : Path} {place : Place} {db : Database} {file : String}
  {content : Content} {given : Option Path}

theorem exec_readBatch (hfile : q.surroundings.disk.file? q.surroundings.work (.ofText file) =
      .ok (some content)) (hplain : meansDirectory file = false) :
    (readBatch file).exec q = (accepted [.importFormat, .notUtf8]
      (ImportBatch.ofBytes (Path.ofText file).toText content.toBytes)).exec q := by
  rw [readBatch, exec_surroundings_bind]
  dsimp only
  rw [hfile]
  dsimp only
  rw [if_neg (by simp [hplain])]

/-- The line that a note is shown as. -/
def noteLine (note : String) : Console.Output :=
  .line ("  [dim]" ++ Console.escape note ++ "[/]")

/-- What is said of a fault: its message, and where it arose. -/
def explanation (f : Fault) : List Console.Output :=
  .line (Message.ofFault f) :: f.notes.map noteLine

theorem exec_showNotes (notes : List String) : ∀ q : Progress,
    (forIn notes PUnit.unit fun note _ => do
      showLine ("  [dim]" ++ Console.escape note ++ "[/]")
      pure (.yield PUnit.unit) : Run PUnit).exec q =
        (.ok PUnit.unit, { q with shown := q.shown ++ notes.map noteLine }) := by
  induction notes with
  | nil =>
      intro q
      rw [List.map_nil, List.append_nil]
      rfl
  | cons note rest ih =>
      intro q
      rw [List.forIn_cons, exec_bind]
      show (forIn rest PUnit.unit _ : Run PUnit).exec
        { q with shown := q.shown ++ [noteLine note] } = _
      rw [ih]
      simp

theorem exec_failAt {α : Type} (f : Fault) (q : Progress) : (failAt f : Run α).exec q =
    (.error (.exit 1), { q with shown := q.shown ++ explanation f }) := by
  rw [failAt, exec_bind]
  show ((forIn f.notes PUnit.unit _ : Run PUnit) >>= fun _ => exit 1 : Run α).exec
    { q with shown := q.shown ++ [.line (Message.ofFault f)] } = _
  rw [exec_bind, exec_showNotes]
  dsimp only
  rw [List.append_assoc]
  rfl

/-- The line that says how many entries were imported. -/
def importedLine (count : Nat) (category : String) : Console.Output :=
  .line ("[green]✓[/] " ++ (s!"Imported {count} entries into " ++ Console.escape category))

/-- How an import ends when its rows have come to a result. -/
def concluded (category : String) (q : Progress) :
    Except Fault (List Entry) → Except Ending Unit × Progress
  | .ok created => (.ok (), { q with shown := q.shown ++ [importedLine created.length category] })
  | .error f =>
    if f.kind.isOwn then (.error (.exit 1), { q with shown := q.shown ++ explanation f })
    else (.error (.fault f), q)

/-- A file that is no import file ends the command before the inventory is opened. -/
theorem exec_importEntries_of_error {f : Fault}
    (hfile : q.surroundings.disk.file? q.surroundings.work (.ofText file) = .ok (some content))
    (hplain : meansDirectory file = false)
    (hread : ImportBatch.ofBytes (Path.ofText file).toText content.toBytes = .error f) :
    (importEntries given file).exec q =
      if f.kind ∈ [.importFormat, .notUtf8] then
        (.error (.exit 1), { q with shown := q.shown ++ [.line (Message.invalidInput f.message)] })
      else (.error (.fault f), q) := by
  rw [importEntries, exec_bind, exec_readBatch hfile hplain, exec_accepted, hread]
  by_cases hkind : f.kind ∈ [.importFormat, .notUtf8]
  · simp only [if_pos hkind]
  · simp only [if_neg hkind]

/-- The rows of a file are created in the inventory, and what comes of them is shown. -/
theorem exec_importEntries_of_ok {batch : ImportBatch} {result : Except Fault (List Entry)}
    {t : Session}
    (hfile : q.surroundings.disk.file? q.surroundings.work (.ofText file) = .ok (some content))
    (hplain : meansDirectory file = false)
    (hread : ImportBatch.ofBytes (Path.ofText file).toText content.toBytes = .ok batch)
    (hpath : q.surroundings.inventoryPath given = .ok p)
    (hfound : q.surroundings.disk.find? q.surroundings.work p =
      .ok (some (place, .file (.inventory db))))
    (hcreate : batch.create.exec
      (Session.fresh (db.migrate q.surroundings.now) q.surroundings.now) = (result, t)) :
    (importEntries given file).exec q = concluded batch.category
      ((q.saving place (db.migrate q.surroundings.now)).saving place t.db) result := by
  -- the rows are created in the tables that the opening has left in the file
  have hagain : (q.saving place (db.migrate q.surroundings.now)).surroundings.disk.find?
      q.surroundings.work p = .ok (some (place, .file (.inventory (db.migrate q.surroundings.now)))) :=
    Disk.find?_put hfound
  have hattempt : (attempt p batch.create).exec (q.saving place (db.migrate q.surroundings.now)) =
      (.ok result, (q.saving place (db.migrate q.surroundings.now)).saving place t.db) := by
    rw [exec_attempt hagain]
    show (Except.ok (batch.create.exec (Session.fresh _ q.surroundings.now)).1,
      Progress.saving _ place (batch.create.exec (Session.fresh _ q.surroundings.now)).2.db) = _
    rw [hcreate]
  rw [importEntries, exec_bind, exec_readBatch hfile hplain, exec_accepted, hread]
  dsimp only
  rw [exec_bind, exec_openInventory hpath hfound]
  dsimp only
  rw [exec_bind, hattempt]
  dsimp only
  rw [exec_bind]
  cases result with
  | ok created => rfl
  | error f =>
      rw [orFault, concluded]
      by_cases hown : f.kind.isOwn
      · simp only [if_pos hown, exec_failAt]
      · simp only [if_neg hown]
        rfl

end Command

/-! ## Outcomes -/

/-- The words ask for the import of a file into the inventory at a path, and both are there. -/
structure Surroundings.Imports (s : Surroundings) (words : List String) (file : String)
    (content : Content) (p : Path) (db : Database) : Prop where
  asked : ∃ database, Invocation.ofWords words = some ⟨.importFile file, database⟩ ∧
    s.inventoryPath database = .ok p
  plain : Command.meansDirectory file = false
  found : s.disk.file? s.work (.ofText file) = .ok (some content)
  holds : s.Holds p db

namespace Surroundings.Imports

open Command

variable {s : Surroundings} {words : List String} {file : String} {content : Content} {p : Path}
  {db : Database}

/-- Paths under which something is there do not hold the null character, so the import begins. -/
theorem executeDrawing_eq (h : s.Imports words file content p db) (draws : List String)
    (input : String) : ∃ database, s.inventoryPath database = .ok p ∧
      executeDrawing draws words input s =
        .ofRun ((importEntries database file).exec ⟨s, [], "", Text.endedLines input.toList⟩) := by
  obtain ⟨database, hwords, hpath⟩ := h.asked
  refine ⟨database, hpath, ?_⟩
  obtain ⟨place, hplace⟩ := Disk.exists_of_file? h.found
  obtain ⟨place', hplace'⟩ := h.holds
  have hfile := Disk.holdsNull_of_find? hplace
  have hnull : Invocation.givesNull ⟨.importFile file, database⟩ = false := by
    cases database with
    | none => simp [Invocation.givesNull, Command.givenPaths, hfile]
    | some given =>
        cases hpath
        simp [Invocation.givesNull, Command.givenPaths, hfile, Disk.holdsNull_of_find? hplace']
  rw [executeDrawing, hwords]
  dsimp only
  rw [Invocation.run, if_neg (by simp [hnull])]

theorem outcome_unread (h : s.Imports words file content p db) (draws : List String)
    (input : String) {f : Fault}
    (hread : ImportBatch.ofBytes (Path.ofText file).toText content.toBytes = .error f) :
    executeDrawing draws words input s =
      if f.kind ∈ [.importFormat, .notUtf8] then
        ⟨some (.exit 1), [.line (Message.invalidInput f.message)], "", s.disk⟩
      else ⟨some (.fault f), [], "", s.disk⟩ := by
  obtain ⟨database, -, hexec⟩ := h.executeDrawing_eq draws input
  have hend : (importEntries database file).exec ⟨s, [], "", Text.endedLines input.toList⟩ = _ :=
    exec_importEntries_of_error h.found h.plain hread
  rw [hexec, hend]
  split <;> rfl

theorem outcome_of_long (h : s.Imports words file content p db) (draws : List String)
    (input : String) (hlong : ImportBatch.HasLongCell content.toBytes) :
    executeDrawing draws words input s = ⟨some (.fault .cellTooLong), [], "", s.disk⟩ := by
  rw [h.outcome_unread draws input (ImportBatch.ofBytes_of_long hlong), if_neg (by decide)]

/-- The file of the inventory then holds the tables that the rows have left. -/
theorem outcome_read (h : s.Imports words file content p db) (draws : List String)
    (input : String) {batch : ImportBatch} {result : Except Fault (List Entry)} {t : Session}
    (hread : ImportBatch.ofBytes (Path.ofText file).toText content.toBytes = .ok batch)
    (hcreate : batch.create.exec (Session.fresh (db.migrate s.now) s.now) = (result, t)) :
    ∃ d, Surroundings.Holds { s with disk := d } p t.db ∧
      executeDrawing draws words input s = .ofRun (concluded batch.category
        ⟨{ s with disk := d }, [], "", Text.endedLines input.toList⟩ result) := by
  obtain ⟨database, hpath, hexec⟩ := h.executeDrawing_eq draws input
  obtain ⟨place, hplace⟩ := h.holds
  have hend : (importEntries database file).exec ⟨s, [], "", Text.endedLines input.toList⟩ = _ :=
    exec_importEntries_of_ok h.found h.plain hread hpath hplace hcreate
  refine ⟨_, ?_, hexec.trans (congrArg Outcome.ofRun hend)⟩
  exact ⟨place, Disk.find?_put (Disk.find?_put hplace)⟩

end Surroundings.Imports

/-- How an import can end, with what reading the file has given and the session in which the rows are
created. -/
inductive ImportEnds (s : Surroundings) (p : Path) (read : Except Fault ImportBatch)
    (opened : Session) : Outcome → Prop
  /-- Each row has become an entry, behind those that were there. -/
  | created {batch : ImportBatch} {added : List EntryRow} {d : Disk} (hread : read = .ok batch)
      (hkeys : added.map (·.key) = batch.rows.map (·.key))
      (hdisk : Surroundings.Holds { s with disk := d } p
        { opened.db with entries := opened.db.entries ++ added }) :
      ImportEnds s p read opened
        ⟨none, [Command.importedLine batch.rows.length batch.category], "", d⟩
  /-- The file is no import file. -/
  | unread {f : Fault} (hread : read = .error f) :
      ImportEnds s p read opened
        ⟨some (.exit 1), [.line (Message.invalidInput f.message)], "", s.disk⟩
  /-- A row is refused. -/
  | refused {batch : ImportBatch} {f : Fault} {d : Disk} (hread : read = .ok batch)
      (hcreate : (batch.create.exec opened).1 = .error f) :
      ImportEnds s p read opened ⟨some (.exit 1), Command.explanation f, "", d⟩
  /-- Nothing is said of what is wrong. -/
  | unexplained {f : Fault} {d : Disk} : ImportEnds s p read opened ⟨some (.fault f), [], "", d⟩

namespace Surroundings.Imports

open Command

variable {s : Surroundings} {words : List String} {file : String} {content : Content} {p : Path}
  {db : Database} {v : View}

theorem ends_of_error (h : s.Imports words file content p db) (draws : List String)
    (input : String) (opened : Session) {f : Fault}
    (hread : ImportBatch.ofBytes (Path.ofText file).toText content.toBytes = .error f) :
    ImportEnds s p (.error f) opened (executeDrawing draws words input s) ∧
      ((∃ g, (executeDrawing draws words input s).ending = some (.fault g)) ↔
        ImportBatch.HasLongCell content.toBytes) := by
  rw [h.outcome_unread draws input hread]
  rcases ImportBatch.ofBytes_eq_error hread with ⟨hkind, hshort⟩ | ⟨rfl, hlong⟩
  · rw [if_pos hkind]
    exact ⟨.unread rfl, iff_of_false nofun hshort⟩
  · rw [if_neg (by decide)]
    exact ⟨.unexplained, iff_of_true ⟨_, rfl⟩ hlong⟩

theorem ends_of_ok (h : s.Imports words file content p db) (hdb : db.Shows v) (draws : List String)
    (input : String) {batch : ImportBatch}
    (hread : ImportBatch.ofBytes (Path.ofText file).toText content.toBytes = .ok batch) :
    let opened := Session.fresh (db.migrate s.now) s.now
    ImportEnds s p (.ok batch) opened (executeDrawing draws words input s) ∧
      ((∃ f, (executeDrawing draws words input s).ending = some (.fault f)) ↔
        batch.Overflows opened) := by
  intro opened
  have hsees : opened.Sees v := (hdb.migrate s.now).fresh_sees s.now
  have hforeign := ImportBatch.foreign_create hsees (ImportBatch.isWritable_of_ofBytes hread)
  rw [← hforeign]
  rcases hcreate : batch.create.exec opened with ⟨f | created, t⟩
  · obtain ⟨d, -, ho⟩ := h.outcome_read draws input hread hcreate
    rw [ho, foreign_error_iff, concluded]
    by_cases hown : f.kind.isOwn
    · rw [if_pos hown]
      exact ⟨.refused rfl (congrArg Prod.fst hcreate), iff_of_false nofun (by simp [hown])⟩
    · rw [if_neg hown]
      exact ⟨.unexplained, iff_of_true ⟨f, rfl⟩ (by simpa using hown)⟩
  · obtain ⟨d, hdisk, ho⟩ := h.outcome_read draws input hread hcreate
    -- the entries that are there now are those which the rows have asked for
    obtain ⟨drafts, hdrafts⟩ := ImportBatch.exists_drafts hsees (congrArg Prod.fst hcreate)
    obtain ⟨u, hexec, -, hudb⟩ := ImportBatch.exec_createRows hdrafts hsees
    cases hcreate.symm.trans hexec
    rw [hudb] at hdisk
    have hlength : (drafts.map (entryOf v.categories)).length = batch.rows.length := by
      rw [List.length_map, hdrafts.drafted.length_eq]
    rw [ho, concluded, hlength]
    exact ⟨.created rfl hdrafts.keys hdisk, iff_of_false nofun (not_foreign_ok _)⟩

end Surroundings.Imports

open ImportBatch in
/-- The import of a file into an inventory ends well with an entry for each row, or it ends with a
message, unless a line that is read has a cell that is too long, or behind rows that are created
stands one with a text of too many digits for an integer. Such a cell is all that the reading of a
file says nothing of, and such a row all that the creation of rows says nothing of. -/
theorem import_ends (m : Moment) :
    (∀ name bytes, (∃ f, ofBytes name bytes = .error f ∧ f.kind ∉ [.importFormat, .notUtf8]) ↔
      HasLongCell bytes) ∧
    (∀ name bytes batch, ofBytes name bytes = .ok batch →
      (Foreign (batch.create.exec m.session).1 ↔ batch.Overflows m.session)) ∧
    ∀ (draws words : List String) (input : String) (s : Surroundings) (file : String)
      (content : Content) (p : Path), s.Imports words file content p m.session.db →
      let read := ofBytes (Path.ofText file).toText content.toBytes
      let opened := Session.fresh (m.session.db.migrate s.now) s.now
      let o := executeDrawing draws words input s
      ImportEnds s p read opened o ∧ ((∃ f, o.ending = some (.fault f)) ↔
        HasLongCell content.toBytes ∨ ∃ batch, read = .ok batch ∧ batch.Overflows opened) := by
  obtain ⟨v, hsees⟩ := m.sees
  refine ⟨fun name bytes => hasLongCell_iff, fun name bytes batch hread =>
    foreign_create hsees (isWritable_of_ofBytes hread), ?_⟩
  intro draws words input s file content p h
  dsimp only
  cases hread : ofBytes (Path.ofText file).toText content.toBytes with
  | error f =>
      obtain ⟨hends, hiff⟩ := h.ends_of_error draws input
        (Session.fresh (m.session.db.migrate s.now) s.now) hread
      refine ⟨hends, hiff.trans (or_iff_left ?_).symm⟩
      intro ⟨batch, hbatch, _⟩
      cases hbatch
  | ok batch =>
      obtain ⟨hends, hiff⟩ := h.ends_of_ok hsees.shows draws input hread
      refine ⟨hends, hiff.trans ?_⟩
      have hshort : ¬HasLongCell content.toBytes := fun hlong =>
        nomatch (ofBytes_of_long hlong).symm.trans hread
      simp [hshort]

/-- An inventory of tools, and a file beside it. -/
def besideTools (data : ByteArray) : Surroundings where
  disk := [(["work"], .directory),
    (["work", "pinv.db"], .file (.inventory ImportBatch.toolsDefined.session.db)),
    (["work", "parts.txt"], .file (.bytes data))]
  work := .ofParts ["work"]
  home := .ofParts ["home"]
  users := []
  environment := []
  now := "2024-01-01 00:00:03"

def importParts : List String :=
  ["import", "parts.txt", "--db", "pinv.db"]

theorem besideTools_imports (data : ByteArray) :
    (besideTools data).Imports importParts "parts.txt" (.bytes data) ⟨0, ["pinv.db"]⟩
      ImportBatch.toolsDefined.session.db where
  asked := ⟨some ⟨0, ["pinv.db"]⟩, by decide +kernel, rfl⟩
  plain := by decide +kernel
  found := rfl
  holds := ⟨_, rfl⟩

def hammerFile : String :=
  "tools\nkey\x1elocation\x1equantity\nhammer\x1eshed\x1e1\n"

/-- The import of a hammer ends well, and so there is no long cell. -/
theorem hammer_imported :
    let s := besideTools hammerFile.toUTF8
    let o := executeDrawing Disk.usualDraws importParts "" s
    o.ending = none ∧ ¬ImportBatch.HasLongCell hammerFile.toUTF8 ∧
      ImportEnds s ⟨0, ["pinv.db"]⟩ (ImportBatch.ofBytes "parts.txt" hammerFile.toUTF8)
        (Session.fresh (ImportBatch.toolsDefined.session.db.migrate s.now) s.now) o := by
  intro s o
  obtain ⟨hends, hiff⟩ := (import_ends ImportBatch.toolsDefined).2.2 Disk.usualDraws importParts ""
    s "parts.txt" _ _ (besideTools_imports hammerFile.toUTF8)
  have hending : o.ending = none := by
    refine Option.isNone_iff_eq_none.1 ?_
    decide +kernel
  refine ⟨hending, fun hlong => ?_, hends⟩
  obtain ⟨f, hf⟩ := hiff.2 (.inl hlong)
  cases hending.symm.trans hf

theorem unexplained_besideTools {data : ByteArray} (hlong : ImportBatch.HasLongCell data) :
    let s := besideTools data
    let o := executeDrawing Disk.usualDraws importParts "" s
    s.Imports importParts "parts.txt" (.bytes data) ⟨0, ["pinv.db"]⟩
      ImportBatch.toolsDefined.session.db ∧
      o.ending = some (.fault .cellTooLong) ∧ o.shown = [] := by
  have himports := besideTools_imports data
  have ho := himports.outcome_of_long Disk.usualDraws "" hlong
  exact ⟨himports, congrArg Outcome.ending ho, congrArg Outcome.shown ho⟩

/-- A cell with one character too many ends the import without a word. -/
theorem long_cell_unexplained :
    let data := (String.ofList (List.replicate 131073 'a')).toUTF8
    let s := besideTools data
    let o := executeDrawing Disk.usualDraws importParts "" s
    s.Imports importParts "parts.txt" (.bytes data) ⟨0, ["pinv.db"]⟩
      ImportBatch.toolsDefined.session.db ∧
      o.ending = some (.fault .cellTooLong) ∧ o.shown = [] :=
  unexplained_besideTools (ImportBatch.hasLongCell_replicate (by decide))

end Inventory

import Inventory.Console.Markup
import Inventory.Entry
import Inventory.Label.Lookup

/-!
What commands show of entries, categories and templates: tables with a row for each thing. Texts
are shown as they are, and null is shown as nothing.
-/
namespace Inventory

namespace Console

/-- The cell of a value. -/
def cell (v : Value) : String :=
  if v.isNull then "" else escape v.shown

/-- The cell of a property of an entry. -/
def propertyCell (e : Entry) (name : String) : String :=
  cell ((e.property? name).getD .null)

/-- One entry: its properties, then its fields. -/
def entryTable (e : Entry) : Table where
  title := s!"ENTRY {escape e.key}, CATAGORY {escape e.category}"
  headers := ["Field", "Value"]
  showsHeader := false
  rows :=
    ["location", "quantity", "created", "modified"].map (fun name => [name, propertyCell e name]) ++
      e.fields.map fun (name, value) => [name, cell value]

/-- The properties that are columns when entries are listed. -/
def listedProperties : List String :=
  ["key", "location", "quantity"]

/-- Entries of a category, one a row. -/
def entriesTable (c : Category) (entries : List Entry) : Table where
  title := s!"{escape c.id} ({entries.length})"
  headers := listedProperties ++ c.fieldNames
  showsHeader := true
  rows := entries.map fun e =>
    listedProperties.map (propertyCell e) ++
      c.fieldNames.map fun name => cell ((e.fields.get? name).getD .null)

/-- The fields of a category. -/
def categoryTable (c : Category) : Table where
  title := s!"CATAGORY {escape c.id}"
  headers := ["Field", "Type"]
  showsHeader := true
  rows := c.fields.map fun f => [f.name, f.type.label]

/-- Categories with the numbers of their entries. -/
def categoriesTable (stats : List (Category × Nat)) : Table where
  title := "Catagories"
  headers := ["Catagory", "Fields", "Entries"]
  showsHeader := true
  rows := stats.map fun (c, count) =>
    [escape c.id, ", ".intercalate (c.fields.map FieldDef.toText), toString count]

/-- The templates that come with the program, and those in files of a directory. -/
def templatesTable (directory : Path) (files : List String) : Table where
  title := "Templates"
  headers := ["Name", "Source"]
  showsHeader := true
  rows :=
    Template.builtinNames.map (fun name => [escape name, "builtin"]) ++
      files.map fun file =>
        [escape (Template.nameOfFile file), escape (directory.join ⟨0, [file]⟩).toText]

end Console

end Inventory

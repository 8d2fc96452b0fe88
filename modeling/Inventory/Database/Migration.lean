import Inventory.Database.Table

/-!
Migrations bring a database to the current layout. They only add tables and indexes, and they
run in ascending order of their versions, each one once.
-/
namespace Inventory

structure Migration where
  version : Int
  objects : List String

namespace Migration

/-- The table in which migrations are recorded; it comes before all of them. -/
def versionTable : String := "schema_version"

def all : List Migration :=
  [⟨1, ["catagories", "catagory_fields", "entries", "idx_entries_catagory"]⟩]

end Migration

namespace Database

/-- Creates the objects that are missing. -/
def ensure (names : List String) (db : Database) : Database :=
  { db with objects := db.objects ++ names.filter (!db.objects.contains ·) }

/-- The highest recorded version; zero when none is recorded. -/
def currentVersion (db : Database) : Int :=
  match db.versions.map Prod.fst with
  | [] => 0
  | v :: rest => rest.foldl max v

/-- Applies and records one migration. -/
def apply (now : String) (db : Database) (m : Migration) : Database :=
  let db := db.ensure m.objects
  { db with versions := db.versions ++ [(m.version, now)] }

/-- Brings the layout up to date. -/
def migrate (now : String) (db : Database) : Database :=
  let db := db.ensure [Migration.versionTable]
  (Migration.all.filter (db.currentVersion < ·.version)).foldl (apply now) db

/-- The names of tables and indexes in ascending order. -/
def objectNames (db : Database) : List String :=
  db.objects.mergeSort (· ≤ ·)

/-- Sets every recorded version to zero. -/
def zeroVersions (db : Database) : Database :=
  { db with versions := db.versions.map fun (_, applied) => (0, applied) }

/-- Forgets every recorded version. -/
def forgetVersions (db : Database) : Database :=
  { db with versions := [] }

/-- Records a version, whatever the layout. -/
def recordVersion (now : String) (version : Int) (db : Database) : Database :=
  let db := db.ensure [Migration.versionTable]
  { db with versions := db.versions ++ [(version, now)] }

end Database

end Inventory

import Inventory.Database.Migration

/-!
# Migrations

Bringing an inventory up to date adds tables, indexes and records of versions, and leaves everything
that is there as it is, whatever versions are recorded. Which migrations are pending is decided
once, before the first of them is recorded; since their versions ascend, none is pending afterwards.
-/

namespace Inventory.Database

variable {db done : Database}

/-! ## The highest version -/

theorem currentVersion_eq (db : Database) :
    db.currentVersion = (db.versions.map Prod.fst).max?.getD 0 := by
  unfold currentVersion
  cases db.versions.map Prod.fst <;> rfl

theorem le_currentVersion {v : Int} (h : v ∈ db.versions.map Prod.fst) : v ≤ db.currentVersion := by
  rw [currentVersion_eq]
  cases hmax : (db.versions.map Prod.fst).max? with
  | none =>
      rw [List.max?_eq_none_iff.1 hmax] at h
      cases h
  | some newest => exact (List.max?_eq_some_iff.1 hmax).2 v h

/-- The highest recorded version was recorded, unless it is that of a new inventory. -/
theorem currentVersion_mem (h : 0 < db.currentVersion) :
    db.currentVersion ∈ db.versions.map Prod.fst := by
  rw [currentVersion_eq] at h ⊢
  cases hmax : (db.versions.map Prod.fst).max? with
  | none =>
      rw [hmax] at h
      exact absurd h (Int.lt_irrefl 0)
  | some newest => exact (List.max?_eq_some_iff.1 hmax).1

/-! ## Pending migrations -/

/-- The version of a migration is greater than every recorded one. -/
def Pending (db : Database) (m : Migration) : Prop :=
  m ∈ Migration.all ∧ ∀ record ∈ db.versions, record.1 < m.version

/-- The migrations that are applied, in the order in which they are. -/
def pending (db : Database) : List Migration :=
  Migration.all.filter (db.currentVersion < ·.version)

theorem mem_pending {m : Migration} : m ∈ db.pending ↔ db.Pending m := by
  rw [pending, List.mem_filter, decide_eq_true_iff]
  refine and_congr_right fun hm => ⟨fun h record hrecord => ?_, fun h => ?_⟩
  · exact Int.lt_of_le_of_lt (le_currentVersion (List.mem_map_of_mem hrecord)) h
  · have hpositive : ∀ m ∈ Migration.all, 0 < m.version := by decide
    rcases Int.lt_or_le 0 db.currentVersion with hcurrent | hcurrent
    · obtain ⟨record, hrecord, heq⟩ := List.mem_map.1 (currentVersion_mem hcurrent)
      exact heq ▸ h record hrecord
    · exact Int.lt_of_le_of_lt hcurrent (hpositive m hm)

theorem pending_ascends (db : Database) : db.pending.Pairwise (·.version < ·.version) := by
  have hall : Migration.all.Pairwise (·.version < ·.version) := by decide
  exact hall.sublist (List.filter_sublist ..)

/-! ## What is kept -/

/-- Everything that is there stays as it is. -/
structure Extends (db done : Database) : Prop where
  objects : db.objects <+: done.objects
  versions : db.versions <+: done.versions
  categories : done.categories = db.categories
  entries : done.entries = db.entries

theorem Extends.refl (db : Database) : db.Extends db :=
  ⟨List.prefix_rfl, List.prefix_rfl, rfl, rfl⟩

theorem Extends.trans {next : Database} (h : db.Extends next) (h' : next.Extends done) :
    db.Extends done where
  objects := h.objects.trans h'.objects
  versions := h.versions.trans h'.versions
  categories := h'.categories.trans h.categories
  entries := h'.entries.trans h.entries

theorem extends_ensure (names : List String) (db : Database) : db.Extends (db.ensure names) :=
  ⟨List.prefix_append .., List.prefix_rfl, rfl, rfl⟩

theorem mem_objects_ensure {name : String} {names : List String} :
    name ∈ (db.ensure names).objects ↔ name ∈ db.objects ∨ name ∈ names := by
  by_cases h : name ∈ db.objects <;> simp [ensure, h]

/-- What one migration keeps. -/
theorem extends_apply (now : String) (db : Database) (m : Migration) :
    db.Extends (apply now db m) :=
  (extends_ensure m.objects db).trans ⟨List.prefix_rfl, List.prefix_append .., rfl, rfl⟩

section Runs

variable (now : String) (ms : List Migration)

theorem extends_foldl_apply : ∀ db : Database, db.Extends (ms.foldl (apply now) db) := by
  induction ms with
  | nil => exact Extends.refl
  | cons m rest ih => exact fun db => (extends_apply now db m).trans (ih (apply now db m))

theorem versions_foldl_apply : ∀ db : Database,
    (ms.foldl (apply now) db).versions = db.versions ++ ms.map fun m => (m.version, now) := by
  induction ms with
  | nil => simp
  | cons m rest ih =>
      intro db
      rw [List.foldl_cons, ih]
      simp [apply, ensure]

theorem mem_objects_foldl_apply {name : String} : ∀ db : Database,
    name ∈ (ms.foldl (apply now) db).objects ↔
      name ∈ db.objects ∨ ∃ m ∈ ms, name ∈ m.objects := by
  induction ms with
  | nil => simp
  | cons m rest ih =>
      intro db
      have happly : name ∈ (apply now db m).objects ↔ name ∈ db.objects ∨ name ∈ m.objects :=
        mem_objects_ensure
      rw [List.foldl_cons, ih, happly]
      simp [or_assoc]

end Runs

/-- Only the table of versions may be new before the pending migrations are applied. -/
theorem migrate_eq_foldl (now : String) (db : Database) :
    db.migrate now = db.pending.foldl (apply now) (db.ensure [Migration.versionTable]) :=
  rfl

theorem extends_migrate (now : String) (db : Database) : db.Extends (db.migrate now) :=
  (extends_ensure _ db).trans (extends_foldl_apply now _ _)

theorem versions_migrate (now : String) (db : Database) :
    (db.migrate now).versions = db.versions ++ db.pending.map fun m => (m.version, now) :=
  versions_foldl_apply now db.pending _

theorem mem_objects_migrate {now name : String} :
    name ∈ (db.migrate now).objects ↔ name ∈ db.objects ∨ name = Migration.versionTable ∨
      ∃ m, db.Pending m ∧ name ∈ m.objects := by
  rw [migrate_eq_foldl, mem_objects_foldl_apply, mem_objects_ensure, List.mem_singleton, or_assoc]
  simp only [mem_pending]

/-! ## Migrations that have nothing to do -/

/-- The layout is the current one. -/
structure IsCurrent (db : Database) : Prop where
  recorded : Migration.versionTable ∈ db.objects
  applied : ∀ m ∈ Migration.all, m.version ≤ db.currentVersion

theorem IsCurrent.migrate_eq (h : db.IsCurrent) (now : String) : db.migrate now = db := by
  have hensure : db.ensure [Migration.versionTable] = db := by
    have hmissing : [Migration.versionTable].filter (!db.objects.contains ·) = [] := by
      simpa using h.recorded
    rw [ensure, hmissing, List.append_nil]
  have hpending : db.pending = [] := by
    simpa [pending, List.filter_eq_nil_iff] using h.applied
  rw [migrate_eq_foldl, hensure, hpending, List.foldl_nil]

/-- An inventory that was opened once has the current layout. -/
theorem isCurrent_migrate (now : String) (db : Database) : (db.migrate now).IsCurrent where
  recorded := mem_objects_migrate.2 (.inr (.inl rfl))
  applied := by
    intro m hm
    by_cases hpending : db.Pending m
    · -- it is recorded now
      refine le_currentVersion ?_
      rw [versions_migrate, List.map_append, List.map_map]
      exact List.mem_append_right _ (List.mem_map.2 ⟨m, mem_pending.2 hpending, rfl⟩)
    · -- it was recorded before, or a later one was
      obtain ⟨record, hrecord, hnewer⟩ : ∃ record ∈ db.versions, m.version ≤ record.1 := by
        simpa [Pending, hm] using hpending
      refine Int.le_trans hnewer (le_currentVersion (List.mem_map_of_mem ?_))
      exact (extends_migrate now db).versions.subset hrecord

/-! ## Histories -/

/-- What may happen to an inventory before it is brought up to date: it was before, or its recorded
versions were changed in any way. -/
inductive Upkeep where
  | migrate (now : String)
  | zeroVersions
  | forgetVersions
  | recordVersion (now : String) (version : Int)
  | putVersions (versions : List (Int × String))

namespace Upkeep

def act (db : Database) : Upkeep → Database
  | migrate now => db.migrate now
  | zeroVersions => db.zeroVersions
  | forgetVersions => db.forgetVersions
  | recordVersion now version => db.recordVersion now version
  | putVersions versions => { db with versions }

end Upkeep

/-- The inventory after a history. -/
def upkept (db : Database) (history : List Upkeep) : Database :=
  history.foldl Upkeep.act db

/-- The rows and the layout of an inventory are kept; of the recorded versions nothing is said. -/
structure Keeps (db done : Database) : Prop where
  objects : db.objects <+: done.objects
  categories : done.categories = db.categories
  entries : done.entries = db.entries

theorem Extends.keeps (h : db.Extends done) : db.Keeps done :=
  ⟨h.objects, h.categories, h.entries⟩

theorem keeps_act (db : Database) (step : Upkeep) : db.Keeps (step.act db) := by
  cases step with
  | migrate now => exact (extends_migrate now db).keeps
  | zeroVersions => exact ⟨List.prefix_rfl, rfl, rfl⟩
  | forgetVersions => exact ⟨List.prefix_rfl, rfl, rfl⟩
  | recordVersion now version => exact ⟨(extends_ensure _ db).objects, rfl, rfl⟩
  | putVersions versions => exact ⟨List.prefix_rfl, rfl, rfl⟩

theorem keeps_upkept (history : List Upkeep) : ∀ db : Database, db.Keeps (db.upkept history) := by
  induction history with
  | nil => exact fun db => ⟨List.prefix_rfl, rfl, rfl⟩
  | cons step rest ih =>
      intro db
      obtain ⟨hobjects, hcategories, hentries⟩ := keeps_act db step
      obtain ⟨hobjects', hcategories', hentries'⟩ := ih (step.act db)
      exact ⟨hobjects.trans hobjects', hcategories'.trans hcategories, hentries'.trans hentries⟩

/-! ## Main result -/

/-- An inventory was brought up to date: everything that was there is kept, the versions that are
pending are recorded, and what their migrations create is there. -/
structure BroughtUpToDate (now : String) (db done : Database) : Prop where
  kept : db.Extends done
  recorded : ∃ new : List Int, done.versions = db.versions ++ new.map (·, now) ∧
    new.Pairwise (· < ·) ∧ ∀ v, v ∈ new ↔ ∃ m, db.Pending m ∧ m.version = v
  created : ∀ name, name ∈ done.objects ↔ name ∈ db.objects ∨ name = Migration.versionTable ∨
    ∃ m, db.Pending m ∧ name ∈ m.objects

theorem broughtUpToDate_migrate (now : String) (db : Database) :
    BroughtUpToDate now db (db.migrate now) where
  kept := extends_migrate now db
  recorded := by
    refine ⟨db.pending.map (·.version), ?_, List.pairwise_map.2 (pending_ascends db), fun v => ?_⟩
    · rw [versions_migrate, List.map_map]
      rfl
    · simp only [List.mem_map, mem_pending]
  created := fun _ => mem_objects_migrate

/-- Whatever has happened to its recorded versions, an inventory is brought up to date without any
loss, and a second time nothing changes. -/
theorem migrate_adds_only (start : Database) (history : List Upkeep) (now later : String) :
    start.Keeps (start.upkept history) ∧
    BroughtUpToDate now (start.upkept history) ((start.upkept history).migrate now) ∧
    ((start.upkept history).migrate now).migrate later = (start.upkept history).migrate now :=
  ⟨keeps_upkept history start, broughtUpToDate_migrate now _,
    (isCurrent_migrate now _).migrate_eq later⟩

end Inventory.Database

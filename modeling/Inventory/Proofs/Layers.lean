import Inventory.Config.Settings
import Inventory.Proofs.Fallible
import Inventory.Proofs.Merging

/-!
# Layers of settings

A setting is taken from a variable, else from the file in the working directory, else from the file
in the home directory, else it has its default. The two files are merged first and read afterwards;
what comes out is said here of the two files as they are. There is one exception to the order: where
the upper file holds a section that is not a mapping, but null or empty otherwise, the section of
the lower file is lost.
-/

namespace Inventory

namespace Settings

open Yaml (Tree)

/-! ## What a file gives -/

/-- The items in a tree, none if it is no mapping. -/
def inner : Tree → Items
  | .mapping items => items
  | _ => []

/-- The value that a file gives a setting. -/
def given? (items : Items) (groupName name : String) : Option Tree :=
  (Tree.get? items (.text groupName)).bind fun t => Tree.get? (inner t) (.text name)

/-- The truth value that a value is. -/
def bool? : Tree → Option Bool
  | .scalar (.bool b) => some b
  | _ => none

/-- The file holds the section, but no mapping in it. -/
def blanks (items : Items) (groupName : String) : Bool :=
  match Tree.get? items (.text groupName) with
  | none | some (.mapping _) => false
  | some _ => true

/-- The settings by section and name. -/
def settingNames : List (String × String) :=
  [("database", "path"), ("templates", "directory"), ("templates", "strict")]

/-- The tree can be read as a section. -/
def isSection : Tree → Bool
  | .mapping _ => true
  | t => t.isEmpty

def isScalar : Tree → Bool
  | .scalar _ => true
  | _ => false

/-- What can be said of a file whose settings are well-typed: its sections are mappings or empty,
and the settings that it gives are scalars. -/
structure WellTyped (items : Items) : Prop where
  sections : ∀ groupName ∈ knownSections, ∀ t ∈ Tree.get? items (.text groupName), isSection t
  scalars : ∀ p ∈ settingNames, ∀ t ∈ given? items p.1 p.2, isScalar t

instance (items : Items) : Decidable (WellTyped items) :=
  decidable_of_iff
    ((∀ groupName ∈ knownSections, ∀ t ∈ Tree.get? items (.text groupName), isSection t) ∧
      ∀ p ∈ settingNames, ∀ t ∈ given? items p.1 p.2, isScalar t)
    ⟨fun h => ⟨h.1, h.2⟩, fun h => ⟨h.sections, h.scalars⟩⟩

/-- The value of a setting in two files: that of the upper one, else that of the lower one. A
section of the upper file that is no mapping hides that of the lower one. -/
def layered? (lower upper : Items) (groupName name : String) : Option Tree :=
  if blanks upper groupName then none
  else (given? upper groupName name).or (given? lower groupName name)

theorem itemsOf_distinct {file : Path} {text : String} {items : Items}
    (h : itemsOf file text = .ok items) : Tree.Distinct (.mapping items) := by
  unfold itemsOf at h
  split at h
  · cases h
  · cases h
  · next hread =>
      cases h
      exact Tree.distinct_of_read hread
  · split at h
    · cases h
      exact .mapping .nil fun _ hitem => nomatch hitem
    · cases h

theorem itemsAt_of_text {d : Disk} {file : Path} {place : Place} {data : ByteArray} {text : String}
    (hfound : d.find? file file = .ok (some (place, .file (.bytes data))))
    (hdecode : Text.decodeUtf8 data = .ok text) : itemsAt d file = itemsOf file text := by
  rw [itemsAt, hfound, ok_bind]
  dsimp only
  rw [hdecode]

/-- Names differ in every file that is read. -/
theorem itemsAt_distinct {d : Disk} {file : Path} {items : Items}
    (h : itemsAt d file = .ok items) : Tree.Distinct (.mapping items) := by
  obtain ⟨found, -, h⟩ := bind_eq_ok_iff.1 h
  split at h
  · cases h
    exact .mapping .nil fun _ hitem => nomatch hitem
  · cases h
  · cases h
  · split at h
    · exact itemsOf_distinct h
    · cases h

/-! ## Merged files -/

theorem sectionItems_eq {name : String} {t : Tree} (h : isSection t) :
    sectionItems name t = .ok (inner t) := by
  cases t with
  | mapping items => rfl
  | _ => exact if_pos h

/-- What is read of a section of merged files, when it is a mapping or empty. -/
theorem setting?_of_get? {items : Items} {groupName : String} {t : Tree} (name : String)
    (hget : Tree.get? items (.text groupName) = some t) (h : isSection t) :
    setting? items groupName name = .ok (Tree.get? (inner t) (.text name)) := by
  rw [setting?, hget]
  show (sectionItems groupName t >>= _) = _
  rw [sectionItems_eq h]
  rfl

/-- A mapping over another tree is a mapping, and a value in it that is no mapping is taken before
what the other tree has. -/
theorem atop_mapping (base : Option Tree) {items : Items} {name : String}
    (hitems : Yaml.DistinctNames (items.map Prod.fst))
    (hscalar : ∀ t ∈ Tree.get? items (.text name), isScalar t) :
    ∃ merged, Tree.atop base (.mapping items) = .mapping merged ∧
      Tree.get? merged (.text name) = (Tree.get? items (.text name)).or
        (base.bind fun t => Tree.get? (inner t) (.text name)) := by
  have hunder : Tree.get? (Tree.under base) (.text name) =
      base.bind fun t => Tree.get? (inner t) (.text name) := by
    cases base with
    | none => rfl
    | some old => cases old <;> rfl
  refine ⟨_, Tree.atop_mapping hitems base, ?_⟩
  rw [Tree.get?_mergeItems _ _ _ hitems, hunder]
  cases hget : Tree.get? items (.text name) with
  | none => exact Option.none_or.symm
  | some t =>
      have ht := hscalar t hget
      cases t with
      | scalar v => exact congrArg some (Tree.atop_of_not_mapping rfl)
      | _ => cases ht

theorem setting?_merged {lower upper : Items} {groupName name : String}
    (hname : (groupName, name) ∈ settingNames) (hlower : Tree.Distinct (.mapping lower))
    (hupper : Tree.Distinct (.mapping upper)) (hl : WellTyped lower) (hu : WellTyped upper) :
    setting? (Tree.mergeItems (Tree.mergeItems [] lower) upper) groupName name =
      .ok (layered? lower upper groupName name) := by
  have hknown : groupName ∈ knownSections := by
    have hall : ∀ p ∈ settingNames, p.1 ∈ knownSections := by decide
    exact hall _ hname
  rw [Tree.nil_mergeItems hlower.names]
  cases hu? : Tree.get? upper (.text groupName) with
  | none =>
      have hmerged := Tree.get?_mergeItems_of_none lower hupper.names hu?
      have hblanks : blanks upper groupName = false := by rw [blanks, hu?]
      cases hl? : Tree.get? lower (.text groupName) with
      | none => simp [setting?, hmerged, hl?, layered?, hblanks, given?, hu?]
      | some old =>
          rw [setting?_of_get? name (hmerged.trans hl?) (hl.sections _ hknown old hl?)]
          simp [layered?, hblanks, given?, hu?, hl?]
  | some t =>
      have hmerged := Tree.get?_mergeItems_of_some lower hupper.names hu?
      have hsection := hu.sections _ hknown t hu?
      by_cases hmapping : t.isMapping
      · cases t with
        | mapping items =>
            have hblanks : blanks upper groupName = false := by rw [blanks, hu?]
            have hscalar : ∀ u ∈ Tree.get? items (.text name), isScalar u := by
              intro u hget
              exact hu.scalars _ hname u (by rw [given?, hu?]; exact hget)
            obtain ⟨merged, hatop, hget⟩ := atop_mapping (Tree.get? lower (.text groupName))
              (hupper.of_get? hu?).names hscalar
            rw [hatop] at hmerged
            rw [setting?_of_get? name hmerged rfl, layered?, hblanks]
            simpa [given?, hu?, inner] using hget
        | _ => cases hmapping
      · -- the section below is hidden
        have hnot : t.isMapping = false := by simpa using hmapping
        obtain ⟨hinner, hblanks⟩ : inner t = [] ∧ blanks upper groupName := by
          cases t with
          | mapping items => cases hnot
          | _ => exact ⟨rfl, by rw [blanks, hu?]⟩
        rw [Tree.atop_of_not_mapping hnot] at hmerged
        rw [setting?_of_get? name hmerged hsection, hinner, layered?, if_pos hblanks]
        rfl

/-! ## Values of settings -/

/-- The value of a setting in a file, or its default. -/
def valueIn {α : Type} (items : Items) (groupName name : String) (read : Tree → Except Fault α)
    (fallback : α) : Except Fault α := do
  orDefault (← setting? items groupName name) read fallback

theorem ofItems_eq (s : Surroundings) (items : Items) :
    ofItems s items = do
      let database ←
        valueIn items "database" "path" (readPath s "database.path") (defaults s.home).database
      let templates ←
        valueIn items "templates" "directory" (readPath s "templates.directory")
          (defaults s.home).templates
      let strict ←
        valueIn items "templates" "strict" (readBool "templates.strict") (defaults s.home).strict
      return ⟨database, templates, strict⟩ := by
  simp only [ofItems, valueIn, bind_assoc]

/-! ## Main result -/

/-- A path is that of its variable, if that is set and not empty, and every setting is else that of
the file in the working directory, else that of the file in the home directory, else the default;
only that the sections of the upper file that are no mapping count as if they said nothing, and hide
those of the lower file. -/
theorem load_eq_layered {s : Surroundings} {lower upper : Items}
    (hlower : itemsAt s.disk (globalFile s.home) = .ok lower)
    (hupper : itemsAt s.disk (projectFile s.work) = .ok upper)
    (hl : WellTyped lower) (hu : WellTyped upper) :
    load s = do
      let lowerWarnings ← warnings (globalFile s.home) lower
      let upperWarnings ← warnings (projectFile s.work) upper
      let database ← orDefault (layered? lower upper "database" "path")
        (readPath s "database.path") (defaults s.home).database
      let templates ← orDefault (layered? lower upper "templates" "directory")
        (readPath s "templates.directory") (defaults s.home).templates
      let strict ← orDefault (layered? lower upper "templates" "strict")
        (readBool "templates.strict") (defaults s.home).strict
      let database ← orVariable s "PINV_DB" database
      let templates ← orVariable s "PINV_TEMPLATE_DIR" templates
      return (⟨database, templates, strict⟩, lowerWarnings ++ upperWarnings) := by
  have hmerged (p : String × String) (hname : p ∈ settingNames) :=
    setting?_merged hname (itemsAt_distinct hlower) (itemsAt_distinct hupper) hl hu
  have hpath := hmerged ("database", "path") (by decide)
  have hdirectory := hmerged ("templates", "directory") (by decide)
  have hstrict := hmerged ("templates", "strict") (by decide)
  simp only [load, hlower, hupper, ok_bind, ofItems, hpath, hdirectory, hstrict, bind_assoc,
    pure_bind]

/-- A user at work, with two settings files and a variable for the database. -/
def atWork (lower upper database : String) : Surroundings where
  disk := [(["home"], .directory), (["home", "ann"], .directory),
    (["home", "ann", ".pinv"], .directory),
    (["home", "ann", ".pinv", "config.yaml"], .file (.bytes lower.toUTF8)),
    (["work"], .directory), (["work", "pinv.yaml"], .file (.bytes upper.toUTF8))]
  work := .ofParts ["work"]
  home := .ofParts ["home", "ann"]
  users := []
  environment := [("PINV_DB", database)]
  now := "2024-01-01 00:00:00"

theorem layered_at_work :
    let s := atWork "database: \x7bpath: /g.db\x7d" "templates: \x7bstrict: false\x7d" "/v.db"
    ∃ lower upper, itemsAt s.disk (globalFile s.home) = .ok lower ∧
      itemsAt s.disk (projectFile s.work) = .ok upper ∧
      load s = do
        let lowerWarnings ← warnings (globalFile s.home) lower
        let upperWarnings ← warnings (projectFile s.work) upper
        let database ← orDefault (layered? lower upper "database" "path")
          (readPath s "database.path") (defaults s.home).database
        let templates ← orDefault (layered? lower upper "templates" "directory")
          (readPath s "templates.directory") (defaults s.home).templates
        let strict ← orDefault (layered? lower upper "templates" "strict")
          (readBool "templates.strict") (defaults s.home).strict
        let database ← orVariable s "PINV_DB" database
        let templates ← orVariable s "PINV_TEMPLATE_DIR" templates
        return (⟨database, templates, strict⟩, lowerWarnings ++ upperWarnings) := by
  intro s
  have hlower : ∃ lower, itemsAt s.disk (globalFile s.home) = .ok lower ∧ WellTyped lower := by
    decide +kernel
  have hupper : ∃ upper, itemsAt s.disk (projectFile s.work) = .ok upper ∧ WellTyped upper := by
    decide +kernel
  obtain ⟨lower, hlower, hl⟩ := hlower
  obtain ⟨upper, hupper, hu⟩ := hupper
  exact ⟨lower, upper, hlower, hupper, load_eq_layered hlower hupper hl hu⟩

/-- The file in the home directory gives the path of the database, and the other file does not; yet
the default counts. -/
theorem null_section_hides_path :
    let s := atWork "database:\n  path: /g.db\n" "database: null\n" ""
    (∃ lower, itemsAt s.disk (globalFile s.home) = .ok lower ∧ WellTyped lower ∧
      (given? lower "database" "path").map Tree.display = some "'/g.db'") ∧
    (∃ upper, itemsAt s.disk (projectFile s.work) = .ok upper ∧ WellTyped upper ∧
      (given? upper "database" "path").isNone) ∧
    ∃ loaded, load s = .ok loaded ∧ loaded.1.database = (defaults s.home).database ∧
      loaded.1.database.toText ≠ "/g.db" := by
  decide +kernel

end Settings

end Inventory

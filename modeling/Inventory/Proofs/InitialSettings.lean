import Inventory.Proofs.Disk
import Inventory.Proofs.ImportLines
import Inventory.Proofs.Layers

/-!
# The settings file that is created

A settings file is created in the home directory unless there is one. It repeats the defaults. What
the file in the working directory gives counts before it, and where that file hides a section or has
none, a setting is its default with or without the file that was created. So nothing that is loaded
changes, and neither do the warnings and the faults.
-/

namespace Inventory.Settings

open Yaml (Tree)

/-! ## Files that repeat the defaults -/

section Merged

variable {α : Type} {lower upper : Items} {groupName name : String}

theorem exists_section {v : Tree} (h : given? lower groupName name = some v) :
    ∃ items, Tree.get? lower (.text groupName) = some (.mapping items) ∧
      Tree.get? items (.text name) = some v := by
  obtain ⟨t, ht, hv⟩ := Option.bind_eq_some_iff.1 h
  cases t with
  | mapping items => exact ⟨items, ht, hv⟩
  | _ => cases hv

/-- A file that gives a setting its default may be merged in below any other. -/
theorem valueIn_mergeItems {v : Yaml.Scalar} {read : Tree → Except Fault α} {fallback : α}
    (hupper : Tree.Distinct (.mapping upper))
    (hlower : given? lower groupName name = some (.scalar v))
    (hread : read (.scalar v) = .ok fallback) :
    valueIn (Tree.mergeItems lower upper) groupName name read fallback =
      valueIn upper groupName name read fallback := by
  obtain ⟨items, hsection, hvalue⟩ := exists_section hlower
  cases hu : Tree.get? upper (.text groupName) with
  | none =>
      -- the section is that of the lower file
      have hmerged := Tree.get?_mergeItems_of_none lower hupper.names hu
      simp only [valueIn, setting?, hmerged, hsection, hu, sectionItems, ok_bind, pure_bind, hvalue]
      exact hread
  | some t =>
      have hmerged := Tree.get?_mergeItems_of_some lower hupper.names hu
      rw [hsection] at hmerged
      by_cases hmapping : t.isMapping
      · cases t with
        | mapping given =>
            have hgiven := (hupper.of_get? hu).names
            rw [Tree.atop_mapping hgiven, Tree.under] at hmerged
            have hget := Tree.get?_mergeItems (.text name) given items hgiven
            simp only [valueIn, setting?, hmerged, hu, sectionItems, ok_bind, pure_bind, hget,
              hvalue]
            cases Tree.get? given (.text name) with
            | none => exact hread
            | some u =>
                -- no value is merged into a scalar
                cases u <;> rfl
        | _ => cases hmapping
      · -- the section of the lower file is hidden
        rw [Tree.atop_of_not_mapping (by simpa using hmapping)] at hmerged
        simp only [valueIn, setting?, hmerged, hu]

end Merged

/-- A file that gives every setting the value that it has by default, and nothing else. -/
structure Repeats (s : Surroundings) (items : Items) : Prop where
  distinct : Tree.Distinct (.mapping items)
  known : ∀ item ∈ items, isKnown item.1
  database : ∃ v, given? items "database" "path" = some (.scalar v) ∧
    readPath s "database.path" (.scalar v) = .ok (defaults s.home).database
  templates : ∃ v, given? items "templates" "directory" = some (.scalar v) ∧
    readPath s "templates.directory" (.scalar v) = .ok (defaults s.home).templates
  strict : ∃ v, given? items "templates" "strict" = some (.scalar v) ∧
    readBool "templates.strict" (.scalar v) = .ok (defaults s.home).strict

namespace Repeats

variable {s : Surroundings} {lower upper : Items}

theorem warnings_eq (h : Repeats s lower) (file : Path) : warnings file lower = .ok [] := by
  have hnone : (lower.map Prod.fst).filter (!isKnown ·) = [] := by
    simpa [List.filter_eq_nil_iff] using fun name t hmem => h.known (name, t) hmem
  rw [warnings, hnone]
  rfl

theorem ofItems_mergeItems (h : Repeats s lower) (hupper : Tree.Distinct (.mapping upper)) :
    ofItems s (Tree.mergeItems lower upper) = ofItems s upper := by
  obtain ⟨_, hdatabase, hpath⟩ := h.database
  obtain ⟨_, htemplates, hdirectory⟩ := h.templates
  obtain ⟨_, hstrict, hbool⟩ := h.strict
  simp only [ofItems_eq, valueIn_mergeItems hupper hdatabase hpath,
    valueIn_mergeItems hupper htemplates hdirectory, valueIn_mergeItems hupper hstrict hbool]

/-- Where there was no file, one that repeats the defaults changes nothing. -/
theorem load_eq (h : Repeats s lower) {d : Disk}
    (hbefore : itemsAt s.disk (globalFile s.home) = .ok [])
    (hafter : itemsAt d (globalFile s.home) = .ok lower)
    (hproject : itemsAt d (projectFile s.work) = itemsAt s.disk (projectFile s.work)) :
    load { s with disk := d } = load s := by
  have hnone : warnings (globalFile s.home) [] = .ok [] := rfl
  simp only [load, hbefore, hafter, hproject, ok_bind, h.warnings_eq, hnone]
  refine bind_congr_ok fun upper hupper => ?_
  have hdistinct := itemsAt_distinct hupper
  rw [Tree.mergeItems_nil, Tree.nil_mergeItems h.distinct.names,
    Tree.nil_mergeItems hdistinct.names]
  rw [← h.ofItems_mergeItems hdistinct]
  rfl

end Repeats

/-! ### The initial text -/

/-- The text that a value is. -/
def text? : Tree → Option String
  | .scalar (.text s) => some s
  | _ => none

theorem of_bind_text? {given : Option Tree} {s : String} (h : given.bind text? = some s) :
    given = some (.scalar (.text s)) := by
  obtain ⟨t, rfl, ht⟩ := Option.bind_eq_some_iff.1 h
  unfold text? at ht
  split at ht <;> cases ht
  rfl

theorem of_bind_bool? {given : Option Tree} {b : Bool} (h : given.bind bool? = some b) :
    given = some (.scalar (.bool b)) := by
  obtain ⟨t, rfl, ht⟩ := Option.bind_eq_some_iff.1 h
  unfold bool? at ht
  split at ht <;> cases ht
  rfl

/-- Where a text is found does not matter for what it holds. -/
theorem itemsOf_congr {file : Path} {text : String} {items : Items}
    (h : itemsOf file text = .ok items) (other : Path) : itemsOf other text = .ok items := by
  unfold itemsOf at h ⊢
  split at h
  · cases h
  · cases h
  · exact h
  · split at h
    · next hempty =>
        rw [if_pos hempty]
        exact h
    · cases h

theorem expand_home {s : Surroundings} {text : String} {rest : List String}
    (h : Path.ofText text = ⟨0, "~" :: rest⟩) : expand s text = .ok (s.home.join ⟨0, rest⟩) := by
  simp [expand, h]

/-- A text in the home directory is read as a path below it. -/
theorem readPath_own (s : Surroundings) (label : String) {text : String} (name : String)
    (hblank : Text.isBlankText text = false) (htext : Path.ofText text = ⟨0, ["~", ".pinv", name]⟩)
    (hname : Path.ofText name = ⟨0, [name]⟩) :
    readPath s label (.scalar (.text text)) =
      .ok ((ownDirectory s.home).join (Path.ofText name)) := by
  have hown : Path.ofText ".pinv" = ⟨0, [".pinv"]⟩ := by decide +kernel
  rw [readPath, hblank, if_neg Bool.false_ne_true, expand_home htext, hname, ownDirectory, hown]
  simp [Path.join, Path.isAbsolute]

theorem repeats_initialText (s : Surroundings) (file : Path) :
    ∃ items, itemsOf file initialText = .ok items ∧ Repeats s items := by
  have hread : ∃ items, itemsOf (.ofParts []) initialText = .ok items ∧
      (∀ item ∈ items, isKnown item.1) ∧
      (given? items "database" "path").bind text? = some "~/.pinv/pinv.db" ∧
      (given? items "templates" "directory").bind text? = some "~/.pinv/templates" ∧
      (given? items "templates" "strict").bind bool? = some true := by
    decide +kernel
  obtain ⟨items, hitems, hknown, hdatabase, htemplates, hstrict⟩ := hread
  refine ⟨items, itemsOf_congr hitems file, itemsOf_distinct hitems, hknown,
    ⟨_, of_bind_text? hdatabase, ?_⟩, ⟨_, of_bind_text? htemplates, ?_⟩,
    ⟨_, of_bind_bool? hstrict, rfl⟩⟩
  · refine readPath_own s _ "pinv.db" ?_ ?_ ?_ <;> decide +kernel
  · refine readPath_own s _ "templates" ?_ ?_ ?_ <;> decide +kernel

/-! ## Creating the file -/

section Creation

variable {d e made : Disk} {file : Path}

/-- Once its directory is there, the file is written unless something is in its place. -/
theorem ensure_of_makeDirectory (h : d.makeDirectory file.parent = .ok made) :
    ensure d file = (do
      if ← made.contains file file then return made
      else made.write file (.bytes initialText.toUTF8)) := by
  have hfault (r : Except Fault Disk) :
      (r.mapError (Disk.Broken.mk · made)).mapError (·.fault) = r := by
    cases r <;> rfl
  rw [ensure, create, h]
  exact hfault _

theorem ensure_of_contains (hfile : file.isAbsolute) (h : d.contains file file = .ok true) :
    ensure d file = .ok d := by
  obtain ⟨found, hfound, hsome⟩ := bind_eq_ok_iff.1 h
  cases found with
  | none => cases hsome
  | some found =>
      have hmake := Disk.makeDirectory_of_find? hfound
      rw [Path.join_of_isAbsolute hfile] at hmake
      rw [ensure_of_makeDirectory hmake, h]
      rfl

theorem ensure_cases (h : ensure d file = .ok e) :
    ∃ made, d.makeDirectory file.parent = .ok made ∧
      (made.contains file file = .ok true ∧ e = made ∨
        made.find? file file = .ok none ∧ made.write file (.bytes initialText.toUTF8) = .ok e) := by
  cases hmake : d.makeDirectory file.parent with
  | error broken =>
      rw [ensure, create, hmake] at h
      cases h
  | ok made =>
      refine ⟨made, rfl, ?_⟩
      rw [ensure_of_makeDirectory hmake, Disk.contains] at h
      cases hfound : made.find? file file with
      | error f =>
          rw [hfound] at h
          cases h
      | ok found =>
          rw [hfound] at h
          cases found with
          | none => exact .inr ⟨rfl, h⟩
          | some found =>
              cases h
              refine .inl ⟨?_, rfl⟩
              rw [Disk.contains, hfound]
              rfl

end Creation

/-! ## Before and after -/

/-- Everything on the disk is in a directory, the paths of the home directory and of the working
directory are absolute and lead down only, the working directory is there, and the home directory
does not lie where its settings file would be. -/
structure Ordinary (s : Surroundings) : Prop where
  tree : s.disk.IsTree
  homeAbsolute : s.home.isAbsolute
  homeDown : ".." ∉ s.home.parts
  workAbsolute : s.work.isAbsolute
  workDown : ".." ∉ s.work.parts
  working : s.disk.isDirectoryAt s.work.parts
  apart : (projectFile s.work).isAbove (globalFile s.home) = false

theorem parts_globalFile (home : Path) :
    (globalFile home).parts = home.parts ++ [".pinv"] ++ ["config.yaml"] := by
  have hown : Path.ofText ".pinv" = ⟨0, [".pinv"]⟩ := by decide +kernel
  have hfile : Path.ofText "config.yaml" = ⟨0, ["config.yaml"]⟩ := by decide +kernel
  simp [globalFile, ownDirectory, hown, hfile, Path.join, Path.isAbsolute]

theorem parts_projectFile (work : Path) :
    (projectFile work).parts = work.parts ++ ["pinv.yaml"] := by
  have hfile : Path.ofText "pinv.yaml" = ⟨0, ["pinv.yaml"]⟩ := by decide +kernel
  simp [projectFile, hfile, Path.join, Path.isAbsolute]

theorem isAbsolute_join {directory : Path} (h : directory.isAbsolute) (p : Path) :
    (directory.join p).isAbsolute := by
  unfold Path.join
  split
  · assumption
  · exact h

theorem itemsAt_congr {d e : Disk} {file : Path} (h : e.find? file file = d.find? file file) :
    itemsAt e file = itemsAt d file := by
  rw [itemsAt, itemsAt, h]

namespace Ordinary

variable {s : Surroundings} {d : Disk}

theorem globalFile_absolute (h : Ordinary s) : (globalFile s.home).isAbsolute :=
  isAbsolute_join (isAbsolute_join h.homeAbsolute _) _

theorem globalFile_down (h : Ordinary s) : ".." ∉ (globalFile s.home).parts := by
  simp [parts_globalFile, h.homeDown]

theorem projectFile_absolute (h : Ordinary s) : (projectFile s.work).isAbsolute :=
  isAbsolute_join h.workAbsolute _

theorem projectFile_down (h : Ordinary s) : ".." ∉ (projectFile s.work).parts := by
  simp [parts_projectFile, h.workDown]

theorem parts_ne (s : Surroundings) : (projectFile s.work).parts ≠ (globalFile s.home).parts := by
  rw [parts_projectFile, parts_globalFile]
  intro heq
  simpa using (List.append_inj' heq rfl).2

/-- No directory is made in the place of a settings file. -/
theorem not_prefix (h : Ordinary s) :
    ¬(globalFile s.home).parts <+: (globalFile s.home).parent.parts ∧
      ¬(projectFile s.work).parts <+: (globalFile s.home).parent.parts := by
  constructor
  · intro hprefix
    have hlength := hprefix.length_le
    simp [Path.parent, parts_globalFile] at hlength
  · intro hprefix
    have habove : (projectFile s.work).isAbove (globalFile s.home) := by
      have hfile := hprefix.trans (List.dropLast_prefix _)
      simp [Path.isAbove, hfile, parts_ne s]
    rw [h.apart] at habove
    cases habove

/-- What is at a settings file counts as it was while directories were created beside it. -/
theorem contains_eq (h : Ordinary s) (hsame : Disk.SameBut [] s.disk d)
    (hnode : d.node? (globalFile s.home).parts = s.disk.node? (globalFile s.home).parts)
    (hcontains : d.contains (globalFile s.home) (globalFile s.home) = .ok true) :
    s.disk.contains (globalFile s.home) (globalFile s.home) = .ok true := by
  obtain ⟨found, hfound, hsome⟩ := bind_eq_ok_iff.1 hcontains
  cases found with
  | none => cases hsome
  | some found =>
      obtain ⟨place, node⟩ := found
      obtain ⟨-, -, hfollow, hplace⟩ := Disk.find?_eq_ok_some.1 hfound
      rw [Path.join_of_isAbsolute h.globalFile_absolute] at hfollow
      obtain rfl : place = (globalFile s.home).parts := by
        simpa using Disk.follow_down h.globalFile_down hfollow
      have hdirectory := h.tree.isDirectoryAt_dropLast (hnode.symm.trans hplace)
      rw [Disk.contains, ← h.tree.find?_eq hsame h.globalFile_absolute h.globalFile_down
        hdirectory hnode, hfound]
      rfl

/-- The disk stays as it is, or the file was missing and is the only one that is new. -/
theorem ensure_cases (h : Ordinary s) (he : ensure s.disk (globalFile s.home) = .ok d) :
    (d = s.disk ∧ s.disk.contains (globalFile s.home) (globalFile s.home) = .ok true) ∨
      s.disk.find? (globalFile s.home) (globalFile s.home) = .ok none ∧
      d.find? (globalFile s.home) (globalFile s.home) =
        .ok (some ((globalFile s.home).parts, .file (.bytes initialText.toUTF8))) ∧
      d.find? (projectFile s.work) (projectFile s.work) =
        s.disk.find? (projectFile s.work) (projectFile s.work) := by
  obtain ⟨made, hmake, hcases⟩ := Settings.ensure_cases he
  have hdown : ".." ∉ (globalFile s.home).parent.parts := fun hmem =>
    h.globalFile_down ((List.dropLast_sublist _).mem hmem)
  have hsame := Disk.sameBut_of_makeDirectory hmake
  have hglobal := Disk.node?_makeDirectory hmake hdown h.not_prefix.1
  have hproject := Disk.node?_makeDirectory hmake hdown h.not_prefix.2
  rcases hcases with ⟨hcontains, rfl⟩ | ⟨hnone, hwrite⟩
  · have hthere := h.contains_eq hsame hglobal hcontains
    have hbefore := ensure_of_contains h.globalFile_absolute hthere
    exact .inl ⟨Except.ok.inj (he.symm.trans hbefore), hthere⟩
  · obtain ⟨-, hnull, -⟩ := Disk.write_eq_ok_iff.1 hwrite
    have hsize := Disk.lt_pathLimit_of_find? hnone
      (by rwa [Path.join_of_isAbsolute h.globalFile_absolute])
    obtain ⟨hwritten, hothers⟩ :=
      Disk.find?_of_write hwrite h.globalFile_absolute h.globalFile_down hsize
    refine .inr ⟨hsame.find?_none hnone, hwritten, ?_⟩
    rw [hothers _ h.projectFile_absolute h.projectFile_down (parts_ne s)]
    refine h.tree.find?_eq hsame h.projectFile_absolute h.projectFile_down ?_ hproject
    rw [parts_projectFile, List.dropLast_concat]
    exact h.working

/-- What is loaded stays the same when the file is created. -/
theorem load_ensure (h : Ordinary s) (he : ensure s.disk (globalFile s.home) = .ok d) :
    load { s with disk := d } = load s := by
  rcases h.ensure_cases he with ⟨rfl, -⟩ | ⟨hnone, hwritten, hproject⟩
  · rfl
  · obtain ⟨items, hitems, hrepeats⟩ := repeats_initialText s (globalFile s.home)
    have hread := itemsAt_of_text hwritten (ImportBatch.decodeUtf8_toUTF8 initialText)
    refine hrepeats.load_eq ?_ (hread.trans hitems) (itemsAt_congr hproject)
    rw [itemsAt, hnone]
    rfl

/-- The file is there after it was created. -/
theorem contains_ensure (h : Ordinary s) (he : ensure s.disk (globalFile s.home) = .ok d) :
    d.contains (globalFile s.home) (globalFile s.home) = .ok true := by
  rcases h.ensure_cases he with ⟨rfl, hthere⟩ | ⟨-, hwritten, -⟩
  · exact hthere
  · rw [Disk.contains, hwritten]
    rfl

end Ordinary

/-! ## Any number of times -/

/-- The disk after the file was to be created a number of times. -/
def ensured (d : Disk) (file : Path) : Nat → Except Fault Disk
  | 0 => .ok d
  | n + 1 => do ensure (← ensured d file n) file

theorem ensured_of_contains {d : Disk} {file : Path} (hfile : file.isAbsolute)
    (h : d.contains file file = .ok true) (n : Nat) : ensured d file n = .ok d := by
  induction n with
  | zero => rfl
  | succ n ih => rw [ensured, ih, ok_bind, ensure_of_contains hfile h]

/-- All that is done is done the first time. -/
theorem Ordinary.ensured_succ {s : Surroundings} (h : Ordinary s) (n : Nat) :
    ensured s.disk (globalFile s.home) (n + 1) = ensure s.disk (globalFile s.home) := by
  induction n with
  | zero => rfl
  | succ n ih =>
      rw [ensured, ih]
      cases he : ensure s.disk (globalFile s.home) with
      | error f => rfl
      | ok d => exact ensure_of_contains h.globalFile_absolute (h.contains_ensure he)

/-! ## Room for the file -/

/-- The file can be created: the home directory is there, no file takes the place of the directory
in it, and the path is not too long. -/
structure HasRoom (s : Surroundings) : Prop where
  home : s.disk.find? s.home s.home = .ok (some (s.home.parts, .directory))
  own : ∀ content, s.disk.node? (s.home.parts ++ [".pinv"]) ≠ some (.file content)
  fits : (globalFile s.home).toText.utf8ByteSize < Disk.pathLimit

/-- The directory in the home directory is there or is new, and then a way leads to the file. -/
theorem Ordinary.exists_made {s : Surroundings} (h : Ordinary s) (hroom : HasRoom s) :
    ∃ made, s.disk.makeDirectory (globalFile s.home).parent = .ok made ∧
      (globalFile s.home).holdsNull = false ∧
      made.follow [] (globalFile s.home).parts = .ok (some (globalFile s.home).parts) := by
  obtain ⟨hnull, -, hfollow, hhome⟩ := Disk.find?_eq_ok_some.1 hroom.home
  rw [Path.join_of_isAbsolute h.homeAbsolute] at hnull hfollow
  have hdirectory := Disk.isDirectoryAt_iff.2 hhome
  have hparent : (globalFile s.home).parent.parts = s.home.parts ++ [".pinv"] := by
    rw [Path.parent, parts_globalFile, List.dropLast_concat]
  have hnull' : (globalFile s.home).parent.holdsNull = false := by
    rw [Path.holdsNull, hparent, List.any_append]
    simpa [Path.holdsNull] using hnull
  have hstep : Disk.stepFrom s.home.parts ".pinv" = .ok (s.home.parts ++ [".pinv"]) := by
    rw [Disk.stepFrom, if_neg (by decide), Path.step_of_ne _ (by decide)]
  obtain ⟨made, hmake, hown⟩ : ∃ made, s.disk.makeDirectory (globalFile s.home).parent = .ok made ∧
      made.isDirectoryAt (s.home.parts ++ [".pinv"]) := by
    rw [Disk.makeDirectory, hnull', if_neg Bool.false_ne_true, hparent,
      Disk.makeFrom_append _ hdirectory hfollow, Disk.makeFrom, hstep]
    dsimp only
    cases hnode : s.disk.node? (s.home.parts ++ [".pinv"]) with
    | none =>
        refine ⟨_, rfl, Disk.isDirectoryAt_iff.2 ?_⟩
        rw [Disk.node?_put (Disk.ne_nil_of_node? hnode), if_pos rfl]
    | some node =>
        cases node with
        | directory => exact ⟨_, rfl, Disk.isDirectoryAt_iff.2 hnode⟩
        | file content => exact absurd hnode (hroom.own content)
  have hsame := Disk.sameBut_of_makeDirectory hmake
  refine ⟨made, hmake, ?_, ?_⟩
  · rw [Path.holdsNull, parts_globalFile, List.append_assoc, List.any_append]
    simpa [Path.holdsNull] using hnull
  · rw [parts_globalFile, List.append_assoc, Disk.follow_append _ (hsame.follow _ _ hfollow)]
    refine Disk.follow_cons_eq_some.2 ⟨hsame.isDirectoryAt hdirectory, _, hstep, ?_⟩
    refine Disk.follow_cons_eq_some.2 ⟨hown, s.home.parts ++ [".pinv"] ++ ["config.yaml"], ?_, ?_⟩
    · rw [Disk.stepFrom, if_neg (by decide), Path.step_of_ne _ (by decide)]
    · rw [Disk.follow, List.append_assoc]

theorem Ordinary.exists_ensure {s : Surroundings} (h : Ordinary s) (hroom : HasRoom s) :
    ∃ d, ensure s.disk (globalFile s.home) = .ok d := by
  obtain ⟨made, hmake, hnull, hfollow⟩ := h.exists_made hroom
  have hjoin := Path.join_of_isAbsolute h.globalFile_absolute (globalFile s.home)
  have hfound := Disk.find?_of_follow (by rwa [hjoin]) hroom.fits (by rwa [hjoin])
  rw [ensure_of_makeDirectory hmake, Disk.contains, hfound]
  cases hnode : made.node? (globalFile s.home).parts with
  | some node => exact ⟨made, rfl⟩
  | none =>
      refine ⟨_, Disk.write_eq_ok_iff.2 ⟨_, hnull, hfollow, ?_, rfl⟩⟩
      rw [Disk.isDirectoryAt, hnode]

/-! ## Main result -/

/-- However often the settings file is to be created, what is loaded is what was loaded before,
with the same warnings or the same fault, and a file that is there stays as it is. Where there is
room for the file, it is created. -/
theorem load_after_ensured {s : Surroundings} (h : Ordinary s) :
    (∀ n d, ensured s.disk (globalFile s.home) n = .ok d → load { s with disk := d } = load s) ∧
    (s.disk.contains (globalFile s.home) (globalFile s.home) = .ok true →
      ∀ n, ensured s.disk (globalFile s.home) n = .ok s.disk) ∧
    (HasRoom s → ∀ n, ∃ d, ensured s.disk (globalFile s.home) n = .ok d) := by
  refine ⟨fun n d hd => ?_, fun hthere n => ensured_of_contains h.globalFile_absolute hthere n,
    fun hroom n => ?_⟩
  · cases n with
    | zero =>
        cases hd
        rfl
    | succ n => exact h.load_ensure (h.ensured_succ n ▸ hd)
  · cases n with
    | zero => exact ⟨s.disk, rfl⟩
    | succ n =>
        obtain ⟨d, hd⟩ := h.exists_ensure hroom
        exact ⟨d, (h.ensured_succ n).trans hd⟩

/-- A user without a settings file of their own, at work where there is one. -/
def newcomer (project : String) : Surroundings where
  disk := [(["home"], .directory), (["home", "ann"], .directory), (["work"], .directory),
    (["work", "pinv.yaml"], .file (.bytes project.toUTF8))]
  work := .ofParts ["work"]
  home := .ofParts ["home", "ann"]
  users := []
  environment := []
  now := "2024-01-01 00:00:00"

/-- The other file hides one section and gives a part of the other one. -/
theorem newcomer_loads_the_same :
    let s := newcomer "database: null\ntemplates: \x7bstrict: false\x7d\n"
    Ordinary s ∧ HasRoom s ∧ s.disk.contains (globalFile s.home) (globalFile s.home) = .ok false ∧
      (∃ loaded, load s = .ok loaded ∧ loaded.1.strict = false) ∧
      ∀ n, ∃ d, ensured s.disk (globalFile s.home) n = .ok d ∧
        load { s with disk := d } = load s := by
  intro s
  have hs : Ordinary s := by constructor <;> decide +kernel
  have hroom : HasRoom s :=
    ⟨by rfl, nofun, by decide +kernel⟩
  refine ⟨hs, hroom, by rfl, by decide +kernel, fun n => ?_⟩
  obtain ⟨hload, -, hcreated⟩ := load_after_ensured hs
  obtain ⟨d, hd⟩ := hcreated hroom n
  exact ⟨d, hd, hload n d hd⟩

end Inventory.Settings

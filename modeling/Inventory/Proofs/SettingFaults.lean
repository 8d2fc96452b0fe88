import Inventory.Proofs.ImportLines
import Inventory.Proofs.Layers

/-!
# Faults of settings

Settings are loaded through checks, one after another, and the first that finds something wrong
decides the fault. `Judges` says of a check when it passes and what is true of its faults; it is
closed under putting checks one after another, and so what is true of the whole is put together from
what is true of each check.
-/

namespace Inventory

/-! ## Checks -/

/-- The step passes exactly if `C` holds, and every fault that it gives is as `R` says. -/
structure Judges {α : Type} (R : Fault → Prop) (C : Prop) (r : Except Fault α) : Prop where
  passes : (∃ x, r = .ok x) ↔ C
  faults : ∀ f, r = .error f → R f

namespace Judges

variable {α β : Type} {R : Fault → Prop} {C C' : Prop} {r : Except Fault α}

theorem ok (h : C) (x : α) : Judges R C (.ok x) :=
  ⟨⟨fun _ => h, fun _ => ⟨x, rfl⟩⟩, nofun⟩

theorem error {f : Fault} (h : ¬C) (hf : R f) : Judges R C (.error f : Except Fault α) := by
  refine ⟨⟨fun hx => ?_, fun hC => absurd hC h⟩, ?_⟩
  · obtain ⟨x, hx⟩ := hx
    cases hx
  · rintro f ⟨⟩
    exact hf

theorem congr (h : Judges R C r) (hC : C ↔ C') : Judges R C' r :=
  ⟨h.passes.trans hC, h.faults⟩

/-- Two checks pass if both do. -/
theorem bind {k : α → Except Fault β} (h : Judges R C r)
    (hk : ∀ x, r = .ok x → Judges R C' (k x)) : Judges R (C ∧ C') (r >>= k) := by
  cases hr : r with
  | error f =>
      refine .error (fun hC => ?_) (h.faults f hr)
      obtain ⟨x, hx⟩ := h.passes.2 hC.1
      cases hr.symm.trans hx
  | ok x => exact (hk x hr).congr (iff_and_self.2 fun _ => h.passes.1 ⟨x, hr⟩)

theorem bind_pure (h : Judges R C r) (g : α → β) : Judges R C (r >>= fun x => pure (g x)) :=
  (h.bind fun x _ => .ok trivial (g x)).congr (iff_of_eq (and_true C))

theorem mapM {C : α → Prop} {k : α → Except Fault β} {xs : List α}
    (h : ∀ x ∈ xs, Judges R (C x) (k x)) : Judges R (∀ x ∈ xs, C x) (xs.mapM k) := by
  induction xs with
  | nil => exact .ok nofun []
  | cons x rest ih =>
      rw [List.mapM_cons]
      have hrest := ih fun y hy => h y (List.mem_cons_of_mem x hy)
      refine ((h x List.mem_cons_self).bind fun y _ => hrest.bind_pure (y :: ·)).congr ?_
      rw [List.forall_mem_cons]

end Judges

/-- A fault that is there and has a property. -/
instance {α : Type} {P : Fault → Prop} [DecidablePred P] (r : Except Fault α) :
    Decidable (∃ f, r = .error f ∧ P f) :=
  match r with
  | .ok _ => isFalse fun ⟨_, hf, _⟩ => nomatch hf
  | .error f =>
      decidable_of_iff (P f) ⟨fun h => ⟨f, rfl, h⟩, fun ⟨_, hf, h⟩ => Except.error.inj hf ▸ h⟩

namespace Settings

open Yaml (Tree)

/-! ## Parsed files -/

/-- What a file holds: nothing if there is none, else the tree that its text stands for. -/
inductive Parsed (d : Disk) (file : Path) : Option Tree → Prop where
  | missing : d.find? file file = .ok none → Parsed d file none
  | text {place : Place} {data : ByteArray} {text : String} {t : Tree} :
    d.find? file file = .ok (some (place, .file (.bytes data))) →
    Text.decodeUtf8 data = .ok text → Tree.read text = .ok t → Parsed d file (some t)

/-- The items at the top of a file. -/
def top (content : Option Tree) : Items :=
  (content.map inner).getD []

/-- The items of both files. -/
def merged (lower upper : Option Tree) : Items :=
  Tree.mergeItems (top lower) (top upper)

/-- The text of a path, unless the value is no text or a blank one. -/
def pathText? : Tree → Option String
  | .scalar (.text s) => if Text.isBlankText s then none else some s
  | .scalar (.codes ns) => some (String.ofList (Yaml.Written.joined ns))
  | _ => none

/-- The value is the text of a path that can be expanded. -/
def IsPath (s : Surroundings) (t : Tree) : Prop :=
  ∃ text, pathText? t = some text ∧ ∃ q, expand s text = .ok q

theorem IsPath.isSome {s : Surroundings} {t : Tree} (h : IsPath s t) : (pathText? t).isSome := by
  obtain ⟨text, htext, -⟩ := h
  rw [htext]
  rfl

/-- The variable is not set, or is empty, or holds a path that can be expanded. -/
def HoldsPath (s : Surroundings) (name : String) : Prop :=
  ∀ text, s.environment.lookup name = some text → text.isEmpty = false → ∃ q, expand s text = .ok q

/-- The settings that are paths, by section and name. -/
def pathSettings : List (String × String) :=
  [("database", "path"), ("templates", "directory")]

/-- The variables that count before the settings. -/
def variableNames : List String :=
  ["PINV_DB", "PINV_TEMPLATE_DIR"]

/-- The tree is a mapping or null. -/
def isMappingOrNull : Tree → Bool
  | .mapping _ | .scalar .null => true
  | _ => false

/-- The values are of their types: the tops of the files and their sections are as `isGroup` says,
paths are texts that are not blank, and what is to be true or false is that. -/
structure Typed (isGroup : Tree → Bool) (lower upper : Option Tree) : Prop where
  tops : ∀ t, t ∈ lower ∨ t ∈ upper → isGroup t
  sections : ∀ groupName ∈ knownSections, ∀ t ∈ Tree.get? (merged lower upper) (.text groupName),
    isGroup t
  paths : ∀ p ∈ pathSettings, ∀ t ∈ given? (merged lower upper) p.1 p.2, (pathText? t).isSome
  strict : ∀ t ∈ given? (merged lower upper) "templates" "strict", (bool? t).isSome

/-- A warning can show every unknown name. -/
def Nameable (items : Items) : Prop :=
  ∀ item ∈ items, isKnown item.1 = false → item.1.isWritable

/-- What messages show: unknown names, and values that are not of their types. -/
inductive Shown (lower upper : Option Tree) : Tree → Prop where
  | name {content : Option Tree} {item : Yaml.Scalar × Tree} : content ∈ [lower, upper] →
    item ∈ top content → isKnown item.1 = false → Shown lower upper (.scalar item.1)
  | group {groupName : String} {t : Tree} : groupName ∈ knownSections →
    Tree.get? (merged lower upper) (.text groupName) = some t → isSection t = false →
    Shown lower upper t
  | path {p : String × String} {t : Tree} : p ∈ pathSettings →
    given? (merged lower upper) p.1 p.2 = some t → pathText? t = none → Shown lower upper t
  | strict {t : Tree} : given? (merged lower upper) "templates" "strict" = some t →
    bool? t = none → Shown lower upper t

/-- The texts that are taken as paths: those of settings, and those of variables that are set and
not empty. -/
inductive Used (s : Surroundings) (lower upper : Option Tree) : String → Prop where
  | setting {p : String × String} {t : Tree} {text : String} : p ∈ pathSettings →
    given? (merged lower upper) p.1 p.2 = some t → pathText? t = some text →
    Used s lower upper text
  | fromVariable {name text : String} : name ∈ variableNames →
    s.environment.lookup name = some text → text.isEmpty = false → Used s lower upper text

/-- The fault has a cause: a value is not of its type, or a message cannot show something, or there
is no home directory for a path. -/
def Caused (s : Surroundings) (lower upper : Option Tree) (f : Fault) : Prop :=
  (f.kind = .config ∧ ¬Typed isSection lower upper) ∨
    (f = .unwritable ∧ ∃ t, Shown lower upper t ∧ t.isWritable = false) ∨
    ∃ text, Used s lower upper text ∧ expand s text = .error f

/-! ## Single checks -/

section Single

variable {s : Surroundings} {lower upper : Option Tree} {R : Fault → Prop}

theorem Parsed.itemsAt_eq {d : Disk} {file : Path} {content : Option Tree}
    (h : Parsed d file content) :
    itemsAt d file =
      if ∀ t ∈ content, isSection t then .ok (top content)
      else .error (.configNotMapping file.toText) := by
  cases h with
  | missing hfound =>
      rw [itemsAt, hfound, if_pos (by simp)]
      rfl
  | @text place data text t hfound hdecode hread =>
      rw [itemsAt_of_text hfound hdecode, itemsOf, hread]
      cases t with
      | mapping items => exact (if_pos (by simp [isSection])).symm
      | _ => simp [isSection, top, inner]

theorem Parsed.eq_top {d : Disk} {file : Path} {content : Option Tree} {items : Items}
    (h : Parsed d file content) (hitems : itemsAt d file = .ok items) : items = top content := by
  rw [h.itemsAt_eq] at hitems
  split at hitems
  · exact (Except.ok.inj hitems).symm
  · cases hitems

theorem Parsed.judges {d : Disk} {file : Path} {content : Option Tree} (h : Parsed d file content)
    (hR : (∃ t ∈ content, isSection t = false) → R (.configNotMapping file.toText)) :
    Judges R (∀ t ∈ content, isSection t) (itemsAt d file) := by
  rw [h.itemsAt_eq]
  split
  · next hsection => exact .ok hsection _
  · next hsection => exact .error hsection (hR (by simpa using hsection))

theorem judges_warnings {file : Path} {items : Items}
    (hR : ∀ item ∈ items, isKnown item.1 = false → item.1.isWritable = false → R .unwritable) :
    Judges R (Nameable items) (warnings file items) := by
  have hwarning : ∀ name ∈ (items.map Prod.fst).filter (!isKnown ·),
      Judges R name.isWritable (warning file name) := by
    intro name hname
    obtain ⟨hmem, hunknown⟩ := List.mem_filter.1 hname
    obtain ⟨item, hitem, rfl⟩ := List.mem_map.1 hmem
    unfold warning
    split
    · next hwritable => exact .ok hwritable _
    · next hwritable =>
        exact .error hwritable (hR item hitem (by simpa using hunknown) (by simpa using hwritable))
  refine (Judges.mapM hwarning).congr ?_
  simp [Nameable]

theorem readPath_eq (s : Surroundings) (label : String) (t : Tree) :
    readPath s label t =
      match pathText? t with
      | some text => expand s text
      | none => .error (about t (.settingNotPath label t.display)) := by
  cases t with
  | scalar v =>
      cases v with
      | text text =>
          rw [readPath, pathText?]
          split <;> rfl
      | _ => rfl
  | _ => rfl

theorem readBool_eq (label : String) (t : Tree) :
    readBool label t =
      match bool? t with
      | some b => .ok b
      | none => .error (about t (.settingNotBool label t.display)) := by
  cases t with
  | scalar v => cases v <;> rfl
  | _ => rfl

theorem sectionItems_eq_error {groupName : String} {t : Tree} (h : isSection t = false) :
    sectionItems groupName t = .error (about t (.sectionNotMapping groupName t.display)) := by
  cases t with
  | mapping items => cases h
  | _ => simpa [sectionItems, isSection] using h

theorem judges_valueIn {α : Type} {items : Items} {groupName name : String}
    {read : Tree → Except Fault α} {fallback : α} {C : Tree → Prop}
    (hgroup : ∀ t ∈ Tree.get? items (.text groupName), isSection t = false →
      R (about t (.sectionNotMapping groupName t.display)))
    (hread : ∀ t ∈ given? items groupName name, Judges R (C t) (read t)) :
    Judges R ((∀ t ∈ Tree.get? items (.text groupName), isSection t) ∧
        ∀ t ∈ given? items groupName name, C t)
      (valueIn items groupName name read fallback) := by
  cases hget : Tree.get? items (.text groupName) with
  | none =>
      have hnone : given? items groupName name = none := by rw [given?, hget]; rfl
      rw [valueIn, setting?, hget, hnone]
      exact .ok (by simp) fallback
  | some t =>
      have hgiven : given? items groupName name = Tree.get? (inner t) (.text name) := by
        rw [given?, hget]
        rfl
      cases hsection : isSection t with
      | false =>
          rw [valueIn, setting?, hget]
          dsimp only
          rw [sectionItems_eq_error hsection]
          refine .error (fun h => ?_) (hgroup t hget hsection)
          rw [h.1 t rfl] at hsection
          cases hsection
      | true =>
          rw [valueIn, setting?_of_get? name hget hsection, ok_bind, ← hgiven]
          cases hvalue : given? items groupName name with
          | none => exact .ok (by simp [hsection]) fallback
          | some v => exact (hread v hvalue).congr (by simp [hsection])

theorem judges_orVariable {name : String} {otherwise : Path}
    (hR : ∀ text f, s.environment.lookup name = some text → text.isEmpty = false →
      expand s text = .error f → R f) :
    Judges R (HoldsPath s name) (orVariable s name otherwise) := by
  unfold orVariable HoldsPath
  cases hlookup : s.environment.lookup name with
  | none => exact .ok nofun otherwise
  | some text =>
      dsimp only
      split
      · next hempty =>
          refine .ok ?_ otherwise
          rintro _ ⟨⟩ hset
          rw [hempty] at hset
          cases hset
      · next hset =>
          have hset : text.isEmpty = false := by simpa using hset
          refine ⟨⟨?_, fun h => h text rfl hset⟩, fun f hf => hR text f hlookup hset hf⟩
          rintro hq _ ⟨⟩ -
          exact hq

/-! ## All checks -/

theorem Caused.about {t : Tree} {f : Fault} (hkind : f.kind = .config)
    (htyped : ¬Typed isSection lower upper) (hshown : Shown lower upper t) :
    Caused s lower upper (about t f) := by
  unfold Settings.about
  split
  · exact .inl ⟨hkind, htyped⟩
  · next hwritable => exact .inr (.inl ⟨rfl, t, hshown, by simpa using hwritable⟩)

/-- What a section must be, and a setting in it. -/
def Fits (lower upper : Option Tree) (groupName name : String) (C : Tree → Prop) : Prop :=
  (∀ t ∈ Tree.get? (merged lower upper) (.text groupName), isSection t) ∧
    ∀ t ∈ given? (merged lower upper) groupName name, C t

theorem judges_path {p : String × String} (hp : p ∈ pathSettings) (label : String)
    (fallback : Path) :
    Judges (Caused s lower upper)
      (Fits lower upper p.1 p.2 (IsPath s))
      (valueIn (merged lower upper) p.1 p.2 (readPath s label) fallback) := by
  have hknown : p.1 ∈ knownSections := by
    have hall : ∀ p ∈ pathSettings, p.1 ∈ knownSections := by decide
    exact hall p hp
  refine judges_valueIn (fun t ht hsection => ?_) fun t ht => ?_
  · refine .about rfl (fun htyped => ?_) (.group hknown ht hsection)
    rw [htyped.sections _ hknown t ht] at hsection
    cases hsection
  · rw [readPath_eq]
    cases htext : pathText? t with
    | none =>
        refine .error (by simp [IsPath, htext]) (.about rfl (fun htyped => ?_) (.path hp ht htext))
        have hsome := htyped.paths p hp t ht
        rw [htext] at hsome
        cases hsome
    | some text =>
        exact ⟨by simp [IsPath, htext],
          fun f hf => .inr (.inr ⟨text, .setting hp ht htext, hf⟩)⟩

theorem judges_strict (fallback : Bool) :
    Judges (Caused s lower upper)
      (Fits lower upper "templates" "strict" fun t => (bool? t).isSome)
      (valueIn (merged lower upper) "templates" "strict" (readBool "templates.strict")
        fallback) := by
  refine judges_valueIn (fun t ht hsection => ?_) fun t ht => ?_
  · refine .about rfl (fun htyped => ?_) (.group (by decide) ht hsection)
    rw [htyped.sections _ (by decide) t ht] at hsection
    cases hsection
  · rw [readBool_eq]
    cases hbool : bool? t with
    | none =>
        refine .error (by simp) (.about rfl (fun htyped => ?_) (.strict ht hbool))
        have hsome := htyped.strict t ht
        rw [hbool] at hsome
        cases hsome
    | some b => exact .ok rfl b

theorem judges_names {content : Option Tree} (hcontent : content ∈ [lower, upper]) (file : Path) :
    Judges (Caused s lower upper) (Nameable (top content)) (warnings file (top content)) :=
  judges_warnings fun _ hitem hunknown hwritable =>
    .inr (.inl ⟨rfl, _, .name hcontent hitem hunknown, hwritable⟩)

theorem judges_variable {name : String} (hname : name ∈ variableNames) (otherwise : Path) :
    Judges (Caused s lower upper) (HoldsPath s name) (orVariable s name otherwise) :=
  judges_orVariable fun text _ hlookup hset hf =>
    .inr (.inr ⟨text, .fromVariable hname hlookup hset, hf⟩)

end Single

/-! ## Loading -/

/-- Settings are loaded: values are of their types, names can be shown and paths expanded. -/
structure Loadable (s : Surroundings) (lower upper : Option Tree) : Prop where
  typed : Typed isSection lower upper
  names : Nameable (top lower) ∧ Nameable (top upper)
  paths : ∀ text, Used s lower upper text → ∃ q, expand s text = .ok q

section Loading

variable {s : Surroundings} {lower upper : Option Tree}

/-- The conditions of the checks in their order. -/
theorem loadable_iff : Loadable s lower upper ↔
    (∀ t ∈ lower, isSection t) ∧ Nameable (top lower) ∧ (∀ t ∈ upper, isSection t) ∧
      Nameable (top upper) ∧
      (Fits lower upper "database" "path" (IsPath s) ∧
        Fits lower upper "templates" "directory" (IsPath s) ∧
        Fits lower upper "templates" "strict" (fun t => (bool? t).isSome)) ∧
      HoldsPath s "PINV_DB" ∧ HoldsPath s "PINV_TEMPLATE_DIR" := by
  constructor
  · rintro ⟨⟨htops, hsections, hpaths, hstrict⟩, ⟨hlower, hupper⟩, hused⟩
    have hpath (p : String × String) (hp : p ∈ pathSettings) (t : Tree)
        (ht : t ∈ given? (merged lower upper) p.1 p.2) : IsPath s t := by
      obtain ⟨text, htext⟩ := Option.isSome_iff_exists.1 (hpaths p hp t ht)
      exact ⟨text, htext, hused text (.setting hp ht htext)⟩
    have hvariable (name : String) (hname : name ∈ variableNames) : HoldsPath s name :=
      fun text hlookup hset => hused text (.fromVariable hname hlookup hset)
    exact ⟨fun t ht => htops t (.inl ht), hlower, fun t ht => htops t (.inr ht), hupper,
      ⟨⟨hsections _ (by decide), hpath ("database", "path") (by decide)⟩,
        ⟨hsections _ (by decide), hpath ("templates", "directory") (by decide)⟩,
        ⟨hsections _ (by decide), hstrict⟩⟩,
      hvariable _ (by decide), hvariable _ (by decide)⟩
  · rintro ⟨hlower, hnames, hupper, hnames', ⟨hdatabase, htemplates, hstrict⟩, hvariable,
      hvariable'⟩
    refine ⟨⟨?_, ?_, ?_, hstrict.2⟩, ⟨hnames, hnames'⟩, ?_⟩
    · rintro t (ht | ht)
      · exact hlower t ht
      · exact hupper t ht
    · simpa [knownSections] using ⟨hdatabase.1, htemplates.1⟩
    · simp only [pathSettings, List.forall_mem_cons]
      exact ⟨fun t ht => (hdatabase.2 t ht).isSome, fun t ht => (htemplates.2 t ht).isSome, nofun⟩
    · rintro text hused
      cases hused with
      | @setting p t _ hp ht htext =>
          have hpath : IsPath s t := by
            simp only [pathSettings, List.mem_cons, List.not_mem_nil, or_false] at hp
            rcases hp with rfl | rfl
            · exact hdatabase.2 t ht
            · exact htemplates.2 t ht
          obtain ⟨other, hother, hexpand⟩ := hpath
          cases htext.symm.trans hother
          exact hexpand
      | @fromVariable name _ hname hlookup hset =>
          simp only [variableNames, List.mem_cons, List.not_mem_nil, or_false] at hname
          rcases hname with rfl | rfl
          · exact hvariable text hlookup hset
          · exact hvariable' text hlookup hset

theorem judges_ofItems :
    Judges (Caused s lower upper)
      (Fits lower upper "database" "path" (IsPath s) ∧
        Fits lower upper "templates" "directory" (IsPath s) ∧
        Fits lower upper "templates" "strict" (fun t => (bool? t).isSome))
      (ofItems s (merged lower upper)) := by
  rw [ofItems_eq]
  exact (judges_path (p := ("database", "path")) (by decide) _ _).bind fun _ _ =>
    (judges_path (p := ("templates", "directory")) (by decide) _ _).bind fun _ _ =>
      (judges_strict _).bind_pure _

theorem judges_load (hlower : Parsed s.disk (globalFile s.home) lower)
    (hupper : Parsed s.disk (projectFile s.work) upper) :
    Judges (Caused s lower upper) (Loadable s lower upper) (load s) := by
  have htop {content : Option Tree} (hcontent : ∀ t ∈ content, t ∈ lower ∨ t ∈ upper) (file : Path)
      (h : ∃ t ∈ content, isSection t = false) :
      Caused s lower upper (.configNotMapping file.toText) := by
    obtain ⟨t, ht, hsection⟩ := h
    refine .inl ⟨rfl, fun htyped => ?_⟩
    rw [htyped.tops t (hcontent t ht)] at hsection
    cases hsection
  refine Judges.congr ?_ loadable_iff.symm
  refine (hlower.judges (htop (fun t => .inl) _)).bind fun items hitems => ?_
  obtain rfl := hlower.eq_top hitems
  refine (judges_names (by simp) _).bind fun lowerWarnings _ => ?_
  refine (hupper.judges (htop (fun t => .inr) _)).bind fun items' hitems' => ?_
  obtain rfl := hupper.eq_top hitems'
  refine (judges_names (by simp) _).bind fun upperWarnings _ => ?_
  rw [Tree.nil_mergeItems (itemsAt_distinct hitems).names]
  refine judges_ofItems.bind fun settings _ => ?_
  refine (judges_variable (by decide) _).bind fun database _ => ?_
  exact (judges_variable (by decide) _).bind_pure _

end Loading

/-! ## Main result -/

/-- What stands for nothing is null, everything that a message shows can be written, and every path
can be expanded. -/
structure Plain (s : Surroundings) (lower upper : Option Tree) : Prop where
  tops : ∀ t, t ∈ lower ∨ t ∈ upper → isSection t → isMappingOrNull t
  sections : ∀ groupName ∈ knownSections, ∀ t ∈ Tree.get? (merged lower upper) (.text groupName),
    isSection t → isMappingOrNull t
  shown : ∀ t, Shown lower upper t → t.isWritable
  used : ∀ text, Used s lower upper text → ∃ q, expand s text = .ok q

theorem isSection_of_mappingOrNull {t : Tree} (h : isMappingOrNull t) : isSection t := by
  unfold isMappingOrNull at h
  split at h
  · rfl
  · rfl
  · cases h

theorem Typed.weaken {lower upper : Option Tree} (h : Typed isMappingOrNull lower upper) :
    Typed isSection lower upper :=
  ⟨fun t ht => isSection_of_mappingOrNull (h.tops t ht),
    fun g hg t ht => isSection_of_mappingOrNull (h.sections g hg t ht), h.paths, h.strict⟩

theorem Plain.loadable_iff {s : Surroundings} {lower upper : Option Tree}
    (h : Plain s lower upper) : Loadable s lower upper ↔ Typed isMappingOrNull lower upper := by
  constructor
  · rintro ⟨htyped, -, -⟩
    exact ⟨fun t ht => h.tops t ht (htyped.tops t ht),
      fun g hg t ht => h.sections g hg t ht (htyped.sections g hg t ht), htyped.paths,
      htyped.strict⟩
  · intro htyped
    refine ⟨htyped.weaken, ⟨fun item hitem hunknown => ?_, fun item hitem hunknown => ?_⟩, h.used⟩
    · exact h.shown _ (.name (by simp) hitem hunknown)
    · exact h.shown _ (.name (by simp) hitem hunknown)

/-- Settings are loaded exactly if their values are of their types, where a section that stands for
nothing counts as one, names can be shown and paths can be expanded; a fault is one of the settings
and some value is not of its type, or something cannot be shown, or a path has no home directory.
Where nothing but null stands for nothing, everything can be shown and every path can be expanded,
all faults are of the settings. -/
theorem load_faults {s : Surroundings} {lower upper : Option Tree}
    (hlower : Parsed s.disk (globalFile s.home) lower)
    (hupper : Parsed s.disk (projectFile s.work) upper) :
    ((∃ loaded, load s = .ok loaded) ↔ Loadable s lower upper) ∧
    (∀ f, load s = .error f → Caused s lower upper f) ∧
    (Plain s lower upper → ((∃ loaded, load s = .ok loaded) ↔ Typed isMappingOrNull lower upper) ∧
      ∀ f, load s = .error f → f.kind = .config) := by
  obtain ⟨hpasses, hfaults⟩ := judges_load hlower hupper
  refine ⟨hpasses, hfaults, fun h => ⟨hpasses.trans h.loadable_iff, fun f hf => ?_⟩⟩
  rcases hfaults f hf with ⟨hkind, -⟩ | ⟨-, t, hshown, hwritable⟩ | ⟨text, hused, hexpand⟩
  · exact hkind
  · rw [h.shown t hshown] at hwritable
    cases hwritable
  · obtain ⟨q, hq⟩ := h.used text hused
    cases hq.symm.trans hexpand

theorem exists_read {text : String} {P : Tree → Bool} (h : (Tree.read text).toOption.any P) :
    ∃ t, Tree.read text = .ok t ∧ P t := by
  cases hread : Tree.read text with
  | error f =>
      rw [hread] at h
      cases h
  | ok t =>
      rw [hread] at h
      exact ⟨t, rfl, h⟩

theorem parsed_atWork {lower upper : String} {t u : Tree} (hlower : Tree.read lower = .ok t)
    (hupper : Tree.read upper = .ok u) (database : String) :
    let s := atWork lower upper database
    Parsed s.disk (globalFile s.home) (some t) ∧ Parsed s.disk (projectFile s.work) (some u) :=
  ⟨.text rfl (ImportBatch.decodeUtf8_toUTF8 lower) hlower,
    .text rfl (ImportBatch.decodeUtf8_toUTF8 upper) hupper⟩

theorem merged_none : merged none none = [] :=
  Tree.mergeItems_nil []

/-- A text in the place of a section is a fault of the settings. Without files there is none, when
the variable holds a path. -/
theorem text_section_faulty :
    (let s := atWork "" "database: inv.db\n" ""
      ∃ lower upper, Parsed s.disk (globalFile s.home) lower ∧
        Parsed s.disk (projectFile s.work) upper ∧ ¬Loadable s lower upper ∧
        ∃ f, load s = .error f ∧ f.kind = .config ∧ Caused s lower upper f) ∧
    (let s := { atWork "" "" "/v.db" with disk := [] };
      Plain s none none ∧ ∃ loaded, load s = .ok loaded) := by
  constructor
  · intro s
    obtain ⟨t, ht, -⟩ : ∃ t, Tree.read "" = .ok t ∧ true := exists_read (by decide +kernel)
    obtain ⟨u, hu, -⟩ : ∃ u, Tree.read "database: inv.db\n" = .ok u ∧ true :=
      exists_read (by decide +kernel)
    obtain ⟨hlower, hupper⟩ := parsed_atWork ht hu ""
    obtain ⟨hpasses, hfaults, -⟩ := load_faults hlower hupper
    have hfault : ∃ f, load s = .error f ∧ f.kind = .config := by decide +kernel
    obtain ⟨f, hf, hkind⟩ := hfault
    refine ⟨some t, some u, hlower, hupper, fun hloadable => ?_, f, hf, hkind, hfaults f hf⟩
    obtain ⟨loaded, hloaded⟩ := hpasses.2 hloadable
    cases hf.symm.trans hloaded
  · intro s
    have hplain : Plain s none none := by
      refine ⟨by simp, by simp [merged_none, Tree.get?], fun t ht => ?_, fun text hused => ?_⟩
      · cases ht with
        | name hcontent hitem =>
            rw [List.mem_pair, or_self] at hcontent
            subst hcontent
            cases hitem
        | group _ ht => cases merged_none ▸ ht
        | path _ ht => cases merged_none ▸ ht
        | strict ht => cases merged_none ▸ ht
      · cases hused with
        | setting _ ht => cases merged_none ▸ ht
        | @fromVariable name _ hname hlookup =>
            simp only [variableNames, List.mem_cons, List.not_mem_nil, or_false] at hname
            rcases hname with rfl | rfl
            · cases hlookup
              exact ⟨_, rfl⟩
            · cases hlookup
    have hlower : Parsed s.disk (globalFile s.home) none := .missing rfl
    have hupper : Parsed s.disk (projectFile s.work) none := .missing rfl
    obtain ⟨-, -, hexact⟩ := load_faults hlower hupper
    obtain ⟨hloads, -⟩ := hexact hplain
    refine ⟨hplain, hloads.2 ⟨by simp, ?_, ?_, ?_⟩⟩ <;> simp [merged_none, given?, Tree.get?]

/-- A section may be false, as if it were empty; and a path in the home directory of a user that
does not exist is a fault, but none of the settings. -/
theorem false_section_loaded :
    (∃ lower upper, let s := atWork "" "database: false\n" ""
      Parsed s.disk (globalFile s.home) lower ∧ Parsed s.disk (projectFile s.work) upper ∧
        ¬Typed isMappingOrNull lower upper ∧ ∃ loaded, load s = .ok loaded) ∧
    ∃ f, load (atWork "" "" "~nobody/inv.db") = .error f ∧ f.kind ≠ .config := by
  constructor
  · obtain ⟨t, ht, hempty⟩ : ∃ t, Tree.read "" = .ok t ∧ (inner t).isEmpty :=
      exists_read (by decide +kernel)
    obtain ⟨u, hu, hfalse⟩ : ∃ u, Tree.read "database: false\n" = .ok u ∧
        (Tree.get? (Tree.mergeItems [] (inner u)) (.text "database")).any (!isMappingOrNull ·) :=
      exists_read (by decide +kernel)
    obtain ⟨hlower, hupper⟩ := parsed_atWork ht hu ""
    refine ⟨some t, some u, hlower, hupper, fun htyped => ?_, ?_⟩
    · have htop : top (some t) = [] := by simpa [top] using hempty
      have hmerged : merged (some t) (some u) = Tree.mergeItems [] (inner u) := by
        rw [merged, htop]
        rfl
      rw [← hmerged] at hfalse
      cases hv : Tree.get? (merged (some t) (some u)) (.text "database") with
      | none =>
          rw [hv] at hfalse
          cases hfalse
      | some v =>
          rw [hv, Option.any_some, htyped.sections "database" (by decide) v hv] at hfalse
          cases hfalse
    · have hloaded : ∃ loaded, load (atWork "" "database: false\n" "") = .ok loaded ∧
          loaded.2 = [] := by
        decide +kernel
      obtain ⟨loaded, hloaded, -⟩ := hloaded
      exact ⟨loaded, hloaded⟩
  · decide +kernel

end Settings

end Inventory

import Inventory.Command.Execution
import Inventory.Proofs.Command

/-!
# What commands about labels leave on the disk

A command that makes a label looks at everything that it needs first, and then writes one file. So
there are only two ways in which it can leave the disk: with the label at its place, or with nothing
in it changed.
-/

namespace Inventory

/-! ## The place of a label -/

namespace Path

variable {p : Path}

/-- A path whose name has an ending is that of something in a directory. -/
theorem parts_of_suffix (h : p.suffix ≠ "") :
    ∃ directory, p.parts = directory ++ [p.name] ∧ p.name ≠ ".." := by
  rcases List.eq_nil_or_concat p.parts with hparts | ⟨directory, last, hparts⟩
  · have hname : p.name = "" := by simp [name, hparts]
    exact absurd (by rw [suffix, hname]; decide) h
  · have hname : p.name = last := by simp [name, hparts]
    refine ⟨directory, by rw [hname, hparts]; simp, fun hup => h ?_⟩
    rw [suffix, hup]
    decide

theorem resolve_parts_of_suffix {base : Path} (h : p.suffix ≠ "") :
    ∃ directory name, (base.join p).resolve.parts = directory ++ [name] := by
  obtain ⟨directory, hparts, hup⟩ := parts_of_suffix h
  obtain ⟨above, habove⟩ : ∃ above, (base.join p).parts = above ++ [p.name] := by
    unfold join
    split
    · exact ⟨directory, hparts⟩
    · exact ⟨base.parts ++ directory, by rw [hparts]; simp⟩
  refine ⟨above.foldl step [], p.name, ?_⟩
  show (base.join p).resolved = _
  rw [resolved, habove, List.foldl_append, List.foldl_cons, List.foldl_nil, step_of_ne _ hup]

end Path

/-- A label goes into a directory, and to get there no step leads upwards. -/
theorem Label.parts_of_output {text : String} {base target : Path}
    (h : Label.output text base = .ok target) :
    (∃ directory name, target.parts = directory ++ [name]) ∧ ".." ∉ target.parts := by
  unfold Label.output at h
  dsimp only at h
  split at h
  · cases h
  · next hsuffix =>
      have hne : (Path.ofText text).suffix ≠ "" := by
        intro hnone
        rw [hnone] at hsuffix
        exact hsuffix (by decide)
      split at h
      · cases h
      · split at h
        · cases h
          exact ⟨Path.resolve_parts_of_suffix hne, Path.not_mem_resolved _⟩
        · cases h

/-! ## Looking into an inventory -/

theorem Store.does_bindings (e : Entry) : Action.Does (bindings e) (Effect.reading fun db =>
    Tables.resolve e.category db >>= fun c => .ok (e.bindings c)) :=
  (Registry.does_resolve e.category).bind_reading fun c => Action.Does.pure (e.bindings c)

theorem Store.does_fill (t : Template) (e : Entry) (strict : Bool) :
    Action.Does (fill t e strict) (Effect.reading fun db =>
      (Tables.resolve e.category db >>= fun c => .ok (e.bindings c)) >>= fun bound =>
        t.fill bound.get? strict) :=
  (does_bindings e).bind_reading fun _ => Action.Does.ofExcept _

/-- What only reads the tables leaves them as they are. -/
theorem Action.Does.fresh_db {α : Type} {a : Action α} {g : Database → Except Fault α}
    (ha : Does a (Effect.reading g)) (now : String) (db : Database) :
    (a.exec (Session.fresh db now)).2.db = db := by
  have hready : (Session.fresh db now).Ready := .ofNoCache (fun _ => rfl) rfl
  obtain ⟨cache, hexec, -⟩ := ha _ hready
  rw [hexec]
  exact Session.apply_db _ _

/-! ## Parts of the commands -/

/-- The order of a label that a command makes. -/
def Command.order? : Command → Option LabelOrder
  | .label _ order | .keySheet _ order => some order
  | _ => none

/-- The template that an order is about, and whether the label is strict. -/
def LabelOrder.chosen (order : LabelOrder) (s : Surroundings) : Except Fault (Template × Bool) := do
  let initial ← (Settings.load s).map Prod.fst
  let directory := order.directory.getD initial.templates
  let t ← Template.load s.disk s.work order.template (some directory)
  return (t, order.strict.getD initial.strict)

/-- The label that filling gives for a command, with some inventory. -/
inductive Fills (s : Surroundings) (db : Database) : Command → Label → Prop
  | entry {key : String} {order : LabelOrder} {t : Template} {strict : Bool} {e : Entry} {l : Label}
      (hchosen : order.chosen s = .ok (t, strict))
      (hentry : ((Store.find key).exec (Session.fresh db s.now)).1 = .ok e)
      (hlabel : ((Store.fill t e strict).exec (Session.fresh db s.now)).1 = .ok l) :
      Fills s db (.label key order) l
  | sheet {start : Int} {order : LabelOrder} {t : Template} {strict : Bool} {keys : List String}
      {l : Label} (hchosen : order.chosen s = .ok (t, strict))
      (hkeys : ((Store.nextKeys t.slotCount start).exec (Session.fresh db s.now)).1 = .ok keys)
      (hlabel : t.fillKeys keys strict = .ok l) :
      Fills s db (.keySheet start order) l

/-- The label of a command is on a disk, at the place that its order gives, and but for directories
that are new that is all that has changed. -/
def Labels (s : Surroundings) (i : Invocation) (d : Disk) : Prop :=
  ∃ order target p db l, i.command.order? = some order ∧
    Label.output (Path.ofText order.output).toText s.work = .ok target ∧
    s.inventoryPath i.database = .ok p ∧ s.Holds p db ∧ Fills s db i.command l ∧
    s.disk.Wrote d target.parts (.bytes l.text.toUTF8)

namespace Command

open Run

variable {s : Surroundings} {order : LabelOrder}

theorem looks_prepareOutput (order : LabelOrder) : Looks (prepareOutput order) s fun target =>
    Label.output (Path.ofText order.output).toText s.work = .ok target := by
  refine Meets.surroundings_bind ((looks_reported _).bind fun target htarget => ?_)
  refine (looks_onDisk _).bind fun isThere _ => ?_
  dsimp only
  split
  · exact (looks_confirmed _ _).bind fun _ _ => Looks.pure htarget
  · exact Looks.pure htarget

theorem looks_loadTemplate (order : LabelOrder) :
    Looks (loadTemplate order) s (order.chosen s = .ok ·) := by
  refine looks_settings.bind fun initial hinitial => Meets.surroundings_bind ?_
  refine (looks_reported _).bind fun t ht => Looks.pure ?_
  rw [LabelOrder.chosen, hinitial, ok_bind]
  exact bind_eq_ok_iff.2 ⟨t, ht, rfl⟩

theorem looks_filled (result : Except Fault Label) : Looks (filled result) s (result = .ok ·) := by
  refine (looks_reported result).bind fun l hl => ?_
  refine Looks.bind (looks_forIn (fun warning _ => ?_) l.warnings ()) fun _ _ => Looks.pure hl
  exact (looks_showLine _).bind fun _ _ => Looks.pure trivial

/-- Nothing can end a command after its label is written. -/
theorem meets_writeLabel {target : Path} {text : String} {base : Path} (draws : List String)
    (l : Label) (done : String) (htarget : Label.output text base = .ok target) :
    Meets (do writeLabel draws target l; showLine done) s
      (fun _ t => s.disk.Wrote t.disk target.parts (.bytes l.text.toUTF8))
      (fun t => Disk.SameBut [] s.disk t.disk) := by
  obtain ⟨⟨directory, name, hparts⟩, hdown⟩ := Label.parts_of_output htarget
  have hmade := s.disk.makeDirectory_sameBut target.parent
  have hmake : Meets (changeDisk (·.makeDirectory target.parent)) s
      (fun _ t => Disk.SameBut [] s.disk t.disk) (fun t => Disk.SameBut [] s.disk t.disk) := by
    refine Meets.changeDisk (fun d hd => ?_) fun b hb => ?_
    · rwa [hd] at hmade
    · rwa [hb] at hmade
  have hreplace (t : Surroundings) (ht : Disk.SameBut [] s.disk t.disk) :
      Meets (changeDisk (·.replace draws target (.bytes l.text.toUTF8))) t
        (fun _ u => s.disk.Wrote u.disk target.parts (.bytes l.text.toUTF8))
        (fun u => Disk.SameBut [] s.disk u.disk) := by
    rcases t.disk.replace_cases draws (.bytes l.text.toUTF8) hparts hdown with
      ⟨f, hfault⟩ | ⟨e, hdone, hwrote⟩
    · refine Meets.changeDisk (fun d hd => ?_) fun b hb => ?_
      · cases hfault.symm.trans hd
      · cases hfault.symm.trans hb
        exact ht
    · refine Meets.changeDisk (fun d hd => ?_) fun b hb => ?_
      · cases hdone.symm.trans hd
        exact hwrote.after ht
      · cases hdone.symm.trans hb
  refine (hmake.bind fun _ t ht => hreplace t ht).bind fun _ u hu => ?_
  refine (meets_showLine done).weaken ?_ fun _ ht => ht
  rintro _ _ rfl
  exact hu

theorem meets_makeLabel {database : Option Path} (draws : List String) (key : String)
    (order : LabelOrder) (h : s.IsCurrent database) :
    Meets (makeLabel draws database key order) s
      (fun _ t => Labels s ⟨.label key order, database⟩ t.disk)
      (fun t => Disk.SameBut [] s.disk t.disk) := by
  have hsame := Disk.SameBut.refl [] s.disk
  refine (looks_prepareOutput order).bind_meets hsame fun target htarget => ?_
  refine (looks_loadTemplate order).bind_meets hsame fun ⟨t, strict⟩ hchosen => ?_
  refine (looks_openInventory h).bind_meets hsame fun p hp => ?_
  refine (looks_perform ((Store.does_find key).fresh_db s.now)).bind_meets hsame ?_
  rintro e ⟨db, hdb, he⟩
  refine (looks_attempt ((Store.does_fill t e strict).fresh_db s.now)).bind_meets hsame ?_
  rintro result ⟨db', hdb', hresult⟩
  refine (looks_filled result).bind_meets hsame fun l hl => ?_
  cases hdb.unique hdb'
  refine (meets_writeLabel draws l _ htarget).weaken (fun _ u hwrote => ?_) fun _ hu => hu
  exact ⟨order, target, p, db, l, rfl, htarget, hp, hdb, .entry hchosen he (hresult.trans hl), hwrote⟩

theorem meets_makeSheet {database : Option Path} (draws : List String) (start : Int)
    (order : LabelOrder) (h : s.IsCurrent database) :
    Meets (makeSheet draws database start order) s
      (fun _ t => Labels s ⟨.keySheet start order, database⟩ t.disk)
      (fun t => Disk.SameBut [] s.disk t.disk) := by
  have hsame := Disk.SameBut.refl [] s.disk
  refine (looks_prepareOutput order).bind_meets hsame fun target htarget => ?_
  refine (looks_loadTemplate order).bind_meets hsame fun ⟨t, strict⟩ hchosen => ?_
  dsimp only
  split
  · exact (looks_fail (Q := fun _ => False) _).bind_meets hsame fun _ h => h.elim
  · refine (looks_openInventory h).bind_meets hsame fun p hp => ?_
    refine (looks_perform ((Store.does_nextKeys t.slotCount start).fresh_db s.now)).bind_meets
      hsame ?_
    rintro keys ⟨db, hdb, hkeys⟩
    refine (looks_filled _).bind_meets hsame fun l hl => ?_
    refine (meets_writeLabel draws l _ htarget).weaken (fun _ u hwrote => ?_) fun _ hu => hu
    exact ⟨order, target, p, db, l, rfl, htarget, hp, hdb, .sheet hchosen hkeys hl, hwrote⟩

/-! ## Command lines -/

theorem ofSorted_label {w : Words} {c : Command} (h : ofSorted "label" w = some c) :
    ∃ key order, c = .label key order := by
  obtain ⟨options, arguments⟩ := w
  rcases arguments with _ | ⟨key, _ | ⟨output, _ | ⟨other, rest⟩⟩⟩
  · cases h
  · cases h
  · cases h
    exact ⟨key, _, rfl⟩
  · cases h

theorem ofSorted_sheet {w : Words} {c : Command} (h : ofSorted "key-sheet" w = some c) :
    ∃ start order, c = .keySheet start order := by
  obtain ⟨options, arguments⟩ := w
  rcases arguments with _ | ⟨output, _ | ⟨other, rest⟩⟩
  · cases h
  · obtain ⟨start, -, h⟩ := Option.bind_eq_some_iff.1 h
    split at h
    · cases h
    · cases h
      exact ⟨start, _, rfl⟩
  · cases h

end Command

/-- The command makes a label or a sheet. -/
def Command.MakesLabel (c : Command) : Prop :=
  (∃ key order, c = .label key order) ∨ ∃ start order, c = .keySheet start order

/-- The words begin with the name of a command that makes labels, perhaps after the mark that no
options follow. -/
def NamesLabel (words : List String) : Prop :=
  ∃ name rest, (name = "label" ∨ name = "key-sheet") ∧
    (words = name :: rest ∨ words = "--" :: name :: rest)

theorem Invocation.makesLabel_of_read {name : String} {words : List String} {i : Invocation}
    (hname : name = "label" ∨ name = "key-sheet") (h : ofWords.read name words = some i) :
    i.command.MakesLabel := by
  obtain ⟨w, -, h⟩ := Option.bind_eq_some_iff.1 h
  obtain ⟨c, hc, h⟩ := Option.bind_eq_some_iff.1 h
  cases h
  rcases hname with rfl | rfl
  · exact .inl (Command.ofSorted_label hc)
  · exact .inr (Command.ofSorted_sheet hc)

theorem NamesLabel.makesLabel {words : List String} {i : Invocation} (h : NamesLabel words)
    (hi : Invocation.ofWords words = some i) : i.command.MakesLabel := by
  obtain ⟨name, rest, hname, hwords⟩ := h
  have hread : Invocation.ofWords.read name rest = some i := by
    rcases hwords with rfl | rfl
    · rcases hname with rfl | rfl <;> exact hi
    · exact hi
  exact Invocation.makesLabel_of_read hname hread

theorem Invocation.meets_run {i : Invocation} {s : Surroundings} (draws : List String)
    (hi : i.command.MakesLabel) (h : s.IsCurrent i.database) :
    Run.Meets (i.run draws) s (fun _ t => Labels s i t.disk)
      (fun t => Disk.SameBut [] s.disk t.disk) := by
  have hrefused {k : Unit → Run Unit} : Run.Meets
      ((throw (.fault .nullCharacter) : Run Unit) >>= k) s (fun _ t => Labels s i t.disk)
      (fun t => Disk.SameBut [] s.disk t.disk) :=
    (Run.Looks.throw (Q := fun _ => False) _).bind_meets (Disk.SameBut.refl [] s.disk)
      fun _ h => h.elim
  obtain ⟨c, database⟩ := i
  rcases hi with ⟨key, order, rfl⟩ | ⟨start, order, rfl⟩
  · unfold Invocation.run
    dsimp only
    split
    · exact hrefused
    · exact Command.meets_makeLabel draws key order h
  · unfold Invocation.run
    dsimp only
    split
    · exact hrefused
    · exact Command.meets_makeSheet draws start order h

/-- A command about labels that does not do all changes no file, whatever ends it, and everything is
found as before; one that does all writes its label and changes no other file. Directories on the way
to the label may be new in both cases. -/
theorem failed_label_unchanged {words : List String} {s : Surroundings} (draws : List String)
    (input : String) (hwords : NamesLabel words)
    (hcurrent : ∀ i, Invocation.ofWords words = some i → s.IsCurrent i.database) :
    let o := executeDrawing draws words input s
    (o.ending ≠ none → Disk.SameBut [] s.disk o.disk ∧ ∀ p found,
      s.disk.find? s.work p = .ok (some found) → o.disk.find? s.work p = .ok (some found)) ∧
    (o.ending = none → ∃ i, Invocation.ofWords words = some i ∧ Labels s i o.disk) := by
  unfold executeDrawing
  cases hi : Invocation.ofWords words with
  | none => exact ⟨fun _ => ⟨.refl [] s.disk, fun _ _ hfound => hfound⟩, nofun⟩
  | some i =>
      rcases i.meets_run draws (hwords.makesLabel hi) (hcurrent i hi)
        ⟨s, [], "", Text.endedLines input.toList⟩ rfl with ⟨_, q, hexec, hlabels⟩ | ⟨e, q, hexec, hsame⟩
      · simp only [hexec]
        exact ⟨fun hending => absurd rfl hending, fun _ => ⟨i, rfl, hlabels⟩⟩
      · simp only [hexec]
        exact ⟨fun _ => ⟨hsame, fun p found hfound => hsame.find? hfound⟩, nofun⟩

/-- An inventory with a hammer, and a template for labels beside it. -/
def atShed : Surroundings where
  disk := [(["work"], .directory),
    (["work", "pinv.db"], .file (.inventory
      { Database.empty.migrate "2024-01-01 00:00:00" with
        categories := [⟨"tools", [("size", "t")]⟩]
        entries := [⟨"hammer", "tools", "shed", .int 1, .mapping [("size", .text "<3")],
          "2024-01-01 00:00:01", "2024-01-01 00:00:01"⟩] })),
    (["work", "tag.svg.gz"], .file (.bytes (Gzip.compress
      "<b>\x7b\x7bkey\x7d\x7d \x7b\x7bsize\x7d\x7d</b>".toUTF8)))]
  work := .ofParts ["work"]
  home := .ofParts ["home"]
  users := []
  environment := []
  now := "2024-01-01 00:00:02"

/-- The label of the hammer is written into a new directory. -/
theorem hammer_label_written :
    let words := ["label", "hammer", "out/hammer.svg", "-t", "tag.svg.gz", "--db", "pinv.db"]
    let o := executeDrawing Disk.usualDraws words "" atShed
    ∃ i, Invocation.ofWords words = some i ∧ Labels atShed i o.disk := by
  intro words o
  have hwords : NamesLabel words := ⟨"label", _, .inl rfl, .inl rfl⟩
  have hdatabase : (Invocation.ofWords words).map (·.database) = some (some ⟨0, ["pinv.db"]⟩) := by
    decide +kernel
  have hcurrent : ∀ i, Invocation.ofWords words = some i → atShed.IsCurrent i.database := by
    intro i hi
    rw [hi] at hdatabase
    cases i with
    | mk command database =>
        cases hdatabase
        rintro p place content ⟨⟩ hfind
        cases hfind
        exact ⟨by decide, by decide⟩
  have hending : o.ending.isNone := by
    decide +kernel
  exact (failed_label_unchanged Disk.usualDraws "" hwords hcurrent).2
    (Option.isNone_iff_eq_none.1 hending)

end Inventory

import Inventory.Proofs.Case
import Inventory.Proofs.LabelFile
import Inventory.Proofs.Lookup

/-!
# Where labels can go

The pieces of a path's text say how to walk through directories: into one, up again, or not at all.
A label goes to the place that the walk from its base leads to, and for a relative text only if that
place lies strictly below the base. How the walk gets there does not matter.
-/

namespace Inventory

namespace Path

variable {p : Path} {text : List Char} {piece name : String} {route rest : List String}
  {place target root : Place}

/-! ## The pieces of a text -/

/-- The pieces of a text between its slashes. -/
inductive HasPieces : List Char → List String → Prop
  | last {piece : String} (hpiece : '/' ∉ piece.toList) : HasPieces piece.toList [piece]
  | more {piece : String} {text : List Char} {rest : List String} (hpiece : '/' ∉ piece.toList)
      (hrest : HasPieces text rest) : HasPieces (piece.toList ++ '/' :: text) (piece :: rest)

/-- The last piece that means something. -/
def IsLastPart (route : List String) (name : String) : Prop :=
  ∃ before after, route = before ++ name :: after ∧ name ∉ ["", "."] ∧
    ∀ piece ∈ after, piece ∈ ["", "."]

theorem HasPieces.cons {c : Char} {piece : List Char} (hc : c ≠ '/')
    (h : HasPieces text (String.ofList piece :: rest)) :
    HasPieces (c :: text) (String.ofList (c :: piece) :: rest) := by
  have hlonger (hpiece : '/' ∉ (String.ofList piece).toList) :
      '/' ∉ (String.ofList (c :: piece)).toList := by
    rw [String.toList_ofList] at hpiece ⊢
    exact List.not_mem_cons_of_ne_of_not_mem hc.symm hpiece
  cases h with
  | last hpiece =>
      have hlast := HasPieces.last (hlonger hpiece)
      rwa [String.toList_ofList] at hlast ⊢
  | more hpiece hrest =>
      have hmore := HasPieces.more (hlonger hpiece) hrest
      rwa [String.toList_ofList] at hmore ⊢

theorem hasPieces_pieces (text : String) : HasPieces text.toList (pieces text) := by
  have hempty : '/' ∉ ("" : String).toList := by decide
  rw [pieces]
  induction text.toList with
  | nil => exact .last hempty
  | cons c rest ih =>
      rw [Text.piecesAt]
      rcases hpieces : Text.piecesAt (· == '/') rest with _ | ⟨piece, others⟩ <;> rw [hpieces] at ih
      · cases ih
      · -- a slash begins a new piece, and any other character goes on with the first one
        dsimp only
        by_cases hc : c = '/'
        · subst hc
          exact .more hempty ih
        · rw [if_neg (by simpa using hc)]
          exact ih.cons hc

theorem HasPieces.mem {c : Char} (h : HasPieces text route) (hpiece : piece ∈ route)
    (hc : c ∈ piece.toList) : c ∈ text := by
  induction h with
  | last => rwa [← List.mem_singleton.1 hpiece]
  | more _ _ ih =>
      rcases List.mem_cons.1 hpiece with rfl | hpiece
      · exact List.mem_append_left _ hc
      · exact List.mem_append_right _ (List.mem_cons_of_mem _ (ih hpiece))

theorem isPart_iff : isPart piece ↔ piece ∉ ["", "."] := by
  simp [isPart]

theorem isLastPart_iff : IsLastPart route name ↔
    (route.filter isPart).getLast? = some name := by
  rw [List.getLast?_eq_some_iff]
  constructor
  · rintro ⟨before, after, rfl, hname, hafter⟩
    refine ⟨before.filter isPart, ?_⟩
    rw [List.filter_append, List.filter_cons_of_pos (isPart_iff.2 hname),
      List.filter_eq_nil_iff.2 fun piece hpiece hpart => isPart_iff.1 hpart (hafter piece hpiece)]
  · rintro ⟨front, hfront⟩
    obtain ⟨before, last, rfl, -, hlast⟩ := List.filter_eq_append_iff.1 hfront
    obtain ⟨blank, after, rfl, -, hname, hafter⟩ := List.filter_eq_cons_iff.1 hlast
    refine ⟨before ++ blank, after, by rw [List.append_assoc], isPart_iff.1 hname, ?_⟩
    intro piece hpiece
    have hblank := List.filter_eq_nil_iff.1 hafter piece hpiece
    rwa [isPart_iff, not_not] at hblank

/-! ## Walks -/

/-- Where the pieces of a path lead from a directory. The root is above itself. -/
inductive Leads : Place → List String → Place → Prop
  | here {place : Place} : Leads place [] place
  | stay {place target : Place} {piece : String} {rest : List String} (hpiece : piece ∈ ["", "."])
      (hrest : Leads place rest target) : Leads place (piece :: rest) target
  | up {place target : Place} {rest : List String} (hrest : Leads place.dropLast rest target) :
      Leads place (".." :: rest) target
  | into {place target : Place} {piece : String} {rest : List String}
      (hpiece : piece ∉ ["", ".", ".."]) (hrest : Leads (place ++ [piece]) rest target) :
      Leads place (piece :: rest) target

theorem leads_foldl (route : List String) :
    ∀ place, Leads place route ((route.filter isPart).foldl step place) := by
  induction route with
  | nil => exact fun _ => .here
  | cons piece rest ih =>
      intro place
      by_cases hpart : piece ∈ ["", "."]
      · rw [List.filter_cons_of_neg (by rwa [isPart_iff, not_not])]
        exact .stay hpart (ih place)
      · rw [List.filter_cons_of_pos (isPart_iff.2 hpart), List.foldl_cons]
        by_cases hup : piece = ".."
        · subst hup
          exact .up (ih _)
        · rw [step_of_ne _ hup]
          refine .into ?_ (ih _)
          simp_all

/-- A walk has one end. -/
theorem leads_iff : Leads place route target ↔
    (route.filter isPart).foldl step place = target := by
  constructor
  · intro h
    induction h with
    | here => rfl
    | stay hpiece _ ih => rwa [List.filter_cons_of_neg (by rwa [isPart_iff, not_not])]
    | up _ ih => exact ih
    | into hpiece _ ih =>
        rw [List.filter_cons_of_pos (isPart_iff.2 fun hmem => hpiece (by simp_all)),
          List.foldl_cons, step_of_ne _ (by simp_all), ih]
  · rintro rfl
    exact leads_foldl route place

/-- Names that lead nowhere are not on a place that a walk leads to. -/
theorem Leads.not_mem (h : Leads place route target) (hplace : ∀ part ∈ place, part ∉ ["", ".", ".."]) :
    ∀ part ∈ target, part ∉ ["", ".", ".."] := by
  induction h with
  | here => exact hplace
  | stay _ _ ih => exact ih hplace
  | up _ ih => exact ih fun part hpart => hplace part ((List.dropLast_sublist _).mem hpart)
  | into hpiece _ ih =>
      refine ih fun part hpart => ?_
      rcases List.mem_append.1 hpart with hpart | hpart
      · exact hplace part hpart
      · rwa [List.mem_singleton.1 hpart]

theorem Leads.getLast? (h : Leads place route target) (hlast : IsLastPart route name)
    (hup : name ≠ "..") : target.getLast? = some name := by
  rw [isLastPart_iff, List.getLast?_eq_some_iff] at hlast
  obtain ⟨front, hfront⟩ := hlast
  rw [← leads_iff.1 h, hfront, List.foldl_append, List.foldl_cons, List.foldl_nil,
    step_of_ne _ hup, List.getLast?_concat]

theorem foldl_step_of_not_mem {parts : List String} (h : ".." ∉ parts) :
    ∀ place, parts.foldl step place = place ++ parts := by
  induction parts with
  | nil => exact fun place => (List.append_nil place).symm
  | cons part rest ih =>
      intro place
      rw [List.mem_cons, not_or] at h
      obtain ⟨hpart, hrest⟩ := h
      rw [List.foldl_cons, step_of_ne _ fun heq => hpart heq.symm, ih hrest, List.append_assoc]
      rfl

/-! ## The ending of a name -/

/-- The name ends in `.svg`, in capital or small letters, behind something else. -/
def IsSvgName (name : String) : Prop :=
  ∃ stem ending : List Char, name.toList = stem ++ '.' :: ending ∧ stem ≠ [] ∧
    ending.map Char.toLower = "svg".toList

theorem lower_suffix_eq_iff : Text.lower p.suffix = Label.outputSuffix ↔ IsSvgName p.name := by
  have hascii : ∀ c ∈ Label.outputSuffix.toList, Text.isAscii c := by
    simp [Label.outputSuffix, Text.isAscii]
  rw [Text.lower_eq_iff hascii (by simp [Label.outputSuffix]), suffix]
  constructor
  · intro h
    split at h
    · cases h
    · next hwhole =>
        rw [Bool.or_eq_true, not_or, List.isEmpty_iff, List.isEmpty_iff] at hwhole
        rw [String.toList_ofList] at h
        -- in the reversed name the ending stands in front of the first point
        have hsplit := List.takeWhile_append_dropWhile (p := (· != '.')) (l := p.name.toList.reverse)
        rcases hrest : p.name.toList.reverse.dropWhile (· != '.') with _ | ⟨point, stem⟩
        · rw [hrest] at hwhole
          exact absurd rfl hwhole.1
        · rw [hrest] at hsplit hwhole
          obtain rfl : point = '.' := by
            have hhead := List.head?_dropWhile_not (· != '.') p.name.toList.reverse
            rw [hrest] at hhead
            simpa using hhead
          refine ⟨stem.reverse, (p.name.toList.reverse.takeWhile (· != '.')).reverse, ?_, ?_,
            (List.cons.inj h).2⟩
          · simpa using (congrArg List.reverse hsplit).symm
          · simpa using hwhole.1
  · rintro ⟨stem, ending, hname, hstem, hending⟩
    have hpoint : ∀ c ∈ ending.reverse, (c != '.') = true := by
      intro c hc
      rw [bne_iff_ne]
      rintro rfl
      have hmem := List.mem_map_of_mem (f := Char.toLower) (List.mem_reverse.1 hc)
      rw [hending] at hmem
      exact absurd hmem (by decide)
    have hne : ending ≠ [] := by
      rintro rfl
      cases hending
    have hreverse : p.name.toList.reverse = ending.reverse ++ '.' :: stem.reverse := by
      rw [hname]
      simp
    rw [hreverse, List.takeWhile_append_of_pos hpoint, List.dropWhile_append_of_pos hpoint]
    rw [if_neg (by simp [hne, hstem])]
    simp [hending]
    rfl

/-- A step upwards is no such name: it is too short. -/
theorem not_isSvgName_up : ¬IsSvgName ".." := by
  rintro ⟨stem, ending, hname, -, hending⟩
  have hlength := congrArg List.length hname
  have hthree := congrArg List.length hending
  rw [List.length_append, List.length_cons] at hlength
  rw [List.length_map] at hthree
  simp at hlength hthree
  omega

end Path

namespace Label

open Inventory.Path

variable {text : String} {base : Path}

/-- The last part of a path ends in `.svg`. -/
def NamesSvg (route : List String) : Prop :=
  ∃ name, IsLastPart route name ∧ IsSvgName name

theorem namesSvg_iff (text : String) :
    NamesSvg (pieces text) ↔ Text.lower (ofText text).suffix = outputSuffix := by
  rw [lower_suffix_eq_iff, NamesSvg, Path.name, parts_ofText_eq]
  simp only [isLastPart_iff]
  cases ((pieces text).filter isPart).getLast? with
  | some name => simp
  | none =>
      refine iff_of_false (by simp) ?_
      rintro ⟨stem, ending, hname, -⟩
      simp at hname

theorem isAbsolute_ofText (text : String) :
    (ofText text).isAbsolute ↔ text.toList.head? = some '/' := by
  have hlead (n : Nat) : ((if n = 2 then 2 else min n 1) != 0) = true ↔ n ≠ 0 := by
    rw [bne_iff_ne]
    split <;> omega
  show ((if _ = 2 then 2 else min _ 1) != 0) = true ↔ _
  rw [hlead]
  rcases text.toList with _ | ⟨c, rest⟩
  · simp
  · by_cases hc : c = '/' <;> simp [hc]

theorem holdsNull_ofText (hnull : '\x00' ∉ text.toList) : (ofText text).holdsNull = false := by
  rw [holdsNull, List.any_eq_false]
  intro part hpart
  have hpiece := List.mem_of_mem_filter hpart
  simpa using fun hc => hnull ((hasPieces_pieces text).mem hpiece hc)

/-- Where a path leads from a place below the root. -/
theorem join_resolve {root : Place} (hroot : ".." ∉ root) {place : Place}
    (h : Leads root (pieces text) place) (hrelative : (ofText text).isAbsolute = false) :
    ((ofParts root).join (ofText text)).resolve = ofParts place := by
  rw [join_of_relative hrelative, resolve, resolved]
  show ofParts ((root ++ (ofText text).parts).foldl step []) = _
  rw [List.foldl_append, foldl_step_of_not_mem hroot, List.nil_append, parts_ofText_eq,
    leads_iff.1 h]

theorem isAbove_iff {root place : Place} :
    (ofParts root).isAbove (ofParts place) ↔ ∃ beyond, beyond ≠ [] ∧ place = root ++ beyond := by
  rw [isAbove, Bool.and_eq_true, bne_iff_ne]
  show List.isPrefixOf root place ∧ root ≠ place ↔ _
  rw [List.isPrefixOf_iff_prefix]
  constructor
  · rintro ⟨⟨beyond, rfl⟩, hne⟩
    exact ⟨beyond, fun hnil => hne (by rw [hnil, List.append_nil]), rfl⟩
  · rintro ⟨beyond, hne, rfl⟩
    exact ⟨List.prefix_append _ _, fun heq => hne (List.self_eq_append_right.1 heq)⟩

theorem output_ok_iff (hnull : '\x00' ∉ text.toList) {target : Path} :
    output text base = .ok target ↔ NamesSvg (pieces text) ∧
      target = ((ofParts base.resolved).join (ofText text)).resolve ∧
      ((ofText text).isAbsolute ∨ (ofParts base.resolved).isAbove target) := by
  rw [output, refuse_eq_ok_iff, refuse_eq_ok_iff, holdsNull_ofText hnull, namesSvg_iff, bne_iff_ne,
    not_not]
  refine and_congr_right fun _ => ?_
  rw [and_iff_right Bool.false_ne_true, ← Bool.or_eq_true]
  constructor
  · intro h
    split at h
    · next habove =>
        cases h
        exact ⟨rfl, habove⟩
    · cases h
  · rintro ⟨rfl, habove⟩
    exact if_pos habove

theorem kind_of_output_error (hnull : '\x00' ∉ text.toList) {f : Fault}
    (h : output text base = .error f) : f.kind = .validation := by
  rw [output, holdsNull_ofText hnull] at h
  split at h
  · cases h
    rfl
  · rw [if_neg Bool.false_ne_true] at h
    split at h <;> cases h
    rfl

/-- A relative output is accepted if it lies strictly below the base. -/
theorem output_relative_iff (hnull : '\x00' ∉ text.toList)
    (hrelative : text.toList.head? ≠ some '/') (target : Path) :
    output text base = .ok target ↔ NamesSvg (pieces text) ∧
      ∃ beyond, beyond ≠ [] ∧ Leads base.resolved (pieces text) (base.resolved ++ beyond) ∧
        target = ofParts (base.resolved ++ beyond) := by
  have hjoin := join_resolve (not_mem_resolved base) (leads_foldl (pieces text) _)
    (Bool.eq_false_iff.2 (mt (isAbsolute_ofText text).1 hrelative))
  rw [output_ok_iff hnull, hjoin, or_iff_right (mt (isAbsolute_ofText text).1 hrelative)]
  refine and_congr_right fun _ => ?_
  constructor
  · rintro ⟨rfl, habove⟩
    obtain ⟨beyond, hne, hplace⟩ := isAbove_iff.1 habove
    exact ⟨beyond, hne, leads_iff.2 hplace, congrArg ofParts hplace⟩
  · rintro ⟨beyond, hne, hleads, rfl⟩
    rw [leads_iff.1 hleads]
    exact ⟨rfl, isAbove_iff.2 ⟨beyond, hne, rfl⟩⟩

/-- An absolute output is accepted wherever it lies. -/
theorem output_absolute_iff (hnull : '\x00' ∉ text.toList)
    (habsolute : text.toList.head? = some '/') (target : Path) :
    output text base = .ok target ↔ NamesSvg (pieces text) ∧
      ∃ place, Leads [] (pieces text) place ∧ target = ofParts place := by
  have hpath := (isAbsolute_ofText text).2 habsolute
  rw [output_ok_iff hnull, and_congr_right fun _ => and_iff_left (.inl hpath), join, if_pos hpath]
  refine and_congr_right fun _ => ?_
  constructor
  · rintro rfl
    exact ⟨_, leads_foldl _ _, rfl⟩
  · rintro ⟨place, hleads, rfl⟩
    rw [← leads_iff.1 hleads]
    rfl

/-- An output that is accepted is reached from a place without names that lead nowhere. -/
theorem leads_of_output (hnull : '\x00' ∉ text.toList)
    (hbase : ∀ part ∈ base.resolved, part ∉ ["", ".", ".."]) {target : Path}
    (h : output text base = .ok target) :
    ∃ start place, (∀ part ∈ start, part ∉ ["", ".", ".."]) ∧ NamesSvg (pieces text) ∧
      Leads start (pieces text) place ∧ target = ofParts place := by
  by_cases habsolute : text.toList.head? = some '/'
  · obtain ⟨hsvg, place, hleads, rfl⟩ := (output_absolute_iff hnull habsolute target).1 h
    exact ⟨[], place, by simp, hsvg, hleads, rfl⟩
  · obtain ⟨hsvg, beyond, -, hleads, rfl⟩ := (output_relative_iff hnull habsolute target).1 h
    exact ⟨_, _, hbase, hsvg, hleads, rfl⟩

/-- A label goes where the walk along the text leads from the base, and for a relative text only if
that is strictly below the base; the text must name an `.svg` file. The place has no part that leads
anywhere else, and nothing but a fault of validation stands in the way. -/
theorem label_stays_below (text below : String) (hnull : '\x00' ∉ text.toList) :
    ∃ above root route, HasPieces ("/" ++ below).toList above ∧ Leads [] above root ∧
      HasPieces text.toList route ∧
      (text.toList.head? ≠ some '/' → ∀ target, output text (ofText ("/" ++ below)) = .ok target ↔
        NamesSvg route ∧ ∃ beyond, beyond ≠ [] ∧ Leads root route (root ++ beyond) ∧
          target = ofParts (root ++ beyond)) ∧
      (text.toList.head? = some '/' → ∀ target, output text (ofText ("/" ++ below)) = .ok target ↔
        NamesSvg route ∧ ∃ place, Leads [] route place ∧ target = ofParts place) ∧
      (∀ target, output text (ofText ("/" ++ below)) = .ok target →
        (∀ part ∈ target.parts, part ∉ ["", ".", ".."]) ∧
        ∃ name, IsLastPart route name ∧ IsSvgName name ∧ target.name = name) ∧
      ∀ f, output text (ofText ("/" ++ below)) = .error f → f.kind = .validation := by
  have habove : Leads [] (pieces ("/" ++ below)) (ofText ("/" ++ below)).resolved :=
    leads_foldl _ _
  refine ⟨_, _, _, hasPieces_pieces _, habove, hasPieces_pieces text, output_relative_iff hnull,
    output_absolute_iff hnull, fun target htarget => ?_, fun f hf => kind_of_output_error hnull hf⟩
  obtain ⟨start, place, hstart, ⟨name, hlast, hsvg⟩, hleads, rfl⟩ :=
    leads_of_output hnull (habove.not_mem (by simp)) htarget
  refine ⟨hleads.not_mem hstart, name, hlast, hsvg, ?_⟩
  -- a name with the ending leads down, so the walk ends with it
  have hup : name ≠ ".." := by
    rintro rfl
    exact not_isSvgName_up hsvg
  exact congrArg (·.getD "") (hleads.getLast? hlast hup)

/-- Up and down again, in capitals. -/
theorem hammer_label_below :
    '\x00' ∉ "sheets/../tools/./Hammer.SVG".toList ∧
      ∃ root route beyond, Leads root route (root ++ beyond) ∧
        root ++ beyond = ["srv", "labels", "tools", "Hammer.SVG"] := by
  have hnull : '\x00' ∉ "sheets/../tools/./Hammer.SVG".toList := by simp
  obtain ⟨-, root, route, -, -, -, hrelative, -⟩ :=
    label_stays_below "sheets/../tools/./Hammer.SVG" "srv/labels" hnull
  have htarget : output "sheets/../tools/./Hammer.SVG" (ofText ("/" ++ "srv/labels")) =
      .ok (ofParts ["srv", "labels", "tools", "Hammer.SVG"]) := by
    rfl
  obtain ⟨-, beyond, -, hleads, hplace⟩ := (hrelative (by simp) _).1 htarget
  exact ⟨hnull, root, route, beyond, hleads, (congrArg Path.parts hplace).symm⟩

end Label
end Inventory

import Inventory.File.Disk
import Inventory.Proofs.Fallible
import Mathlib.Data.List.Induction

/-!
# Changes of a disk

What creating directories and writing a file leave on a disk. Directories are created beside what
is there. A file is written at its place or not at all, and the file by way of which it is written
is gone in either case.
-/

namespace Inventory

namespace Path

theorem join_of_isAbsolute {p : Path} (h : p.isAbsolute) (directory : Path) :
    directory.join p = p :=
  if_pos h

theorem step_of_ne (done : List String) {part : String} (h : part ≠ "..") :
    step done part = done ++ [part] :=
  if_neg h

/-- No step of a resolved path leads upwards. -/
theorem not_mem_resolved (p : Path) : ".." ∉ p.resolved := by
  have hfold (parts : List String) : ∀ done : List String, ".." ∉ done →
      ".." ∉ parts.foldl step done := by
    induction parts with
    | nil => exact fun _ hdone => hdone
    | cons part rest ih =>
        refine fun done hdone => ih _ ?_
        by_cases hpart : part = ".."
        · rw [step, if_pos hpart]
          exact fun hmem => hdone ((List.dropLast_sublist _).mem hmem)
        · rw [step_of_ne done hpart]
          simpa using ⟨hdone, fun heq => hpart heq.symm⟩
  exact hfold p.parts [] List.not_mem_nil

end Path

namespace Disk

variable {d e f : Disk} {place other q : Place} {node : Node}

/-! ## Single places -/

theorem node?_of_ne (h : place ≠ []) : d.node? place = d.lookup place := by
  rw [node?, if_neg (by simpa using h)]

theorem ne_nil_of_node? (h : d.node? place = none) : place ≠ [] := by
  rintro rfl
  cases h

theorem ne_nil_of_file {content : Content} (h : d.node? place = some (.file content)) :
    place ≠ [] := by
  rintro rfl
  cases h

theorem ne_nil_of_no_directory (h : d.isDirectoryAt place = false) : place ≠ [] := by
  rintro rfl
  cases h

theorem isDirectoryAt_iff : d.isDirectoryAt place ↔ d.node? place = some .directory := by
  unfold isDirectoryAt
  split <;> simp_all

/-- A step of a way leads from a directory. -/
theorem follow_cons_eq_some {part : String} {rest : List String} :
    d.follow place (part :: rest) = .ok (some q) ↔
      d.isDirectoryAt place ∧ ∃ next, stepFrom place part = .ok next ∧
        d.follow next rest = .ok (some q) := by
  rw [follow]
  split
  · next hplace => simp [hplace, bind_eq_ok_iff]
  · next hplace => simp [hplace]

theorem lookup_put (d : Disk) :
    (d.put place node).lookup other = if other = place then some node else d.lookup other := by
  induction d with
  | nil =>
      rw [put, List.lookup_cons]
      by_cases h : other = place
      · simp [h]
      · simp [h, beq_eq_false_iff_ne.2 h]
  | cons item rest ih =>
      obtain ⟨first, old⟩ := item
      by_cases hfirst : first = place
      · subst hfirst
        rw [put, if_pos rfl, List.lookup_cons, List.lookup_cons]
        by_cases h : other = first
        · simp [h]
        · simp [h, beq_eq_false_iff_ne.2 h]
      · rw [put, if_neg hfirst, List.lookup_cons, List.lookup_cons, ih]
        by_cases h : other = first
        · simp [h, hfirst]
        · simp [beq_eq_false_iff_ne.2 h]

theorem node?_put (h : place ≠ []) :
    (d.put place node).node? other = if other = place then some node else d.node? other := by
  by_cases hother : other = []
  · subst hother
    rw [if_neg fun heq => h heq.symm]
    rfl
  · rw [node?_of_ne hother, node?_of_ne hother, lookup_put]

/-- What is put where it is already changes nothing. -/
theorem put_of_lookup (h : d.lookup place = some node) : d.put place node = d := by
  induction d with
  | nil => cases h
  | cons item rest ih =>
      obtain ⟨first, old⟩ := item
      by_cases hfirst : first = place
      · subst hfirst
        rw [List.lookup_cons_self] at h
        cases h
        rw [put, if_pos rfl]
      · rw [List.lookup_cons, beq_eq_false_iff_ne.2 fun heq => hfirst heq.symm] at h
        rw [put, if_neg hfirst, ih h]

/-- What is put where nothing was can be taken away again. -/
theorem remove_put (h : d.lookup place = none) : (d.put place node).remove place = d := by
  induction d with
  | nil => simp [put, remove]
  | cons item rest ih =>
      obtain ⟨first, old⟩ := item
      have hfirst : first ≠ place := by
        rintro rfl
        rw [List.lookup_cons_self] at h
        cases h
      rw [List.lookup_cons, beq_eq_false_iff_ne.2 fun heq => hfirst heq.symm] at h
      rw [put, if_neg hfirst, remove, List.filter_cons_of_pos (by simpa using hfirst)]
      exact congrArg _ (ih h)

/-! ## What a change leaves as it was -/

/-- Apart from some places, what is on `d` is on `e` as it was, and what is new is a directory. -/
def SameBut (written : List Place) (d e : Disk) : Prop :=
  ∀ place, place ∉ written → e.node? place = d.node? place ∨
    d.node? place = none ∧ e.node? place = some .directory

namespace SameBut

variable {written : List Place}

theorem refl (written : List Place) (d : Disk) : SameBut written d d :=
  fun _ _ => .inl rfl

theorem trans (h : SameBut written d e) (h' : SameBut written e f) : SameBut written d f := by
  intro place hplace
  rcases h place hplace with hsame | ⟨hnone, hnew⟩
  · rw [← hsame]
    exact h' place hplace
  · rcases h' place hplace with hsame | ⟨hnone', -⟩
    · exact .inr ⟨hnone, hsame.trans hnew⟩
    · rw [hnew] at hnone'
      cases hnone'

theorem weaken (h : SameBut [] d e) (written : List Place) : SameBut written d e :=
  fun place _ => h place List.not_mem_nil

theorem put_directory (h : d.node? place = none) : SameBut [] d (d.put place .directory) := by
  intro other _
  rw [node?_put (ne_nil_of_node? h)]
  by_cases hother : other = place
  · subst hother
    exact .inr ⟨h, if_pos rfl⟩
  · exact .inl (if_neg hother)

theorem put (h : place ≠ []) : SameBut [place] d (d.put place node) := by
  intro other hother
  rw [node?_put h]
  exact .inl (if_neg (by simpa using hother))

theorem node?_of_some (h : SameBut [] d e) (hd : d.node? place = some node) :
    e.node? place = some node := by
  rcases h place List.not_mem_nil with hsame | ⟨hnone, -⟩
  · exact hsame.trans hd
  · rw [hd] at hnone
    cases hnone

theorem isDirectoryAt (h : SameBut [] d e) (hd : d.isDirectoryAt place) : e.isDirectoryAt place :=
  isDirectoryAt_iff.2 (h.node?_of_some (isDirectoryAt_iff.1 hd))

theorem follow (h : SameBut [] d e) : ∀ (parts : List String) (place : Place),
    d.follow place parts = .ok (some q) → e.follow place parts = .ok (some q) := by
  intro parts
  induction parts with
  | nil => exact fun place hd => hd
  | cons part rest ih =>
      intro place hd
      obtain ⟨hplace, next, hstep, hrest⟩ := follow_cons_eq_some.1 hd
      exact follow_cons_eq_some.2 ⟨h.isDirectoryAt hplace, next, hstep, ih next hrest⟩

end SameBut

/-! ## Looking -/

theorem find?_of_follow {work p : Path} (hnull : (work.join p).holdsNull = false)
    (hsize : p.toText.utf8ByteSize < pathLimit)
    (hfollow : d.follow [] (work.join p).parts = .ok (some place)) :
    d.find? work p = .ok ((d.node? place).map (place, ·)) := by
  simp only [find?, hnull, Bool.false_eq_true, if_false, if_neg (Nat.not_le.2 hsize), hfollow]
  rfl

theorem find?_eq_ok_some {work p : Path} :
    d.find? work p = .ok (some (place, node)) ↔
      (work.join p).holdsNull = false ∧ p.toText.utf8ByteSize < pathLimit ∧
        d.follow [] (work.join p).parts = .ok (some place) ∧ d.node? place = some node := by
  unfold find?
  dsimp only
  cases hnull : (work.join p).holdsNull with
  | true =>
      constructor
      · rintro ⟨⟩
      · rintro ⟨⟨⟩, -⟩
  | false =>
      rw [if_neg Bool.false_ne_true]
      rcases Nat.lt_or_ge p.toText.utf8ByteSize pathLimit with hsize | hsize
      · rw [if_neg (Nat.not_le.2 hsize)]
        constructor
        · intro h
          obtain ⟨found, hfollow, hfound⟩ := bind_eq_ok_iff.1 h
          obtain ⟨other, rfl, hother⟩ := Option.bind_eq_some_iff.1 (Except.ok.inj hfound)
          obtain ⟨node', hnode, heq⟩ := Option.map_eq_some_iff.1 hother
          cases heq
          exact ⟨rfl, hsize, hfollow, hnode⟩
        · rintro ⟨-, -, hfollow, hnode⟩
          refine bind_eq_ok_iff.2 ⟨some place, hfollow, congrArg Except.ok ?_⟩
          rw [Option.bind_some, hnode, Option.map_some]
      · rw [if_pos hsize]
        constructor
        · rintro ⟨⟩
        · rintro ⟨-, hlt, -⟩
          exact absurd hsize (Nat.not_le.2 hlt)

/-- A file that is put where it was found changes nothing. -/
theorem put_of_find? {work p : Path} {content : Content}
    (h : d.find? work p = .ok (some (place, .file content))) :
    d.put place (.file content) = d := by
  obtain ⟨-, -, -, hnode⟩ := find?_eq_ok_some.1 h
  exact put_of_lookup (by rwa [← node?_of_ne (ne_nil_of_file hnode)])

section Files

variable {work p : Path} {content changed : Content}

/-- No way leads through a file, whatever it holds. -/
theorem follow_put (h : d.isDirectoryAt place = false) (parts : List String) : ∀ start,
    (d.put place (.file changed)).follow start parts = d.follow start parts := by
  have hdirectory (other : Place) :
      (d.put place (.file changed)).isDirectoryAt other = d.isDirectoryAt other := by
    rw [isDirectoryAt, node?_put (ne_nil_of_no_directory h)]
    by_cases hother : other = place
    · subst hother
      rw [h, if_pos rfl]
    · rw [if_neg hother, isDirectoryAt]
  induction parts with
  | nil => exact fun start => rfl
  | cons part rest ih =>
      intro start
      rw [follow, follow, hdirectory]
      split
      · exact bind_congr_ok fun next _ => ih next
      · rfl

/-- Where a file was found, the one that is put there is found. -/
theorem find?_put (h : d.find? work p = .ok (some (place, .file content))) :
    (d.put place (.file changed)).find? work p = .ok (some (place, .file changed)) := by
  obtain ⟨hnull, hsize, hfollow, hnode⟩ := find?_eq_ok_some.1 h
  have hfile : d.isDirectoryAt place = false := by rw [isDirectoryAt, hnode]
  refine find?_eq_ok_some.2 ⟨hnull, hsize, (follow_put hfile _ _).trans hfollow, ?_⟩
  rw [node?_put (ne_nil_of_file hnode), if_pos rfl]

theorem exists_of_file? (h : d.file? work p = .ok (some content)) :
    ∃ place, d.find? work p = .ok (some (place, .file content)) := by
  obtain ⟨found, hfound, h⟩ := bind_eq_ok_iff.1 h
  split at h
  · next place content' =>
      cases h
      exact ⟨place, hfound⟩
  · cases h

/-- The path of something that was found does not hold the null character. -/
theorem holdsNull_of_find? {found : Place × Node} (h : d.find? work p = .ok (some found)) :
    p.holdsNull = false := by
  obtain ⟨hnull, -⟩ := find?_eq_ok_some.1 h
  rw [Path.holdsNull, List.any_eq_false] at hnull ⊢
  intro part hpart
  refine hnull part ?_
  unfold Path.join
  split
  · exact hpart
  · exact List.mem_append_right _ hpart

end Files

/-- What could be found is still found. -/
theorem SameBut.find? (h : SameBut [] d e) {work p : Path} {found : Place × Node}
    (hd : d.find? work p = .ok (some found)) : e.find? work p = .ok (some found) := by
  obtain ⟨hnull, hsize, hfollow, hnode⟩ := find?_eq_ok_some.1 hd
  exact find?_eq_ok_some.2 ⟨hnull, hsize, h.follow _ _ hfollow, h.node?_of_some hnode⟩

/-- A way that can be followed led to the same place before, or ended at a missing directory. -/
theorem SameBut.follow_before (h : SameBut [] d e) {parts : List String} {found : Option Place} :
    ∀ {place : Place}, e.follow place parts = .ok found →
      d.follow place parts = .ok none ∨ d.follow place parts = .ok found := by
  induction parts with
  | nil => exact fun he => .inr he
  | cons part rest ih =>
      intro place he
      rw [Disk.follow] at he ⊢
      by_cases hplace : d.isDirectoryAt place
      · rw [if_pos (h.isDirectoryAt hplace)] at he
        obtain ⟨next, hstep, hrest⟩ := bind_eq_ok_iff.1 he
        rw [if_pos hplace, hstep]
        exact ih hrest
      · exact .inl (if_neg hplace)

/-- What cannot be found could not be found before. -/
theorem SameBut.find?_none (h : SameBut [] d e) {work p : Path} (he : e.find? work p = .ok none) :
    d.find? work p = .ok none := by
  unfold Disk.find? at he ⊢
  dsimp only at he ⊢
  split at he
  · next hnull => exact if_pos hnull
  · next hnull =>
      obtain ⟨hsize, he⟩ := guard_eq_ok_iff.1 he
      obtain ⟨found, hfound, hnode⟩ := bind_eq_ok_iff.1 he
      rw [if_neg hnull]
      refine guard_eq_ok_iff.2 ⟨hsize, bind_eq_ok_iff.2 ?_⟩
      rcases h.follow_before hfound with hnone | hsame
      · exact ⟨none, hnone, rfl⟩
      · refine ⟨found, hsame, congrArg Except.ok ?_⟩
        cases found with
        | none => rfl
        | some place =>
            have hnone : e.node? place = none := by simpa using Except.ok.inj hnode
            cases hd : d.node? place with
            | none => simp [hd]
            | some node => cases hnone.symm.trans (h.node?_of_some hd)

theorem stepFrom_eq_ok {part : String} {next : Place} (hdown : ".." ≠ part)
    (h : stepFrom place part = .ok next) : next = place ++ [part] := by
  rw [stepFrom, refuse_eq_ok_iff, Path.step_of_ne place hdown.symm] at h
  exact (Except.ok.inj h.2).symm

/-- A way that leads down only leads to where its parts say. -/
theorem follow_down {parts : List String} : ∀ {place : Place}, ".." ∉ parts →
    d.follow place parts = .ok (some q) → q = place ++ parts := by
  induction parts with
  | nil =>
      rintro place - ⟨⟩
      exact (List.append_nil _).symm
  | cons part rest ih =>
      intro place hdown h
      rw [List.mem_cons, not_or] at hdown
      obtain ⟨-, next, hstep, hrest⟩ := follow_cons_eq_some.1 h
      rw [ih hdown.2 hrest, stepFrom_eq_ok hdown.1 hstep]
      simp

theorem follow_append (rest : List String) {parts : List String} : ∀ {place : Place},
    d.follow place parts = .ok (some q) → d.follow place (parts ++ rest) = d.follow q rest := by
  induction parts with
  | nil =>
      intro place h
      cases h
      rfl
  | cons part behind ih =>
      intro place h
      obtain ⟨hplace, next, hstep, hbehind⟩ := follow_cons_eq_some.1 h
      rw [List.cons_append, follow, if_pos hplace, hstep]
      exact ih hbehind

/-- A way down through directories is followed in the same way on both disks. -/
theorem follow_congr {parts : List String} : ∀ {done : Place}, ".." ∉ parts →
    (∀ front, front <+: parts → front ≠ parts →
      d.isDirectoryAt (done ++ front) ∧ e.isDirectoryAt (done ++ front)) →
    e.follow done parts = d.follow done parts := by
  induction parts with
  | nil => exact fun _ _ => rfl
  | cons part rest ih =>
      intro done hdown h
      rw [List.mem_cons, not_or] at hdown
      obtain ⟨hd, he⟩ := h [] List.nil_prefix (List.cons_ne_nil part rest).symm
      rw [List.append_nil] at hd he
      rw [follow, follow, if_pos hd, if_pos he]
      refine bind_congr_ok fun next hnext => ?_
      rw [stepFrom_eq_ok hdown.1 hnext]
      refine ih hdown.2 fun front hfront hne => ?_
      rw [List.append_assoc]
      exact h (part :: front) (List.cons_prefix_cons.2 ⟨rfl, hfront⟩) (by simpa using hne)

section Paths

variable {p : Path}

/-- What is looked for is at the end of its way down. -/
theorem find?_congr (hp : p.isAbsolute) (hdown : ".." ∉ p.parts)
    (hfollow : e.follow [] p.parts = d.follow [] p.parts)
    (hnode : e.node? p.parts = d.node? p.parts) : e.find? p p = d.find? p p := by
  simp only [find?, Path.join_of_isAbsolute hp, hfollow]
  split
  · rfl
  · split
    · rfl
    · refine bind_congr_ok fun found hfound => ?_
      cases found with
      | none => rfl
      | some place =>
          have hplace : place = p.parts := by simpa using follow_down hdown hfound
          rw [Option.bind_some, Option.bind_some, hplace, hnode]

theorem find?_put_of_ne {content : Content} (h : d.isDirectoryAt place = false)
    (hp : p.isAbsolute) (hdown : ".." ∉ p.parts) (hne : p.parts ≠ place) :
    (d.put place (.file content)).find? p p = d.find? p p := by
  refine find?_congr hp hdown (follow_put h p.parts []) ?_
  rw [node?_put (ne_nil_of_no_directory h), if_neg hne]

theorem lt_pathLimit_of_find? {work : Path} {found : Option (Place × Node)}
    (h : d.find? work p = .ok found) (hnull : (work.join p).holdsNull = false) :
    p.toText.utf8ByteSize < pathLimit := by
  simp only [find?, hnull, Bool.false_eq_true, if_false] at h
  exact Nat.not_le.1 (guard_eq_ok_iff.1 h).1

end Paths

/-! ## Disks as trees -/

/-- Everything on the disk is in a directory. -/
def IsTree (d : Disk) : Prop :=
  ∀ item ∈ d, d.isDirectoryAt item.1.dropLast

instance (d : Disk) : Decidable d.IsTree :=
  inferInstanceAs (Decidable (∀ item ∈ d, d.isDirectoryAt item.1.dropLast))

namespace IsTree

theorem isDirectoryAt_dropLast (h : d.IsTree) (hnode : d.node? place = some node) :
    d.isDirectoryAt place.dropLast := by
  by_cases hplace : place = []
  · subst hplace
    rfl
  · rw [node?_of_ne hplace] at hnode
    obtain ⟨before, behind, rfl, -⟩ := List.lookup_eq_some_iff.1 hnode
    exact h (place, node) (by simp)

/-- Above a directory there are directories only. -/
theorem isDirectoryAt_prefix (h : d.IsTree) {front : Place} (hplace : d.isDirectoryAt place)
    (hfront : front <+: place) : d.isDirectoryAt front := by
  obtain ⟨rest, rfl⟩ := hfront
  induction rest using List.reverseRecOn with
  | nil => rwa [List.append_nil] at hplace
  | append_singleton rest last ih =>
      have hdrop := h.isDirectoryAt_dropLast (isDirectoryAt_iff.1 hplace)
      rw [← List.append_assoc, List.dropLast_concat] at hdrop
      exact ih hdrop

/-- What is looked for in a directory is found in the same way when more directories are there. -/
theorem find?_eq (h : d.IsTree) (hsame : SameBut [] d e) {p : Path} (hp : p.isAbsolute)
    (hdown : ".." ∉ p.parts) (hdirectory : d.isDirectoryAt p.parts.dropLast)
    (hnode : e.node? p.parts = d.node? p.parts) : e.find? p p = d.find? p p := by
  refine find?_congr hp hdown (follow_congr hdown fun front hfront hne => ?_) hnode
  have hlength : front.length ≤ p.parts.dropLast.length := by
    have hle := hfront.length_le
    have hshorter : front.length ≠ p.parts.length := fun heq => hne (hfront.eq_of_length heq)
    rw [List.length_dropLast]
    omega
  have habove := List.prefix_of_prefix_length_le hfront (List.dropLast_prefix _) hlength
  have hd := h.isDirectoryAt_prefix hdirectory habove
  exact ⟨hd, hsame.isDirectoryAt hd⟩

end IsTree

/-! ## Creating directories -/

/-- The disk that a change leaves, whether or not it was completed. -/
def left : Except Broken Disk → Disk
  | .ok d => d
  | .error broken => broken.disk

theorem makeFrom_sameBut (parts : List String) : ∀ (d : Disk) (done : Place),
    SameBut [] d (left (d.makeFrom done parts)) := by
  induction parts with
  | nil => exact fun d _ => .refl [] d
  | cons part rest ih =>
      intro d done
      rw [makeFrom]
      cases stepFrom done part with
      | error f => exact .refl [] d
      | ok place =>
          cases hnode : d.node? place with
          | none =>
              simp only [hnode]
              exact (SameBut.put_directory hnode).trans (ih _ place)
          | some node =>
              cases node with
              | directory => simpa only [hnode] using ih d place
              | file content =>
                  simp only [hnode]
                  exact .refl [] d

theorem makeDirectory_sameBut (d : Disk) (p : Path) : SameBut [] d (left (d.makeDirectory p)) := by
  unfold makeDirectory
  split
  · exact .refl [] d
  · exact makeFrom_sameBut _ d []

/-- Directories are created on the way only. -/
theorem node?_makeFrom {parts : List String} : ∀ {d : Disk} {done : Place}, ".." ∉ parts →
    ¬place <+: done ++ parts → (left (d.makeFrom done parts)).node? place = d.node? place := by
  induction parts with
  | nil => exact fun _ _ => rfl
  | cons part rest ih =>
      intro d done hdown hplace
      rw [List.mem_cons, not_or] at hdown
      rw [makeFrom]
      cases hstep : stepFrom done part with
      | error f => rfl
      | ok next =>
          obtain rfl := stepFrom_eq_ok hdown.1 hstep
          have hbehind : ¬place <+: (done ++ [part]) ++ rest := by simpa using hplace
          cases hnode : d.node? (done ++ [part]) with
          | none =>
              simp only [hnode]
              rw [ih hdown.2 hbehind, node?_put (ne_nil_of_node? hnode), if_neg]
              rintro rfl
              exact hbehind (List.prefix_append _ _)
          | some node =>
              cases node with
              | directory => simpa only [hnode] using ih hdown.2 hbehind
              | file content => simp only [hnode, left]

theorem sameBut_of_makeDirectory {p : Path} (h : d.makeDirectory p = .ok e) : SameBut [] d e := by
  have hsame := makeDirectory_sameBut d p
  rwa [h] at hsame

theorem node?_makeDirectory {p : Path} (h : d.makeDirectory p = .ok e) (hdown : ".." ∉ p.parts)
    (hplace : ¬place <+: p.parts) : e.node? place = d.node? place := by
  rw [makeDirectory] at h
  split at h
  · cases h
  · have hnode : (left (d.makeFrom [] p.parts)).node? place = d.node? place :=
      node?_makeFrom hdown hplace
    rwa [h] at hnode

/-- Up to a directory that is there, none is missing. -/
theorem makeFrom_append (rest : List String) (hq : d.isDirectoryAt q) {parts : List String} :
    ∀ {done : Place}, d.follow done parts = .ok (some q) →
      d.makeFrom done (parts ++ rest) = d.makeFrom q rest := by
  induction parts with
  | nil =>
      intro done h
      cases h
      rfl
  | cons part behind ih =>
      intro done h
      obtain ⟨-, next, hstep, hbehind⟩ := follow_cons_eq_some.1 h
      have hnext : d.isDirectoryAt next := by
        cases behind with
        | nil =>
            cases hbehind
            exact hq
        | cons first others => exact (follow_cons_eq_some.1 hbehind).1
      simp only [List.cons_append, makeFrom, hstep, isDirectoryAt_iff.1 hnext]
      exact ih hbehind

/-- Where a way leads on, no directory on it is missing. -/
theorem makeFrom_of_follow {last : String} {parts : List String} : ∀ {done : Place},
    d.follow done (parts ++ [last]) = .ok (some q) → d.makeFrom done parts = .ok d := by
  induction parts with
  | nil => exact fun _ => rfl
  | cons part rest ih =>
      intro done h
      obtain ⟨-, next, hstep, hrest⟩ := follow_cons_eq_some.1 h
      have hnext : d.isDirectoryAt next := by
        cases rest with
        | nil => exact (follow_cons_eq_some.1 hrest).1
        | cons first others => exact (follow_cons_eq_some.1 hrest).1
      simp only [makeFrom, hstep, isDirectoryAt_iff.1 hnext]
      exact ih hrest

theorem makeDirectory_of_find? {work p : Path} {found : Place × Node}
    (h : d.find? work p = .ok (some found)) :
    d.makeDirectory (work.join p).parent = .ok d := by
  obtain ⟨hnull, -, hfollow, -⟩ := find?_eq_ok_some.1 h
  have hnull' : (work.join p).parent.holdsNull = false := by
    rw [Path.holdsNull, List.any_eq_false] at hnull ⊢
    exact fun part hpart => hnull part ((List.dropLast_sublist _).mem hpart)
  rw [makeDirectory, hnull']
  rcases List.eq_nil_or_concat (work.join p).parts with hparts | ⟨directory, last, hparts⟩
  · simp [Path.parent, hparts, makeFrom]
  · rw [hparts] at hfollow
    simpa [Path.parent, hparts] using makeFrom_of_follow (by simpa using hfollow)

/-! ## Writing a file -/

theorem write_eq_ok_iff {p : Path} {content : Content} :
    d.write p content = .ok e ↔ ∃ place, p.holdsNull = false ∧
      d.follow [] p.parts = .ok (some place) ∧ d.isDirectoryAt place = false ∧
      e = d.put place (.file content) := by
  rw [write, guard_eq_ok_iff, bind_eq_ok_iff]
  constructor
  · rintro ⟨hnull, found, hfollow, h⟩
    cases found with
    | none => cases h
    | some place =>
        refine ⟨place, by simpa using hnull, hfollow, ?_⟩
        dsimp only at h
        split at h
        · cases h
        · next hdirectory =>
            cases h
            exact ⟨Bool.eq_false_iff.2 fun hd => hdirectory (isDirectoryAt_iff.1 hd), rfl⟩
  · rintro ⟨place, hnull, hfollow, hdirectory, rfl⟩
    refine ⟨by simpa using hnull, some place, hfollow, ?_⟩
    dsimp only
    split
    · next hnode => cases hdirectory.symm.trans (isDirectoryAt_iff.2 hnode)
    · rfl

/-- A file that was written is found, and everything else as it was. -/
theorem find?_of_write {p : Path} {content : Content} (h : d.write p content = .ok e)
    (hp : p.isAbsolute) (hdown : ".." ∉ p.parts) (hsize : p.toText.utf8ByteSize < pathLimit) :
    e.find? p p = .ok (some (p.parts, .file content)) ∧
      ∀ other : Path, other.isAbsolute → ".." ∉ other.parts → other.parts ≠ p.parts →
        e.find? other other = d.find? other other := by
  obtain ⟨place, hnull, hfollow, hdirectory, rfl⟩ := write_eq_ok_iff.1 h
  obtain rfl : place = p.parts := by simpa using follow_down hdown hfollow
  refine ⟨find?_eq_ok_some.2 ⟨?_, hsize, ?_, ?_⟩, fun other hother hdown' hne => ?_⟩
  · rwa [Path.join_of_isAbsolute hp]
  · rw [Path.join_of_isAbsolute hp, follow_put hdirectory, hfollow]
  · rw [node?_put (ne_nil_of_no_directory hdirectory), if_pos rfl]
  · exact find?_put_of_ne hdirectory hother hdown' hne

/-- The place for a file that is to be written is free. -/
theorem node?_stagingPlace {directory : Place} {name : String} {draws : List String}
    (h : d.stagingPlace directory name draws = .ok place) : d.node? place = none := by
  induction draws with
  | nil => cases h
  | cons letters rest ih =>
      rw [stagingPlace] at h
      obtain ⟨next, -, h⟩ := bind_eq_ok_iff.1 h
      cases hnext : d.node? next with
      | some node => exact ih (by simpa [hnext] using h)
      | none =>
          simp only [hnext, Option.isSome_none, Bool.false_eq_true, if_false] at h
          cases h
          exact hnext

/-- A file was written at a place, where no directory was, and nothing else has changed but for new
directories. -/
structure Wrote (d e : Disk) (place : Place) (content : Content) : Prop where
  noDirectory : d.node? place ≠ some .directory
  written : e.node? place = some (.file content)
  others : SameBut [place] d e

/-- Directories may be created before. -/
theorem Wrote.after {content : Content} (h : e.Wrote f place content) (hd : SameBut [] d e) :
    d.Wrote f place content where
  noDirectory := fun hnode => h.noDirectory (hd.node?_of_some hnode)
  written := h.written
  others := (hd.weaken [place]).trans h.others

/-- A file takes the place of what was there, or the disk stays as it was. -/
theorem replace_cases (d : Disk) (draws : List String) {p : Path} (content : Content)
    {directory : Place} {name : String} (hparts : p.parts = directory ++ [name])
    (hdown : ".." ∉ p.parts) :
    (∃ f, d.replace draws p content = .error ⟨f, d⟩) ∨
      ∃ e, d.replace draws p content = .ok e ∧ d.Wrote e p.parts content := by
  have hparent : p.parent.parts = directory := by simp [Path.parent, hparts]
  have hname : p.name = name := by simp [Path.name, hparts]
  unfold replace
  dsimp only
  split
  · next f hplaces => exact .inl ⟨f, rfl⟩
  · next staged target hplaces =>
      rw [hparent, hname] at hplaces
      obtain ⟨found, hfollow, hplaces⟩ := bind_eq_ok_iff.1 hplaces
      cases found with
      | none => cases hplaces
      | some place =>
          obtain ⟨free, hfree, hplaces⟩ := bind_eq_ok_iff.1 hplaces
          cases hplaces
          rw [hparts, List.mem_append, not_or, List.mem_singleton] at hdown
          have hplace : place = directory := by
            simpa using follow_down hdown.1 hfollow
          have htarget : Path.step place name = p.parts := by
            rw [Path.step_of_ne place fun heq => hdown.2 heq.symm, hplace, hparts]
          have hnone := node?_stagingPlace hfree
          have hstaged := ne_nil_of_node? hnone
          have hremove : (d.put staged (.file content)).remove staged = d :=
            remove_put (by rwa [← node?_of_ne hstaged])
          rw [htarget, move, hremove]
          split
          · exact .inl ⟨_, rfl⟩
          · next hdirectory =>
              have hne : p.parts ≠ [] := by simp [hparts]
              refine .inr ⟨_, rfl, fun hnode => hdirectory (isDirectoryAt_iff.2 ?_), ?_, .put hne⟩
              · rw [node?_put hstaged, if_neg, hnode]
                intro heq
                rw [heq, hnone] at hnode
                cases hnode
              · rw [node?_put hne, if_pos rfl]

end Disk

end Inventory

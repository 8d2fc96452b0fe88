import Inventory.Label.Lookup
import Inventory.Proofs.Labels

/-!
# Finding templates

A source is looked for at some paths in order, and the first of them with a file decides. A relative
source is looked for at its own path, below the directory of templates, and at last under its last
name in that directory. So where a source has directories of its own, the last path leaves them out
and is none that the source names.
-/

namespace Inventory

/-! ## Looking for a file -/

namespace Disk

variable {d : Disk} {work p : Path} {f : Fault}

theorem stepFrom_error {place : Place} {part : String} (h : stepFrom place part = .error f) :
    f = .nameTooLong := by
  unfold stepFrom at h
  split at h
  · exact (Except.error.inj h).symm
  · cases h

theorem follow_error {parts : List String} {place : Place}
    (h : d.follow place parts = .error f) : f = .nameTooLong := by
  induction parts generalizing place with
  | nil => cases h
  | cons part parts ih =>
      rw [follow] at h
      split at h
      · rcases bind_eq_error_iff.1 h with hstep | ⟨next, -, hrest⟩
        · exact stepFrom_error hstep
        · exact ih hrest
      · cases h

theorem find?_error (h : d.find? work p = .error f) : f = .nameTooLong := by
  unfold find? at h
  dsimp only at h
  split at h
  · cases h
  · split at h
    · cases h
      rfl
    · rcases bind_eq_error_iff.1 h with hfollow | ⟨_, -, ⟨⟩⟩
      exact follow_error hfollow

/-- Looking for a file fails for names and paths that are too long, and for nothing else. -/
theorem file?_error (h : d.file? work p = .error f) : f = .nameTooLong := by
  rcases bind_eq_error_iff.1 h with hfind | ⟨found, -, hcontent⟩
  · exact find?_error hfind
  · split at hcontent
    · cases hcontent
    · cases hcontent

end Disk

/-! ## The first file decides -/

namespace Template

variable {d : Disk} {work : Path} {source : String} {directory : Option Path}
  {before : List Path} {r : Except Fault Template}

/-- What a look at some paths for the template of a source comes to: the first path decides at which
there is a file, or which is too long to look at. -/
inductive Loads (d : Disk) (work : Path) (source : String) (paths : List Path) :
    Except Fault Template → Prop
  | file {before after : List Path} {q : Path} {data : ByteArray}
      (hpaths : paths = before ++ q :: after) (hbefore : ∀ b ∈ before, d.file? work b = .ok none)
      (hfile : d.file? work q = .ok (some (.bytes data))) :
      Loads d work source paths (ofBytes q.name data)
  | inventory {before after : List Path} {q : Path} {db : Database}
      (hpaths : paths = before ++ q :: after) (hbefore : ∀ b ∈ before, d.file? work b = .ok none)
      (hfile : d.file? work q = .ok (some (.inventory db))) :
      Loads d work source paths (.error (.templateNotGzip q.name))
  | tooLong {before after : List Path} {q : Path}
      (hpaths : paths = before ++ q :: after) (hbefore : ∀ b ∈ before, d.file? work b = .ok none)
      (hfault : d.file? work q = .error .nameTooLong) :
      Loads d work source paths (.error .nameTooLong)
  | missing (hmissing : ∀ q ∈ paths, d.file? work q = .ok none) :
      Loads d work source paths (.error (.templateNotFound source builtinNames))

theorem firstFile_append (h : ∀ b ∈ before, d.file? work b = .ok none) (rest : List Path) :
    firstFile d work (before ++ rest) = firstFile d work rest := by
  induction before with
  | nil => rfl
  | cons b before ih =>
      obtain ⟨hb, hbefore⟩ := List.forall_mem_cons.1 h
      rw [List.cons_append, firstFile, hb, ok_bind]
      exact ih hbefore

/-- There is no file at any of some paths, or there is a first one at which a look says more. -/
theorem none_or_first (d : Disk) (work : Path) (paths : List Path) :
    (∀ q ∈ paths, d.file? work q = .ok none) ∨
      ∃ before q after, paths = before ++ q :: after ∧
        (∀ b ∈ before, d.file? work b = .ok none) ∧ d.file? work q ≠ .ok none := by
  induction paths with
  | nil => exact .inl (by simp)
  | cons p paths ih =>
      by_cases hp : d.file? work p = .ok none
      · rcases ih with hnone | ⟨before, q, after, rfl, hbefore, hq⟩
        · exact .inl (List.forall_mem_cons.2 ⟨hp, hnone⟩)
        · exact .inr ⟨p :: before, q, after, rfl, List.forall_mem_cons.2 ⟨hp, hbefore⟩, hq⟩
      · exact .inr ⟨[], p, paths, rfl, by simp, hp⟩

/-- Whatever the paths, the look comes to something. -/
theorem exists_loads (d : Disk) (work : Path) (source : String) (paths : List Path) :
    ∃ r, Loads d work source paths r := by
  rcases none_or_first d work paths with hmissing | ⟨before, q, after, hpaths, hbefore, hq⟩
  · exact ⟨_, .missing hmissing⟩
  · cases hfile : d.file? work q with
    | error f =>
        obtain rfl := Disk.file?_error hfile
        exact ⟨_, .tooLong hpaths hbefore hfile⟩
    | ok found =>
        cases found with
        | none => exact absurd hfile hq
        | some content =>
            cases content with
            | bytes data => exact ⟨_, .file hpaths hbefore hfile⟩
            | inventory db => exact ⟨_, .inventory hpaths hbefore hfile⟩

theorem load_of_loads (hbuiltin : builtin.lookup source = none)
    (h : Loads d work source (candidates (Path.ofText source) directory) r) :
    load d work source directory = r := by
  rw [load, hbuiltin]
  dsimp only
  cases h with
  | file hpaths hbefore hfile =>
      rw [hpaths, firstFile_append hbefore, firstFile, hfile]
      rfl
  | inventory hpaths hbefore hfile =>
      rw [hpaths, firstFile_append hbefore, firstFile, hfile]
      rfl
  | tooLong hpaths hbefore hfault =>
      rw [hpaths, firstFile_append hbefore, firstFile, hfault]
      rfl
  | missing hmissing =>
      have hnone := firstFile_append hmissing []
      rw [List.append_nil] at hnone
      rw [hnone]
      rfl

theorem load_eq_iff_loads (hbuiltin : builtin.lookup source = none) :
    load d work source directory = r ↔
      Loads d work source (candidates (Path.ofText source) directory) r := by
  constructor
  · rintro rfl
    obtain ⟨r, hr⟩ := exists_loads d work source (candidates (Path.ofText source) directory)
    rwa [load_of_loads hbuiltin hr]
  · exact load_of_loads hbuiltin

end Template

/-! ## The ending behind a text -/

namespace Text

variable {p : Char → Bool} {b : List Char}

theorem piecesAt_of_forall (hb : ∀ c ∈ b, p c = false) : piecesAt p b = [b] := by
  induction b with
  | nil => rfl
  | cons c b ih =>
      obtain ⟨hc, hb⟩ := List.forall_mem_cons.1 hb
      rw [piecesAt, ih hb, hc]
      rfl

/-- What is put behind a text, and is one piece, belongs to the last piece. -/
theorem exists_piecesAt_append (hb : ∀ c ∈ b, p c = false) (a : List Char) :
    ∃ front last, piecesAt p a = front ++ [last] ∧
      piecesAt p (a ++ b) = front ++ [last ++ b] := by
  induction a with
  | nil => exact ⟨[], [], rfl, piecesAt_of_forall hb⟩
  | cons c a ih =>
      obtain ⟨front, last, ha, hab⟩ := ih
      rw [List.cons_append, piecesAt, piecesAt, ha, hab]
      cases hc : p c with
      | true =>
          refine ⟨[] :: front, last, ?_, ?_⟩
          · cases front <;> rfl
          · cases front <;> rfl
      | false =>
          cases front with
          | nil => exact ⟨[], c :: last, rfl, rfl⟩
          | cons piece front => exact ⟨(c :: piece) :: front, last, rfl, rfl⟩

end Text

namespace Path

open Template (fileSuffix)

variable {p dir : Path} {source : String}

/-- A piece that is kept as a part when a path is read. -/
def isPart (piece : String) : Bool :=
  piece != "" && piece != "."

/-- The parts of a path that have a slash behind them in its text. -/
def directoryParts (text : String) : List String :=
  (pieces text).dropLast.filter isPart

/-- What is behind the last slash of a path's text. -/
def lastPiece (text : String) : String :=
  (pieces text).getLast?.getD ""

/-- The text names no directory: there is none in front of its last slash, and it does not end in
one that is named by a point. -/
def IsBare (text : String) : Prop :=
  directoryParts text = [] ∧ lastPiece text ≠ "."

instance (text : String) : Decidable (IsBare text) :=
  inferInstanceAs (Decidable (_ ∧ _))

theorem parts_ofText_eq (text : String) : (ofText text).parts = (pieces text).filter isPart :=
  rfl

theorem pieces_append (source : String) :
    pieces source = (pieces source).dropLast ++ [lastPiece source] ∧
      pieces (source ++ fileSuffix) =
        (pieces source).dropLast ++ [lastPiece source ++ fileSuffix] := by
  have hpiece : ∀ c ∈ fileSuffix.toList, (c == '/') = false := by simp [fileSuffix]
  obtain ⟨front, last, hsource, happend⟩ := Text.exists_piecesAt_append hpiece source.toList
  have hpieces : pieces source = front.map String.ofList ++ [String.ofList last] := by
    rw [pieces, hsource, List.map_append, List.map_singleton]
  rw [lastPiece, hpieces, List.dropLast_concat, List.getLast?_concat, Option.getD_some]
  refine ⟨rfl, ?_⟩
  rw [pieces, String.toList_append, happend, List.map_append, List.map_singleton,
    String.ofList_append, String.ofList_toList]

theorem parts_ofText (source : String) :
    (ofText source).parts = directoryParts source ++ [lastPiece source].filter isPart := by
  rw [directoryParts, ← List.filter_append, ← (pieces_append source).1, parts_ofText_eq]

theorem length_append_fileSuffix (name : String) :
    (name ++ fileSuffix).length = name.length + 7 :=
  String.length_append name fileSuffix

theorem append_fileSuffix_ne (name : String) : name ++ fileSuffix ≠ name := by
  intro heq
  have hlength := congrArg String.length heq
  rw [length_append_fileSuffix] at hlength
  omega

theorem isPart_append_fileSuffix (name : String) : isPart (name ++ fileSuffix) := by
  have hne {piece : String} (hpiece : piece.length ≤ 1) : name ++ fileSuffix ≠ piece := by
    rintro rfl
    rw [length_append_fileSuffix] at hpiece
    omega
  rw [isPart, Bool.and_eq_true, bne_iff_ne, bne_iff_ne]
  exact ⟨hne (by decide), hne (by decide)⟩

/-- The ending is put behind the last piece, and what comes out is a part. -/
theorem parts_ofText_append (source : String) : (ofText (source ++ fileSuffix)).parts =
    directoryParts source ++ [lastPiece source ++ fileSuffix] := by
  rw [parts_ofText_eq, (pieces_append source).2, List.filter_append, directoryParts,
    List.filter_cons_of_pos (isPart_append_fileSuffix _), List.filter_nil]

/-- An ending does not change where a path begins. -/
theorem slashes_ofText_append (source : String) :
    (ofText (source ++ fileSuffix)).slashes = (ofText source).slashes := by
  have hlead : ((source ++ fileSuffix).toList.takeWhile (· == '/')).length =
      (source.toList.takeWhile (· == '/')).length := by
    rw [String.toList_append, List.takeWhile_append]
    split
    · next hall =>
        have hnone : fileSuffix.toList.takeWhile (· == '/') = [] := by decide +kernel
        rw [hnone, List.append_nil, hall]
    · rfl
  rw [ofText, ofText, hlead]

theorem name_ofText_of_isBare (h : IsBare source) : (ofText source).name = lastPiece source := by
  obtain ⟨hdirectories, hpoint⟩ := h
  rw [name, parts_ofText, hdirectories, List.nil_append]
  by_cases hempty : lastPiece source = ""
  · rw [hempty]
    rfl
  · rw [List.filter_cons_of_pos (by simp [isPart, hempty, hpoint])]
    rfl

theorem isBare_of_name_eq (hdirectories : directoryParts source = [])
    (hname : (ofText source).name = lastPiece source) : IsBare source := by
  refine ⟨hdirectories, fun hpoint => ?_⟩
  rw [name, parts_ofText, hdirectories, hpoint] at hname
  exact absurd hname (by decide)

/-- Of several parts all but the last one are directories. -/
theorem not_isBare_of_lt (h : 1 < (ofText source).parts.length) : ¬IsBare source := by
  rintro ⟨hdirectories, -⟩
  have hle := List.length_filter_le isPart [lastPiece source]
  rw [parts_ofText, hdirectories, List.nil_append] at h
  exact absurd hle (Nat.not_le.2 h)

theorem join_of_relative (hp : p.isAbsolute = false) :
    dir.join p = { dir with parts := dir.parts ++ p.parts } := by
  rw [join, hp]
  rfl

end Path

/-! ## The paths that a source names -/

namespace Template

variable {d : Disk} {work dir : Path} {source : String} {directory : Option Path}

/-- The path that is tried last in a directory of templates. -/
def lastResort (source : String) (dir : Path) : Path :=
  dir.join ⟨0, [(Path.ofText source).name ++ fileSuffix]⟩

/-- The paths that a relative source names: itself, and in a directory of templates itself and with
the ending of template files behind it. -/
def named (source : String) (directory : Option Path) : List Path :=
  match directory with
  | some dir =>
    [Path.ofText source, dir.join (Path.ofText source), dir.join (Path.ofText (source ++ fileSuffix))]
  | none => [Path.ofText source]

theorem candidates_some (hrelative : (Path.ofText source).isAbsolute = false) (dir : Path) :
    candidates (Path.ofText source) (some dir) =
      [Path.ofText source, dir.join (Path.ofText source), lastResort source dir] := by
  rw [candidates, hrelative]
  rfl

theorem lastResort_eq (source : String) (dir : Path) : lastResort source dir =
    { dir with parts := dir.parts ++ [(Path.ofText source).name ++ fileSuffix] } :=
  Path.join_of_relative rfl

theorem name_lastResort (source : String) (dir : Path) :
    (lastResort source dir).name = (Path.ofText source).name ++ fileSuffix := by
  rw [lastResort_eq, Path.name, List.getLast?_concat, Option.getD_some]

/-- The last path is the named one for a bare source, and for no other one. -/
theorem lastResort_eq_iff (hrelative : (Path.ofText source).isAbsolute = false) :
    lastResort source dir = dir.join (Path.ofText (source ++ fileSuffix)) ↔ Path.IsBare source := by
  have happend : (Path.ofText (source ++ fileSuffix)).isAbsolute = false := by
    rwa [Path.isAbsolute, Path.slashes_ofText_append]
  rw [lastResort_eq, Path.join_of_relative happend, Path.parts_ofText_append, Path.mk.injEq,
    List.append_cancel_left_eq, and_iff_right rfl]
  constructor
  · intro heq
    obtain ⟨hdirectories, hname⟩ := List.append_inj' (List.nil_append _ |>.trans heq) rfl
    exact Path.isBare_of_name_eq hdirectories.symm
      ((String.append_left_inj _).1 (List.singleton_inj.1 hname))
  · intro h
    rw [Path.name_ofText_of_isBare h, h.1, List.nil_append]

theorem lastResort_notMem_named (hrelative : (Path.ofText source).isAbsolute = false)
    (h : ¬Path.IsBare source) : lastResort source dir ∉ named source (some dir) := by
  have hname := name_lastResort source dir
  intro hmem
  obtain heq | heq | heq : lastResort source dir = Path.ofText source ∨
      lastResort source dir = dir.join (Path.ofText source) ∨
        lastResort source dir = dir.join (Path.ofText (source ++ fileSuffix)) := by
    simpa [named] using hmem
  · -- The name of the last path is longer than that of the source.
    rw [heq] at hname
    exact Path.append_fileSuffix_ne _ hname.symm
  · rw [lastResort_eq, Path.join_of_relative hrelative, Path.mk.injEq,
      List.append_cancel_left_eq] at heq
    have hsource : (Path.ofText source).name = (Path.ofText source).name ++ fileSuffix := by
      conv_lhs => rw [Path.name, ← heq.2]
      rfl
    exact Path.append_fileSuffix_ne _ hsource.symm
  · exact h ((lastResort_eq_iff hrelative).1 heq)

/-- The paths that are tried are those that the source names if it is bare, or if there is no
directory of templates. -/
theorem candidates_eq_named_iff (hrelative : (Path.ofText source).isAbsolute = false) :
    candidates (Path.ofText source) directory = named source directory ↔
      directory = none ∨ Path.IsBare source := by
  cases directory with
  | none => simp [candidates, named]
  | some dir => simp [candidates_some hrelative, named, lastResort_eq_iff hrelative]

/-- Where the first two paths have no file, a file at the last one is loaded. -/
theorem load_lastResort {data : ByteArray} (hbuiltin : builtin.lookup source = none)
    (hrelative : (Path.ofText source).isAbsolute = false)
    (hwork : d.file? work (Path.ofText source) = .ok none)
    (hdir : d.file? work (dir.join (Path.ofText source)) = .ok none)
    (hlast : d.file? work (lastResort source dir) = .ok (some (.bytes data))) :
    load d work source (some dir) = ofBytes ((Path.ofText source).name ++ fileSuffix) data := by
  rw [load_eq_iff_loads hbuiltin, candidates_some hrelative, ← name_lastResort source dir]
  have hbefore : ∀ b ∈ [Path.ofText source, dir.join (Path.ofText source)],
      d.file? work b = .ok none := by
    simp [hwork, hdir]
  exact .file rfl hbefore hlast

/-! ## Main result -/

/-- The load of a relative source comes to what a look at its paths in order comes to: the template
in the first file, or that there is none. Those are the paths that the source names exactly if there
is no directory of templates or the source is bare, and it is not if it has several parts. Otherwise
the last of the paths is none that the source names, and the file there is loaded where the others
have none. -/
theorem load_relative (hbuiltin : builtin.lookup source = none)
    (hrelative : (Path.ofText source).isAbsolute = false) :
    (∀ r, load d work source directory = r ↔
        Loads d work source (candidates (Path.ofText source) directory) r) ∧
      (candidates (Path.ofText source) directory = named source directory ↔
        directory = none ∨ Path.IsBare source) ∧
      (1 < (Path.ofText source).parts.length → ¬Path.IsBare source) ∧
      ∀ dir, directory = some dir → ¬Path.IsBare source →
        lastResort source dir ∉ named source directory ∧
        ∀ data, d.file? work (Path.ofText source) = .ok none →
          d.file? work (dir.join (Path.ofText source)) = .ok none →
          d.file? work (lastResort source dir) = .ok (some (.bytes data)) →
          load d work source directory =
            ofBytes ((Path.ofText source).name ++ fileSuffix) data := by
  refine ⟨fun r => load_eq_iff_loads hbuiltin, candidates_eq_named_iff hrelative,
    Path.not_isBare_of_lt, ?_⟩
  rintro dir rfl hbare
  exact ⟨lastResort_notMem_named hrelative hbare,
    fun data hwork hdir hlast => load_lastResort hbuiltin hrelative hwork hdir hlast⟩

/-- A template is found by its name in the directory of templates, and another name is not found. -/
theorem mine_loaded :
    let d : Disk := [(["tpl"], .directory),
      (["tpl", "mine.svg.gz"], .file (.bytes (Gzip.compress "<b/>".toUTF8)))]
    load d (Path.ofParts []) "mine" (some ⟨0, ["tpl"]⟩) = .ok ⟨"mine.svg.gz", "<b/>"⟩ ∧
      load d (Path.ofParts []) "yours" (some ⟨0, ["tpl"]⟩) =
        .error (.templateNotFound "yours" ["avery_18160", "entry_label"]) := by
  intro d
  have hbytes : ofBytes "mine.svg.gz" (Gzip.compress "<b/>".toUTF8) = .ok ⟨"mine.svg.gz", "<b/>"⟩ :=
    ofBytes_eq_ok.2 ⟨rfl, "<b/>".toUTF8, by decide +kernel, by decide +kernel, by decide +kernel⟩
  have hpaths : candidates (Path.ofText "mine") (some ⟨0, ["tpl"]⟩) =
      [⟨0, ["mine"]⟩, ⟨0, ["tpl", "mine"]⟩] ++ ⟨0, ["tpl", "mine.svg.gz"]⟩ :: [] := by
    decide +kernel
  have hbefore : ∀ b ∈ ([⟨0, ["mine"]⟩, ⟨0, ["tpl", "mine"]⟩] : List Path),
      d.file? (Path.ofParts []) b = .ok none := by
    rw [List.forall_mem_cons, List.forall_mem_singleton]
    exact ⟨rfl, rfl⟩
  have hmissing : ∀ q ∈ candidates (Path.ofText "yours") (some ⟨0, ["tpl"]⟩),
      d.file? (Path.ofParts []) q = .ok none := by
    rw [candidates_some (by decide +kernel), List.forall_mem_cons, List.forall_mem_cons,
      List.forall_mem_singleton]
    exact ⟨rfl, rfl, rfl⟩
  constructor
  · rw [(load_relative rfl (by decide +kernel)).1, ← hbytes]
    exact .file hpaths hbefore rfl
  · rw [(load_relative rfl (by decide +kernel)).1]
    exact .missing hmissing

/-- A source in a directory of its own is found beside that directory, though there is no file at
any of the paths that it names. -/
theorem deep_loads_top :
    let d : Disk := [(["tpl"], .directory),
      (["tpl", "deep.svg.gz"], .file (.bytes (Gzip.compress "<top/>".toUTF8)))]
    builtin.lookup "sub/deep" = none ∧ (Path.ofText "sub/deep").isAbsolute = false ∧
      (∀ q ∈ named "sub/deep" (some ⟨0, ["tpl"]⟩),
        d.file? (Path.ofParts []) q = .ok none) ∧
      load d (Path.ofParts []) "sub/deep" (some ⟨0, ["tpl"]⟩) =
        .ok ⟨"deep.svg.gz", "<top/>"⟩ := by
  intro d
  have hrelative : (Path.ofText "sub/deep").isAbsolute = false := by
    decide +kernel
  have hnone : ∀ q ∈ named "sub/deep" (some ⟨0, ["tpl"]⟩),
      d.file? (Path.ofParts []) q = .ok none := by
    rw [named, List.forall_mem_cons, List.forall_mem_cons, List.forall_mem_singleton]
    exact ⟨rfl, rfl, rfl⟩
  have hbytes : ofBytes "deep.svg.gz" (Gzip.compress "<top/>".toUTF8) =
      .ok ⟨"deep.svg.gz", "<top/>"⟩ :=
    ofBytes_eq_ok.2 ⟨rfl, "<top/>".toUTF8, by decide +kernel, by decide +kernel, by decide +kernel⟩
  refine ⟨rfl, hrelative, hnone, ?_⟩
  rw [load_lastResort rfl hrelative (hnone _ (by simp [named])) (hnone _ (by simp [named])) rfl,
    ← hbytes]
  rfl

end Template

end Inventory

import Inventory.Import.Creation
import Inventory.Proofs.Execution
import Inventory.Proofs.Fallible
import Mathlib.Data.List.Basic

/-!
# The lines that an import names

The rows of an import file are counted when the lines that hold nothing are already left out. So the
number that a row carries, and that a fault or a note gives, is the number of its line less the
number of such lines above it.
-/

namespace Inventory

/-- The file and the line of a fault that is about a row of an import file. -/
def Fault.importPlace? : Fault → Option (String × Nat)
  | .importCellCount file line _ _ | .importQuantity file line | .importNegative file line =>
    some (file, line)
  | _ => none

/-- Such a fault says where it arose. -/
theorem Fault.message_of_importPlace? {f : Fault} {file : String} {line : Nat}
    (h : f.importPlace? = some (file, line)) :
    ∃ what : String, f.message = s!"'{file}' line {line}: {what}" := by
  unfold importPlace? at h
  split at h
  case h_1 expected found =>
    cases h
    refine ⟨s!"expected {expected} cells, got {found}", ?_⟩
    show s!"'{file}' line {line}: expected {expected} cells, got {found}" = _
    simp only [String.append_assoc]
    rfl
  case h_2 =>
    cases h
    refine ⟨"quantity is not an integer", ?_⟩
    show s!"'{file}' line {line}: quantity is not an integer" = _
    simp only [String.append_assoc]
    rfl
  case h_3 =>
    cases h
    refine ⟨"quantity cannot be negative", ?_⟩
    show s!"'{file}' line {line}: quantity cannot be negative" = _
    simp only [String.append_assoc]
    rfl
  case h_4 => cases h

/-- The creation of the entry of a row. -/
def ImportRow.creation (category : String) (row : ImportRow) : Action Entry :=
  Store.create category (.text row.key) (.text row.location) (.int row.quantity)
    (row.fields.map fun (name, value) => (name, .text value))

namespace ImportBatch

variable {file text : String} {batch : ImportBatch} {columns : List String} {line : Nat} {f : Fault}

/-! ## The lines of a file -/

/-- The lines of a text in cells, each with its number from 1. -/
def numbered (text : String) : List (List String × Nat) :=
  ((Text.lines text.toList).map (cells [])).zipIdx 1

/-- The lines that hold something. -/
def filled (text : String) : List (List String × Nat) :=
  (numbered text).filter fun p => isRow p.1

/-- How many of the lines above line `n` hold nothing. -/
def blankAbove (text : String) (n : Nat) : Nat :=
  ((numbered text).take (n - 1)).countP fun p => !isRow p.1

/-- What stands in a numbered list has as its number how many stand in front of it. -/
theorem snd_of_zipIdx {α : Type} {all : List α} {start : Nat} {above below : List (α × Nat)}
    {p : α × Nat} (h : all.zipIdx start = above ++ p :: below) : p.2 = start + above.length := by
  have hget : (all.zipIdx start)[above.length]? = some p := by
    rw [h, List.getElem?_append_right (Nat.le_refl _), Nat.sub_self]
    rfl
  rw [List.getElem?_zipIdx, Option.map_eq_some_iff] at hget
  obtain ⟨_, _, rfl⟩ := hget
  rfl

/-- The lines above one that holds something are the ones that hold something and the others. -/
theorem count_of_filled {above below : List (List String × Nat)} {p : List String × Nat}
    (h : filled text = above ++ p :: below) : 1 + above.length + blankAbove text p.2 = p.2 := by
  obtain ⟨front, rest, hall, rfl, hrest⟩ := List.filter_eq_append_iff.1 h
  obtain ⟨blank, tail, rfl, hblank, -, -⟩ := List.filter_eq_cons_iff.1 hrest
  rw [← List.append_assoc] at hall
  have hnumber : p.2 = 1 + (front ++ blank).length := snd_of_zipIdx hall
  have hsplit := List.length_eq_length_filter_add (fun q : List String × Nat => isRow q.1)
    (l := front ++ blank)
  have hnone : blank.filter (fun q => isRow q.1) = [] :=
    List.filter_eq_nil_iff.2 hblank
  rw [List.filter_append, hnone, List.append_nil] at hsplit
  rw [blankAbove, hnumber, Nat.add_sub_cancel_left, hall, List.take_left,
    List.countP_eq_length_filter]
  omega

theorem count_of_mem {q : (List String × Nat) × Nat} (h : q ∈ (filled text).zipIdx 1) :
    q.2 + blankAbove text q.1.2 = q.1.2 := by
  obtain ⟨above, below, hall⟩ := List.append_of_mem h
  have hfilled := congrArg (List.map (·.1)) hall
  rw [List.zipIdx_map_fst, List.map_append, List.map_cons] at hfilled
  have hcount := count_of_filled hfilled
  rwa [List.length_map, ← snd_of_zipIdx hall] at hcount

/-! ## The rows of a file -/

/-- The names in the row of columns. -/
def columnsOf (row : List String) : List String :=
  row.map fun cell => Text.lower (clean cell)

theorem map_filled (text : String) :
    (filled text).map (·.1) = ((Text.lines text.toList).map (cells [])).filter isRow := by
  have hlines : (numbered text).map (·.1) = (Text.lines text.toList).map (cells []) :=
    List.zipIdx_map_fst _ _
  rw [← hlines, List.filter_map]
  rfl

theorem table_eq (text : String) : table text =
    if ((Text.lines text.toList).map (cells [])).any isTooLong then
      .error .cellTooLong
    else .ok ((filled text).map (·.1)) := by
  rw [map_filled]
  rfl

theorem readRows_eq_mapM (rows : List (List String)) (line : Nat) :
    readRows file columns line rows =
      (rows.zipIdx line).mapM fun q => readRow file columns q.2 q.1 := by
  induction rows generalizing line with
  | nil => rfl
  | cons row rest ih => rw [readRows, List.zipIdx_cons, List.mapM_cons, ih]

/-- The same for rows that come with the numbers of their lines. -/
theorem readRows_numbered (lines : List (List String × Nat)) (line : Nat) :
    readRows file columns line (lines.map (·.1)) =
      (lines.zipIdx line).mapM fun q => readRow file columns q.2 q.1.1 := by
  rw [readRows_eq_mapM, List.zipIdx_map, List.mapM_map]
  rfl

/-- The cells of a row under the names of their columns. -/
def cellValues (columns cells : List String) : Mapping String :=
  Mapping.ofPairs (columns.zip (cells.map Text.trim))

/-- The entry that values say, with its quantity. -/
def rowOf (line : Nat) (values : Mapping String) (quantity : Nat) : ImportRow where
  line := line
  key := clean ((values.get? "key").getD "")
  location := clean ((values.get? "location").getD "")
  quantity := quantity
  fields := values.filter fun (name, value) => !required.contains name && value != ""

theorem readRow_eq (cells : List String) : readRow file columns line cells =
    if cells.length ≠ columns.length then
      .error (.importCellCount file line columns.length cells.length)
    else match Numeral.read (((cellValues columns cells).get? "quantity").getD "") with
      | .error _ => .error (.importQuantity file line)
      | .ok n =>
        if n < 0 then .error (.importNegative file line)
        else .ok (rowOf line (cellValues columns cells) n.toNat) := by
  unfold readRow
  split
  · rfl
  · dsimp only
    rw [← cellValues]
    cases Numeral.read (((cellValues columns cells).get? "quantity").getD "") with
    | error e => rfl
    | ok n =>
        dsimp only
        split <;> rfl

theorem readRow_eq_ok_iff {cells : List String} {row : ImportRow} :
    readRow file columns line cells = .ok row ↔ cells.length = columns.length ∧
      ∃ n : Nat, Numeral.read (((cellValues columns cells).get? "quantity").getD "") = .ok ↑n ∧
        row = rowOf line (cellValues columns cells) n := by
  rw [readRow_eq, refuse_eq_ok_iff, not_not]
  refine and_congr_right fun _ => ?_
  cases Numeral.read (((cellValues columns cells).get? "quantity").getD "") with
  | error e => exact iff_of_false nofun fun ⟨_, h, _⟩ => nomatch h
  | ok n =>
      dsimp only
      rw [refuse_eq_ok_iff, Int.not_lt]
      constructor
      · rintro ⟨hn, ⟨⟩⟩
        exact ⟨n.toNat, by rw [Int.toNat_of_nonneg hn], rfl⟩
      · rintro ⟨m, ⟨⟩, rfl⟩
        exact ⟨Int.natCast_nonneg m, rfl⟩

theorem line_of_readRow {cells : List String} {row : ImportRow}
    (h : readRow file columns line cells = .ok row) : row.line = line := by
  obtain ⟨-, n, -, rfl⟩ := readRow_eq_ok_iff.1 h
  rfl

/-- A fault of a row names the line that the row was read as. -/
theorem importPlace?_of_readRow {cells : List String}
    (h : readRow file columns line cells = .error f) : f.importPlace? = some (file, line) := by
  rw [readRow_eq] at h
  split at h
  · cases h
    rfl
  · split at h
    · cases h
      rfl
    · split at h <;> cases h
      rfl

/-- The rows below those of the category and of the columns decide, if no column is missing. -/
theorem ofText_eq {first second : List String} {rows : List (List String)}
    (h : table text = .ok (first :: second :: rows)) : ofText file text =
      if (required.filter (!(columnsOf second).contains ·)).isEmpty then
        (readRows file (columnsOf second) 3 rows).map
          (⟨clean (first.headD ""), columnsOf second, ·⟩)
      else
        .error (.importColumnsMissing file (required.filter (!(columnsOf second).contains ·))) := by
  rw [ofText, h, ok_bind]
  dsimp only
  rw [← columnsOf]
  cases (required.filter (!(columnsOf second).contains ·)).isEmpty with
  | false => rfl
  | true => rfl

/-- Either the file is refused as a whole, or its rows decide. -/
theorem ofText_cases (file text : String) :
    (∃ f, ofText file text = .error f ∧ f.importPlace? = none) ∨
      ∃ first second rest, filled text = first :: second :: rest ∧
        ofText file text = (readRows file (columnsOf second.1) 3 (rest.map (·.1))).map
          (⟨clean (first.1.headD ""), columnsOf second.1, ·⟩) := by
  have htable := table_eq text
  split at htable
  · refine .inl ⟨.cellTooLong, ?_, rfl⟩
    rw [ofText, htable]
    rfl
  · rcases hfilled : filled text with _ | ⟨first, _ | ⟨second, rest⟩⟩ <;> rw [hfilled] at htable
    · refine .inl ⟨.importEmpty file, ?_, rfl⟩
      rw [ofText, htable]
      rfl
    · refine .inl ⟨.importNoColumns file, ?_, rfl⟩
      rw [ofText, htable]
      rfl
    · rw [ofText_eq htable]
      split
      · exact .inr ⟨first, second, rest, rfl, rfl⟩
      · exact .inl ⟨_, rfl, rfl⟩

theorem count_below {first second : List String × Nat} {rest : List (List String × Nat)}
    (hfilled : filled text = first :: second :: rest) :
    ∀ q ∈ rest.zipIdx 3, q.2 + blankAbove text q.1.2 = q.1.2 := by
  intro q hq
  apply count_of_mem
  rw [hfilled]
  exact List.mem_cons_of_mem _ (List.mem_cons_of_mem _ hq)

/-- The rows of entries, each read under its count. -/
theorem rows_of_ofText (h : ofText file text = .ok batch) :
    List.Forall₂ (fun p row => readRow file batch.columns row.line p.1 = .ok row ∧
      row.line + blankAbove text p.2 = p.2) ((filled text).drop 2) batch.rows := by
  rcases ofText_cases file text with ⟨f, hf, -⟩ | ⟨first, second, rest, hfilled, hrows⟩
  · cases hf.symm.trans h
  obtain ⟨rows, hread, rfl⟩ := map_eq_ok_iff.1 (hrows.symm.trans h)
  rw [readRows_numbered, mapM_eq_ok_iff] at hread
  have hboth := (List.forall₂_and_left _ _).2 ⟨count_below hfilled, hread⟩
  rw [hfilled]
  show List.Forall₂ _ rest rows
  rw [← List.zipIdx_map_fst 3 rest, List.forall₂_map_left_iff]
  refine hboth.imp fun q row hq => ?_
  obtain ⟨hcount, hrow⟩ := hq
  rw [line_of_readRow hrow]
  exact ⟨hrow, hcount⟩

/-- A fault about a row names the count of the line that the row stands on. -/
theorem place_of_ofText (h : ofText file text = .error f) {place : String × Nat}
    (hplace : f.importPlace? = some place) :
    place.1 = file ∧ ∃ columns, ∃ p ∈ (filled text).drop 2,
      readRow file columns place.2 p.1 = .error f ∧ place.2 + blankAbove text p.2 = p.2 := by
  rcases ofText_cases file text with ⟨g, hg, hnone⟩ | ⟨first, second, rest, hfilled, hrows⟩
  · cases hg.symm.trans h
    cases hnone.symm.trans hplace
  have hread := map_eq_error_iff.1 (hrows.symm.trans h)
  rw [readRows_numbered, mapM_eq_error_iff] at hread
  obtain ⟨before, q, after, hsplit, hq, -⟩ := hread
  have hmem : q ∈ rest.zipIdx 3 := by
    rw [hsplit]
    exact List.mem_append_right _ (List.mem_cons_self ..)
  cases (importPlace?_of_readRow hq).symm.trans hplace
  refine ⟨rfl, _, q.1, ?_, hq, count_below hfilled q hmem⟩
  rw [hfilled, ← List.zipIdx_map_fst 3 rest]
  exact List.mem_map_of_mem hmem

/-! ## The entries of a batch -/

/-- The fault of a row's creation as the import reports it. -/
def noted (row : ImportRow) (f : Fault) : Fault :=
  if f.kind.isOwn then .importing row.line row.key f else f

theorem exec_createRow (category : String) (row : ImportRow) (s : Session) :
    (createRow category row).exec s =
      (match ((row.creation category).exec s).1 with
        | .ok e => .ok e
        | .error f => .error (noted row f),
      ((row.creation category).exec s).2) := by
  show (tryCatch (row.creation category) _ : Action Entry).exec s = _
  rw [Action.exec_tryCatch]
  rcases (row.creation category).exec s with ⟨_ | _, t⟩ <;> rfl

theorem exec_createRows_cons (category : String) (row : ImportRow) (rest : List ImportRow)
    (s : Session) : (createRows category (row :: rest)).exec s =
      match (row.creation category).exec s with
      | (.ok e, t) =>
        (((createRows category rest).exec t).1.map (e :: ·), ((createRows category rest).exec t).2)
      | (.error f, t) => (.error (noted row f), t) := by
  rw [createRows, Action.exec_bind, exec_createRow]
  rcases (row.creation category).exec s with ⟨f | e, t⟩
  · rfl
  · dsimp only
    rw [Action.exec_bind]
    rcases (createRows category rest).exec t with ⟨_ | _, u⟩ <;> rfl

/-- An import ends at the first row that cannot be created, behind the entries of the rows before
it, and with what that row has left. -/
theorem createRows_error {category : String} {rows : List ImportRow} {s : Session}
    (h : ((createRows category rows).exec s).1 = .error f) :
    ∃ before row after created t g, rows = before ++ row :: after ∧
      (createRows category before).exec s = (.ok created, t) ∧
      (row.creation category).exec t = (.error g, ((createRows category rows).exec s).2) ∧
      f = noted row g := by
  induction rows generalizing s with
  | nil => cases h
  | cons row rest ih =>
      rw [exec_createRows_cons] at h ⊢
      rcases hrow : (row.creation category).exec s with ⟨g | e, t⟩
      · rw [hrow] at h
        cases h
        exact ⟨[], row, rest, [], s, g, rfl, rfl, hrow, rfl⟩
      · rw [hrow] at h
        obtain ⟨before, bad, after, created, u, g, rfl, hbefore, hbad, rfl⟩ :=
          ih (map_eq_error_iff.1 h)
        refine ⟨row :: before, bad, after, e :: created, u, g, rfl, ?_, hbad, rfl⟩
        rw [exec_createRows_cons, hrow]
        dsimp only
        rw [hbefore]
        rfl

/-! ## Files -/

/-- The bytes of a text spell it. -/
theorem decodeUtf8_toUTF8 (text : String) : Text.decodeUtf8 text.toUTF8 = .ok text := by
  have hread : String.fromUTF8? text.toUTF8 = some text := dif_pos text.isValidUTF8
  rw [Text.decodeUtf8, hread]

theorem ofBytes_of_text {bytes : ByteArray} (h : Text.decodeUtf8 bytes = .ok text) :
    ofBytes file bytes = ofText file text := by
  rw [ofBytes, h]

/-- The rows of a file are numbered without the lines that hold nothing: the number of a row, and
the one that a fault or a note gives, is the number of the line which the row was read from less the
number of such lines above it. -/
theorem numbers_leave_out_blank_lines (file : String) {bytes : ByteArray} {text : String}
    (hbytes : Text.decodeUtf8 bytes = .ok text) :
    (∀ batch, ofBytes file bytes = .ok batch →
      List.Forall₂ (fun p row => readRow file batch.columns row.line p.1 = .ok row ∧
        row.line + blankAbove text p.2 = p.2) ((filled text).drop 2) batch.rows ∧
      ∀ s f, (batch.create.exec s).1 = .error f →
        ∃ row ∈ batch.rows, ∃ t g, ((row.creation batch.category).exec t).1 = .error g ∧
          if g.kind.isOwn then
            f.notes = g.notes ++ [s!"while importing line {row.line} (key '{row.key}')"]
          else f = g) ∧
    ∀ f name line, ofBytes file bytes = .error f → f.importPlace? = some (name, line) →
      name = file ∧ (∃ what : String, f.message = s!"'{file}' line {line}: {what}") ∧
      ∃ columns, ∃ p ∈ (filled text).drop 2, readRow file columns line p.1 = .error f ∧
        line + blankAbove text p.2 = p.2 := by
  rw [ofBytes_of_text hbytes]
  refine ⟨fun batch hbatch => ⟨rows_of_ofText hbatch, fun s f hf => ?_⟩,
    fun f name line hf hplace => ?_⟩
  · obtain ⟨before, row, after, -, t, g, hrows, -, hg, rfl⟩ := createRows_error hf
    refine ⟨row, ?_, t, g, congrArg Prod.fst hg, ?_⟩
    · rw [hrows]
      exact List.mem_append_right _ (List.mem_cons_self ..)
    · unfold noted
      split <;> rfl
  · obtain ⟨rfl, hrow⟩ := place_of_ofText hf hplace
    exact ⟨rfl, Fault.message_of_importPlace? hplace, hrow⟩

/-- An empty line below the category. -/
def spaced (quantity : String) : String :=
  "tools\n\nkey\x1elocation\x1equantity\nhammer\x1eshed\x1e" ++ quantity ++ "\n"

theorem hammer_numbered :
    (∃ batch, ofBytes "parts.txt" (spaced "1").toUTF8 = .ok batch ∧
      List.Forall₂ (fun p row => row.line + blankAbove (spaced "1") p.2 = p.2)
        ((filled (spaced "1")).drop 2) batch.rows ∧
      ∃ f, (batch.create.exec (.fresh .empty "2024-01-01 00:00:00")).1 = .error f ∧
        ∃ row ∈ batch.rows, ∃ g : Fault,
          if g.kind.isOwn then
            f.notes = g.notes ++ [s!"while importing line {row.line} (key '{row.key}')"]
          else f = g) ∧
    ∃ f, ofBytes "parts.txt" (spaced "one").toUTF8 = .error f ∧
      (∃ what : String, f.message = s!"'parts.txt' line 3: {what}") ∧
      ∃ p ∈ (filled (spaced "one")).drop 2, 3 + blankAbove (spaced "one") p.2 = p.2 := by
  constructor
  · have hread : ∃ batch, ofText "parts.txt" (spaced "1") = .ok batch ∧
        (batch.create.exec (.fresh .empty "2024-01-01 00:00:00")).1.isOk = false := by
      decide +kernel
    obtain ⟨batch, hbatch, hfails⟩ := hread
    have hbytes := decodeUtf8_toUTF8 (spaced "1")
    rw [← ofBytes_of_text hbytes] at hbatch
    obtain ⟨hrows, hnotes⟩ :=
      (numbers_leave_out_blank_lines "parts.txt" hbytes).1 batch hbatch
    refine ⟨batch, hbatch, hrows.imp fun _ _ h => h.2, ?_⟩
    cases hcreate : (batch.create.exec (.fresh .empty "2024-01-01 00:00:00")).1 with
    | ok created =>
        rw [hcreate] at hfails
        cases hfails
    | error f =>
        obtain ⟨row, hrow, _, g, -, hnote⟩ := hnotes _ f hcreate
        exact ⟨f, rfl, row, hrow, g, hnote⟩
  · have hbytes := decodeUtf8_toUTF8 (spaced "one")
    have hplace : (match ofText "parts.txt" (spaced "one") with
        | .error f => f.importPlace?
        | .ok _ => none) = some ("parts.txt", 3) := by
      decide +kernel
    rw [← ofBytes_of_text hbytes] at hplace
    split at hplace
    case h_1 f hf =>
      obtain ⟨-, hsays, _, p, hp, -, hcount⟩ :=
        (numbers_leave_out_blank_lines "parts.txt" hbytes).2 f _ _ hf hplace
      exact ⟨f, hf, hsays, p, hp, hcount⟩
    case h_2 => cases hplace

/-- The hammer stands on line 4, its row says 3. -/
theorem empty_line_uncounted : ∃ batch, ofBytes "parts.txt" (spaced "1").toUTF8 = .ok batch ∧
    batch.rows.map (·.line) = [3] ∧
      (filled (spaced "1")).drop 2 = [(["hammer", "shed", "1"], 4)] := by
  rw [ofBytes_of_text (decodeUtf8_toUTF8 (spaced "1"))]
  decide +kernel

end ImportBatch
end Inventory

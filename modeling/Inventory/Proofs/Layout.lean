import Inventory.Proofs.ImportLines
import Inventory.Proofs.Mapping
import Inventory.Proofs.Writing

/-!
# The layout of import files

A sheet is what an import file holds: a category, the columns, and a row of cells for each entry.
Written out, with its cells joined by the separator and its lines by an ending, it is read back as
the batch that it says.
-/

namespace Inventory

open ImportBatch (separator required)

/-- The category, the columns and the cells of an import file. -/
structure Sheet where
  category : String
  columns : List String
  rows : List (List String)

namespace Sheet

/-- The lines of a sheet in cells. -/
def lines (t : Sheet) : List (List String) :=
  [t.category] :: t.columns :: t.rows

/-- The cells of a line, joined. -/
def joined (row : List String) : String :=
  (String.singleton separator).intercalate row

/-- The text of a sheet: `ending` stands between two lines and `last` behind all of them. -/
def write (t : Sheet) (ending last : String) : String :=
  ending.intercalate (t.lines.map joined) ++ last

/-- The names of the columns as they are read. -/
def names (t : Sheet) : List String :=
  t.columns.map Text.lower

/-- The cells of a row under the names of their columns. -/
def values (t : Sheet) (row : List String) : Mapping String :=
  t.names.zip row

/-- A cell that stands in a file as it is. -/
structure IsCell (cell : String) : Prop where
  separate : separator ∉ cell.toList
  unbroken : '\n' ∉ cell.toList ∧ '\r' ∉ cell.toList
  trimmed : Text.trim cell = cell
  fits : cell.length ≤ Fault.cellLimit

instance (cell : String) : Decidable (IsCell cell) :=
  decidable_of_iff (separator ∉ cell.toList ∧ ('\n' ∉ cell.toList ∧ '\r' ∉ cell.toList) ∧
      Text.trim cell = cell ∧ cell.length ≤ Fault.cellLimit)
    ⟨fun ⟨h₁, h₂, h₃, h₄⟩ => ⟨h₁, h₂, h₃, h₄⟩,
      fun h => ⟨h.separate, h.unbroken, h.trimmed, h.fits⟩⟩

/-- A cell without the character that is taken out of names, keys and locations. -/
def Unquoted (cell : String) : Prop :=
  '\'' ∉ cell.toList

instance (cell : String) : Decidable (Unquoted cell) :=
  inferInstanceAs (Decidable ('\'' ∉ cell.toList))

/-- The sheets that the layout of import files is made for. -/
structure Legal (t : Sheet) : Prop where
  written : ∀ row ∈ t.lines, ∀ cell ∈ row, IsCell cell
  category : t.category ≠ "" ∧ Unquoted t.category
  columns : ∀ column ∈ t.columns, Unquoted column
  distinct : t.names.Nodup
  complete : ∀ name ∈ required, name ∈ t.names
  width : ∀ row ∈ t.rows, row.length = t.columns.length
  keys : ∀ row ∈ t.rows, ∀ p ∈ t.values row, p.1 = "key" → p.2 ≠ "" ∧ Unquoted p.2
  locations : ∀ row ∈ t.rows, ∀ p ∈ t.values row, p.1 = "location" → Unquoted p.2
  quantities : ∀ row ∈ t.rows, ∃ n : Nat, n < 10 ^ Numeral.digitLimit ∧
    ("quantity", toString n) ∈ t.values row

/-- The entry `r` is what the cells of a row say. -/
structure Says (t : Sheet) (row : List String) (r : ImportRow) : Prop where
  key : ("key", r.key) ∈ t.values row
  location : ("location", r.location) ∈ t.values row
  quantity : ("quantity", toString r.quantity) ∈ t.values row
  fields : r.fields = (t.values row).filter fun (name, cell) => name ∉ required ∧ cell ≠ ""

end Sheet

/-! ## Lines -/

namespace Text

variable {cs rest line : List Char}

theorem linesFrom_append (h : ∀ c ∈ cs, c ≠ '\n' ∧ c ≠ '\r') :
    linesFrom line (cs ++ rest) = linesFrom (cs.reverse ++ line) rest := by
  induction cs generalizing line with
  | nil => rfl
  | cons c cs ih =>
      obtain ⟨⟨hfeed, hreturn⟩, hcs⟩ := List.forall_mem_cons.1 h
      have hstep : linesFrom line (c :: (cs ++ rest)) = linesFrom (c :: line) (cs ++ rest) := by
        rw [linesFrom.eq_3 _ _ _ fun _ hc _ => hreturn hc, if_neg (by simp [hfeed, hreturn])]
      rw [List.cons_append, hstep, ih hcs, List.reverse_cons, List.append_assoc]
      rfl

/-- The endings of lines. -/
def endings : List String :=
  ["\n", "\r\n"]

theorem linesFrom_ending {ending : String} (h : ending ∈ endings) :
    linesFrom line (ending.toList ++ rest) = line.reverse :: linesFrom [] rest := by
  simp only [endings, List.mem_cons, List.not_mem_nil, or_false] at h
  rcases h with rfl | rfl
  · show linesFrom line ('\n' :: rest) = _
    exact linesFrom.eq_3 _ _ _ fun _ hc _ => absurd hc (by decide)
  · rfl

/-- Lines that are joined by an ending are the lines of the text. -/
theorem lines_intercalate {ending : String} (h : ending ∈ endings) {first : List Char}
    {others : List (List Char)}
    (hplain : ∀ l ∈ first :: others, ∀ c ∈ l, c ≠ '\n' ∧ c ≠ '\r') :
    lines (ending.toList.intercalate (first :: others)) = first :: others := by
  induction others generalizing first with
  | nil =>
      have hfirst : linesFrom [] (first ++ []) = linesFrom (first.reverse ++ []) [] :=
        linesFrom_append (hplain first List.mem_cons_self)
      rw [List.append_nil, List.append_nil] at hfirst
      rw [List.intercalate_singleton, lines, hfirst, linesFrom, List.reverse_reverse]
  | cons second others ih =>
      obtain ⟨hfirst, hrest⟩ := List.forall_mem_cons.1 hplain
      rw [List.intercalate_cons_cons, List.append_assoc, lines, linesFrom_append hfirst,
        linesFrom_ending h, List.append_nil, List.reverse_reverse]
      exact congrArg (first :: ·) (ih hrest)

end Text

namespace ImportBatch

theorem cells_append {cell cs rest : List Char} (h : separator ∉ cs) :
    cells cell (cs ++ rest) = cells (cs.reverse ++ cell) rest := by
  induction cs generalizing cell with
  | nil => rfl
  | cons c cs ih =>
      obtain ⟨hc, hcs⟩ := not_or.1 (mt List.mem_cons.2 h)
      rw [List.cons_append, cells, if_neg (Ne.symm hc), ih hcs, List.reverse_cons,
        List.append_assoc]
      rfl

/-- Cells that are joined by the separator are the cells of the line. -/
theorem cells_joined {first : String} {others : List String}
    (h : ∀ cell ∈ first :: others, separator ∉ cell.toList) :
    cells [] (Sheet.joined (first :: others)).toList = first :: others := by
  rw [Sheet.joined, String.toList_intercalate]
  induction others generalizing first with
  | nil =>
      have hfirst : cells [] (first.toList ++ []) = cells (first.toList.reverse ++ []) [] :=
        cells_append (h first List.mem_cons_self)
      rw [List.append_nil, List.append_nil] at hfirst
      rw [List.map_singleton, List.intercalate_singleton, hfirst, cells, List.reverse_reverse,
        String.ofList_toList]
  | cons second others ih =>
      obtain ⟨hfirst, hrest⟩ := List.forall_mem_cons.1 h
      rw [List.map_cons, List.map_cons, List.intercalate_cons_cons, List.append_assoc,
        cells_append hfirst, List.append_nil, String.toList_singleton, List.singleton_append,
        cells, if_pos rfl, List.reverse_reverse, String.ofList_toList]
      exact congrArg (first :: ·) (ih hrest)

theorem isRow_of_mem {row : List String} {cell : String} (h : cell ∈ row)
    (htrimmed : Text.trim cell = cell) (hne : cell ≠ "") : isRow row := by
  refine List.any_eq_true.2 ⟨cell, h, ?_⟩
  rw [Bool.not_eq_true']
  refine Bool.eq_false_iff.2 fun hblank => hne ?_
  have hnone : cell.toList.dropWhile Text.isBlank = [] :=
    List.dropWhile_eq_nil_iff.2 (List.all_eq_true.1 hblank)
  rw [← htrimmed, Text.trim, Text.trimBy, hnone]
  rfl

theorem clean_eq {cell : String} (htrimmed : Text.trim cell = cell) (h : Sheet.Unquoted cell) :
    clean cell = cell := by
  have hall : cell.toList.filter (· != '\'') = cell.toList :=
    List.filter_eq_self.2 fun c hc => bne_iff_ne.2 fun heq => h (heq ▸ hc)
  rw [clean, htrimmed, hall, String.ofList_toList]

end ImportBatch

namespace Sheet

open ImportBatch

variable {t : Sheet} {ending last : String}

/-- The characters of a line are those of its cells and the separator. -/
theorem mem_joined {row : List String} {c : Char} (h : c ∈ (joined row).toList) :
    c = separator ∨ ∃ cell ∈ row, c ∈ cell.toList := by
  rw [joined, String.toList_intercalate] at h
  induction row with
  | nil => cases h
  | cons first others ih =>
      cases others with
      | nil =>
          rw [List.map_singleton, List.intercalate_singleton] at h
          exact .inr ⟨first, List.mem_singleton_self first, h⟩
      | cons second others =>
          rw [List.map_cons, List.map_cons, List.intercalate_cons_cons, List.append_assoc] at h
          rcases List.mem_append.1 h with h | h
          · exact .inr ⟨first, List.mem_cons_self, h⟩
          · rcases List.mem_append.1 h with h | h
            · rw [String.toList_singleton] at h
              exact .inl (List.mem_singleton.1 h)
            · exact (ih h).imp_right fun ⟨cell, hcell, hc⟩ =>
                ⟨cell, List.mem_cons_of_mem _ hcell, hc⟩

/-- Lines of cells are read back from the text in which they are joined. -/
theorem read_lines (hending : ending ∈ Text.endings) {first : List String}
    {others : List (List String)}
    (hcells : ∀ row ∈ first :: others, row ≠ [] ∧ ∀ cell ∈ row, IsCell cell) :
    (Text.lines (ending.intercalate ((first :: others).map joined)).toList).map (cells []) =
      first :: others := by
  have hplain : ∀ l ∈ ((first :: others).map joined).map String.toList, ∀ c ∈ l,
      c ≠ '\n' ∧ c ≠ '\r' := by
    intro l hl c hc
    obtain ⟨_, htext, rfl⟩ := List.mem_map.1 hl
    obtain ⟨row, hrow, rfl⟩ := List.mem_map.1 htext
    rcases mem_joined hc with rfl | ⟨cell, hcell, hc⟩
    · decide
    · obtain ⟨hfeed, hreturn⟩ := ((hcells row hrow).2 cell hcell).unbroken
      exact ⟨fun h => hfeed (h ▸ hc), fun h => hreturn (h ▸ hc)⟩
  have hread : ∀ row ∈ first :: others, cells [] (joined row).toList = row := by
    intro row hrow
    obtain ⟨hne, hall⟩ := hcells row hrow
    cases row with
    | nil => exact absurd rfl hne
    | cons cell rest =>
        exact cells_joined fun cell hcell => (hall cell hcell).separate
  rw [String.toList_intercalate]
  refine (congrArg (List.map (cells [])) (Text.lines_intercalate hending hplain)).trans ?_
  show (((first :: others).map joined).map String.toList).map (cells []) = _
  rw [List.map_map, List.map_map]
  exact (List.map_congr_left hread).trans (List.map_id _)

/-- An ending behind the last line makes an empty line. -/
theorem write_eq (t : Sheet) (hlast : last ∈ ["", ending]) : ∃ more ⊆ [[""]],
    t.write ending last = ending.intercalate ((t.lines ++ more).map joined) := by
  have hne : t.lines.map joined ≠ [] := List.cons_ne_nil _ _
  simp only [List.mem_cons, List.not_mem_nil, or_false] at hlast
  rcases hlast with rfl | rfl
  · exact ⟨[], List.nil_subset _, by rw [write, List.append_nil, String.append_empty]⟩
  · refine ⟨[[""]], fun _ h => h, ?_⟩
    have hempty : [[""]].map joined = [""] := by
      rw [List.map_singleton, joined, String.intercalate_singleton]
    rw [write, List.map_append, hempty,
      String.intercalate_append_of_ne_nil hne (List.cons_ne_nil _ _),
      String.intercalate_singleton, String.append_empty]

theorem isCell_empty : IsCell "" where
  separate := nofun
  unbroken := ⟨nofun, nofun⟩
  trimmed := rfl
  fits := Nat.zero_le _

namespace Legal

theorem names_values (h : t.Legal) {row : List String} (hrow : row ∈ t.rows) :
    (t.values row).names = t.names := by
  refine List.map_fst_zip ?_
  rw [names, List.length_map, h.width row hrow]

theorem exists_value (h : t.Legal) {row : List String} (hrow : row ∈ t.rows) {name : String}
    (hname : name ∈ t.names) : ∃ cell, (name, cell) ∈ t.values row := by
  rw [← h.names_values hrow] at hname
  obtain ⟨⟨_, cell⟩, hmem, rfl⟩ := List.mem_map.1 hname
  exact ⟨cell, hmem⟩

theorem nodup_values (h : t.Legal) {row : List String} (hrow : row ∈ t.rows) :
    (t.values row).names.Nodup := by
  rw [h.names_values hrow]
  exact h.distinct

theorem get?_values (h : t.Legal) {row : List String} (hrow : row ∈ t.rows) {name cell : String}
    (hcell : (name, cell) ∈ t.values row) : (t.values row).get? name = some cell :=
  Mapping.get?_of_mem (h.nodup_values hrow) hcell

theorem isCell (h : t.Legal) {row : List String} (hrow : row ∈ t.rows) {name cell : String}
    (hcell : (name, cell) ∈ t.values row) : IsCell cell :=
  h.written row (List.mem_cons_of_mem _ (List.mem_cons_of_mem _ hrow)) cell
    (List.of_mem_zip hcell).2

/-- Every line of a legal sheet holds something: the category, the name of the column of keys, or a
key. -/
theorem isRow_lines (h : t.Legal) : ∀ row ∈ t.lines, isRow row := by
  intro row hrow
  have hcells := h.written row hrow
  rcases List.mem_cons.1 hrow with rfl | hrow
  · have hmem := List.mem_singleton_self t.category
    exact isRow_of_mem hmem (hcells _ hmem).trimmed h.category.1
  rcases List.mem_cons.1 hrow with rfl | hrow
  · obtain ⟨column, hcolumn, hkey⟩ := List.mem_map.1 (h.complete "key" List.mem_cons_self)
    refine isRow_of_mem hcolumn (hcells _ hcolumn).trimmed ?_
    rintro rfl
    exact absurd hkey (by decide)
  · obtain ⟨key, hkey⟩ := h.exists_value hrow (h.complete "key" List.mem_cons_self)
    exact isRow_of_mem (List.of_mem_zip hkey).2 (h.isCell hrow hkey).trimmed
      (h.keys row hrow _ hkey rfl).1

/-- The table of a legal sheet's text is the sheet. -/
theorem table_write (h : t.Legal) (hending : ending ∈ Text.endings)
    (hlast : last ∈ ["", ending]) : table (t.write ending last) = .ok t.lines := by
  obtain ⟨more, hmore, hwrite⟩ := t.write_eq hlast
  have hcells : ∀ row ∈ t.lines ++ more, row ≠ [] ∧ ∀ cell ∈ row, IsCell cell := by
    intro row hrow
    rcases List.mem_append.1 hrow with hrow | hrow
    · refine ⟨?_, h.written row hrow⟩
      rintro rfl
      exact absurd (h.isRow_lines [] hrow) (by decide)
    · cases List.mem_singleton.1 (hmore hrow)
      exact ⟨List.cons_ne_nil _ _, fun cell hcell => List.mem_singleton.1 hcell ▸ isCell_empty⟩
  have hread : (Text.lines (t.write ending last).toList).map (cells []) = t.lines ++ more := by
    rw [hwrite]
    exact read_lines hending hcells
  have hfits : ¬(t.lines ++ more).any isTooLong := by
    intro hany
    obtain ⟨row, hrow, hlong⟩ := List.any_eq_true.1 hany
    obtain ⟨cell, hcell, hlong⟩ := List.any_eq_true.1 hlong
    exact absurd ((hcells row hrow).2 cell hcell).fits (Nat.not_le.2 (of_decide_eq_true hlong))
  have hmore : more.filter isRow = [] := by
    refine List.filter_eq_nil_iff.2 fun row hrow => ?_
    cases List.mem_singleton.1 (hmore hrow)
    decide
  rw [table, hread, if_neg hfits, List.filter_append, hmore, List.append_nil,
    List.filter_eq_self.2 h.isRow_lines]

theorem cellValues_eq (h : t.Legal) {row : List String} (hrow : row ∈ t.rows) :
    cellValues t.names row = t.values row := by
  have htrim : row.map Text.trim = row := by
    refine (List.map_congr_left fun cell hcell => ?_).trans (List.map_id row)
    exact (h.written row (List.mem_cons_of_mem _ (List.mem_cons_of_mem _ hrow)) cell hcell).trimmed
  rw [cellValues, htrim]
  exact Mapping.ofPairs_of_nodup (h.nodup_values hrow)

theorem columnsOf_eq (h : t.Legal) : columnsOf t.columns = t.names := by
  refine List.map_congr_left fun column hcolumn => congrArg Text.lower ?_
  exact clean_eq (h.written _ (List.mem_cons_of_mem _ List.mem_cons_self) column hcolumn).trimmed
    (h.columns column hcolumn)

theorem read_quantity {n : Nat} (h : n < 10 ^ Numeral.digitLimit) :
    Numeral.read (toString n) = .ok ↑n := by
  have hn : Numeral.isWritable n := by
    rw [Numeral.isWritable_iff, Int.natAbs_natCast]
    exact h
  have htext : toString n = toString (n : Int) := rfl
  rw [htext]
  exact Numeral.read_toString hn

/-- A row of a legal sheet is read as what it says. -/
theorem readRow_eq (h : t.Legal) {row : List String} (hrow : row ∈ t.rows) (file : String)
    (line : Nat) :
    ∃ r, readRow file t.names line row = .ok r ∧ r.line = line ∧ t.Says row r := by
  obtain ⟨key, hkey⟩ := h.exists_value hrow (h.complete "key" (by decide))
  obtain ⟨place, hplace⟩ := h.exists_value hrow (h.complete "location" (by decide))
  obtain ⟨n, hn, hquantity⟩ := h.quantities row hrow
  have hwidth : row.length = t.names.length := by
    rw [names, List.length_map, h.width row hrow]
  have hread : readRow file t.names line row = .ok (rowOf line (t.values row) n) := by
    rw [readRow_eq_ok_iff, h.cellValues_eq hrow, h.get?_values hrow hquantity]
    exact ⟨hwidth, n, read_quantity hn, rfl⟩
  have hkeyCell : (rowOf line (t.values row) n).key = key := by
    rw [rowOf, h.get?_values hrow hkey]
    exact clean_eq (h.isCell hrow hkey).trimmed (h.keys row hrow _ hkey rfl).2
  have hplaceCell : (rowOf line (t.values row) n).location = place := by
    rw [rowOf, h.get?_values hrow hplace]
    exact clean_eq (h.isCell hrow hplace).trimmed (h.locations row hrow _ hplace rfl)
  refine ⟨_, hread, rfl, ?_, ?_, hquantity, ?_⟩
  · rw [hkeyCell]
    exact hkey
  · rw [hplaceCell]
    exact hplace
  · refine List.filter_congr fun p _ => ?_
    rw [Bool.eq_iff_iff]
    simp

end Legal

/-- A legal sheet that is written out is read back. -/
theorem written_sheet_read_back {t : Sheet} (h : t.Legal) (file : String) {ending last : String}
    (hending : ending ∈ Text.endings) (hlast : last ∈ ["", ending]) :
    ∃ batch, ImportBatch.ofBytes file (t.write ending last).toUTF8 = .ok batch ∧
      batch.category = t.category ∧ batch.columns = t.names ∧
      List.Forall₂ (fun p r => r.line = p.2 ∧ t.Says p.1 r) (t.rows.zipIdx 3) batch.rows := by
  have hnone : (required.filter (!(columnsOf t.columns).contains ·)).isEmpty := by
    rw [h.columnsOf_eq, List.isEmpty_iff, List.filter_eq_nil_iff]
    intro name hname
    simpa using h.complete name hname
  have heach : ∀ p ∈ t.rows.zipIdx 3, ∃ r, readRow file t.names p.2 p.1 = .ok r ∧
      r.line = p.2 ∧ t.Says p.1 r :=
    fun p hp => h.readRow_eq (List.fst_mem_of_mem_zipIdx hp) file p.2
  obtain ⟨rows, hrows, hsay⟩ := exists_mapM_eq_ok heach
  have htable : table (t.write ending last) = .ok ([t.category] :: t.columns :: t.rows) :=
    h.table_write hending hlast
  rw [ofBytes_of_text (decodeUtf8_toUTF8 _), ofText_eq htable, if_pos hnone, h.columnsOf_eq,
    readRows_eq_mapM, hrows]
  refine ⟨_, rfl, ?_, rfl, hsay⟩
  have hmem := List.mem_singleton_self t.category
  exact clean_eq (h.written _ List.mem_cons_self _ hmem).trimmed h.category.2

/-- Two entries, with columns in an order and cases of their own. -/
def drawers : Sheet where
  category := "resistors"
  columns := ["Resistance", "KEY", "quantity", "Location", "note"]
  rows := [["220", "QkFTRTY0", "50", "Drawer 1", ""], ["", "b", "0", "", "it's 5 ±"]]

theorem drawers_legal : drawers.Legal where
  written := by decide +kernel
  category := by decide +kernel
  columns := by decide +kernel
  distinct := by decide +kernel
  complete := by decide +kernel
  width := by decide +kernel
  keys := by decide +kernel
  locations := by decide +kernel
  quantities := List.forall_mem_cons.2 ⟨⟨50, by decide +kernel, by decide +kernel⟩,
    List.forall_mem_cons.2 ⟨⟨0, by decide +kernel, by decide +kernel⟩, nofun⟩⟩

theorem drawers_read_back : drawers.Legal ∧ "\r\n" ∈ Text.endings ∧ "\r\n" ∈ ["", "\r\n"] ∧
    ∃ batch, ImportBatch.ofBytes "parts.txt" (drawers.write "\r\n" "\r\n").toUTF8 = .ok batch ∧
      batch.category = "resistors" ∧
      List.Forall₂ (fun p r => r.line = p.2 ∧ drawers.Says p.1 r) (drawers.rows.zipIdx 3)
        batch.rows := by
  have hending : "\r\n" ∈ Text.endings := by decide
  have hlast : "\r\n" ∈ ["", "\r\n"] := by decide
  obtain ⟨batch, hread, hcategory, -, hrows⟩ :=
    written_sheet_read_back drawers_legal "parts.txt" hending hlast
  exact ⟨drawers_legal, hending, hlast, batch, hread, hcategory, hrows⟩

end Sheet
end Inventory

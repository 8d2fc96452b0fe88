import Inventory.Proofs.Blank
import Inventory.Proofs.ImportLines
import Inventory.Proofs.Mapping

/-!
# The cells that a row keeps

The cells of a line stand in its row under the names of their columns. Names are compared without
white space, quotes and case. Where several columns come to one name, the last cell takes the place
of the others, and nothing says so.
-/

namespace Inventory

/-- The row holds what a cell says under the name of its column. -/
def ImportRow.Holds (row : ImportRow) (name cell : String) : Prop :=
  if name = "key" then row.key = ImportBatch.clean cell
  else if name = "location" then row.location = ImportBatch.clean cell
  else if name = "quantity" then Numeral.read (Text.trim cell) = .ok ↑row.quantity
  else row.fields.get? name = some (Text.trim cell)

namespace Mapping

variable {α β : Type} {m : Mapping α} {name : String} {a : α}

theorem get?_eq_some_iff (h : m.names.Nodup) : m.get? name = some a ↔ (name, a) ∈ m :=
  ⟨mem_of_get?, get?_of_mem h⟩

theorem get?_ofPairs (ps : List (String × α)) (name : String) :
    (ofPairs ps).get? name = last? ps name :=
  (get?_update ps name []).trans (Option.or_none ..)

theorem nodup_ofPairs (ps : List (String × α)) : (ofPairs ps).names.Nodup :=
  nodup_update ps [] List.nodup_nil

theorem last?_map (f : α → β) (m : Mapping α) (name : String) :
    last? (m.map fun p => (p.1, f p.2)) name = (m.last? name).map f := by
  induction m with
  | nil => rfl
  | cons p rest ih =>
      rw [List.map_cons, last?_cons, last?_cons, ih, Option.map_or]
      split <;> rfl

end Mapping

namespace ImportBatch

variable {file text : String} {batch : ImportBatch} {columns cells : List String}
  {name cell last : String} {row : ImportRow}

/-- Two cells come to the same under the name of a column. -/
def Agrees (name cell other : String) : Prop :=
  if name = "key" ∨ name = "location" then clean cell = clean other
  else if name = "quantity" then Numeral.read (Text.trim cell) = Numeral.read (Text.trim other)
  else Text.trim cell = Text.trim other

theorem Agrees.refl (name cell : String) : Agrees name cell cell := by
  unfold Agrees
  split
  · rfl
  · split <;> rfl

theorem clean_trim (cell : String) : clean (Text.trim cell) = clean cell := by
  rw [clean, clean, Text.trim_trim]

/-- Under a name stands the last one of its cells. -/
theorem get?_cellValues (h : Mapping.last? (columns.zip cells) name = some last) :
    (cellValues columns cells).get? name = some (Text.trim last) := by
  have hmap := Mapping.last?_map Text.trim (columns.zip cells) name
  rw [h] at hmap
  rw [cellValues, Mapping.get?_ofPairs, List.zip_map_right]
  exact hmap

/-- A field has the value that stands under its name, unless that is empty. -/
theorem get?_fields {value : String} {line n : Nat} (hname : name ∉ required) (hvalue : value ≠ "") :
    (rowOf line (cellValues columns cells) n).fields.get? name = some value ↔
      (cellValues columns cells).get? name = some value := by
  have hnodup : (cellValues columns cells).names.Nodup := Mapping.nodup_ofPairs _
  rw [rowOf, Mapping.get?_eq_some_iff (Mapping.nodup_filter _ hnodup),
    Mapping.get?_eq_some_iff hnodup, List.mem_filter, and_iff_left]
  simpa using ⟨hname, hvalue⟩

/-- A row holds a cell if the last one under the same name comes to the same. -/
theorem holds_iff (hread : readRow file columns row.line cells = .ok row)
    (hlast : Mapping.last? (columns.zip cells) name = some last) (hcell : Text.trim cell ≠ "") :
    row.Holds name cell ↔ Agrees name cell last := by
  obtain ⟨-, n, hn, hrow⟩ := readRow_eq_ok_iff.1 hread
  have hvalue := get?_cellValues hlast
  rw [ImportRow.Holds, Agrees, hrow]
  -- a key and a location are cleaned, a quantity is read, and any other cell is kept as it is
  by_cases hkey : name = "key"
  · subst hkey
    rw [if_pos rfl, if_pos (.inl rfl), rowOf, hvalue, Option.getD_some, clean_trim]
    exact eq_comm
  by_cases hlocation : name = "location"
  · subst hlocation
    rw [if_neg hkey, if_pos rfl, if_pos (.inr rfl), rowOf, hvalue, Option.getD_some, clean_trim]
    exact eq_comm
  rw [if_neg hkey, if_neg hlocation, if_neg (not_or.2 ⟨hkey, hlocation⟩)]
  by_cases hquantity : name = "quantity"
  · subst hquantity
    rw [hvalue, Option.getD_some] at hn
    rw [if_pos rfl, if_pos rfl, rowOf, hn]
  · rw [if_neg hquantity, if_neg hquantity, get?_fields (by simp [required, *]) hcell, hvalue,
      Option.some.injEq]
    exact eq_comm

/-- Where the columns have different names, each cell is the last one under its name. -/
theorem last?_of_mem_zip (hcolumns : columns.Nodup) (hlength : cells.length = columns.length)
    (hmem : (name, cell) ∈ columns.zip cells) :
    Mapping.last? (columns.zip cells) name = some cell := by
  have hnodup : (Mapping.names (columns.zip cells)).Nodup := by
    rwa [Mapping.names, List.map_fst_zip (Nat.le_of_eq hlength.symm)]
  rw [Mapping.last?_of_nodup hnodup, Mapping.get?_of_mem hnodup hmem]

theorem exists_text_of_ofBytes {bytes : ByteArray} (h : ofBytes file bytes = .ok batch) :
    ∃ text, Text.decodeUtf8 bytes = .ok text ∧ ofText file text = .ok batch := by
  cases hdecode : Text.decodeUtf8 bytes with
  | ok text => exact ⟨text, rfl, (ofBytes_of_text hdecode).symm.trans h⟩
  | error f =>
      rw [ofBytes, hdecode] at h
      dsimp only at h
      split at h <;> cases h

/-- A text that is read has a line of columns. -/
theorem columns_of_ofText (h : ofText file text = .ok batch) :
    ∃ first second rest, filled text = first :: second :: rest ∧
      batch.columns = columnsOf second.1 := by
  rcases ofText_cases file text with ⟨f, hf, -⟩ | ⟨first, second, rest, hfilled, hrows⟩
  · cases hf.symm.trans h
  · obtain ⟨rows, -, rfl⟩ := map_eq_ok_iff.1 (hrows.symm.trans h)
    exact ⟨first, second, rest, hfilled, rfl⟩

/-- Of cells whose columns come to one name, a row holds the last one, and the others just where they
come to the same. So nothing is lost where the columns have different names. -/
theorem last_cells_kept (file : String) {bytes : ByteArray} {batch : ImportBatch}
    (h : ofBytes file bytes = .ok batch) :
    ∃ text first second rest, Text.decodeUtf8 bytes = .ok text ∧
      filled text = first :: second :: rest ∧ batch.columns = columnsOf second.1 ∧
      List.Forall₂ (fun line row => line.1.length = batch.columns.length ∧
        (∀ name cell last, Mapping.last? (batch.columns.zip line.1) name = some last →
          (name, cell) ∈ batch.columns.zip line.1 → Text.trim cell ≠ "" →
          (row.Holds name cell ↔ Agrees name cell last)) ∧
        (batch.columns.Nodup → ∀ name cell, (name, cell) ∈ batch.columns.zip line.1 →
          Text.trim cell ≠ "" → row.Holds name cell)) rest batch.rows := by
  obtain ⟨text, hdecode, htext⟩ := exists_text_of_ofBytes h
  obtain ⟨first, second, rest, hfilled, hcolumns⟩ := columns_of_ofText htext
  have hrows := rows_of_ofText htext
  rw [hfilled] at hrows
  refine ⟨text, first, second, rest, hdecode, hfilled, hcolumns, hrows.imp fun line row hrow => ?_⟩
  obtain ⟨hread, -⟩ := hrow
  have hlength := (readRow_eq_ok_iff.1 hread).1
  refine ⟨hlength, fun name cell last hlast _ hcell => holds_iff hread hlast hcell,
    fun hnodup name cell hmem hcell => ?_⟩
  rw [holds_iff hread (last?_of_mem_zip hnodup hlength hmem) hcell]
  exact .refl name cell

/-- Two columns whose names differ in case only. -/
def twoSizes : String :=
  "tools\nkey\x1elocation\x1equantity\x1esize\x1eSize\nhammer\x1eshed\x1e1\x1ebig\x1esmall\n"

theorem twoSizes_read :
    ∃ batch, ofText "parts.txt" twoSizes = .ok batch ∧
      batch.columns = ["key", "location", "quantity", "size", "size"] ∧
      batch.rows.map (·.fields) = [[("size", "small")]] := by
  decide +kernel

theorem twoSizes_filled :
    (filled twoSizes).drop 2 = [(["hammer", "shed", "1", "big", "small"], 3)] := by
  decide +kernel

/-- The cell of the last column is kept. -/
theorem small_hammer_kept :
    ∃ batch, ofBytes "parts.txt" twoSizes.toUTF8 = .ok batch ∧
      ∃ row, batch.rows = [row] ∧ row.Holds "size" "small" ∧
        (row.Holds "size" "big" ↔ Agrees "size" "big" "small") := by
  obtain ⟨batch, hbatch, hcolumns, -⟩ := twoSizes_read
  have hbytes := (ofBytes_of_text (decodeUtf8_toUTF8 twoSizes)).trans hbatch
  refine ⟨batch, hbytes, ?_⟩
  obtain ⟨text, first, second, rest, hdecode, hfilled, -, hrows⟩ := last_cells_kept "parts.txt" hbytes
  cases (decodeUtf8_toUTF8 twoSizes).symm.trans hdecode
  have hrest : rest = [(["hammer", "shed", "1", "big", "small"], 3)] := by
    rw [← twoSizes_filled, hfilled]
    rfl
  subst hrest
  obtain ⟨row, more, ⟨-, hlast, -⟩, hmore, hrow⟩ := List.forall₂_cons_left_iff.1 hrows
  cases hmore
  have hsmall := hlast "size" "small" "small" (by rw [hcolumns]; decide +kernel)
  have hbig := hlast "size" "big" "small" (by rw [hcolumns]; decide +kernel)
  rw [hcolumns] at hsmall hbig
  exact ⟨row, hrow, (hsmall (by decide) (by decide +kernel)).2 (.refl _ _),
    hbig (by decide) (by decide +kernel)⟩

/-- The cell of the other one is lost. -/
theorem big_hammer_lost :
    ¬∀ (bytes : ByteArray) (batch : ImportBatch), ofBytes "parts.txt" bytes = .ok batch →
      ∃ text, Text.decodeUtf8 bytes = .ok text ∧
        List.Forall₂ (fun line row => ∀ name cell, (name, cell) ∈ batch.columns.zip line.1 →
          Text.trim cell ≠ "" → row.Holds name cell) ((filled text).drop 2) batch.rows := by
  intro h
  obtain ⟨batch, hbatch, hcolumns, hfields⟩ := twoSizes_read
  obtain ⟨text, hdecode, hrows⟩ :=
    h _ batch ((ofBytes_of_text (decodeUtf8_toUTF8 twoSizes)).trans hbatch)
  cases (decodeUtf8_toUTF8 twoSizes).symm.trans hdecode
  obtain ⟨row, hrow, hfields⟩ := List.map_eq_singleton_iff.1 hfields
  rw [twoSizes_filled, hrow, hcolumns] at hrows
  obtain ⟨hholds, -⟩ := List.forall₂_cons.1 hrows
  have hbig : row.fields.get? "size" = some (Text.trim "big") :=
    hholds "size" "big" (by decide) (by decide +kernel)
  rw [hfields] at hbig
  exact absurd hbig (by decide +kernel)

end ImportBatch
end Inventory

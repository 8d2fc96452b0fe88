import Inventory.Proofs.Batches
import Inventory.Proofs.Columns
import Inventory.Proofs.Layout
import Inventory.Proofs.Rejection

/-!
# Imports for whose end there is no message

A fault that is not one of the inventory's own kinds is not shown as a message. An import comes to
such a fault in two ways only. A cell can be longer than the reader of the file allows, and a text
for an integer can have more digits than are read; every other thing that can be wrong with a file or
with a row has its message.
-/

namespace Inventory

variable {α β : Type}

/-! ## Faults that are not the inventory's own -/

/-- The result is a fault of a number, a file or the system, and not of the inventory. -/
def Foreign (r : Except Fault α) : Prop :=
  ∃ f, r = .error f ∧ f.kind.isOwn = false

@[simp] theorem not_foreign_ok (x : α) : ¬Foreign (.ok x : Except Fault α) :=
  not_failsAs_ok x

theorem foreign_error_iff (f : Fault) :
    Foreign (.error f : Except Fault α) ↔ f.kind.isOwn = false :=
  failsAs_error_iff f

theorem not_foreign_error {f : Fault} (hf : f.kind.isOwn) : ¬Foreign (.error f : Except Fault α) := by
  simp [foreign_error_iff, hf]

theorem foreign_bind (r : Except Fault α) (k : α → Except Fault β) :
    Foreign (r >>= k) ↔ Foreign r ∨ ∃ x, r = .ok x ∧ Foreign (k x) :=
  failsAs_bind r k

@[simp] theorem foreign_map (r : Except Fault α) (g : α → β) : Foreign (r.map g) ↔ Foreign r :=
  failsAs_map r g

/-- A mismatch of types is one of the inventory's own faults. -/
theorem Foreign.escapes {r : Except Fault α} (h : Foreign r) : Escapes r := by
  obtain ⟨f, hf, hkind⟩ := h
  refine ⟨f, hf, fun htype => ?_⟩
  rw [htype] at hkind
  cases hkind

@[simp] theorem foreign_nameField (field : String) (r : Except Fault Value) :
    Foreign (Constraint.nameField field r) ↔ Foreign r := by
  refine FieldType.failsAs_nameField (fun f hkind => ?_) field r
  rw [hkind]
  exact nofun

/-- A check that finds faults of the inventory's own kinds only. -/
theorem Finds.not_foreign {kinds : List FaultKind} {r : Except Fault α} (h : Finds kinds r)
    (hkinds : ∀ k ∈ kinds, k.isOwn) : ¬Foreign r := by
  intro ⟨f, hf, hkind⟩
  rw [hkinds f.kind (h f hf).1] at hkind
  cases hkind

/-! ## Checks of rows -/

theorem foreign_parse (t : FieldType) (raw : String) :
    Foreign (t.parse raw) ↔ t.TooLarge (.text raw) := by
  constructor
  · exact fun h => (t.escapes_parse raw).1 h.escapes
  · intro ⟨ht, htext, hlong⟩
    subst ht
    -- the empty text is null for every type, and it has no digits
    have hraw : raw ≠ "" := by
      intro hempty
      rw [hempty] at htext
      exact absurd htext (by decide)
    rw [FieldType.parse, if_neg hraw]
    simp only [foreign_map, FieldType.parseInteger, htext, Numeral.read_of_long htext hlong]
    exact (foreign_error_iff _).2 rfl

/-- A quantity that can be shown is refused with a message. -/
theorem Store.not_foreign_checkQuantity {n : Int} (h : Numeral.isWritable n) :
    ¬Foreign (checkQuantity (.int n)) := by
  have hrange : ¬Foreign (checkRange n) := fun hforeign =>
    (FieldType.escapes_checkRange n).1 hforeign.escapes h
  rw [checkQuantity, foreign_bind, or_iff_right hrange]
  rintro ⟨m, -, hforeign⟩
  split at hforeign
  · exact not_foreign_error rfl hforeign
  · exact not_foreign_ok m hforeign

namespace Category

variable {c : Category} {fields : Mapping String}

/-- The first of the texts that its field does not take has too many digits for an integer. -/
def Overflows (c : Category) (fields : Mapping String) : Prop :=
  ∃ before name text after f, fields = before ++ (name, text) :: after ∧ c.field? name = some f ∧
    f.type.TooLarge (.text text) ∧
    ∀ p ∈ before, ∃ g v, c.field? p.1 = some g ∧ g.type.parse p.2 = .ok v

theorem not_overflows_nil : ¬c.Overflows [] := by
  intro ⟨before, name, text, after, f, heq, _⟩
  exact absurd heq.symm (List.append_ne_nil_of_right_ne_nil _ (List.cons_ne_nil _ _))

theorem overflows_cons_iff {name text : String} :
    c.Overflows ((name, text) :: fields) ↔ ∃ f, c.field? name = some f ∧
      (f.type.TooLarge (.text text) ∨ (∃ v, f.type.parse text = .ok v) ∧ c.Overflows fields) := by
  constructor
  · intro ⟨before, name', text', after, f, heq, hf, hlarge, hbefore⟩
    cases before with
    | nil =>
        cases heq
        exact ⟨f, hf, .inl hlarge⟩
    | cons p before =>
        cases heq
        obtain ⟨⟨g, v, hg, hv⟩, hrest⟩ := List.forall_mem_cons.1 hbefore
        exact ⟨g, hg, .inr ⟨⟨v, hv⟩, before, name', text', after, f, rfl, hf, hlarge, hrest⟩⟩
  · intro ⟨g, hg, h⟩
    rcases h with hlarge | ⟨⟨v, hv⟩, before, name', text', after, f, rfl, hf, hlarge, hbefore⟩
    · exact ⟨[], name, text, fields, g, rfl, hg, hlarge, nofun⟩
    · exact ⟨(name, text) :: before, name', text', after, f, rfl, hf, hlarge,
        List.forall_mem_cons.2 ⟨⟨g, v, hg, hv⟩, hbefore⟩⟩

theorem foreign_coerceUpdates (fields : Mapping String) : ∀ done,
    Foreign (Store.coerceUpdates c done (fields.map fun (name, text) => (name, .text text))) ↔
      c.Overflows fields := by
  induction fields with
  | nil => exact fun done => iff_of_false (not_foreign_ok done) not_overflows_nil
  | cons item rest ih =>
      obtain ⟨name, text⟩ := item
      intro done
      rw [overflows_cons_iff, List.map_cons, Store.coerceUpdates]
      cases hf : c.field? name with
      | none => exact iff_of_false (not_foreign_error rfl) (by simp)
      | some f =>
          simp only [foreign_bind, foreign_nameField, FieldType.nameField_eq_ok_iff, ih,
            FieldType.coerce, foreign_parse, exists_and_right, Option.some.injEq, exists_eq_left']

end Category

/-! ## Rows -/

namespace ImportRow

variable {category now : String} {cs : List Category} {db other : Database} {row : ImportRow}
  {s : Session} {v : View}

/-- The row's category is there and its key, location and quantity are taken, but of its fields the
first one that is not taken has too many digits for an integer. -/
def Overflows (category : String) (db : Database) (row : ImportRow) : Prop :=
  ∃ c, Tables.resolve category db = .ok c ∧ (∃ key, Store.checkKey (.text row.key) = .ok key) ∧
    (∃ location, Store.checkLocation (.text row.location) = .ok location) ∧
    (∃ n, Store.checkQuantity (.int row.quantity) = .ok n) ∧ c.Overflows row.fields

theorem overflows_congr (h : other.categories = db.categories) :
    row.Overflows category other ↔ row.Overflows category db := by
  rw [Overflows, Overflows, Tables.resolve, Tables.resolve, Tables.categories, Tables.categories, h]

theorem foreign_draft (h : Sound cs db) (hquantity : Numeral.isWritable row.quantity) :
    Foreign (row.draft category now db) ↔ row.Overflows category db := by
  have hresolve : ¬Foreign (Tables.resolve category db) :=
    (h.finds_resolve category).not_foreign (by decide)
  have hkey : ¬Foreign (Store.checkKey (.text row.key)) :=
    (Store.finds_checkKey _).not_foreign (by decide)
  have hlocation : ¬Foreign (Store.checkLocation (.text row.location)) :=
    (Store.finds_checkLocation _).not_foreign (by decide)
  simp [draft, Tables.draft, foreign_bind, hresolve, hkey, hlocation,
    Store.not_foreign_checkQuantity hquantity, Category.foreign_coerceUpdates, Overflows, pure,
    Except.pure]

/-- That a key is taken has its message. -/
theorem foreign_creation (h : s.Sees v) (hquantity : Numeral.isWritable row.quantity) :
    Foreign ((row.creation category).exec s).1 ↔ row.Overflows category s.db := by
  rw [creation, h.result_create, ← draft, foreign_bind, foreign_draft h.shows.sound hquantity,
    or_iff_left]
  rintro ⟨r, -, hforeign⟩
  split at hforeign
  · exact not_foreign_error rfl hforeign
  · exact not_foreign_ok _ hforeign

end ImportRow

namespace ImportBatch

variable {category file text : String} {s t : Session} {v : View} {batch : ImportBatch}
  {before rest : List ImportRow} {created : List Entry} {bytes : ByteArray} {f : Fault}

/-- Behind rows that are created stands one that overflows. -/
def Overflows (batch : ImportBatch) (s : Session) : Prop :=
  ∃ before row after created, batch.rows = before ++ row :: after ∧
    ((createRows batch.category before).exec s).1 = .ok created ∧ row.Overflows batch.category s.db

theorem exec_createRows_append (h : (createRows category before).exec s = (.ok created, t)) :
    ((createRows category (before ++ rest)).exec s).1 =
      ((createRows category rest).exec t).1.map (created ++ ·) := by
  induction before generalizing s created with
  | nil =>
      cases h
      exact (map_id _).symm
  | cons row before ih =>
      rw [exec_createRows_cons] at h
      rw [List.cons_append, exec_createRows_cons]
      rcases hrow : (row.creation category).exec s with ⟨f | e, u⟩ <;> rw [hrow] at h
      · cases h
      · obtain ⟨hcreated, hu⟩ := Prod.mk.inj h
        obtain ⟨others, hothers, rfl⟩ := map_eq_ok_iff.1 hcreated
        show ((createRows category (before ++ rest)).exec u).1.map (e :: ·) = _
        rw [ih (Prod.ext hothers hu), map_map]
        rfl

/-- Of the faults of the rows, only those of texts with too many digits are not the inventory's
own. -/
theorem foreign_create (h : s.Sees v) (hrows : ∀ row ∈ batch.rows, Numeral.isWritable row.quantity) :
    Foreign (batch.create.exec s).1 ↔ batch.Overflows s := by
  constructor
  · intro ⟨f, hf, hkind⟩
    obtain ⟨before, row, after, created, t, g, heq, hbefore, hrow, rfl⟩ := createRows_error hf
    refine ⟨before, row, after, created, heq, congrArg Prod.fst hbefore, ?_⟩
    -- a fault that has a note is one of the inventory's own
    have hown : g.kind.isOwn = false := by
      unfold noted at hkind
      split at hkind
      · exact hkind
      · next hforeign => simpa using hforeign
    obtain ⟨drafts, hdrafts⟩ := exists_drafts h (congrArg Prod.fst hbefore)
    obtain ⟨u, hexec, hu, hdb⟩ := exec_createRows hdrafts h
    cases hbefore.symm.trans hexec
    have hquantity := hrows row (by simp [heq])
    have hoverflows := (ImportRow.foreign_creation hu hquantity).1
      ⟨g, congrArg Prod.fst hrow, hown⟩
    -- the rows before it have left the categories alone
    rw [hdb] at hoverflows
    exact (ImportRow.overflows_congr rfl).1 hoverflows
  · intro ⟨before, row, after, created, heq, hbefore, hoverflows⟩
    obtain ⟨drafts, hdrafts⟩ := exists_drafts h hbefore
    obtain ⟨u, hexec, hu, hdb⟩ := exec_createRows hdrafts h
    have hquantity := hrows row (by simp [heq])
    have hlater : row.Overflows batch.category u.db := by
      rw [hdb]
      exact (ImportRow.overflows_congr rfl).2 hoverflows
    obtain ⟨g, hg, hkind⟩ := (ImportRow.foreign_creation hu hquantity).2 hlater
    rw [create, heq, exec_createRows_append hexec, foreign_map, exec_createRows_cons]
    rcases hrow : (row.creation batch.category).exec u with ⟨f | e, w⟩
    · rw [hrow] at hg
      cases hg
      exact (foreign_error_iff _).2 (by rw [noted, hkind]; exact hkind)
    · rw [hrow] at hg
      cases hg

/-! ## Files -/

/-- The lines of a file that are read: all of them, or those before the fault in its bytes shows. -/
def readable (bytes : ByteArray) : List (List Char) :=
  match Text.decodeUtf8 bytes with
  | .ok text => Text.lines text.toList
  | .error f => linesBefore bytes f

/-- A line that is read has a cell that is longer than cells may be. -/
def HasLongCell (bytes : ByteArray) : Prop :=
  ∃ line ∈ readable bytes, isTooLong (cells [] line)

theorem kind_of_importPlace? {place : String × Nat} (h : f.importPlace? = some place) :
    f.kind = .importFormat := by
  unfold Fault.importPlace? at h
  split at h
  · rfl
  · rfl
  · rfl
  · cases h

/-- A text without long cells is refused for its form only. -/
theorem kind_of_ofText (hshort : ∀ line ∈ Text.lines text.toList, ¬isTooLong (cells [] line))
    (h : ofText file text = .error f) : f.kind = .importFormat := by
  have htable := table_eq text
  rw [if_neg (by simpa using hshort)] at htable
  rcases hfilled : (filled text).map (·.1) with _ | ⟨first, _ | ⟨second, rest⟩⟩ <;>
    rw [hfilled] at htable
  · rw [ofText, htable] at h
    cases h
    rfl
  · rw [ofText, htable] at h
    cases h
    rfl
  · rw [ofText_eq htable] at h
    split at h
    · have hrows := map_eq_error_iff.1 h
      rw [readRows_eq_mapM, mapM_eq_error_iff] at hrows
      obtain ⟨_, q, _, _, hq, _⟩ := hrows
      exact kind_of_importPlace? (importPlace?_of_readRow hq)
    · cases h
      rfl

theorem ofText_of_long (hlong : ∃ line ∈ Text.lines text.toList, isTooLong (cells [] line)) :
    ofText file text = .error .cellTooLong := by
  rw [ofText, table_eq, if_pos (by simpa using hlong)]
  rfl

/-- A file is refused for its form or its encoding, or else it has a line with a cell that is too
long. -/
theorem ofBytes_eq_error (h : ofBytes file bytes = .error f) :
    f.kind ∈ [.importFormat, .notUtf8] ∧ ¬HasLongCell bytes ∨
      f = .cellTooLong ∧ HasLongCell bytes := by
  rw [ofBytes] at h
  rw [HasLongCell, readable]
  cases hdecode : Text.decodeUtf8 bytes with
  | ok text =>
      rw [hdecode] at h
      dsimp only at h ⊢
      by_cases hlong : ∃ line ∈ Text.lines text.toList, isTooLong (cells [] line)
      · rw [ofText_of_long hlong] at h
        exact .inr ⟨(Except.error.inj h).symm, hlong⟩
      · have hshort : ∀ line ∈ Text.lines text.toList, ¬isTooLong (cells [] line) := by
          simpa using hlong
        exact .inl ⟨by simp [kind_of_ofText hshort h], hlong⟩
  | error g =>
      rw [hdecode] at h
      dsimp only at h
      split at h
      · next hlong =>
          cases h
          exact .inr ⟨rfl, by simpa using hlong⟩
      · next hshort =>
          cases h
          exact .inl ⟨by simp [Fault.kind], by simpa using hshort⟩

/-- A line with a cell that is too long ends the reading of a file. -/
theorem ofBytes_of_long (hlong : HasLongCell bytes) :
    ofBytes file bytes = .error .cellTooLong := by
  rw [HasLongCell, readable] at hlong
  rw [ofBytes]
  cases hdecode : Text.decodeUtf8 bytes with
  | ok text =>
      rw [hdecode] at hlong
      exact ofText_of_long hlong
  | error g =>
      rw [hdecode] at hlong
      exact if_pos (by simpa using hlong)

/-- Of the faults of a file, only that of a long cell is of none of the kinds with a message. -/
theorem hasLongCell_iff :
    (∃ f, ofBytes file bytes = .error f ∧ f.kind ∉ [.importFormat, .notUtf8]) ↔
      HasLongCell bytes := by
  constructor
  · intro ⟨f, hf, hkind⟩
    rcases ofBytes_eq_error hf with ⟨hmem, -⟩ | ⟨-, hlong⟩
    · exact absurd hmem hkind
    · exact hlong
  · exact fun hlong => ⟨_, ofBytes_of_long hlong, by decide⟩

/-- A long text on a line of its own is such a cell. -/
theorem hasLongCell_of_lt {cell : String} (hline : ∀ c ∈ cell.toList, c ≠ '\n' ∧ c ≠ '\r')
    (hcell : separator ∉ cell.toList) (hlong : Fault.cellLimit < cell.length) :
    HasLongCell cell.toUTF8 := by
  have hlines : readable cell.toUTF8 = [cell.toList] := by
    rw [readable, decodeUtf8_toUTF8]
    show Text.linesFrom [] cell.toList = _
    rw [← List.append_nil cell.toList, Text.linesFrom_append hline]
    simp [Text.linesFrom]
  have hcells : cells [] cell.toList = [cell] := by
    rw [← List.append_nil cell.toList, cells_append hcell]
    simp [cells]
  rw [HasLongCell, hlines]
  exact ⟨_, List.mem_singleton_self _, by simpa [hcells, isTooLong] using hlong⟩

theorem hasLongCell_replicate {n : Nat} (hn : Fault.cellLimit < n) :
    HasLongCell (String.ofList (List.replicate n 'a')).toUTF8 := by
  have hletter : ∀ c ∈ (String.ofList (List.replicate n 'a')).toList, c = 'a' := by
    intro c hc
    rw [String.toList_ofList] at hc
    exact List.eq_of_mem_replicate hc
  refine hasLongCell_of_lt (fun c hc => ?_) (fun hc => ?_) ?_
  · rw [hletter c hc]
    decide
  · exact absurd (hletter _ hc) (by decide)
  · rwa [String.length_ofList, List.length_replicate]

/-- A quantity that was read is a number that can be written. -/
theorem isWritable_of_ofBytes (h : ofBytes file bytes = .ok batch) :
    ∀ row ∈ batch.rows, Numeral.isWritable row.quantity := by
  obtain ⟨text, -, htext⟩ := exists_text_of_ofBytes h
  have hall : List.Forall₂ (fun row _ => Numeral.isWritable row.quantity ∧ True) batch.rows
      ((filled text).drop 2) := by
    refine ((rows_of_ofText htext).imp fun p row hrow => ?_).flip
    obtain ⟨-, n, hn, hrow⟩ := readRow_eq_ok_iff.1 hrow.1
    rw [hrow]
    exact ⟨Numeral.isWritable_of_read hn, trivial⟩
  exact ((List.forall₂_and_left _ _).1 hall).1

end ImportBatch
end Inventory

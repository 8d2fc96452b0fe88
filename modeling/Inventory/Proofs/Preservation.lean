import Inventory.Proofs.Sound

/-!
# Changes keep the tables sound

First the changes that statements make, under the conditions that the operations check, and then
the operations: whatever they are asked for, the tables stay sound.
-/

namespace Inventory

open Database (Change)

namespace Sound

variable {cs : List Category} {db : Database}

/-! ## Categories -/

theorem define (h : Sound cs db) {c : Category} (hc : c.Canonical)
    (hfresh : ∀ d ∈ cs, d.id ≠ c.id) :
    Sound (cs ++ [c]) { db with categories := db.categories ++ [Tables.rowOf c] } where
  rows := (h.filed.define hc.id_lower hfresh).rows
  canonical := by
    intro d hd
    rcases List.mem_append.1 hd with hd | hd
    · exact h.canonical d hd
    · rw [List.mem_singleton.1 hd]
      exact hc
  ids_nodup := (h.filed.define hc.id_lower hfresh).ids_nodup
  keys_nodup := h.keys_nodup
  described := by
    intro row hrow
    obtain ⟨d, hd, hdescribes⟩ := h.described row hrow
    exact ⟨d, List.mem_append_left _ hd, hdescribes⟩

theorem extend (h : Sound cs db) {c : Category} (hc : c ∈ cs) {f : FieldDef}
    (hlower : Text.lower f.name = f.name) (hfresh : c.field? f.name = none) :
    Sound (cs.map fun d => if d.id = c.id then d.withField f else d)
      { db with categories := db.categories.map fun row =>
          if row.id == c.id then { row with fields := row.fields ++ [(f.name, f.type.code)] }
          else row } where
  rows := (h.filed.extend c.id f).rows
  canonical := by
    intro d' hd'
    obtain ⟨d, hd, rfl⟩ := List.mem_map.1 hd'
    by_cases hid : d.id = c.id
    · rw [if_pos hid, h.category_unique hd hc hid]
      exact (h.canonical c hc).withField hlower hfresh
    · rw [if_neg hid]
      exact h.canonical d hd
  ids_nodup := (h.filed.extend c.id f).ids_nodup
  keys_nodup := h.keys_nodup
  described := by
    intro row hrow
    obtain ⟨d, hd, hdescribes⟩ := h.described row hrow
    refine ⟨_, List.mem_map_of_mem hd, ?_⟩
    by_cases hid : d.id = c.id
    · rw [if_pos hid]
      exact hdescribes.withField f
    · rw [if_neg hid]
      exact hdescribes

/-- A category that describes no row can go. -/
theorem remove (h : Sound cs db) {id : String} (hempty : db.entriesOf id = []) :
    Sound (cs.filter (·.id != id))
      { db with categories := db.categories.filter (·.id != id) } where
  rows := (h.filed.remove hempty).rows
  canonical := fun c hc => h.canonical c (List.mem_of_mem_filter hc)
  ids_nodup := (h.filed.remove hempty).ids_nodup
  keys_nodup := h.keys_nodup
  described := by
    intro row hrow
    obtain ⟨c, hc, hd⟩ := h.described row hrow
    refine ⟨c, List.mem_filter.2 ⟨hc, ?_⟩, hd⟩
    have hother := List.filter_eq_nil_iff.1 hempty row hrow
    rw [hd.category] at hother
    simpa using hother

/-! ## Entries -/

theorem insert (h : Sound cs db) {c : Category} (hc : c ∈ cs) {row : EntryRow}
    (hd : c.Describes row) (hkey : db.hasKey row.key = false) :
    Sound cs { db with entries := db.entries ++ [row] } where
  rows := h.rows
  canonical := h.canonical
  ids_nodup := h.ids_nodup
  keys_nodup := (h.filed.insert ⟨c, hc, hd.category⟩ hkey).keys_nodup
  described := by
    intro other hother
    rcases List.mem_append.1 hother with hother | hother
    · exact h.described other hother
    · rw [List.mem_singleton.1 hother]
      exact ⟨c, hc, hd⟩

/-- A row may be changed to one that is described, as long as it keeps its key. -/
theorem changeEntry (h : Sound cs db) {row : EntryRow} (hrow : row ∈ db.entries)
    {change : EntryRow → EntryRow} {c : Category} (hc : c ∈ cs) (hd : c.Describes (change row))
    (hkey : (change row).key = row.key) : Sound cs (db.changeEntry row.key change).db := by
  -- keys differ, so the change reaches no other row
  have hsame : ∀ other ∈ db.entries, other.key = row.key → other = row := fun other hother =>
    List.inj_on_of_nodup_map h.keys_nodup hother hrow
  have hfiled : Filed cs (db.changeEntry row.key change).db := by
    refine h.filed.changeEntry (fun other hother hk => .inl ?_) fun other hother hk => ?_
    · rw [hsame other hother hk, hkey]
    · rw [hsame other hother hk]
      exact ⟨c, hc, hd.category⟩
  refine ⟨hfiled.rows, h.canonical, h.ids_nodup, hfiled.keys_nodup, ?_⟩
  rw [Database.changeEntry, h.entry?_of_mem hrow]
  intro other' hother'
  obtain ⟨other, hother, rfl⟩ := List.mem_map.1 hother'
  by_cases hk : other.key = row.key
  · rw [if_pos (by simp [hk]), hsame other hother hk]
    exact ⟨c, hc, hd⟩
  · rw [if_neg (by simp [hk])]
    exact h.described other hother

theorem delete (h : Sound cs db) (key : String) :
    Sound cs { db with entries := db.entries.filter (·.key != key) } where
  rows := h.rows
  canonical := h.canonical
  ids_nodup := h.ids_nodup
  keys_nodup := (h.filed.delete key).keys_nodup
  described := fun row hrow => h.described row (List.mem_of_mem_filter hrow)

/-! ## Operations -/

theorem definition (h : Sound cs db) {id : Value} {fields : List (Value × FieldType)}
    {now : String} {c : Category} {change : Change}
    (hop : Tables.definition id fields now db = .ok (c, change)) :
    Sound (cs ++ [c]) change.db := by
  obtain ⟨hdefine, ⟨cs', hcs', hfresh⟩, rfl⟩ := Tables.definition_ok hop
  rw [h.categories_eq] at hcs'
  cases hcs'
  exact h.define (Category.define_canonical hdefine) hfresh

theorem extension (h : Sound cs db) {id : String} {name : Value} {type : FieldType}
    {now : String} {x : Category} {change : Change}
    (hop : Tables.extension id name type now db = .ok (x, change)) :
    ∃ cs', Sound cs' change.db := by
  obtain ⟨c, canonical, hc, hname, hfresh, -, rfl⟩ := Tables.extension_ok hop
  have hlower : Text.lower canonical = canonical := Name.lower_of_check hname
  exact ⟨_, h.extend (h.mem_of_resolve hc).1 (f := ⟨canonical, type⟩) hlower hfresh⟩

theorem removal (h : Sound cs db) {id now : String} {x : Unit} {change : Change}
    (hop : Tables.removal id now db = .ok (x, change)) : ∃ cs', Sound cs' change.db := by
  obtain ⟨c, -, hempty, ⟨-, rfl⟩ | rfl⟩ := Tables.removal_ok hop
  · exact ⟨cs, h⟩
  · exact ⟨_, h.remove hempty⟩

theorem creation (h : Sound cs db) {id : String} {key location quantity : Value}
    {fields : Mapping Value} {now : String} {x : String} {change : Change}
    (hop : Tables.creation id key location quantity fields now db = .ok (x, change)) :
    Sound cs change.db := by
  obtain ⟨c, place, n, values, cell, hc, -, -, -, hvalues, hcell, hkey, rfl⟩ :=
    Tables.creation_ok hop
  obtain ⟨hc, -⟩ := h.mem_of_resolve hc
  obtain ⟨rfl, hn⟩ := Tables.quantityCell_int hcell
  exact h.insert hc ⟨rfl, ⟨n, rfl, hn⟩, _, rfl, (h.canonical c hc).stores_unset hvalues⟩ hkey

theorem modification (h : Sound cs db) {key : String} {updates : Mapping Value} {now : String}
    {x : Nat} {change : Change} (hop : Tables.modification key updates now db = .ok (x, change)) :
    Sound cs change.db := by
  obtain ⟨e, c', place, quantity, values, cell, he, hc', -, hquantity, hvalues, hcell, rfl⟩ :=
    Tables.modification_ok hop
  obtain ⟨row, hrow, rfl, c, hc, hd, rfl⟩ := h.exists_of_find he
  -- the category is looked up again by the id that the entry was read with
  have hsame : c' = c := by
    have hresolve : Tables.resolve c.id db = .ok c' := hc'
    rw [h.resolve_of_mem hc] at hresolve
    cases hresolve
    rfl
  subst hsame
  obtain ⟨m, hfields, hstores⟩ := hd.fields
  obtain ⟨old, hold, -⟩ := hd.quantity
  obtain ⟨n, rfl⟩ := Tables.newQuantity_int hquantity (congrArg Cell.toValue hold)
  obtain ⟨rfl, hn⟩ := Tables.quantityCell_int hcell
  refine h.changeEntry hrow hc ⟨hd.category, ⟨n, rfl, hn⟩, _, rfl, ?_⟩ rfl
  simp only [Category.entry, hfields, FieldData.items]
  exact hstores.update (h.canonical c' hc) hvalues

theorem sum (h : Sound cs db) {key : String} {delta : Int} {now : String} {x : Unit}
    {change : Change} (hop : Tables.sum key delta now db = .ok (x, change)) :
    Sound cs change.db := by
  obtain ⟨row, r, hentry, hrecord, hoverflow, hdelta, hsum, rfl⟩ := Tables.sum_ok hop
  obtain ⟨hrow, rfl⟩ := mem_of_entry? hentry
  obtain ⟨c, hc, hd⟩ := h.described row hrow
  obtain ⟨n, hquantity, hn, -⟩ := hd.quantity
  rw [Tables.record_quantity hrecord, hquantity] at hoverflow
  obtain ⟨hadd, hmax⟩ := Tables.add_of_overflows hn hdelta hoverflow
  rw [hquantity, hadd] at hsum ⊢
  have hnonneg : 0 ≤ n + delta := by simpa [Cell.isNonnegative] using hsum
  exact h.changeEntry hrow hc ⟨hd.category, ⟨n + delta, rfl, hnonneg, hmax⟩, hd.fields⟩ rfl

theorem adjustment (h : Sound cs db) {key : String} {v : Value} {now : String} {x : Unit}
    {change : Change} (hop : Tables.adjustment key v now db = .ok (x, change)) :
    Sound cs change.db := by
  obtain ⟨delta, -, hsum⟩ := Tables.adjustment_ok hop
  exact h.sum hsum

theorem transfer (h : Sound cs db) {signed : Int → Int} {key : String} {amount : Value}
    {now : String} {x : Unit} {change : Change}
    (hop : Tables.transfer signed key amount now db = .ok (x, change)) : Sound cs change.db := by
  obtain ⟨n, -, hadjust⟩ := Tables.transfer_ok hop
  exact h.adjustment hadjust

theorem deletion (h : Sound cs db) {key now : String} {x : Unit} {change : Change}
    (hop : Tables.deletion key now db = .ok (x, change)) : Sound cs change.db := by
  rw [Tables.deletion_ok hop]
  exact h.delete key

end Sound

end Inventory

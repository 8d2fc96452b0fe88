import Inventory.Proofs.Seen

/-!
# What the store holds

Texts are checked when they come in, whichever operation brings them. So all that readers find is
null, a number, or a text without characters that no document may hold.
-/

namespace Inventory

open Database (Change)
open Effect (Keeps)

/-! ## Held values -/

theorem checkText_eq_ok {s : String} (what : String) (h : s.toList.all (!isXmlIllegal ·)) :
    checkText s what = .ok s := by
  have hnone : s.toList.find? isXmlIllegal = none := by
    simpa [List.find?_eq_none] using h
  rw [checkText, hnone]

theorem checkText_ok {s t what : String} (h : checkText s what = .ok t) : t = s := by
  unfold checkText at h
  split at h
  · cases h
  · exact (Except.ok.inj h).symm

namespace Value

/-- A value as entries hold it: null, a number, or a text that was checked. -/
def IsHeld : Value → Prop
  | .null => True
  | .int _ => True
  | .real _ => True
  | .text s => ∃ what, checkText s what = .ok s
  | _ => False

theorem isHeld_text {s : String} (h : s.toList.all (!isXmlIllegal ·)) : (text s).IsHeld :=
  ⟨"text", checkText_eq_ok _ h⟩

theorem isHeld_of_checkText {s t what : String} (h : checkText s what = .ok t) : (text t).IsHeld := by
  obtain rfl := checkText_ok h
  exact ⟨what, h⟩

theorem isHeld_of_isNull {v : Value} (h : v.isNull) : v.IsHeld := by
  cases v with
  | null => trivial
  | _ => cases h

end Value

/-! ## Checks -/

theorem FieldType.isHeld_of_parse {t : FieldType} {raw : String} {v : Value}
    (h : t.parse raw = .ok v) : v.IsHeld := by
  unfold parse at h
  split at h
  · cases h
    trivial
  · cases t with
    | text =>
        obtain ⟨s, hs, rfl⟩ := map_eq_ok_iff.1 h
        exact Value.isHeld_of_checkText hs
    | integer =>
        obtain ⟨n, -, rfl⟩ := map_eq_ok_iff.1 h
        trivial
    | real =>
        obtain ⟨x, -, rfl⟩ := map_eq_ok_iff.1 h
        trivial

theorem FieldType.Gives.isHeld {t : FieldType} {v : Value} (h : t.Gives v) : v.IsHeld := by
  obtain ⟨given, hgiven⟩ := h
  cases given with
  | null =>
      cases hgiven
      trivial
  | text raw => exact isHeld_of_parse hgiven
  | int n =>
      cases t with
      | text => cases hgiven
      | integer =>
          obtain ⟨m, -, rfl⟩ := map_eq_ok_iff.1 hgiven
          trivial
      | real =>
          simp only [coerce] at hgiven
          split at hgiven <;> cases hgiven
          trivial
  | real x =>
      cases t with
      | text | integer => cases hgiven
      | real =>
          simp only [coerce] at hgiven
          split at hgiven <;> cases hgiven
          trivial
  | bool | list | mapping => cases hgiven

/-- Names are written in characters that documents may hold. -/
theorem Name.isHeld_of_check {name : Value} {what : String} {allow : Bool} {canonical : String}
    (h : check name what allow = .ok canonical) : (Value.text canonical).IsHeld := by
  obtain ⟨s, -, hs, rfl⟩ := check_ok h
  have htable : ∀ n < 128, isPart (Char.ofNat n) ∨ Char.ofNat n = '\n' →
      isXmlIllegal (Char.ofNat n).toLower = false := by
    decide
  refine Value.isHeld_text (List.all_eq_true.2 fun c hc => ?_)
  rw [Text.lower_of_ascii (ascii_of_isName hs), String.toList_ofList, List.mem_map] at hc
  obtain ⟨d, hd, rfl⟩ := hc
  have hpart := isPart_of_isName hs d hd
  have hascii : d.toNat < 128 := by
    simpa [Text.isAscii] using ascii_of_isName hs d hd
  have hlower := htable d.toNat hascii
  rw [Char.ofNat_toNat] at hlower
  rw [hlower hpart]
  rfl

theorem Store.isHeld_of_checkKey {v : Value} {key : String} (h : checkKey v = .ok key) :
    (Value.text key).IsHeld := by
  unfold checkKey at h
  split at h
  · split at h
    · cases h
    · exact Value.isHeld_of_checkText h
  · cases h

theorem Store.isHeld_of_checkLocation {v : Value} {place : String}
    (h : checkLocation v = .ok place) : (Value.text place).IsHeld := by
  unfold checkLocation at h
  split at h
  · exact Value.isHeld_of_checkText h
  · cases h

/-! ## Tables -/

/-- The texts by which rows are found, and the places in them, were checked. What is in the fields
of rows was checked by the types of the fields. -/
structure Database.IsHeld (db : Database) : Prop where
  ids : ∀ row ∈ db.categories, (Value.text row.id).IsHeld
  keys : ∀ row ∈ db.entries, (Value.text row.key).IsHeld
  locations : ∀ row ∈ db.entries, (Value.text row.location).IsHeld

namespace Database.IsHeld

variable {db : Database} {now key : String} {change : Change}

/-- A row may change what it holds if what it then holds was checked. -/
theorem withRow (h : db.IsHeld) {f : EntryRow → EntryRow}
    (hkey : ∀ row, (f row).key = row.key)
    (hplace : ∀ row ∈ db.entries, row.key = key → (Value.text (f row).location).IsHeld) :
    (db.withRow key f).IsHeld where
  ids := h.ids
  keys := by
    intro row hrow
    obtain ⟨old, hold, rfl⟩ := List.mem_map.1 hrow
    split
    · exact hkey old ▸ h.keys old hold
    · exact h.keys old hold
  locations := by
    intro row hrow
    obtain ⟨old, hold, rfl⟩ := List.mem_map.1 hrow
    split
    · exact hplace old hold ‹_›
    · exact h.locations old hold

theorem definition (h : db.IsHeld) {id : Value} {fields : List (Value × FieldType)} {c : Category}
    (hop : Tables.definition id fields now db = .ok (c, change)) : change.db.IsHeld := by
  obtain ⟨hdefine, -, rfl⟩ := Tables.definition_ok hop
  refine ⟨fun row hrow => ?_, h.keys, h.locations⟩
  rcases List.mem_append.1 hrow with hrow | hrow
  · exact h.ids row hrow
  · obtain rfl := List.mem_singleton.1 hrow
    simp only [Category.define, bind_eq_ok_iff, guard_eq_ok_iff] at hdefine
    obtain ⟨-, canonical, hname, fields, -, hc⟩ := hdefine
    cases hc
    exact Name.isHeld_of_check hname

theorem extension (h : db.IsHeld) {id : String} {name : Value} {type : FieldType} {x : Category}
    (hop : Tables.extension id name type now db = .ok (x, change)) : change.db.IsHeld := by
  obtain ⟨c, canonical, -, -, -, -, rfl⟩ := Tables.extension_ok hop
  refine ⟨fun row hrow => ?_, h.keys, h.locations⟩
  obtain ⟨old, hold, rfl⟩ := List.mem_map.1 hrow
  split
  · exact h.ids old hold
  · exact h.ids old hold

theorem removal (h : db.IsHeld) {id : String} {x : Unit}
    (hop : Tables.removal id now db = .ok (x, change)) : change.db.IsHeld := by
  obtain ⟨c, -, -, ⟨-, rfl⟩ | rfl⟩ := Tables.removal_ok hop
  · exact h
  · exact ⟨fun row hrow => h.ids row (List.mem_of_mem_filter hrow), h.keys, h.locations⟩

theorem creation (h : db.IsHeld) {id x : String} {given location quantity : Value}
    {fields : Mapping Value}
    (hop : Tables.creation id given location quantity fields now db = .ok (x, change)) :
    change.db.IsHeld := by
  obtain ⟨c, place, n, values, cell, -, hkey, hplace, -, -, -, -, rfl⟩ := Tables.creation_ok hop
  refine ⟨h.ids, fun row hrow => ?_, fun row hrow => ?_⟩
  · rcases List.mem_append.1 hrow with hrow | hrow
    · exact h.keys row hrow
    · obtain rfl := List.mem_singleton.1 hrow
      exact Store.isHeld_of_checkKey hkey
  · rcases List.mem_append.1 hrow with hrow | hrow
    · exact h.locations row hrow
    · obtain rfl := List.mem_singleton.1 hrow
      exact Store.isHeld_of_checkLocation hplace

/-- A place after updates was checked now, or when it came to be where it is. -/
theorem newLocation (h : db.IsHeld) {row : EntryRow} (hrow : row ∈ db.entries) {c : Category}
    {updates : Mapping Value} {place : String}
    (hplace : Store.newLocation (c.entry row) updates = .ok place) : (Value.text place).IsHeld := by
  unfold Store.newLocation at hplace
  split at hplace
  · exact Store.isHeld_of_checkLocation hplace
  · cases hplace
    exact h.locations row hrow

theorem modification (h : db.IsHeld) {cs : List Category} (hsound : Sound cs db)
    {updates : Mapping Value} {x : Nat}
    (hop : Tables.modification key updates now db = .ok (x, change)) : change.db.IsHeld := by
  obtain ⟨row, hrow, -, c, -, -, place, n, values, hplace, -, -, hchange⟩ :=
    hsound.modification_row hop
  rw [hchange]
  exact h.withRow (fun _ => rfl) fun _ _ _ => h.newLocation hrow hplace

theorem sum (h : db.IsHeld) {delta : Int} {x : Unit}
    (hop : Tables.sum key delta now db = .ok (x, change)) : change.db.IsHeld := by
  obtain ⟨row, r, -, -, -, -, -, rfl⟩ := Tables.sum_ok hop
  rw [Tables.changeEntry_db]
  exact h.withRow (fun _ => rfl) fun row hrow _ => h.locations row hrow

theorem adjustment (h : db.IsHeld) {v : Value} {x : Unit}
    (hop : Tables.adjustment key v now db = .ok (x, change)) : change.db.IsHeld := by
  obtain ⟨delta, -, hsum⟩ := Tables.adjustment_ok hop
  exact h.sum hsum

theorem transfer (h : db.IsHeld) {signed : Int → Int} {amount : Value} {x : Unit}
    (hop : Tables.transfer signed key amount now db = .ok (x, change)) : change.db.IsHeld := by
  obtain ⟨n, -, hadjust⟩ := Tables.transfer_ok hop
  exact h.adjustment hadjust

theorem deletion (h : db.IsHeld) {x : Unit}
    (hop : Tables.deletion key now db = .ok (x, change)) : change.db.IsHeld := by
  rw [Tables.deletion_ok hop]
  exact ⟨h.ids, fun row hrow => h.keys row (List.mem_of_mem_filter hrow),
    fun row hrow => h.locations row (List.mem_of_mem_filter hrow)⟩

end Database.IsHeld

theorem Operation.effect_keeps_held (o : Operation) :
    o.effect.Keeps fun db => db.IsSound ∧ db.IsHeld := by
  cases o with
  | define id fields =>
      exact (Keeps.change
        (fun _ _ _ _ ⟨⟨_, hs⟩, h⟩ hop => ⟨⟨_, hs.definition hop⟩, h.definition hop⟩) _).map _
  | addField id name type =>
      exact (Keeps.change
        (fun _ _ _ _ ⟨⟨_, hs⟩, h⟩ hop => ⟨hs.extension hop, h.extension hop⟩) _).map _
  | remove id =>
      exact (Keeps.change
        (fun _ _ _ _ ⟨⟨_, hs⟩, h⟩ hop => ⟨hs.removal hop, h.removal hop⟩) _).map _
  | create id key location quantity fields =>
      exact (Keeps.change
        (fun _ _ _ _ ⟨⟨_, hs⟩, h⟩ hop => ⟨⟨_, hs.creation hop⟩, h.creation hop⟩) _).map _
  | modify key updates =>
      exact (Keeps.change
        (fun _ _ _ _ ⟨⟨_, hs⟩, h⟩ hop => ⟨⟨_, hs.modification hop⟩, h.modification hs hop⟩) _).map _
  | adjust key delta =>
      exact (Keeps.change
        (fun _ _ _ _ ⟨⟨_, hs⟩, h⟩ hop => ⟨⟨_, hs.adjustment hop⟩, h.adjustment hop⟩) _).map _
  | give key amount | take key amount =>
      exact (Keeps.change
        (fun _ _ _ _ ⟨⟨_, hs⟩, h⟩ hop => ⟨⟨_, hs.transfer hop⟩, h.transfer hop⟩) _).map _
  | delete key =>
      exact (Keeps.change
        (fun _ _ _ _ ⟨⟨_, hs⟩, h⟩ hop => ⟨⟨_, hs.deletion hop⟩, h.deletion hop⟩) _).map _
  | resolve | categories | stats | invalidate | find | list | nextKeys =>
      exact (Keeps.reading _).map _

/-! ## Entries -/

/-- The entry as a store can hold it, with texts that were checked. -/
structure Entry.IsHeld (e : Entry) : Prop where
  key : (Value.text e.key).IsHeld
  category : (Value.text e.category).IsHeld
  location : (Value.text e.location).IsHeld
  quantity : e.quantity.IsHeld
  fields : ∀ name v, (name, v) ∈ e.fields → v.IsHeld
  created : ∀ text ∈ e.created, (Value.text text).IsHeld
  modified : ∀ text ∈ e.modified, (Value.text text).IsHeld

/-- Readers of tables with checked texts see entries with checked texts, where the clock wrote
texts that pass the check. -/
theorem Database.Shows.isHeld {db : Database} {v : View} (h : db.Shows v) (hheld : db.IsHeld)
    {e : Entry} (he : e ∈ v.entries) (hcreated : ∀ text ∈ e.created, (Value.text text).IsHeld)
    (hmodified : ∀ text ∈ e.modified, (Value.text text).IsHeld) : e.IsHeld := by
  obtain ⟨row, hrow, c, hc, hd, rfl⟩ := h.exists_row he
  obtain ⟨n, hn, -⟩ := hd.quantity
  obtain ⟨m, hm, hstores⟩ := hd.fields
  refine ⟨hheld.keys row hrow, ?_, hheld.locations row hrow, ?_, fun name w hw => ?_, hcreated,
    hmodified⟩
  · have hid : Tables.rowOf c ∈ db.categories := h.sound.rows ▸ List.mem_map_of_mem hc
    exact hheld.ids _ hid
  · rw [Category.entry, hn]
    trivial
  · rw [Category.entry, hm] at hw
    obtain hnull | ⟨f, -, -, hgives⟩ := hstores.values_declares hw
    · exact Value.isHeld_of_isNull hnull
    · exact hgives.isHeld

theorem isHeld_initial (stamp : String) : (Workspace.initial stamp).db.IsHeld :=
  ⟨nofun, nofun, nofun⟩

theorem Moment.isHeld (m : Moment) : m.session.db.IsHeld :=
  (Workspace.during_keeps Operation.effect_keeps_held m.workspace_ready
    (Workspace.run_keeps Operation.effect_keeps_held m.events _ (Workspace.ofDatabase_ready _)
      ⟨isSound_initial m.stamp, isHeld_initial m.stamp⟩) m.turn m.now m.inScope m.script).2

/-- What is found at a moment of a run is held. -/
theorem Moment.isHeld_of_find (m : Moment) {key : String} {e : Entry}
    (h : ((Store.find key).exec m.session).1 = .ok e)
    (hcreated : ∀ text ∈ e.created, (Value.text text).IsHeld)
    (hmodified : ∀ text ∈ e.modified, (Value.text text).IsHeld) : e.IsHeld := by
  obtain ⟨v, hv⟩ := m.sees
  have hfind : v.find key = .ok e := (hv.find key).symm.trans h
  exact hv.shows.isHeld m.isHeld (View.mem_of_find hfind).1 hcreated hmodified

end Inventory

import Inventory.Proofs.Frame

/-!
# Adjustments of rows that cannot be read

The row with a key is decoded before its quantity is changed, but it is checked against its
category only when the changed row is read back. So an adjustment that fails has changed nothing
as long as the entry can be found; else it may have changed the quantity and the time stamp of a
row that is found to be damaged only then.
-/

namespace Inventory

open Database (Change)
open Effect (change)

variable {key : String} {db : Database}

/-! ## Reading back -/

theorem Database.entry?_changeEntry {row : EntryRow} {f : EntryRow → EntryRow}
    (hf : ∀ row, (f row).key = row.key) (h : db.entry? key = some row) :
    (db.changeEntry key f).db.entry? key = some (f row) := by
  have hkey : row.key = key := by simpa using List.find?_some h
  have hsame : ((·.key == key) ∘ fun r : EntryRow => if r.key = key then f r else r) =
      (·.key == key) := by
    funext r
    by_cases hr : r.key = key <;> simp [hr, hf]
  rw [Database.entry?] at h
  rw [Tables.changeEntry_db, Database.entry?, Database.withRow, List.find?_map, hsame, h,
    Option.map_some, if_pos hkey]

/-- Decoding a row does not look at its quantity. -/
theorem EntryRow.record_counted {row : EntryRow} {r : Record} (h : row.record = .ok r)
    (quantity : Cell) (now : String) :
    ({ row with quantity, modified := now } : EntryRow).record =
      .ok { r with quantity, modified := now } := by
  unfold record at h ⊢
  cases hvalue : row.fields.value? with
  | none => simp [hvalue] at h
  | some v =>
      cases v with
      | mapping items =>
          rw [hvalue] at h
          cases h
          rfl
      | _ => simp [hvalue] at h

theorem Record.fieldValues_counted (r : Record) (quantity : Cell) (now : String)
    (fields : List FieldDef) :
    ({ r with quantity, modified := now } : Record).fieldValues fields = r.fieldValues fields := by
  induction fields with
  | nil => rfl
  | cons f rest ih =>
      rw [fieldValues, fieldValues, ih]
      rfl

/-- A record that can be read as an entry has a whole quantity that is not negative, and it can be
read with every other such quantity. -/
theorem Record.load_counted {r : Record} {c : Category} {e : Entry} (h : r.load c = .ok e) :
    (∃ n : Int, r.quantity = .int n ∧ 0 ≤ n) ∧ ∀ (m : Int) (now : String), 0 ≤ m →
      ∃ e', ({ r with quantity := .int m, modified := now } : Record).load c = .ok e' := by
  simp only [load, bind_eq_ok_iff, guard_eq_ok_iff] at h
  obtain ⟨hdeclared, fields, hfields, h⟩ := h
  split at h
  · next n hn =>
      rw [guard_eq_ok_iff] at h
      refine ⟨⟨n, hn, by omega⟩, fun m now hm =>
        ⟨⟨r.key, c.id, r.location, .int m, fields, some r.created, some now⟩, ?_⟩⟩
      simp only [load, bind_eq_ok_iff, guard_eq_ok_iff]
      exact ⟨hdeclared, fields, (r.fieldValues_counted ..).trans hfields, by omega, rfl⟩
  · cases h

namespace Tables

theorem find_ok_iff {e : Entry} : find key db = .ok e ↔
    ∃ row r c, db.entry? key = some row ∧ row.record = .ok r ∧
      owner key r.categoryId db = .ok c ∧ r.load c = .ok e := by
  simp only [find, Database.record?, bind_eq_ok_iff]
  cases db.entry? key with
  | none => simp
  | some row =>
      cases hrecord : row.record with
      | error f => simp [hrecord, Except.map]
      | ok r => simp [hrecord, Except.map, bind_eq_ok_iff]

/-- An entry that can be found can be found after its quantity was changed. -/
theorem find_sum {e : Entry} (h : find key db = .ok e) {d : Int} {now : String} {x : Unit}
    {change : Change} (hop : sum key d now db = .ok (x, change)) :
    ∃ e', find key change.db = .ok e' := by
  obtain ⟨row, r, c, hrow, hrecord, howner, hload⟩ := find_ok_iff.1 h
  obtain ⟨row', r', hrow', hrecord', hoverflow, hd, hsum, rfl⟩ := sum_ok hop
  cases hrow.symm.trans hrow'
  cases hrecord.symm.trans hrecord'
  obtain ⟨⟨n, hn, hnonneg⟩, hagain⟩ := Record.load_counted hload
  -- a whole quantity stays one, so that the changed row can be read with the same fields
  rw [hn] at hoverflow
  rw [(record_quantity hrecord).symm.trans hn, (add_of_overflows hnonneg hd hoverflow).1] at hsum ⊢
  obtain ⟨e', he'⟩ := hagain (n + d) now (by simpa [Cell.isNonnegative] using hsum)
  refine ⟨e', find_ok_iff.2 ⟨_, _, c, ?_, row.record_counted hrecord (.int (n + d)) now, ?_, he'⟩⟩
  · exact Database.entry?_changeEntry (fun _ => rfl) hrow
  · rw [← howner, owner, owner, resolve, resolve, categories, categories, changeEntry_categories]

end Tables

/-! ## Adjustments -/

/-- A whole number that is checked stands for itself. -/
theorem Store.checkDelta_int {n d : Int} (h : checkDelta key (.int n) = .ok d) : d = n := by
  obtain ⟨v, hv, h⟩ := bind_eq_ok_iff.1 h
  obtain ⟨m, hm, rfl⟩ := map_eq_ok_iff.1 hv
  cases h
  exact (FieldType.checkRange_ok hm).1

theorem Tables.transfer_sum {signed : Int → Int} {amount : Value} {now : String} {x : Unit}
    {c : Change} (h : transfer signed key amount now db = .ok (x, c)) :
    ∃ n, amount = .int n ∧ 0 ≤ n ∧ n ≤ int64Max ∧ sum key (signed n) now db = .ok (x, c) := by
  obtain ⟨n, hn, hadjust⟩ := transfer_ok h
  obtain ⟨rfl, hlow, hhigh⟩ := Store.checkQuantity_ok hn
  obtain ⟨d, hd, hsum⟩ := adjustment_ok hadjust
  rw [Store.checkDelta_int hd] at hsum
  exact ⟨n, rfl, hlow, hhigh, hsum⟩

/-- An adjustment is refused before anything is written, or its number is added and the entry is
read back. -/
theorem Operation.AddsTo.effect_cases {o : Operation} (ho : o.AddsTo key) (now : String)
    (db : Database) :
    (∃ f, o.effect now db = (.error f, db.unchanged)) ∨
      ∃ d c, o.delta? key = some d ∧ Tables.sum key d now db = .ok ((), c) ∧
        o.effect now db = ((Tables.find key c.db).map .entry, c) := by
  cases o with
  | adjust other v =>
      obtain rfl : other = key := ho
      rcases Effect.change_cases (Tables.adjustment other v) (fun _ => Tables.find other) now db
        with ⟨f, -, heq⟩ | ⟨⟨⟩, c, hop, heq⟩
      · exact .inl ⟨f, by rw [effect, Effect.map, heq]; rfl⟩
      · obtain ⟨d, hd, hsum⟩ := Tables.adjustment_ok hop
        exact .inr ⟨d, c, (if_pos rfl).trans (Store.checkDelta_eq_ok_iff.1 hd), hsum,
          by rw [effect, Effect.map, heq]⟩
  | give other amount =>
      obtain rfl : other = key := ho
      rcases Effect.change_cases (Tables.transfer id other amount) (fun _ => Tables.find other)
        now db with ⟨f, -, heq⟩ | ⟨⟨⟩, c, hop, heq⟩
      · exact .inl ⟨f, by rw [effect, Effect.map, heq]; rfl⟩
      · obtain ⟨n, rfl, hlow, hhigh, hsum⟩ := Tables.transfer_sum hop
        exact .inr ⟨n, c, if_pos ⟨rfl, hlow, hhigh⟩, hsum, by rw [effect, Effect.map, heq]⟩
  | take other amount =>
      obtain rfl : other = key := ho
      rcases Effect.change_cases (Tables.transfer (- ·) other amount) (fun _ => Tables.find other)
        now db with ⟨f, -, heq⟩ | ⟨⟨⟩, c, hop, heq⟩
      · exact .inl ⟨f, by rw [effect, Effect.map, heq]; rfl⟩
      · obtain ⟨n, rfl, hlow, hhigh, hsum⟩ := Tables.transfer_sum hop
        exact .inr ⟨-n, c, if_pos ⟨rfl, hlow, hhigh⟩, hsum, by rw [effect, Effect.map, heq]⟩
  | _ => exact ho.elim

namespace Workspace

/-- An adjustment that fails, alone or inside a transaction, on tables that may hold anything: it
has changed nothing, or the entry could not be found before and cannot after, and the quantity and
the time stamp of its row are all that was changed. -/
theorem failed_adjustment_changes_unreadable (db : Database) (events : List Event) (turn : Turn)
    (now : String) (inScope : Bool) (p : Script) (o : Operation) (key : String)
    (ho : o.AddsTo key) (f : Fault)
    (h : (o.act.exec (((ofDatabase db).run events).2.during turn now inScope p)).1 = .error f) :
    let s := ((ofDatabase db).run events).2.during turn now inScope p
    let t := (o.act.exec s).2
    t.db = s.db ∨
      (∃ g, ((Store.find key).exec s).1 = .error g) ∧ ((Store.find key).exec t).1 = .error f ∧
        ∃ row d, s.db.entry? key = some row ∧ o.delta? key = some d ∧
          t.db = s.db.withRow key fun other =>
            { other with quantity := (row.quantity.add d).kept, modified := s.now } := by
  intro s t
  have hs : s.Ready := during_ready (Ready.run events _ (ofDatabase_ready db)) turn now inScope p
  obtain ⟨cache, hexec, hready⟩ := o.does_act s hs
  rcases ho.effect_cases s.now s.db with ⟨g, heffect⟩ | ⟨d, c, hd, hsum, heffect⟩
  · left
    simp only [t, hexec, heffect, Session.apply_unchanged]
  · right
    -- the number was added, so what failed is to read the entry back
    have ht : t = { s.apply c with cache := cache } := by simp only [t, hexec, heffect]
    have htdb : t.db = c.db := by rw [ht]; exact Session.apply_db s c
    have hfind : Tables.find key c.db = .error f := by
      have hresult : (o.act.exec s).1 = .error f := h
      simp only [hexec, heffect] at hresult
      cases hback : Tables.find key c.db with
      | ok e => simp [hback, Except.map] at hresult
      | error g => simpa [hback, Except.map] using hresult
    have hexecFind (u : Session) (hu : u.Ready) :
        ((Store.find key).exec u).1 = Tables.find key u.db := by
      obtain ⟨cache, hexec, -⟩ := Store.does_find key u hu
      rw [hexec]
      rfl
    refine ⟨?_, ?_, ?_⟩
    · rw [hexecFind s hs]
      cases hbefore : Tables.find key s.db with
      | error g => exact ⟨g, rfl⟩
      | ok e =>
          obtain ⟨e', he'⟩ := Tables.find_sum hbefore hsum
          cases hfind.symm.trans he'
    · rw [hexecFind t (by rw [ht]; simpa only [heffect] using hready), htdb, hfind]
    · obtain ⟨row, r, hrow, -, -, -, -, rfl⟩ := Tables.sum_ok hsum
      exact ⟨row, d, hrow, hd, htdb.trans (Tables.changeEntry_db ..)⟩

/-- A hammer among tools that have a size; its row was overwritten by hand with a color. -/
def discolored : Database :=
  { Database.empty with
    categories := [⟨"tools", [("size", "t")]⟩]
    entries := [⟨"hammer", "tools", "shed", .int 1, .mapping [("color", .text "red")],
      "2024-01-01 00:00:01", "2024-01-01 00:00:01"⟩] }

theorem give_discolored :
    let s := ((ofDatabase discolored).run []).2.during .first "2024-01-01 00:00:02" false .done
    let o := Operation.give "hammer" (.int 1)
    let t := (o.act.exec s).2
    t.db = s.db ∨
      (∃ g, ((Store.find "hammer").exec s).1 = .error g) ∧
        ((Store.find "hammer").exec t).1 = .error (.undeclaredFields "hammer" "tools" ["color"]) ∧
        ∃ row d, s.db.entry? "hammer" = some row ∧ o.delta? "hammer" = some d ∧
          t.db = s.db.withRow "hammer" fun other =>
            { other with quantity := (row.quantity.add d).kept, modified := s.now } :=
  failed_adjustment_changes_unreadable discolored [] .first "2024-01-01 00:00:02" false .done
    (.give "hammer" (.int 1)) "hammer" rfl (.undeclaredFields "hammer" "tools" ["color"]) rfl

/-- To give one more hammer fails, and there is one more. -/
theorem give_changes_discolored :
    let s := (ofDatabase discolored).session .first "2024-01-01 00:00:02"
    let (result, t) := (Operation.give "hammer" (.int 1)).act.exec s
    result = .error (.undeclaredFields "hammer" "tools" ["color"]) ∧
      (s.db.entries.map fun row => (row.key, row.quantity, row.modified)) =
        [("hammer", .int 1, "2024-01-01 00:00:01")] ∧
      (t.db.entries.map fun row => (row.key, row.quantity, row.modified)) =
        [("hammer", .int 2, "2024-01-01 00:00:02")] :=
  ⟨rfl, rfl, rfl⟩

end Workspace

end Inventory

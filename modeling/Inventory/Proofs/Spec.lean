import Inventory.Proofs.Does
import Inventory.Proofs.Schema
import Inventory.Proofs.Tables

/-!
# The operations on sessions in order

One theorem for each operation of the registry and the store: on a session in order it comes to
the function of the tables that bears its name, whatever its cache holds and whether or not a
transaction is open.
-/

namespace Inventory

open Inventory.Action (Does Runs)
open Effect (reading change)

/-! ## The registry -/

namespace Registry

theorem exec_reload (s : Session) :
    (categories.reload s).exec s =
      match Tables.categories s.db with
      | .ok cs => (.ok cs, if s.remembers then { s with cache := some ⟨s.version, cs⟩ } else s)
      | .error e => (.error e, s) := by
  have hread : Database.readCategories s.db.categories = Tables.categories s.db := rfl
  rw [categories.reload, Action.exec_bind, Action.exec_ofExcept, hread]
  cases Tables.categories s.db with
  | error e => rfl
  | ok cs =>
      by_cases hr : s.remembers
      · simp only [hr, if_true]
        rfl
      · simp only [hr]
        rfl

theorem exec_categories (s : Session) :
    categories.exec s =
      match s.cache with
      | some c =>
        if c.version = s.version then (.ok c.categories, s) else (categories.reload s).exec s
      | none => (categories.reload s).exec s := by
  rw [categories, Action.exec_bind, Action.exec_get]
  dsimp only
  cases s.cache with
  | none => rfl
  | some c =>
      by_cases hv : c.version = s.version
      · simp only [hv, if_true]
        rfl
      · simp only [hv, if_false]

theorem does_categories : Does categories (reading Tables.categories) := by
  intro s hs
  have hreload : ∃ cache,
      (categories.reload s).exec s = (Tables.categories s.db, { s with cache := cache }) ∧
        ({ s with cache := cache } : Session).Ready := by
    rw [exec_reload]
    cases hread : Tables.categories s.db with
    | error e => exact ⟨s.cache, rfl, hs⟩
    | ok cs =>
        by_cases hr : s.remembers
        · -- the cache is filled with what the tables say
          refine ⟨some ⟨s.version, cs⟩, by simp only [hr, if_true], hs.clean, ?_, ?_, ?_⟩
          · rintro c ⟨⟩
            exact Nat.le_refl _
          · rintro c ⟨⟩ -
            exact hread
          · exact fun hforget => absurd (hr.symm.trans hforget) (by decide)
        · exact ⟨s.cache, by simp only [if_neg hr], hs⟩
  simp only [reading, Session.apply_unchanged]
  rw [exec_categories]
  split
  · next c hc =>
      by_cases hv : c.version = s.version
      · have hread : Tables.categories s.db = .ok c.categories := hs.coherent c hc hv
        exact ⟨s.cache, by rw [if_pos hv, hread], hs⟩
      · rwa [if_neg hv]
  · exact hreload

theorem does_invalidate : Does invalidate (reading fun _ => .ok ()) := by
  intro s hs
  refine ⟨none, ?_, ?_⟩
  · simp [invalidate, Action.exec_modify, reading]
  · simpa [reading] using Session.Ready.ofNoCache (s := { s with cache := none }) hs.clean rfl

theorem does_resolve (id : String) : Does (resolve id) (reading (Tables.resolve id)) := by
  refine does_categories.bind_reading fun cs => ?_
  cases cs.find? (·.id == Text.lower id) with
  | some c => exact Does.pure c
  | none => exact Does.throw _

theorem does_stats : Does stats (reading Tables.stats) := by
  refine does_categories.bind_reading fun cs => ?_
  intro s hs
  simp only [reading, Session.apply_unchanged]
  exact ⟨s.cache, rfl, hs⟩

/-- A field with a new name is added to the category that was added last. -/
theorem addField_last {id : String} {f : FieldDef} {db : Database}
    {before : List CategoryRow} {done : List (String × String)}
    (hcs : db.categories = before ++ [⟨id, done⟩]) (hbefore : ∀ row ∈ before, row.id ≠ id)
    (hfresh : f.name ∉ done.map Prod.fst) :
    Database.addField id f db = .ok ⟨1, true, { db with
      categories := before ++ [⟨id, done ++ [(f.name, f.type.code)]⟩] }⟩ := by
  have hfind : db.category? id = some ⟨id, done⟩ := by
    have hnone : before.find? (·.id == id) = none :=
      List.find?_eq_none.2 fun row hrow => by simpa using hbefore row hrow
    simp [Database.category?, hcs, List.find?_append, hnone]
  have hname : ¬done.any (·.1 == f.name) := by
    intro h
    obtain ⟨p, hp, heq⟩ := List.any_eq_true.1 h
    exact hfresh (List.mem_map.2 ⟨p, hp, by simpa using heq⟩)
  have hsame : ∀ row ∈ before,
      (if row.id == id then { row with fields := row.fields ++ [(f.name, f.type.code)] }
        else row) = row := fun row hrow => by simp [hbefore row hrow]
  simp only [Database.addField, hfind, if_neg hname, hcs, List.map_append,
    List.map_congr_left hsame, List.map_id']
  simp

/-- The rows of the fields are added one by one; as their names differ, none of them is refused
and the category ends with all of them. -/
theorem exec_addFields (id : String) (fields : List FieldDef) :
    ∀ (s : Session) (before : List CategoryRow) (done : List (String × String)),
      s.dirty = true → s.db.categories = before ++ [⟨id, done⟩] →
      (∀ row ∈ before, row.id ≠ id) →
      (done.map Prod.fst ++ fields.map (·.name)).Nodup →
      (addFields id fields).exec s =
        (.ok (), { s with db := { s.db with
          categories := before ++ [⟨id, done ++ fields.map fun f => (f.name, f.type.code)⟩] } }) := by
  -- by induction on the fields to come, for all rows that are already there
  induction fields with
  | nil =>
      intro s before done _ hcs _ _
      simp [addFields, Action.exec_pure, ← hcs]
  | cons f rest ih =>
      intro s before done hdirty hcs hbefore hnodup
      have hfresh : f.name ∉ done.map Prod.fst := fun hmem =>
        (List.nodup_append.1 hnodup).2.2 _ hmem f.name (by simp) rfl
      rw [addFields, Action.discard_bind, Action.exec_bind, Action.exec_write,
        addField_last hcs hbefore hfresh]
      dsimp only
      rw [ih _ before (done ++ [(f.name, f.type.code)]) (by simp) rfl hbefore
        (by simpa using hnodup)]
      simp [hdirty]

/-- The statements that define a category add its row with all fields or nothing. -/
theorem runs_definition {c : Category} (hnodup : c.fieldNames.Nodup) :
    Runs (do
        discard <| Action.write fun _ => Database.addCategory c.id
        addFields c.id c.fields)
      fun _ db => Tables.addRow c db := by
  intro s
  rw [Action.discard_bind, Action.exec_bind, Action.exec_write]
  by_cases hexists : (s.db.category? c.id).isSome
  · simp only [Database.addCategory, Tables.addRow, if_pos hexists]
  · simp only [Database.addCategory, Tables.addRow, if_neg hexists]
    have hbefore : ∀ row ∈ s.db.categories, row.id ≠ c.id := by
      intro row hrow heq
      exact hexists (List.find?_isSome.2 ⟨row, hrow, by simp [heq]⟩)
    rw [exec_addFields c.id c.fields _ s.db.categories [] (by simp) rfl hbefore
      (by simpa [Category.fieldNames] using hnodup)]
    simp [Tables.rowOf]

theorem does_define (id : Value) (fields : List (Value × FieldType)) :
    Does (define id fields) (change (Tables.definition id fields) fun c _ => .ok c) := by
  refine Does.ofExcept_bind fun c hc => does_categories.bind_change fun cs => ?_
  refine Does.guard fun _ => ?_
  have hnodup := (Category.define_canonical hc).names_nodup
  exact Does.schemaChange (runs_definition hnodup) (fun now db => rfl) fun _ => rfl

theorem does_addField (id : String) (name : Value) (type : FieldType) :
    Does (addField id name type)
      (change (Tables.extension id name type) fun c _ => .ok c) := by
  refine (does_resolve id).bind_change fun c => (Does.ofExcept _).bind_change fun name => ?_
  refine Does.guard fun _ => ?_
  rw [Action.discard_bind]
  exact Does.schemaChange (Runs.write _) (fun now db => map_map _ _ _) fun _ => rfl

theorem does_remove (id : String) :
    Does (remove id) (change (Tables.removal id) fun _ _ => .ok ()) := by
  refine (does_resolve id).bind_change fun c => ?_
  have hruns := Runs.guard (fun db => db.countEntries c.id ≠ 0)
    (fun db => .categoryNotEmpty c.id (db.countEntries c.id))
    (k := fun _ => Action.write fun _ => Database.removeCategory c.id) (Runs.write _)
  rw [Action.discard_bind]
  refine Does.schemaChange hruns (fun now db => ?_) fun _ => rfl
  rw [refuse_map, map_map]

end Registry

/-! ## The store -/

namespace Store

/-- A category that is not found is a fault of the row that names it. -/
theorem does_owner (key id : String) :
    Does (find.category key id) (reading (Tables.owner key id)) := by
  have howner : Effect.orElse (Tables.resolve id) (fun f _ =>
      .error (if f.kind = .categoryNotFound then .missingCategory key id else f)) =
      Tables.owner key id := by
    funext db
    rw [Effect.orElse, Tables.owner]
    cases Tables.resolve id db <;> rfl
  rw [← howner]
  exact (Registry.does_resolve id).tryCatch fun f => Does.throw _

theorem does_find (key : String) : Does (find key) (reading (Tables.find key)) := by
  refine (Does.read _).bind_reading fun r? => ?_
  cases r? with
  | none => exact Does.throw _
  | some r =>
      exact (does_owner key r.categoryId).bind_reading fun c => Does.ofExcept (r.load c)

theorem does_list (id : String) : Does (list id) (reading (Tables.list id)) := by
  refine (Registry.does_resolve id).bind_reading fun c => ?_
  exact (Does.read _).bind_reading fun records => Does.ofExcept _

theorem does_create (id : String) (key location quantity : Value) (fields : Mapping Value) :
    Does (create id key location quantity fields)
      (change (Tables.creation id key location quantity fields) Tables.find) := by
  refine (Registry.does_resolve id).bind_change fun c => ?_
  refine (Does.ofExcept _).bind_change fun key => ?_
  refine (Does.ofExcept _).bind_change fun location => ?_
  refine (Does.ofExcept _).bind_change fun quantity => ?_
  refine (Does.ofExcept _).bind_change fun values => ?_
  have hruns := Runs.guard (fun db => db.hasKey key) (fun _ => .duplicateKey key)
    (k := fun _ => Action.write fun now => Database.addEntry now key c.id location (.int quantity)
      (stored (Mapping.update (c.fieldNames.map (·, .null)) values))) (Runs.write _)
  rw [Action.discard_bind]
  refine Does.entryChange hruns (fun _ => key) (fun now db => ?_)
    (fun _ _ _ _ => Tables.insertion_categories) fun _ => does_find key
  rw [Tables.insertion, refuse_map, map_map]

theorem does_delete (key : String) :
    Does (delete key) (change (Tables.deletion key) fun _ _ => .ok ()) := by
  have hruns := Runs.orNone (f := fun _ => Database.deleteEntry key)
    (fun _ _ _ => Tables.deleteEntry_none) (.entryNotFound key)
  rw [delete, ← bind_pure (Action.transaction _)]
  refine Does.entryChange hruns id (fun now db => ?_)
    (fun _ _ _ _ => Tables.deletion_categories) Does.pure
  rw [Tables.deletion]
  cases Database.deleteEntry key db with
  | error e => rfl
  | ok c => exact refuse_map _ _ _

theorem runs_addition (key : String) (r : Record) (delta : Int) :
    Runs (do
        if ← Action.ofExcept (overflows r.quantity delta) then
          throw (Fault.quantityOverflow key r.quantity.toValue delta)
        let rows ← Action.write fun now => Database.adjustQuantity now key delta
        if rows = 0 then throw (Fault.insufficientQuantity key r.quantity.toValue delta))
      (Tables.addition key r delta) := by
  intro s
  rw [Action.exec_bind, Action.exec_ofExcept, Tables.addition]
  cases overflows r.quantity delta with
  | error e => rfl
  | ok b =>
      cases b with
      | true => rfl
      | false =>
          exact Runs.orNone (fun _ _ _ => Tables.adjustQuantity_none)
            (.insufficientQuantity key r.quantity.toValue delta) s

theorem runs_sum (key : String) (delta : Int) :
    Runs (do
        match ← Action.read (·.record? key) with
        | none => throw (Fault.entryNotFound key)
        | some r =>
          if ← Action.ofExcept (overflows r.quantity delta) then
            throw (Fault.quantityOverflow key r.quantity.toValue delta)
          let rows ← Action.write fun now => Database.adjustQuantity now key delta
          if rows = 0 then throw (Fault.insufficientQuantity key r.quantity.toValue delta))
      (Tables.sum key delta) := by
  intro s
  rw [Action.exec_bind, Action.exec_read, Tables.sum]
  cases s.db.record? key with
  | error e => rfl
  | ok r? =>
      cases r? with
      | none => rfl
      | some r => exact runs_addition key r delta s

theorem does_adjust (key : String) (v : Value) :
    Does (adjust key v) (change (Tables.adjustment key v) fun _ => Tables.find key) := by
  refine (Does.ofExcept _).bind_change fun delta => ?_
  exact Does.entryChange (runs_sum key delta) id (fun now db => map_id _)
    (fun _ _ _ _ => Tables.sum_categories) fun _ => does_find key

theorem does_give (key : String) (amount : Value) :
    Does (give key amount) (change (Tables.transfer id key amount) fun _ => Tables.find key) :=
  (Does.ofExcept _).bind_change fun n => does_adjust key (.int n)

theorem does_take (key : String) (amount : Value) :
    Does (take key amount)
      (change (Tables.transfer (- ·) key amount) fun _ => Tables.find key) :=
  (Does.ofExcept _).bind_change fun n => does_adjust key (.int (-n))

theorem does_modify (key : String) (updates : Mapping Value) :
    Does (modify key updates)
      (change (Tables.modification key updates) fun _ => Tables.find key) := by
  refine (does_find key).bind_change fun e => ?_
  refine (Registry.does_resolve e.category).bind_change fun c => ?_
  refine (Does.ofExcept _).bind_change fun _ => ?_
  refine (Does.ofExcept _).bind_change fun location => ?_
  refine (Does.ofExcept _).bind_change fun quantity => ?_
  refine (Does.ofExcept _).bind_change fun values => ?_
  rw [Action.discard_bind]
  refine Does.entryChange (Runs.write _) id (fun now db => map_id _)
    (fun now db rows change h => ?_) fun _ => does_find key
  simp only [map_eq_ok_iff] at h
  obtain ⟨change, hupdate, h⟩ := h
  cases h
  obtain ⟨cell, -, rfl⟩ := Tables.updateEntry_ok hupdate
  exact Tables.changeEntry_categories e.key _ db

theorem does_nextKeys (count : Nat) (start : Int) :
    Does (nextKeys count start) (reading (Tables.nextKeys count start)) := by
  by_cases hcount : count = 0
  · have hread : Tables.nextKeys count start = fun _ => .ok [] := by
      funext db
      rw [Tables.nextKeys, if_pos hcount]
    rw [nextKeys, if_pos hcount, hread]
    exact Does.pure []
  · have hread : Tables.nextKeys count start = fun db =>
        Key.encode start >>= fun _ => .ok (unusedKeys db count start.toNat) := by
      funext db
      rw [Tables.nextKeys, if_neg hcount]
      cases Key.encode start <;> rfl
    rw [nextKeys, if_neg hcount, hread, Action.discard_bind]
    exact (Does.ofExcept _).bind_reading fun _ =>
      Does.read fun db => .ok (unusedKeys db count start.toNat)

end Store

end Inventory

import Inventory.Proofs.Spec

/-!
# The operations as data

What can be asked of the registry and the store, with any arguments, and what the answers are.
All that the theory of runs needs to know of an operation is its effect on the tables.
-/

namespace Inventory

open Inventory.Action (Does)
open Effect (reading change Marks)

/-- An operation of the registry or the store with its arguments. -/
inductive Operation where
  | define (id : Value) (fields : List (Value × FieldType))
  | addField (id : String) (name : Value) (type : FieldType)
  | remove (id : String)
  | resolve (id : String)
  | categories
  | stats
  | invalidate
  | create (id : String) (key location quantity : Value) (fields : Mapping Value)
  | find (key : String)
  | list (id : String)
  | modify (key : String) (updates : Mapping Value)
  | adjust (key : String) (delta : Value)
  | give (key : String) (amount : Value)
  | take (key : String) (amount : Value)
  | delete (key : String)
  | nextKeys (count : Nat) (start : Int)

/-- What an operation gives. -/
inductive Answer where
  | done
  | category (c : Category)
  | categories (cs : List Category)
  | counts (counts : List (Category × Nat))
  | entry (e : Entry)
  | entries (es : List Entry)
  | keys (keys : List String)

namespace Operation

/-- The operation as it is done by a session. -/
def act : Operation → Action Answer
  | define id fields => .category <$> Registry.define id fields
  | addField id name type => .category <$> Registry.addField id name type
  | remove id => (fun _ => .done) <$> Registry.remove id
  | resolve id => .category <$> Registry.resolve id
  | categories => .categories <$> Registry.categories
  | stats => .counts <$> Registry.stats
  | invalidate => (fun _ => .done) <$> Registry.invalidate
  | create id key location quantity fields =>
    .entry <$> Store.create id key location quantity fields
  | find key => .entry <$> Store.find key
  | list id => .entries <$> Store.list id
  | modify key updates => .entry <$> Store.modify key updates
  | adjust key delta => .entry <$> Store.adjust key delta
  | give key amount => .entry <$> Store.give key amount
  | take key amount => .entry <$> Store.take key amount
  | delete key => (fun _ => .done) <$> Store.delete key
  | nextKeys count start => .keys <$> Store.nextKeys count start

/-- What the operation comes to on the tables. -/
def effect : Operation → Effect Answer
  | define id fields => (change (Tables.definition id fields) fun c _ => .ok c).map .category
  | addField id name type =>
    (change (Tables.extension id name type) fun c _ => .ok c).map .category
  | remove id => (change (Tables.removal id) fun _ _ => .ok ()).map fun _ => .done
  | resolve id => (reading (Tables.resolve id)).map .category
  | categories => (reading Tables.categories).map .categories
  | stats => (reading Tables.stats).map .counts
  | invalidate => (reading fun _ => .ok ()).map fun _ => .done
  | create id key location quantity fields =>
    (change (Tables.creation id key location quantity fields) Tables.find).map .entry
  | find key => (reading (Tables.find key)).map .entry
  | list id => (reading (Tables.list id)).map .entries
  | modify key updates =>
    (change (Tables.modification key updates) fun _ => Tables.find key).map .entry
  | adjust key delta =>
    (change (Tables.adjustment key delta) fun _ => Tables.find key).map .entry
  | give key amount =>
    (change (Tables.transfer id key amount) fun _ => Tables.find key).map .entry
  | take key amount =>
    (change (Tables.transfer (- ·) key amount) fun _ => Tables.find key).map .entry
  | delete key => (change (Tables.deletion key) fun _ _ => .ok ()).map fun _ => .done
  | nextKeys count start => (reading (Tables.nextKeys count start)).map .keys

/-- On sessions in order an operation comes to its effect. -/
theorem does_act (o : Operation) : Does o.act o.effect := by
  cases o with
  | define id fields => exact (Registry.does_define id fields).map _
  | addField id name type => exact (Registry.does_addField id name type).map _
  | remove id => exact (Registry.does_remove id).map _
  | resolve id => exact (Registry.does_resolve id).map _
  | categories => exact Registry.does_categories.map _
  | stats => exact Registry.does_stats.map _
  | invalidate => exact Registry.does_invalidate.map _
  | create id key location quantity fields =>
      exact (Store.does_create id key location quantity fields).map _
  | find key => exact (Store.does_find key).map _
  | list id => exact (Store.does_list id).map _
  | modify key updates => exact (Store.does_modify key updates).map _
  | adjust key delta => exact (Store.does_adjust key delta).map _
  | give key amount => exact (Store.does_give key amount).map _
  | take key amount => exact (Store.does_take key amount).map _
  | delete key => exact (Store.does_delete key).map _
  | nextKeys count start => exact (Store.does_nextKeys count start).map _

/-- Other sessions notice every change of the categories. -/
theorem effect_marks (o : Operation) : o.effect.Marks := by
  cases o with
  | define id fields =>
      refine (Marks.change (fun now db c change h hunwritten => ?_) _).map _
      obtain ⟨-, -, rfl⟩ := Tables.definition_ok h
      cases hunwritten
  | addField id name type =>
      refine (Marks.change (fun now db x change h hunwritten => ?_) _).map _
      obtain ⟨c, canonical, -, -, -, -, rfl⟩ := Tables.extension_ok h
      cases hunwritten
  | remove id =>
      refine (Marks.change (fun now db x change h hunwritten => ?_) _).map _
      obtain ⟨c, -, -, ⟨-, rfl⟩ | rfl⟩ := Tables.removal_ok h
      · rfl
      · cases hunwritten
  | create id key location quantity fields =>
      exact (Marks.change (fun _ _ _ _ h _ => Tables.creation_categories h) _).map _
  | modify key updates =>
      exact (Marks.change (fun _ _ _ _ h _ => Tables.modification_categories h) _).map _
  | adjust key delta =>
      exact (Marks.change (fun _ _ _ _ h _ => Tables.adjustment_categories h) _).map _
  | give key amount | take key amount =>
      exact (Marks.change (fun _ _ _ _ h _ => Tables.transfer_categories h) _).map _
  | delete key =>
      exact (Marks.change (fun _ _ _ _ h _ => Tables.deletion_categories h) _).map _
  | resolve | categories | stats | invalidate | find | list | nextKeys =>
      exact (Marks.reading _).map _

end Operation

end Inventory

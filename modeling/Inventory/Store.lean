import Inventory.Entry
import Inventory.Key
import Inventory.Query.Constraint
import Inventory.Registry

/-!
The store of entries. Input is checked against the schema before anything is written, every
change is one transaction, and rows are checked again whenever they are read, because a category
may have gained fields since they were written.
-/
namespace Inventory

/-- The value of a declared field in a record: missing ones are null, and whole numbers widen to
reals where the field is real. -/
def Record.fieldValue (r : Record) (f : FieldDef) : Except Fault Value := do
  let stored := (r.fields.get? f.name).getD .null
  let value ←
    match f.type, stored with
    | .real, .int n =>
      match Binary64.ofInt? n with
      | some x => pure (Value.real x)
      | none => throw .beyondReals
    | _, v => pure v
  if f.type.accepts value then return value
  else throw (.about value (.badStoredValue r.key f.name value f.type))

def Record.fieldValues (r : Record) : List FieldDef → Except Fault (Mapping Value)
  | [] => .ok []
  | f :: rest => do
    let value ← r.fieldValue f
    return (f.name, value) :: (← r.fieldValues rest)

/-- The entry of a record under a category, checked against what the category declares. -/
def Record.load (r : Record) (c : Category) : Except Fault Entry := do
  let undeclared := r.fields.names.filter fun name => (c.field? name).isNone
  if !undeclared.isEmpty then throw (.undeclaredFields r.key c.id undeclared)
  let fields ← r.fieldValues c.fields
  match r.quantity with
  | .int n =>
    if n < 0 then throw (.badStoredQuantity r.key (.int n))
    return ⟨r.key, c.id, r.location, .int n, fields, some r.created, some r.modified⟩
  | q => throw (.badStoredQuantity r.key q.toValue)

def Record.loadAll (c : Category) : List Record → Except Fault (List Entry)
  | [] => .ok []
  | r :: rest => do return (← r.load c) :: (← loadAll c rest)

namespace Store

/-! ### Checks -/

def checkKey : Value → Except Fault String
  | .text s => if Text.isBlankText s then .error (.blankKey (.text s)) else checkText s "key"
  | v => .error (.blankKey v)

def checkLocation : Value → Except Fault String
  | .text s => checkText s "location"
  | v => .error (.locationNotText v)

def checkQuantity : Value → Except Fault Int
  | .int n => do
    let n ← checkRange n
    if n < 0 then throw (.negativeQuantity n) else return n
  | v => .error (.about v (.quantityNotWhole v))

/-- The updates of declared fields as well-typed values by the canonical names of the fields. -/
def coerceUpdates (c : Category) :
    (done : Mapping Value) → Mapping Value → Except Fault (Mapping Value)
  | done, [] => .ok done
  | done, (name, value) :: rest =>
    match c.field? name with
    | none => .error (.unknownField c.id name)
    | some f => do
      let value ← Constraint.nameField f.name (f.type.coerce value)
      coerceUpdates c (done.insert f.name value) rest

/-- Null fields are not stored. -/
def stored (fields : Mapping Value) : Mapping Value :=
  fields.filter (!·.2.isNull)

/-! ### Reading -/

/-- The entry with a key. -/
def find (key : String) : Action Entry := do
  match ← Action.read (·.record? key) with
  | none => throw (.entryNotFound key)
  | some r =>
    let c ← category r.categoryId
    Action.ofExcept (r.load c)
where
  /-- The category of a row; a row whose category is gone is damaged. -/
  category (id : String) : Action Category :=
    tryCatch (Registry.resolve id) fun f =>
      throw (if f.kind = .categoryNotFound then .missingCategory key id else f)

/-- All entries of a category, in order of insertion. -/
def list (id : String) : Action (List Entry) := do
  let c ← Registry.resolve id
  let records ← Action.read fun db => Database.readRecords (db.entriesOf c.id)
  Action.ofExcept (Record.loadAll c records)

/-! ### Changing -/

/-- Creates an entry. -/
def create (categoryId : String) (key location quantity : Value) (fields : Mapping Value) :
    Action Entry := do
  let c ← Registry.resolve categoryId
  let key ← Action.ofExcept (checkKey key)
  let location ← Action.ofExcept (checkLocation location)
  let quantity ← Action.ofExcept (checkQuantity quantity)
  let unset : Mapping Value := c.fieldNames.map (·, .null)
  let values ← Action.ofExcept (coerceUpdates c [] fields)
  discard <| Action.transaction do
    if (← get).db.hasKey key then throw (.duplicateKey key)
    Action.write fun now =>
      Database.addEntry now key c.id location (.int quantity) (stored (unset.update values))
  find key

/-- The properties that never change. -/
def immutable : List String :=
  ["catagory", "created", "key", "modified"]

/-- Updates by names in lower case; of names that become equal, the last value counts. -/
def lowerNames (updates : Mapping Value) : Mapping Value :=
  Mapping.ofPairs (updates.map fun (name, value) => (Text.lower name, value))

/-- Updates leave the properties alone that never change. -/
def checkMutable (key : String) (updates : Mapping Value) : Except Fault Unit :=
  match immutable.find? updates.contains with
  | some name => .error (.immutable key name)
  | none => .ok ()

/-- The location after updates. -/
def newLocation (e : Entry) (updates : Mapping Value) : Except Fault String :=
  match updates.get? "location" with
  | some v => checkLocation v
  | none => .ok e.location

/-- The quantity after updates. -/
def newQuantity (e : Entry) (updates : Mapping Value) : Except Fault Value :=
  match updates.get? "quantity" with
  | some v => do return .int (← checkQuantity (← FieldType.integer.coerce v))
  | none => .ok e.quantity

/-- Changes location, quantity or fields of an entry; null and the empty text clear a field. -/
def modify (key : String) (updates : Mapping Value) : Action Entry := do
  let e ← find key
  let c ← Registry.resolve e.category
  let updates := lowerNames updates
  Action.ofExcept (checkMutable key updates)
  let location ← Action.ofExcept (newLocation e updates)
  let quantity ← Action.ofExcept (newQuantity e updates)
  let values ←
    Action.ofExcept (coerceUpdates c [] ((updates.erase "location").erase "quantity"))
  discard <| Action.transaction <| Action.write fun now =>
    Database.updateEntry now e.key location quantity (stored (e.fields.update values))
  find key

/-- The number by which a quantity is to change. -/
def checkDelta (key : String) (v : Value) : Except Fault Int := do
  match ← FieldType.integer.coerce v with
  | .int n => return n
  | _ => throw (.missingChange key)

/-- The quantity after a change would go beyond 64 bits. -/
def overflows (quantity : Cell) (delta : Int) : Except Fault Bool :=
  match quantity with
  | .int n => .ok (int64Max < n + delta)
  | .real x => .ok ((x.add ((Binary64.ofInt? delta).getD .nan)).exceeds int64Max)
  | .text _ => .error .textQuantity

/-- Adds to the quantity of an entry, which stays in the range from zero to 64 bits. -/
def adjust (key : String) (delta : Value) : Action Entry := do
  let delta ← Action.ofExcept (checkDelta key delta)
  Action.transaction do
    match ← Action.read (·.record? key) with
    | none => throw (.entryNotFound key)
    | some r =>
      if ← Action.ofExcept (overflows r.quantity delta) then
        throw (.quantityOverflow key r.quantity.toValue delta)
      let rows ← Action.write fun now => Database.adjustQuantity now key delta
      if rows = 0 then throw (.insufficientQuantity key r.quantity.toValue delta)
  find key

/-- Adds an amount that is not negative to a quantity. -/
def give (key : String) (amount : Value) : Action Entry := do
  adjust key (.int (← Action.ofExcept (checkQuantity amount)))

/-- Takes an amount that is not negative from a quantity. -/
def take (key : String) (amount : Value) : Action Entry := do
  adjust key (.int (-(← Action.ofExcept (checkQuantity amount))))

/-- Deletes an entry. -/
def delete (key : String) : Action Unit :=
  Action.transaction do
    let rows ← Action.write fun _ => Database.deleteEntry key
    if rows = 0 then throw (.entryNotFound key)

/-! ### Keys and searches -/

/-- A number from which on no number has the key of one of the rows. -/
def keyBound : List EntryRow → Nat
  | [] => 0
  | row :: rest => max (Key.wordCount row.key.length) (keyBound rest)

theorem wordCount_le_keyBound {row : EntryRow} {rows : List EntryRow} (h : row ∈ rows) :
    Key.wordCount row.key.length ≤ keyBound rows := by
  induction rows with
  | nil => cases h
  | cons first rest ih =>
      rw [keyBound]
      rcases List.mem_cons.1 h with rfl | h
      · exact Nat.le_max_left _ _
      · exact Nat.le_trans (ih h) (Nat.le_max_right _ _)

theorem hasKey_ofNat_of_keyBound_le {db : Database} {n : Nat} (h : keyBound db.entries ≤ n) :
    db.hasKey (Key.ofNat n) = false := by
  rw [Database.hasKey, List.any_eq_false]
  intro row hrow heq
  have hle := wordCount_le_keyBound hrow
  have hlt := Key.lt_wordCount_length_ofNat n
  rw [eq_of_beq heq] at hle
  omega

/-- At most so many keys are looked up at a time. -/
def keyBatch : Nat := 500

/-- The keys of the next numbers that no entry has. -/
def freeKeys (db : Database) (number size : Nat) : List String :=
  ((List.range' number size).map Key.ofNat).filter (!db.hasKey ·)

theorem length_freeKeys_of_keyBound_le {db : Database} {number : Nat} (size : Nat)
    (h : keyBound db.entries ≤ number) : (freeKeys db number size).length = size := by
  rw [freeKeys, List.filter_eq_self.2, List.length_map, List.length_range']
  intro key hkey
  obtain ⟨n, hn, rfl⟩ := List.mem_map.1 hkey
  rw [hasKey_ofNat_of_keyBound_le (Nat.le_trans h (List.mem_range'_1.1 hn).1)]
  rfl

/-- The first unused keys of numbers from `number` on. They are looked for batch after batch, in
each of which there are no more numbers than keys are still wanted. -/
def unusedKeys (db : Database) (wanted number : Nat) : List String :=
  if wanted = 0 then []
  else
    let size := min wanted keyBatch
    let free := freeKeys db number size
    free ++ unusedKeys db (wanted - free.length) (number + size)
termination_by (keyBound db.entries - number, wanted)
decreasing_by
  -- A batch comes closer to the bound, and behind it all of the batch is free.
  have hsize : 0 < min wanted keyBatch := by rw [keyBatch]; omega
  rcases Nat.lt_or_ge number (keyBound db.entries) with h | h
  · exact Prod.Lex.left _ _ (by omega)
  · rw [length_freeKeys_of_keyBound_le _ h, Nat.sub_eq_zero_of_le h,
      Nat.sub_eq_zero_of_le (Nat.le_trans h (Nat.le_add_right _ _))]
    exact Prod.Lex.right _ (by omega)

/-- The smallest unused keys from a number on. -/
def nextKeys (count : Nat) (start : Int) : Action (List String) := do
  if count = 0 then return []
  discard <| Action.ofExcept (Key.encode start)
  return unusedKeys (← get).db count start.toNat

def parseAll (c : Category) : List String → Except Fault FilterSet
  | [] => .ok []
  | e :: rest => do return (← Constraint.parse c e) :: (← parseAll c rest)

/-- The entries of a category that satisfy all expressions. -/
def search (id : String) (expressions : List String) : Action (List Entry) := do
  let c ← Registry.resolve id
  let filters ← Action.ofExcept (parseAll c expressions)
  return FilterSet.apply filters (← list c.id)

end Store

end Inventory

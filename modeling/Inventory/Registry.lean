import Inventory.Database.Session

/-!
The registry of categories: it defines, extends, looks up and removes them. Lookups go through
the session's cache, which is filled on first use, dropped after every successful change of this
registry, and filled again when another session has committed changes.
-/
namespace Inventory.Registry

/-- All categories in order of creation, from the cache while it is good. -/
def categories : Action (List Category) := do
  let s ← get
  match s.cache with
  | some c => if c.version = s.version then return c.categories else reload s
  | none => reload s
where
  reload (s : Session) : Action (List Category) := do
    let read ← Action.ofExcept (Database.readCategories s.db.categories)
    if s.remembers then set { s with cache := some ⟨s.version, read⟩ }
    return read

/-- Drops the cache. -/
def invalidate : Action Unit :=
  modify ({ · with cache := none })

/-- The category with an id in any case. -/
def resolve (id : String) : Action Category := do
  let lowered := Text.lower id
  match (← categories).find? (·.id == lowered) with
  | some c => return c
  | none => throw (.categoryNotFound id)

/-- Adds fields to a category, one after another. -/
def addFields (id : String) : List FieldDef → Action Unit
  | [] => return
  | f :: rest => do
    discard <| Action.write fun _ => Database.addField id f
    addFields id rest

/-- Defines a category. -/
def define (id : Value) (fields : List (Value × FieldType)) : Action Category := do
  let c ← Action.ofExcept (Category.define id fields)
  if (← categories).any (·.id == c.id) then throw (.duplicateCategory c.id)
  Action.transaction do
    discard <| Action.write fun _ => Database.addCategory c.id
    addFields c.id c.fields
  invalidate
  return c

/-- Adds a field at the end of a category. -/
def addField (id : String) (name : Value) (type : FieldType) : Action Category := do
  let c ← resolve id
  let f : FieldDef := ⟨← Action.ofExcept (Name.checkField name), type⟩
  if (c.field? f.name).isSome then throw (.duplicateField c.id f.name)
  discard <| Action.transaction (Action.write fun _ => Database.addField c.id f)
  invalidate
  return c.withField f

/-- Each category with the number of its entries, in order of creation. -/
def stats : Action (List (Category × Nat)) := do
  let cs ← categories
  let db := (← get).db
  return cs.map fun c => (c, db.countEntries c.id)

/-- Removes a category that has no entries. -/
def remove (id : String) : Action Unit := do
  let c ← resolve id
  discard <| Action.transaction do
    let count := (← get).db.countEntries c.id
    if count ≠ 0 then throw (.categoryNotEmpty c.id count)
    Action.write fun _ => Database.removeCategory c.id
  invalidate

end Inventory.Registry

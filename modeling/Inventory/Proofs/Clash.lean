import Inventory.Proofs.Checks
import Inventory.Proofs.Rows
import Inventory.Proofs.Script

/-!
# Keys that are in use

An entry cannot be created under a key that is in use. This is found in one place only: nothing
else that creating an entry does, from looking up its category to reading it back, takes a key for
a duplicate, and no other key comes into use.
-/

namespace Inventory

open Database (Change)

variable {α β : Type}

/-! ## Faults of this kind -/

/-- A fault because a key is in use. -/
def Clashes (r : Except Fault α) : Prop :=
  ∃ f, r = .error f ∧ f.kind = .duplicateKey

@[simp] theorem not_clashes_ok (x : α) : ¬Clashes (.ok x : Except Fault α) :=
  not_failsAs_ok x

@[simp] theorem clashes_error_iff (f : Fault) :
    Clashes (.error f : Except Fault α) ↔ f.kind = .duplicateKey :=
  failsAs_error_iff f

theorem not_clashes_of_kind {f : Fault} (h : f.kind ≠ .duplicateKey) :
    ¬Clashes (.error f : Except Fault α) :=
  fun hclash => h ((clashes_error_iff f).1 hclash)

/-- Whether a fault is of this kind does not depend on what failed. -/
theorem not_clashes_error {f : Fault} (h : ¬Clashes (.error f : Except Fault α)) :
    ¬Clashes (.error f : Except Fault β) := by
  rwa [clashes_error_iff] at h ⊢

@[simp] theorem clashes_map_iff (r : Except Fault α) (g : α → β) :
    Clashes (r.map g) ↔ Clashes r :=
  failsAs_map r g

theorem not_clashes_bind {r : Except Fault α} {k : α → Except Fault β} (hr : ¬Clashes r)
    (hk : ∀ x, ¬Clashes (k x)) : ¬Clashes (r >>= k) := by
  cases r with
  | error f => exact not_clashes_error hr
  | ok x => exact hk x

theorem not_clashes_guard {p : Prop} [Decidable p] {e : Fault} {k : Unit → Except Fault β}
    (he : e.kind ≠ .duplicateKey) (hk : ¬Clashes (k ())) :
    ¬Clashes (if p then (throw e : Except Fault Unit) >>= k else k ()) := by
  by_cases hp : p
  · rw [if_pos hp]
    exact not_clashes_bind (not_clashes_of_kind he) fun _ => hk
  · rwa [if_neg hp]

/-- A value that cannot be written hides what the fault was about, but makes no clash of it. -/
theorem not_clashes_about {f : Fault} (h : f.kind ≠ .duplicateKey) (v : Value) :
    ¬Clashes (.error (.about v f) : Except Fault α) := by
  refine not_clashes_of_kind ?_
  unfold Fault.about
  split
  · exact h
  · exact nofun

/-- A check that does not find duplicates finds no key in use. -/
theorem Finds.not_clashes {kinds : List FaultKind} {r : Except Fault α} (h : Finds kinds r)
    (hkinds : .duplicateKey ∉ kinds) : ¬Clashes r :=
  fun ⟨f, hf, hkind⟩ => hkinds (hkind ▸ (h f hf).1)

section Rows

theorem CategoryRow.not_clashes_readFields (id : String) (fields : List (String × String)) :
    ¬Clashes (readFields id fields) := by
  induction fields with
  | nil => exact not_clashes_ok _
  | cons field rest ih =>
      unfold readFields
      split
      · exact not_clashes_of_kind nofun
      · exact not_clashes_bind ih fun _ => not_clashes_ok _

theorem Tables.not_clashes_categories (db : Database) : ¬Clashes (Tables.categories db) := by
  have hrows (rows : List CategoryRow) : ¬Clashes (Database.readCategories rows) := by
    induction rows with
    | nil => exact not_clashes_ok _
    | cons row rest ih =>
        refine not_clashes_bind ?_ fun c => not_clashes_bind ih fun _ => not_clashes_ok _
        exact not_clashes_bind (CategoryRow.not_clashes_readFields _ _) fun _ => not_clashes_ok _
  exact hrows db.categories

theorem EntryRow.not_clashes_record (row : EntryRow) : ¬Clashes row.record := by
  unfold record
  split
  · exact not_clashes_of_kind nofun
  · exact not_clashes_ok _
  · exact not_clashes_of_kind nofun

theorem Database.not_clashes_record? (db : Database) (key : String) :
    ¬Clashes (db.record? key) := by
  unfold record?
  split
  · exact not_clashes_ok _
  · simpa using EntryRow.not_clashes_record _

theorem Record.not_clashes_fieldValue (r : Record) (f : FieldDef) : ¬Clashes (r.fieldValue f) := by
  have hcheck (v : Value) : ¬Clashes (if f.type.accepts v then pure v
      else throw (.about v (.badStoredValue r.key f.name v f.type)) : Except Fault Value) := by
    split
    · exact not_clashes_ok v
    · exact not_clashes_about (by nofun) v
  unfold fieldValue
  dsimp only
  split
  · split
    · exact not_clashes_bind (not_clashes_ok _) hcheck
    · exact not_clashes_bind (not_clashes_of_kind nofun) hcheck
  · exact not_clashes_bind (not_clashes_ok _) hcheck

theorem Record.not_clashes_fieldValues (r : Record) (fields : List FieldDef) :
    ¬Clashes (r.fieldValues fields) := by
  induction fields with
  | nil => exact not_clashes_ok _
  | cons f rest ih =>
      exact not_clashes_bind (r.not_clashes_fieldValue f) fun _ =>
        not_clashes_bind ih fun _ => not_clashes_ok _

theorem Record.not_clashes_load (r : Record) (c : Category) : ¬Clashes (r.load c) := by
  unfold load
  dsimp only
  refine not_clashes_guard nofun (not_clashes_bind (r.not_clashes_fieldValues _) fun fields => ?_)
  cases r.quantity with
  | int n => exact not_clashes_guard nofun (not_clashes_ok _)
  | real x => exact not_clashes_of_kind nofun
  | text s => exact not_clashes_of_kind nofun

/-- What a statement cannot do is not a key in use, whatever its message says. -/
theorem Fault.kind_ofStatement_ne (origin : StatementOrigin) (message : String) :
    (ofStatement origin message).kind ≠ .duplicateKey := by
  unfold ofStatement
  dsimp only
  split <;> exact nofun

theorem Cell.not_clashes_bind (parameter : Nat) (v : Value) : ¬Clashes (bind parameter v) := by
  cases v with
  | null => exact not_clashes_ok _
  | bool b => exact not_clashes_ok _
  | int n =>
      show ¬Clashes (if inInt64 n then .ok (some (int n)) else .error .beyondStorage)
      split
      · exact not_clashes_ok _
      · exact not_clashes_of_kind nofun
  | real x => cases x <;> exact not_clashes_ok _
  | text s => exact not_clashes_ok _
  | list items => exact not_clashes_of_kind nofun
  | mapping items => exact not_clashes_of_kind nofun

theorem Database.not_clashes_quantityCell (parameter : Nat) (v : Value) :
    ¬Clashes (quantityCell parameter v) := by
  refine Inventory.not_clashes_bind (Cell.not_clashes_bind parameter v) fun cell? => ?_
  cases cell? with
  | none => exact not_clashes_of_kind (Fault.kind_ofStatement_ne _ _)
  | some cell =>
      dsimp only
      split
      · exact not_clashes_ok _
      · exact not_clashes_of_kind (Fault.kind_ofStatement_ne _ _)

theorem Database.not_clashes_addEntry (now key id location : String) (quantity : Value)
    (fields : Mapping Value) (db : Database) :
    ¬Clashes (addEntry now key id location quantity fields db) := by
  refine Inventory.not_clashes_bind ?_ fun _ => ?_
  · unfold checkFields
    split
    · exact not_clashes_ok _
    · exact not_clashes_of_kind nofun
  · refine Inventory.not_clashes_bind (not_clashes_quantityCell 4 quantity) fun cell => ?_
    refine not_clashes_guard (Fault.kind_ofStatement_ne _ _) ?_
    exact not_clashes_guard (Fault.kind_ofStatement_ne _ _) (not_clashes_ok _)

end Rows

/-! ## Actions in any session -/

namespace Action

/-- In no session does the action find a key in use, and it leaves the tables alone. -/
def Quiet (a : Action α) : Prop :=
  ∀ s, ¬Clashes (a.exec s).1 ∧ (a.exec s).2.db = s.db

theorem Quiet.pure (x : α) : Quiet (pure x : Action α) :=
  fun _ => ⟨not_clashes_ok x, rfl⟩

theorem Quiet.throw {f : Fault} (h : f.kind ≠ .duplicateKey) : Quiet (throw f : Action α) :=
  fun _ => ⟨not_clashes_of_kind h, rfl⟩

theorem Quiet.ofExcept {r : Except Fault α} (h : ¬Clashes r) : Quiet (ofExcept r) := by
  intro s
  rw [exec_ofExcept]
  exact ⟨h, rfl⟩

theorem Quiet.read {f : Database → Except Fault α} (h : ∀ db, ¬Clashes (f db)) :
    Quiet (read f) := by
  intro s
  rw [exec_read]
  exact ⟨h s.db, rfl⟩

theorem Quiet.bind {a : Action α} {k : α → Action β} (ha : Quiet a) (hk : ∀ x, Quiet (k x)) :
    Quiet (a >>= k) := by
  intro s
  obtain ⟨hclash, hdb⟩ := ha s
  rw [exec_bind]
  rcases hexec : a.exec s with ⟨f | x, t⟩
  · rw [hexec] at hclash hdb
    exact ⟨not_clashes_error hclash, hdb⟩
  · rw [hexec] at hdb
    obtain ⟨hclash', hdb'⟩ := hk x t
    exact ⟨hclash', hdb'.trans hdb⟩

theorem Quiet.tryCatch {a : Action α} {k : Fault → Action α} (ha : Quiet a)
    (hk : ∀ f, f.kind ≠ .duplicateKey → Quiet (k f)) : Quiet (tryCatch a k) := by
  intro s
  obtain ⟨hclash, hdb⟩ := ha s
  rw [exec_tryCatch]
  rcases hexec : a.exec s with ⟨f | x, t⟩
  · rw [hexec] at hclash hdb
    obtain ⟨hclash', hdb'⟩ := hk f (fun h => hclash ((clashes_error_iff f).2 h)) t
    exact ⟨hclash', hdb'.trans hdb⟩
  · rw [hexec] at hdb
    exact ⟨not_clashes_ok x, hdb⟩

/-- In any session, the action finds a key in use only if it is `key` and an entry has it, and no
other key comes into use. -/
def Claims (key : String) (a : Action α) : Prop :=
  ∀ s, (Clashes (a.exec s).1 → s.db.hasKey key) ∧
    ∀ k, (a.exec s).2.db.hasKey k → k = key ∨ s.db.hasKey k

variable {key : String}

theorem Quiet.bind_claims {a : Action α} {k : α → Action β} (ha : Quiet a)
    (hk : ∀ x, Claims key (k x)) : Claims key (a >>= k) := by
  intro s
  obtain ⟨hclash, hdb⟩ := ha s
  rw [exec_bind]
  rcases hexec : a.exec s with ⟨f | x, t⟩
  · rw [hexec] at hclash hdb
    dsimp only at hdb ⊢
    rw [hdb]
    exact ⟨fun h => absurd h (not_clashes_error hclash), fun k => .inr⟩
  · rw [hexec] at hdb
    dsimp only at hdb ⊢
    rw [← hdb]
    exact hk x t

/-- A check whose result is known where it succeeds. -/
theorem Claims.ofExcept_bind {r : Except Fault α} {k : α → Action β} (hr : ¬Clashes r)
    (hk : ∀ x, r = .ok x → Claims key (k x)) : Claims key (ofExcept r >>= k) := by
  cases r with
  | error f => exact fun s => ⟨fun h => absurd h (not_clashes_error hr), fun k => .inr⟩
  | ok x => exact hk x rfl

theorem Claims.bind_quiet {a : Action α} {k : α → Action β} (ha : Claims key a)
    (hk : ∀ x, Quiet (k x)) : Claims key (a >>= k) := by
  intro s
  obtain ⟨hclash, hkeys⟩ := ha s
  rw [exec_bind]
  rcases hexec : a.exec s with ⟨f | x, t⟩
  · rw [hexec] at hclash hkeys
    exact ⟨fun h => hclash (by simpa using h), hkeys⟩
  · rw [hexec] at hkeys
    obtain ⟨hclash', hdb'⟩ := hk x t
    dsimp only
    rw [hdb']
    exact ⟨fun h => absurd h hclash', hkeys⟩

theorem Claims.map {a : Action α} (ha : Claims key a) (f : α → β) : Claims key (f <$> a) := by
  intro s
  rw [exec_map, clashes_map_iff]
  exact ha s

/-- A transaction of one statement, joined or alone. -/
theorem Runs.transaction_claims {b : Action β} {w : String → Database → Except Fault (β × Change)}
    (hb : Runs b w) (hclash : ∀ now db, Clashes (w now db) → db.hasKey key)
    (hkeys : ∀ now db x c k, w now db = .ok (x, c) → c.db.hasKey k → k = key ∨ db.hasKey k) :
    Claims key (Action.transaction b) := by
  intro s
  have hclash := hclash s.now s.db
  have hkeys := hkeys s.now s.db
  unfold Action.transaction
  cases hsaved : s.saved with
  | some db =>
      rw [exec_transactionIf_joined _ _ (by simp [hsaved]), hb s]
      cases hw : w s.now s.db with
      | error f => exact ⟨fun h => hclash (hw ▸ by simpa using h), fun k => .inr⟩
      | ok xc => exact ⟨fun h => absurd h (not_clashes_ok _), fun k => hkeys xc.1 xc.2 k hw⟩
  | none =>
      rw [exec_transactionIf _ _ hsaved, hb s.begin]
      have hbegin : w s.begin.now s.begin.db = w s.now s.db := rfl
      rw [hbegin]
      cases hw : w s.now s.db with
      | error f => exact ⟨fun h => hclash (hw ▸ by simpa using h), fun k => .inr⟩
      | ok xc => exact ⟨fun h => absurd h (not_clashes_ok _), fun k => hkeys xc.1 xc.2 k hw⟩

end Action

/-! ## Creating an entry -/

open Inventory.Action (Quiet Claims Runs)

theorem Registry.quiet_categories : Quiet categories := by
  intro s
  have hreload : ¬Clashes ((categories.reload s).exec s).1 ∧
      ((categories.reload s).exec s).2.db = s.db := by
    have hread := Tables.not_clashes_categories s.db
    rw [exec_reload]
    cases hcs : Tables.categories s.db with
    | error f =>
        rw [hcs] at hread
        exact ⟨fun h => hread (by simpa using h), rfl⟩
    | ok cs =>
        refine ⟨not_clashes_ok cs, ?_⟩
        dsimp only
        split <;> rfl
  rw [exec_categories]
  split
  · split
    · exact ⟨not_clashes_ok _, rfl⟩
    · exact hreload
  · exact hreload

theorem Registry.quiet_resolve (id : String) : Quiet (resolve id) := by
  refine quiet_categories.bind fun cs => ?_
  split
  · exact .pure _
  · exact .throw nofun

namespace Store

theorem quiet_category (key id : String) : Quiet (find.category key id) := by
  refine (Registry.quiet_resolve id).tryCatch fun f hf => .throw ?_
  split
  · exact nofun
  · exact hf

theorem quiet_find (key : String) : Quiet (find key) := by
  refine (Quiet.read fun db => db.not_clashes_record? key).bind fun r? => ?_
  cases r? with
  | none => exact .throw nofun
  | some r =>
      exact (quiet_category key r.categoryId).bind fun c => .ofExcept (r.not_clashes_load c)

theorem claims_create (id key : String) (location quantity : Value) (fields : Mapping Value) :
    Claims key (create id (.text key) location quantity fields) := by
  refine (Registry.quiet_resolve id).bind_claims fun c => ?_
  refine Claims.ofExcept_bind ((finds_checkKey _).not_clashes (by decide)) fun checked hchecked => ?_
  obtain rfl := Value.text.inj (checkKey_ok hchecked)
  have hlocation := (finds_checkLocation location).not_clashes (by decide)
  have hquantity := (finds_checkQuantity quantity).not_clashes (by decide)
  have hupdates := (finds_coerceUpdates c fields []).not_clashes (by decide)
  refine (Quiet.ofExcept hlocation).bind_claims fun location => ?_
  refine (Quiet.ofExcept hquantity).bind_claims fun quantity => ?_
  refine (Quiet.ofExcept hupdates).bind_claims fun values => ?_
  rw [Action.discard_bind]
  have hruns := Runs.guard (fun db => db.hasKey key) (fun _ => .duplicateKey key)
    (k := fun _ => Action.write fun now => Database.addEntry now key c.id location (.int quantity)
      (stored (Mapping.update (c.fieldNames.map (·, .null)) values))) (Runs.write _)
  refine (Runs.transaction_claims hruns (fun now db h => ?_)
    fun now db x change k h hk => ?_).bind_quiet fun _ => quiet_find key
  · by_cases hkey : db.hasKey key
    · exact hkey
    · rw [if_neg hkey, clashes_map_iff] at h
      exact absurd h (Database.not_clashes_addEntry _ _ _ _ _ _ _)
  · obtain ⟨-, h⟩ := refuse_eq_ok_iff.1 h
    obtain ⟨change', hadd, heq⟩ := map_eq_ok_iff.1 h
    cases heq
    obtain ⟨cell, -, -, rfl⟩ := Tables.addEntry_ok hadd
    rw [Database.hasKey, List.any_append, Bool.or_eq_true] at hk
    rcases hk with hk | hk
    · exact .inr hk
    · rw [List.any_cons, List.any_nil, Bool.or_false] at hk
      exact .inl (eq_of_beq hk).symm

end Store

end Inventory

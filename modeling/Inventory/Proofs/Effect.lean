import Inventory.Database.Table

/-!
# Effects on the tables

What an action comes to when neither its session's cache nor an open transaction counts: a
function of the time and of the tables, which gives a result and says what was changed. Three
properties are what runs need to know of an effect: others notice when it changes the categories,
it keeps an invariant, and it changes nothing when it fails.
-/

namespace Inventory

open Database (Change)

/-- What an action comes to on tables at a time: its result, and what it changed. -/
abbrev Effect (α : Type) := (now : String) → Database → Except Fault α × Change

namespace Effect

variable {α β : Type}

/-- Only the tables are read. -/
def reading (g : Database → Except Fault α) : Effect α :=
  fun _ db => (g db, db.unchanged)

/-- One change of the tables, made completely or not at all, and what is read back after it. -/
def change (w : (now : String) → Database → Except Fault (β × Change))
    (back : β → Database → Except Fault α) : Effect α := fun now db =>
  match w now db with
  | .ok (x, c) => (back x c.db, c)
  | .error e => (.error e, db.unchanged)

/-- Something is read, and what follows depends on it. -/
def after (g : Database → Except Fault β) (h : β → Effect α) : Effect α := fun now db =>
  match g db with
  | .ok x => h x now db
  | .error e => (.error e, db.unchanged)

/-- What is read where the first reading fails. -/
def orElse (g : Database → Except Fault α) (h : Fault → Database → Except Fault α)
    (db : Database) : Except Fault α :=
  match g db with
  | .ok x => .ok x
  | .error e => h e db

/-- The effect with another form of its result. -/
def map (r : α → β) (f : Effect α) : Effect β :=
  fun now db => ((f now db).1.map r, (f now db).2)

theorem after_reading (g : Database → Except Fault β) (h : β → Database → Except Fault α) :
    after g (fun x => reading (h x)) = reading fun db => g db >>= fun x => h x db := by
  funext now db
  simp only [after, reading]
  cases g db <;> rfl

theorem after_change {γ : Type} (g : Database → Except Fault β)
    (w : β → String → Database → Except Fault (γ × Change))
    (back : γ → Database → Except Fault α) :
    after g (fun x => change (w x) back) =
      change (fun now db => g db >>= fun x => w x now db) back := by
  funext now db
  simp only [after, change]
  cases g db <;> rfl

theorem change_of_ok {w : String → Database → Except Fault (β × Change)}
    {back : β → Database → Except Fault α} {now : String} {db : Database} {x : β} {c : Change}
    (h : w now db = .ok (x, c)) : change w back now db = (back x c.db, c) := by
  rw [change, h]

/-- Either what a change would write is refused, or it is written and read back. -/
theorem change_cases (w : String → Database → Except Fault (β × Change))
    (back : β → Database → Except Fault α) (now : String) (db : Database) :
    (∃ f, w now db = .error f ∧ change w back now db = (.error f, db.unchanged)) ∨
      ∃ x c, w now db = .ok (x, c) ∧ change w back now db = (back x c.db, c) := by
  cases hw : w now db with
  | error f => exact .inl ⟨f, rfl, by rw [change, hw]⟩
  | ok xc => exact .inr ⟨xc.1, xc.2, rfl, change_of_ok hw⟩

/-- What was changed and read back, when both succeeded. -/
theorem change_ok {w : String → Database → Except Fault (β × Change)}
    {back : β → Database → Except Fault α} {now : String} {db : Database} {y : α}
    (h : (change w back now db).1 = .ok y) :
    ∃ x c, w now db = .ok (x, c) ∧ back x c.db = .ok y ∧ (change w back now db).2 = c := by
  cases hr : w now db with
  | error e =>
      rw [change, hr] at h
      cases h
  | ok xc =>
      rw [change_of_ok hr] at h ⊢
      exact ⟨xc.1, xc.2, rfl, h, rfl⟩

/-- A change succeeds if it can be written, where what is written can be read back. -/
theorem change_ok_iff {w : String → Database → Except Fault (β × Change)}
    {back : β → Database → Except Fault α} {now : String} {db : Database}
    (hback : ∀ x c, w now db = .ok (x, c) → ∃ y, back x c.db = .ok y) :
    (∃ y, (change w back now db).1 = .ok y) ↔ ∃ x, w now db = .ok x := by
  constructor
  · rintro ⟨y, hy⟩
    obtain ⟨x, c, hw, -⟩ := change_ok hy
    exact ⟨(x, c), hw⟩
  · rintro ⟨⟨x, c⟩, hw⟩
    rw [change_of_ok hw]
    exact hback x c hw

/-- A change that other sessions do not notice leaves the categories alone. -/
def Marks (f : Effect α) : Prop :=
  ∀ now db, (f now db).2.isWritten = false → (f now db).2.db.categories = db.categories

theorem Marks.reading (g : Database → Except Fault α) : Marks (reading g) :=
  fun _ _ _ => rfl

theorem Marks.change {w : String → Database → Except Fault (β × Change)}
    (hw : ∀ now db x c, w now db = .ok (x, c) → c.isWritten = false →
      c.db.categories = db.categories)
    (back : β → Database → Except Fault α) : Marks (change w back) := by
  intro now db hunwritten
  unfold Effect.change at hunwritten ⊢
  cases hr : w now db with
  | error e => rfl
  | ok xc =>
      rw [hr] at hunwritten
      exact hw now db xc.1 xc.2 hr hunwritten

theorem Marks.map {f : Effect α} (hf : Marks f) (r : α → β) : Marks (f.map r) :=
  hf

/-- The effect preserves a property of the tables. -/
def Keeps (I : Database → Prop) (f : Effect α) : Prop :=
  ∀ now db, I db → I (f now db).2.db

theorem Keeps.reading {I : Database → Prop} (g : Database → Except Fault α) :
    Keeps I (reading g) :=
  fun _ _ h => h

theorem Keeps.change {I : Database → Prop} {w : String → Database → Except Fault (β × Change)}
    (hw : ∀ now db x c, I db → w now db = .ok (x, c) → I c.db)
    (back : β → Database → Except Fault α) : Keeps I (change w back) := by
  intro now db h
  unfold Effect.change
  cases hr : w now db with
  | error e => exact h
  | ok xc => exact hw now db xc.1 xc.2 h hr

theorem Keeps.map {I : Database → Prop} {f : Effect α} (hf : Keeps I f) (r : α → β) :
    Keeps I (f.map r) :=
  hf

/-- On tables with the property, what fails changes nothing. -/
def Atomic (I : Database → Prop) (f : Effect α) : Prop :=
  ∀ now db e, I db → (f now db).1 = .error e → (f now db).2 = db.unchanged

theorem Atomic.reading {I : Database → Prop} (g : Database → Except Fault α) :
    Atomic I (reading g) :=
  fun _ _ _ _ _ => rfl

/-- A change is made completely or not at all, so only reading it back must not fail. -/
theorem Atomic.change {I : Database → Prop} {w : String → Database → Except Fault (β × Change)}
    {back : β → Database → Except Fault α}
    (hback : ∀ now db x c, I db → w now db = .ok (x, c) → ∃ y, back x c.db = .ok y) :
    Atomic I (change w back) := by
  intro now db e h hfault
  unfold Effect.change at hfault ⊢
  cases hr : w now db with
  | error e => rfl
  | ok xc =>
      obtain ⟨y, hy⟩ := hback now db xc.1 xc.2 h hr
      simp only [hr, hy] at hfault
      cases hfault

theorem Atomic.map {I : Database → Prop} {f : Effect α} (hf : Atomic I f) (r : α → β) :
    Atomic I (f.map r) := by
  intro now db e h hfault
  cases hr : (f now db).1 with
  | error e => exact hf now db e h hr
  | ok x =>
      simp only [Effect.map, hr] at hfault
      cases hfault

end Effect

end Inventory

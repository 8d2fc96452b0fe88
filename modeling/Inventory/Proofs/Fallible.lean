import Inventory.Fault
import Mathlib.Data.List.Forall2

/-!
# Steps that can fail

When a chain of steps succeeds, each of its steps did. These equivalences take such chains apart
without opening the monad. When steps are taken for the members of a list, the first one that fails
decides.
-/

namespace Inventory

variable {α β : Type}

theorem bind_eq_ok_iff {e : Except Fault α} {k : α → Except Fault β} {y : β} :
    (e >>= k) = .ok y ↔ ∃ x, e = .ok x ∧ k x = .ok y := by
  cases e with
  | error f => simp [bind, Except.bind]
  | ok x => simp [bind, Except.bind]

/-- A chain of steps fails where its first step fails, or where the rest does. -/
theorem bind_eq_error_iff {e : Except Fault α} {k : α → Except Fault β} {f : Fault} :
    (e >>= k) = .error f ↔ e = .error f ∨ ∃ x, e = .ok x ∧ k x = .error f := by
  cases e with
  | error g => simp [bind, Except.bind]
  | ok x => simp [bind, Except.bind]

/-- A result that is there and has a property. -/
instance {P : α → Prop} [DecidablePred P] (r : Except Fault α) :
    Decidable (∃ x, r = .ok x ∧ P x) :=
  match r with
  | .ok x => decidable_of_iff (P x) ⟨fun h => ⟨x, rfl, h⟩, fun ⟨_, hx, h⟩ => by cases hx; exact h⟩
  | .error _ => isFalse fun ⟨_, hx, _⟩ => nomatch hx

theorem ok_bind (x : α) (k : α → Except Fault β) : (Except.ok x >>= k) = k x :=
  rfl

/-- What follows a step needs to be the same only for the value that the step gives. -/
theorem bind_congr_ok {e : Except Fault α} {k k' : α → Except Fault β}
    (h : ∀ x, e = .ok x → k x = k' x) : e >>= k = e >>= k' := by
  cases e with
  | error f => rfl
  | ok x => exact h x rfl

theorem map_eq_ok_iff {e : Except Fault α} {r : α → β} {y : β} :
    e.map r = .ok y ↔ ∃ x, e = .ok x ∧ r x = y := by
  cases e <;> simp [Except.map]

theorem map_eq_error_iff {e : Except Fault α} {r : α → β} {f : Fault} :
    e.map r = .error f ↔ e = .error f := by
  cases e <;> simp [Except.map]

theorem map_id (e : Except Fault α) : e.map id = e := by
  cases e <;> rfl

theorem map_map {γ : Type} (e : Except Fault α) (r : α → β) (q : β → γ) :
    (e.map r).map q = e.map fun x => q (r x) := by
  cases e <;> rfl

/-! ### Faults of some sort -/

section Faults

variable {P : Fault → Prop}

/-- The result is a fault of some sort. -/
def FailsAs (P : Fault → Prop) (r : Except Fault α) : Prop :=
  ∃ f, r = .error f ∧ P f

theorem not_failsAs_ok (x : α) : ¬FailsAs P (.ok x : Except Fault α) := by
  intro ⟨f, hf, _⟩
  cases hf

theorem failsAs_error_iff (f : Fault) : FailsAs P (.error f : Except Fault α) ↔ P f := by
  simp [FailsAs]

theorem failsAs_bind (r : Except Fault α) (k : α → Except Fault β) :
    FailsAs P (r >>= k) ↔ FailsAs P r ∨ ∃ x, r = .ok x ∧ FailsAs P (k x) := by
  cases r <;> simp [bind, Except.bind, FailsAs]

theorem failsAs_map (r : Except Fault α) (g : α → β) : FailsAs P (r.map g) ↔ FailsAs P r := by
  cases r <;> simp [Except.map, FailsAs]

end Faults

/-- A guard in front of further steps. -/
theorem guard_eq_ok_iff {p : Prop} [Decidable p] {e : Fault} {k : Unit → Except Fault β} {y : β} :
    (if p then (throw e : Except Fault Unit) >>= k else k ()) = .ok y ↔ ¬p ∧ k () = .ok y := by
  by_cases hp : p
  · simp [hp, throw, throwThe, MonadExceptOf.throw, bind, Except.bind]
  · simp [hp]

/-- A guard in place of the whole result. -/
theorem refuse_eq_ok_iff {p : Prop} [Decidable p] {e : Fault} {r : Except Fault β} {y : β} :
    (if p then .error e else r) = .ok y ↔ ¬p ∧ r = .ok y := by
  by_cases hp : p <;> simp [hp]

theorem refuse_map {p : Prop} [Decidable p] (e : Fault) (r : Except Fault α) (q : α → β) :
    (if p then .error e else r : Except Fault α).map q = if p then .error e else r.map q := by
  by_cases hp : p
  · rw [if_pos hp, if_pos hp]
    rfl
  · rw [if_neg hp, if_neg hp]

section Lists

variable {k : α → Except Fault β} {xs : List α}

/-- Steps for the members of a list succeed exactly if each of them does. -/
theorem mapM_eq_ok_iff {ys : List β} :
    xs.mapM k = .ok ys ↔ List.Forall₂ (fun x y => k x = .ok y) xs ys := by
  induction xs generalizing ys with
  | nil =>
      rw [List.mapM_nil, List.forall₂_nil_left_iff]
      exact ⟨fun h => by cases h; rfl, fun h => by rw [h]; rfl⟩
  | cons x rest ih =>
      rw [List.mapM_cons, bind_eq_ok_iff, List.forall₂_cons_left_iff]
      constructor
      · rintro ⟨y, hy, h⟩
        obtain ⟨others, hothers, heq⟩ := bind_eq_ok_iff.1 h
        cases heq
        exact ⟨y, others, hy, ih.1 hothers, rfl⟩
      · rintro ⟨y, others, hy, hothers, rfl⟩
        exact ⟨y, hy, bind_eq_ok_iff.2 ⟨others, ih.2 hothers, rfl⟩⟩

/-- Two steps for each member, the first ones before the second ones. -/
theorem mapM_bind_mapM_eq_ok_iff {γ : Type} {g : β → Except Fault γ} {zs : List γ} :
    (xs.mapM k >>= fun ys => ys.mapM g) = .ok zs ↔
      List.Forall₂ (fun x z => ∃ y, k x = .ok y ∧ g y = .ok z) xs zs := by
  rw [bind_eq_ok_iff]
  simp only [mapM_eq_ok_iff]
  constructor
  · rintro ⟨ys, hys, hzs⟩
    induction hys generalizing zs with
    | nil =>
        cases hzs
        exact .nil
    | cons hy _ ih =>
        cases hzs with
        | cons hz hrest => exact .cons ⟨_, hy, hz⟩ (ih hrest)
  · intro h
    induction h with
    | nil => exact ⟨[], .nil, .nil⟩
    | cons hstep _ ih =>
        obtain ⟨y, hy, hz⟩ := hstep
        obtain ⟨ys, hys, hzs⟩ := ih
        exact ⟨y :: ys, .cons hy hys, .cons hz hzs⟩

/-- If each step gives something that fits its member, so do all of them together. -/
theorem exists_mapM_eq_ok {P : α → β → Prop} (h : ∀ x ∈ xs, ∃ y, k x = .ok y ∧ P x y) :
    ∃ ys, xs.mapM k = .ok ys ∧ List.Forall₂ P xs ys := by
  induction xs with
  | nil => exact ⟨[], rfl, .nil⟩
  | cons x rest ih =>
      obtain ⟨⟨y, hy, hfits⟩, hrest⟩ := List.forall_mem_cons.1 h
      obtain ⟨ys, hys, hall⟩ := ih hrest
      refine ⟨y :: ys, ?_, .cons hfits hall⟩
      rw [List.mapM_cons, hy, hys]
      rfl

theorem exists_mapM_eq_ok_iff :
    (∃ ys, xs.mapM k = .ok ys) ↔ ∀ x ∈ xs, ∃ y, k x = .ok y := by
  constructor
  · rintro ⟨ys, h⟩
    have hboth := (mapM_eq_ok_iff.1 h).imp
      fun x y hy => (⟨⟨y, hy⟩, hy⟩ : (∃ y, k x = .ok y) ∧ k x = .ok y)
    exact ((List.forall₂_and_left xs ys).1 hboth).1
  · intro h
    obtain ⟨ys, hys, -⟩ := exists_mapM_eq_ok (P := fun _ _ => True) fun x hx =>
      (h x hx).imp fun _ hy => ⟨hy, trivial⟩
    exact ⟨ys, hys⟩

/-- The first step that fails decides. -/
theorem mapM_eq_error_iff {f : Fault} : xs.mapM k = .error f ↔
    ∃ before x after, xs = before ++ x :: after ∧ k x = .error f ∧
      ∀ b ∈ before, ∃ y, k b = .ok y := by
  induction xs with
  | nil =>
      refine iff_of_false nofun ?_
      rintro ⟨before, x, after, heq, -⟩
      exact absurd heq.symm (List.append_ne_nil_of_right_ne_nil _ (List.cons_ne_nil _ _))
  | cons x rest ih =>
      have hstep : (x :: rest).mapM k = k x >>= fun y => (rest.mapM k).map (y :: ·) := by
        rw [List.mapM_cons]
        rfl
      rw [hstep]
      cases hx : k x with
      | error g =>
          constructor
          · rintro ⟨⟩
            exact ⟨[], x, rest, rfl, hx, nofun⟩
          · rintro ⟨before, z, after, heq, hz, hbefore⟩
            cases before with
            | nil =>
                cases heq
                exact congrArg Except.error (Except.error.inj (hx.symm.trans hz))
            | cons b before =>
                cases heq
                obtain ⟨y, hy⟩ := hbefore x (List.mem_cons_self ..)
                cases hx.symm.trans hy
      | ok y =>
          rw [ok_bind, map_eq_error_iff, ih]
          constructor
          · rintro ⟨before, z, after, rfl, hz, hbefore⟩
            exact ⟨x :: before, z, after, rfl, hz, List.forall_mem_cons.2 ⟨⟨y, hx⟩, hbefore⟩⟩
          · rintro ⟨before, z, after, heq, hz, hbefore⟩
            cases before with
            | nil =>
                cases heq
                cases hx.symm.trans hz
            | cons b before =>
                cases heq
                exact ⟨before, z, after, rfl, hz, fun c hc => hbefore c (List.mem_cons_of_mem _ hc)⟩

end Lists

end Inventory

import Inventory.Proofs.Clash
import Inventory.Proofs.Keys

/-!
# Unused keys

Unused keys are looked for in batches, each of which begins where the one before it ends. What one
batch finds are all free numbers of its range, so that what the batches find together are the
smallest free numbers, with none left out between them. Under such keys entries can be created one
after another, and none of them takes a key away from the others.
-/

namespace Inventory

/-! ## The smallest numbers with a property -/

/-- The numbers are the `count` smallest ones from `start` on that have a property, in increasing
order. -/
structure AreSmallest (p : Nat → Prop) (start count : Nat) (ns : List Nat) : Prop where
  length : ns.length = count
  sorted : ns.Pairwise (· < ·)
  mem : ∀ n ∈ ns, start ≤ n ∧ p n
  least : ∀ m, start ≤ m → p m → m ∉ ns → ∀ n ∈ ns, n < m

namespace AreSmallest

variable {p : Nat → Prop} {start count : Nat} {ns ms : List Nat}

theorem nil : AreSmallest p start 0 [] where
  length := rfl
  sorted := .nil
  mem := nofun
  least := fun _ _ _ _ => nofun

/-- All numbers with the property in a range, and the smallest ones behind the range. -/
theorem append {bound : Nat} (hsorted : ns.Pairwise (· < ·))
    (hns : ∀ n, n ∈ ns ↔ start ≤ n ∧ n < bound ∧ p n) (hcount : ns.length ≤ count)
    (hbound : start ≤ bound) (h : AreSmallest p bound (count - ns.length) ms) :
    AreSmallest p start count (ns ++ ms) where
  length := by
    rw [List.length_append, h.length]
    omega
  sorted := by
    refine List.pairwise_append.2 ⟨hsorted, h.sorted, fun n hn m hm => ?_⟩
    have hlt := ((hns n).1 hn).2.1
    have hle := (h.mem m hm).1
    omega
  mem := by
    intro n hn
    rcases List.mem_append.1 hn with hn | hn
    · exact ⟨((hns n).1 hn).1, ((hns n).1 hn).2.2⟩
    · exact ⟨Nat.le_trans hbound (h.mem n hn).1, (h.mem n hn).2⟩
  least := by
    intro m hm hp hnone n hn
    rw [List.mem_append, not_or] at hnone
    -- A number of the range that has the property is among the first ones.
    have hbehind : bound ≤ m := by
      by_contra hlt
      exact hnone.1 ((hns m).2 ⟨hm, by omega, hp⟩)
    rcases List.mem_append.1 hn with hn | hn
    · exact Nat.lt_of_lt_of_le ((hns n).1 hn).2.1 hbehind
    · exact h.least m hbehind hp hnone.2 n hn

end AreSmallest

/-! ## Batches of keys -/

namespace Store

/-- No entry has the key of the number. -/
def Unused (db : Database) (n : Nat) : Prop :=
  db.hasKey (Key.ofNat n) = false

/-- The numbers of a batch whose keys are free. -/
def freeNumbers (db : Database) (number size : Nat) : List Nat :=
  (List.range' number size).filter fun n => !db.hasKey (Key.ofNat n)

variable {db : Database}

theorem freeKeys_eq_map (db : Database) (number size : Nat) :
    freeKeys db number size = (freeNumbers db number size).map Key.ofNat := by
  rw [freeKeys, freeNumbers, List.filter_map]
  rfl

theorem mem_freeNumbers_iff {number size n : Nat} :
    n ∈ freeNumbers db number size ↔ number ≤ n ∧ n < number + size ∧ Unused db n := by
  rw [freeNumbers, List.mem_filter, List.mem_range'_1, and_assoc, Bool.not_eq_true']
  rfl

theorem freeNumbers_sorted (db : Database) (number size : Nat) :
    (freeNumbers db number size).Pairwise (· < ·) :=
  List.Pairwise.filter _ (List.pairwise_lt_range' 1)

theorem length_freeNumbers_le (db : Database) (number size : Nat) :
    (freeNumbers db number size).length ≤ size := by
  have hle := List.length_filter_le (fun n => !db.hasKey (Key.ofNat n)) (List.range' number size)
  rwa [List.length_range'] at hle

/-- What the batches find together. -/
theorem unusedKeys_areSmallest (db : Database) (wanted number : Nat) :
    ∃ ns, unusedKeys db wanted number = ns.map Key.ofNat ∧
      AreSmallest (Unused db) number wanted ns := by
  induction wanted, number using unusedKeys.induct db with
  | case1 number =>
      refine ⟨[], ?_, .nil⟩
      rw [unusedKeys, if_pos rfl]
      rfl
  | case2 wanted number hwanted size free ih =>
      obtain ⟨ms, hms, hsmallest⟩ := ih
      have hlength : free.length = (freeNumbers db number size).length := by
        show (freeKeys db number size).length = _
        rw [freeKeys_eq_map, List.length_map]
      refine ⟨freeNumbers db number size ++ ms, ?_, ?_⟩
      · rw [unusedKeys, if_neg hwanted, List.map_append, ← hms, ← freeKeys_eq_map]
      · rw [hlength] at hsmallest
        refine AreSmallest.append (freeNumbers_sorted db number size)
          (fun n => mem_freeNumbers_iff) ?_ (Nat.le_add_right number size) hsmallest
        exact Nat.le_trans (length_freeNumbers_le db number size) (Nat.min_le_left _ _)

theorem exec_nextKeys (s : Session) (count start : Nat) :
    (nextKeys count start).exec s = (.ok (unusedKeys s.db count start), s) := by
  rw [nextKeys]
  by_cases hcount : count = 0
  · subst hcount
    rw [if_pos rfl, unusedKeys, if_pos rfl]
    rfl
  · rw [if_neg hcount, Action.discard_bind, Action.exec_bind, Action.exec_ofExcept,
      Key.encode_natCast]
    rfl

end Store

/-! ## Entries under unused keys -/

/-- What an entry is to be but for its key, and when it is created. -/
structure Draft where
  now : String
  category : String
  location : Value
  quantity : Value
  fields : Mapping Value

/-- Creates entries under keys one after another, whatever becomes of each. -/
def Script.filing (draft : String → Draft) : List String → Script
  | [] => .done
  | key :: rest =>
    .tick (draft key).now <|
      .op (.create (draft key).category (.text key) (draft key).location (draft key).quantity
        (draft key).fields) (filing draft rest)

/-- Under distinct keys that no entry has, none is found to be in use. -/
theorem Script.not_clashes_filing (draft : String → Draft) (keys : List String) (s : Session)
    (hnodup : keys.Nodup) (hfree : ∀ key ∈ keys, s.db.hasKey key = false) :
    ∀ reply ∈ ((filing draft keys).run s).1, ¬Clashes reply.1 := by
  induction keys generalizing s with
  | nil => exact nofun
  | cons key rest ih =>
      obtain ⟨hnew, hrest⟩ := List.nodup_cons.1 hnodup
      -- One creation needs only its own key free and brings no other one into use.
      obtain ⟨hclash, hkeys⟩ := (Store.claims_create (draft key).category key (draft key).location
        (draft key).quantity (draft key).fields).map Answer.entry
          { s with now := (draft key).now }
      intro reply hreply
      rcases List.mem_cons.1 hreply with rfl | hreply
      · intro h
        exact absurd (hclash h) (Bool.eq_false_iff.1 (hfree key (List.mem_cons_self ..)))
      · refine ih _ hrest (fun other hother => ?_) reply hreply
        rw [Bool.eq_false_iff]
        intro hused
        rcases hkeys other hused with rfl | hused
        · exact hnew hother
        · exact absurd hused (Bool.eq_false_iff.1 (hfree other (List.mem_cons_of_mem _ hother)))

/-- In every session, on any tables, asking for unused keys changes nothing and gives the keys of
the smallest numbers from `start` on whose keys no entry has, in increasing order and each once.
Whatever entries are then created under these keys one after another, none of them is refused
because its key is in use. -/
theorem nextKeys_smallest (s : Session) (count start : Nat) :
    ∃ (numbers : List Nat) (keys : List String),
      (Store.nextKeys count start).exec s = (.ok keys, s) ∧
      List.Forall₂ (fun (n : Nat) key => Key.encode n = .ok key) numbers keys ∧
      AreSmallest (fun n => ∀ key, Key.encode n = .ok key → s.db.hasKey key = false)
        start count numbers ∧
      keys.Nodup ∧
      ∀ draft : String → Draft, ∀ reply ∈ ((Script.filing draft keys).run s).1,
        ¬Clashes reply.1 := by
  obtain ⟨numbers, heq, hsmallest⟩ := Store.unusedKeys_areSmallest s.db count start
  have hdistinct : numbers.Nodup := hsmallest.sorted.imp Nat.ne_of_lt
  have hnodup := hdistinct.map Key.ofNat_injective
  have hunused (n : Nat) : Store.Unused s.db n =
      ∀ key, Key.encode n = .ok key → s.db.hasKey key = false := by
    simp [Store.Unused, Key.encode_natCast]
  refine ⟨numbers, numbers.map Key.ofNat, ?_, ?_, ?_, hnodup, fun draft => ?_⟩
  · rw [Store.exec_nextKeys, heq]
  · rw [List.forall₂_map_right_iff, List.forall₂_same]
    exact fun n _ => Key.encode_natCast n
  · simpa only [← hunused] using hsmallest
  · refine Script.not_clashes_filing draft _ s hnodup fun key hkey => ?_
    obtain ⟨n, hn, rfl⟩ := List.mem_map.1 hkey
    exact (hsmallest.mem n hn).2

end Inventory

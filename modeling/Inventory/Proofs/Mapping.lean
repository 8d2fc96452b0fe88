import Inventory.Value

/-!
# Mappings

What insertion, update and lookup do to the pairs and to the names of a mapping. Names stay
distinct because an inserted name replaces the pair that it has.
-/

namespace Inventory.Mapping

variable {α : Type} {m other : Mapping α} {name n : String} {a b : α}

theorem mem_insert (h : (n, b) ∈ m.insert name a) : (n = name ∧ b = a) ∨ (n, b) ∈ m := by
  induction m with
  | nil =>
      left
      simpa [insert] using h
  | cons p rest ih =>
      obtain ⟨k, c⟩ := p
      by_cases hk : k = name
      · rw [insert, if_pos hk] at h
        rcases List.mem_cons.1 h with h | h
        · left
          exact ⟨(Prod.mk.inj h).1.trans hk, (Prod.mk.inj h).2⟩
        · exact .inr (List.mem_cons_of_mem _ h)
      · rw [insert, if_neg hk] at h
        rcases List.mem_cons.1 h with h | h
        · exact .inr (h ▸ List.mem_cons_self)
        · rcases ih h with h | h
          · exact .inl h
          · exact .inr (List.mem_cons_of_mem _ h)

theorem mem_names_insert : n ∈ (m.insert name a).names ↔ n = name ∨ n ∈ m.names := by
  induction m with
  | nil => simp [insert, names]
  | cons p rest ih =>
      obtain ⟨k, c⟩ := p
      by_cases hk : k = name
      · simp [insert, names, hk]
      · simp only [names] at ih
        simp only [insert, if_neg hk, names, List.map_cons, List.mem_cons, ih]
        exact or_left_comm

theorem nodup_insert (h : m.names.Nodup) : (m.insert name a).names.Nodup := by
  induction m with
  | nil => simp [insert, names]
  | cons p rest ih =>
      obtain ⟨k, c⟩ := p
      obtain ⟨hfresh, hrest⟩ := List.nodup_cons.1 h
      by_cases hk : k = name
      · rw [insert, if_pos hk]
        exact h
      · rw [insert, if_neg hk]
        refine List.nodup_cons.2 ⟨fun hmem => ?_, ih hrest⟩
        rcases mem_names_insert.1 hmem with h | h
        · exact hk h
        · exact hfresh h

theorem mem_update (other : Mapping α) :
    ∀ m : Mapping α, (n, b) ∈ m.update other → (n, b) ∈ m ∨ (n, b) ∈ other := by
  induction other with
  | nil => exact fun m h => .inl h
  | cons p rest ih =>
      intro m h
      rcases ih (m.insert p.1 p.2) h with h | h
      · rcases mem_insert h with ⟨rfl, rfl⟩ | h
        · exact .inr List.mem_cons_self
        · exact .inl h
      · exact .inr (List.mem_cons_of_mem _ h)

theorem nodup_update (other : Mapping α) :
    ∀ m : Mapping α, m.names.Nodup → (m.update other).names.Nodup := by
  induction other with
  | nil => exact fun m h => h
  | cons p rest ih => exact fun m h => ih _ (nodup_insert h)

theorem nodup_filter (p : String × α → Bool) (h : m.names.Nodup) :
    (names (m.filter p)).Nodup :=
  (List.filter_sublist.map Prod.fst).nodup h

theorem mem_of_get? (h : m.get? name = some a) : (name, a) ∈ m := by
  obtain ⟨before, after, rfl, -⟩ := List.lookup_eq_some_iff.1 h
  simp

/-! ## Lookup -/

/-- The value of the last item with a name. -/
def last? (m : Mapping α) (name : String) : Option α :=
  (m.filter (·.1 == name)).getLast?.map Prod.snd

theorem mem_of_last? (h : m.last? name = some a) : (name, a) ∈ m := by
  obtain ⟨p, hp, rfl⟩ := Option.map_eq_some_iff.1 h
  obtain ⟨hmem, hname⟩ := List.mem_filter.1 (List.mem_of_getLast? hp)
  exact eq_of_beq hname ▸ hmem

theorem isSome_last? (h : name ∈ m.names) : (m.last? name).isSome := by
  obtain ⟨p, hp, rfl⟩ := List.mem_map.1 h
  simpa [last?] using ⟨p.2, hp⟩

theorem last?_cons (p : String × α) (m : Mapping α) (name : String) :
    last? (p :: m) name = (m.last? name).or (if p.1 = name then some p.2 else none) := by
  unfold last?
  by_cases hp : p.1 = name
  · rw [List.filter_cons_of_pos (by simpa using hp), List.getLast?_cons, if_pos hp]
    cases (m.filter (·.1 == name)).getLast? <;> rfl
  · rw [List.filter_cons_of_neg (by simpa using hp), if_neg hp, Option.or_none]

theorem last?_append (m other : Mapping α) (name : String) :
    last? (m ++ other) name = (other.last? name).or (m.last? name) := by
  rw [last?, last?, last?, List.filter_append, List.getLast?_append]
  cases (other.filter (·.1 == name)).getLast? <;> rfl

theorem get?_cons (p : String × α) (m : Mapping α) (name : String) :
    get? (p :: m) name = if p.1 = name then some p.2 else m.get? name := by
  by_cases hp : p.1 = name
  · rw [if_pos hp, get?, ← hp, List.lookup_cons_self]
  · have hne : (name == p.1) = false := by simpa using fun h => hp h.symm
    rw [if_neg hp, get?, List.lookup_cons, hne]
    rfl

theorem get?_insert (m : Mapping α) (name other : String) (a : α) :
    (m.insert name a).get? other = if name = other then some a else m.get? other := by
  induction m with
  | nil => exact get?_cons _ _ _
  | cons p rest ih =>
      obtain ⟨n, b⟩ := p
      by_cases hn : n = name
      · rw [insert, if_pos hn, get?_cons, get?_cons, hn]
        split <;> rfl
      · rw [insert, if_neg hn, get?_cons, get?_cons, ih]
        by_cases ho : n = other
        · rw [if_pos ho, if_pos ho, if_neg fun h => hn (ho.trans h.symm)]
        · rw [if_neg ho, if_neg ho]

theorem get?_update (other : Mapping α) (name : String) :
    ∀ m : Mapping α, (m.update other).get? name = (other.last? name).or (m.get? name) := by
  induction other with
  | nil => exact fun m => rfl
  | cons p rest ih =>
      intro m
      have hstep := ih (m.insert p.1 p.2)
      rw [last?_cons, Option.or_assoc]
      refine hstep.trans (congrArg _ ?_)
      rw [get?_insert]
      split <;> rfl

/-- Where names differ, the last item with a name is the only one. -/
theorem last?_of_nodup (h : m.names.Nodup) (name : String) : m.last? name = m.get? name := by
  induction m with
  | nil => rfl
  | cons p rest ih =>
      obtain ⟨hfresh, hrest⟩ := List.nodup_cons.1 h
      rw [last?_cons, get?_cons, ih hrest]
      by_cases hp : p.1 = name
      · have hnone : get? rest name = none := by
          cases hget : get? rest name with
          | none => rfl
          | some a => exact absurd (List.mem_map_of_mem (mem_of_get? hget)) (hp ▸ hfresh)
        rw [hnone, if_pos hp, Option.none_or]
      · rw [if_neg hp, if_neg hp, Option.or_none]

/-- Items with other names do not count. -/
theorem get?_filter {p : String × α → Bool} (h : ∀ a, p (name, a) = true) (m : Mapping α) :
    get? (m.filter p) name = m.get? name := by
  induction m with
  | nil => rfl
  | cons q rest ih =>
      by_cases hq : p q = true
      · rw [List.filter_cons_of_pos hq, get?_cons, get?_cons, ih]
      · rw [List.filter_cons_of_neg hq, get?_cons, ih]
        rw [if_neg]
        rintro rfl
        exact hq (h q.2)

theorem get?_of_mem (h : m.names.Nodup) (hmem : (name, a) ∈ m) : m.get? name = some a := by
  induction m with
  | nil => cases hmem
  | cons p rest ih =>
      obtain ⟨hfresh, hrest⟩ := List.nodup_cons.1 h
      rw [get?_cons]
      rcases List.mem_cons.1 hmem with rfl | hmem
      · rw [if_pos rfl]
      · rw [if_neg, ih hrest hmem]
        rintro rfl
        exact hfresh (List.mem_map.2 ⟨_, hmem, rfl⟩)

theorem get?_eq_none (h : name ∉ m.names) : m.get? name = none := by
  cases hget : m.get? name with
  | none => rfl
  | some a => exact absurd (List.mem_map_of_mem (mem_of_get? hget)) h

theorem insert_of_notMem (h : name ∉ m.names) (a : α) : m.insert name a = m ++ [(name, a)] := by
  induction m with
  | nil => rfl
  | cons p rest ih =>
      obtain ⟨hne, hrest⟩ := not_or.1 (mt List.mem_cons.2 h)
      rw [insert, if_neg (Ne.symm hne), ih hrest, List.cons_append]

theorem update_of_nodup (other : Mapping α) :
    ∀ m : Mapping α, (names (m ++ other)).Nodup → m.update other = m ++ other := by
  induction other with
  | nil => exact fun m _ => (List.append_nil m).symm
  | cons p rest ih =>
      intro m h
      have hfresh : p.1 ∉ m.names := by
        rw [names, List.map_append, List.map_cons] at h
        exact fun hmem => (List.nodup_append.1 h).2.2 _ hmem _ List.mem_cons_self rfl
      show (m.insert p.1 p.2).update rest = _
      rw [insert_of_notMem hfresh, ih, List.append_assoc, List.singleton_append]
      rwa [List.append_assoc, List.singleton_append]

/-- Pairs with distinct names are a mapping as they are. -/
theorem ofPairs_of_nodup {ps : List (String × α)} (h : (names ps).Nodup) : ofPairs ps = ps :=
  update_of_nodup ps [] h

end Inventory.Mapping

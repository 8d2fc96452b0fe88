import Inventory.Proofs.Seen

/-!
# Reading what was written

After an operation on an entry that succeeds, the entry is found as it was written, every other one
is found as before, and the lists keep their order: a new entry comes last in its category, and a
changed one stays in its place.
-/

namespace Inventory

/-! ## Lookups in changed views -/

namespace View

variable {v : View} {e : Entry} {db : Database}

theorem find_append_ne {other : String} (h : other ≠ e.key) :
    View.find { v with entries := v.entries ++ [e] } other = v.find other := by
  have hne : (e.key == other) = false := by simpa using fun hkey => h hkey.symm
  simp only [find, List.find?_append, List.find?_cons, hne, List.find?_nil, Option.or_none]

theorem find_replace_ne {other : String} (h : other ≠ e.key) :
    (v.replace e).find other = v.find other := by
  have hpred : (fun x : Entry => x.key == other) ∘ (fun x => if x.key = e.key then e else x) =
      fun x => x.key == other := by
    funext x
    by_cases hkey : x.key = e.key <;> simp [hkey]
  simp only [find, replace, List.find?_map, hpred]
  cases hfound : v.entries.find? (·.key == other) with
  | none => rfl
  | some x =>
      have hx : x.key = other := by simpa using List.find?_some hfound
      simp only [Option.map_some, hx, if_neg h]

theorem find_filter_ne {key other : String} (h : other ≠ key) :
    View.find { v with entries := v.entries.filter (·.key != key) } other = v.find other := by
  have hpred : (fun x : Entry => decide ((x.key != key) = true ∧ (x.key == other) = true)) =
      fun x => x.key == other := by
    funext x
    by_cases hx : x.key = other <;> simp [hx, h]
  simp only [find, List.find?_filter, hpred]

theorem find_filter {key : String} :
    View.find { v with entries := v.entries.filter (·.key != key) } key =
      .error (.entryNotFound key) := by
  have hnone : (v.entries.filter (·.key != key)).find? (·.key == key) = none := by
    simp [List.find?_eq_none]
  simp only [find, hnone]

/-- The entries of a category, when what is done to all entries is done to those of each category. -/
theorem list_arranged (v v' : View) {f : String → List Entry → List Entry}
    (hcategories : v'.categories = v.categories)
    (hf : ∀ id, v'.entries.filter (·.category == id) = f id (v.entries.filter (·.category == id)))
    (id : String) : v'.list id = (v.list id).map (f (Text.lower id)) := by
  have hresolve : v'.resolve id = v.resolve id := by simp only [resolve, hcategories]
  rw [list, list, hresolve]
  cases hc : v.resolve id with
  | error f => rfl
  | ok c =>
      obtain ⟨-, hid⟩ := mem_of_resolve hc
      rw [← hid]
      exact congrArg Except.ok (hf c.id)

theorem filter_append (e : Entry) (id : String) :
    (v.entries ++ [e]).filter (·.category == id) =
      if e.category = id then v.entries.filter (·.category == id) ++ [e]
      else v.entries.filter (·.category == id) := by
  rw [List.filter_append]
  by_cases hid : e.category = id
  · simp [hid]
  · simp [hid]

/-- A changed entry stays in its category, and in its place there. -/
theorem filter_replace (hv : db.Shows v) {old : Entry} (hold : old ∈ v.entries)
    (hkey : e.key = old.key) (hcategory : e.category = old.category) (id : String) :
    (v.replace e).entries.filter (·.category == id) =
      (v.entries.filter (·.category == id)).map fun x => if x.key = e.key then e else x := by
  rw [replace, List.filter_map]
  refine congrArg _ (List.filter_congr fun x hx => ?_)
  by_cases hsame : x.key = e.key
  · have hxold : x = old :=
      List.inj_on_of_nodup_map hv.keys_nodup hx hold (hsame.trans hkey)
    rw [Function.comp_apply, if_pos hsame, hcategory, hxold]
  · rw [Function.comp_apply, if_neg hsame]

end View

/-! ## Operations -/

/-- The operation is to add to the quantity of a key, or to take from it. -/
def Operation.AddsTo (key : String) : Operation → Prop
  | adjust other _ | give other _ | take other _ => other = key
  | _ => False

namespace Operation.AddsTo

variable {o : Operation} {key : String}

theorem not_isReading (h : o.AddsTo key) : ¬o.IsReading := by
  cases o with
  | adjust | give | take => exact id
  | _ => exact h.elim

theorem key_of_delta? (h : o.AddsTo key) {other : String} {d : Int}
    (hd : o.delta? other = some d) : other = key := by
  unfold delta? at hd
  split at hd
  · split at hd
    · next hkey => exact hkey.symm.trans h
    · cases hd
  · split at hd
    · next hkey => exact hkey.1.symm.trans h
    · cases hd
  · split at hd
    · next hkey => exact hkey.1.symm.trans h
    · cases hd
  · cases hd

end Operation.AddsTo

/-- What is read after an operation, by the session that did it and by every other one in order
that sees the same tables: at one key what is given here, at all others what was read before, and
the lists of categories rearranged as given. -/
structure Operation.Leaves (o : Operation) (s : Session) (key : String)
    (found : Except Fault Entry) (arranged : String → List Entry → List Entry) : Prop where
  ready : (o.act.exec s).2.Ready
  find : ∀ t : Session, t.Ready → t.db = (o.act.exec s).2.db →
    ((Store.find key).exec t).1 = found
  others : ∀ t : Session, t.Ready → t.db = (o.act.exec s).2.db →
    ∀ other, other ≠ key → ((Store.find other).exec t).1 = ((Store.find other).exec s).1
  lists : ∀ t : Session, t.Ready → t.db = (o.act.exec s).2.db →
    ∀ id, ((Store.list id).exec t).1 = ((Store.list id).exec s).1.map (arranged (Text.lower id))

/-- What is read is read off from the views. -/
theorem Operation.leaves_of_views {o : Operation} {s : Session} {v v' : View} {key : String}
    {found : Except Fault Entry} {arranged : String → List Entry → List Entry} (hv : s.Sees v)
    (hv' : (o.act.exec s).2.Sees v') (hfind : v'.find key = found)
    (hothers : ∀ other, other ≠ key → v'.find other = v.find other)
    (hlists : ∀ id, v'.list id = (v.list id).map (arranged (Text.lower id))) :
    o.Leaves s key found arranged where
  ready := hv'.ready
  find t ht hdb := ((hv'.of_db ht hdb).find key).trans hfind
  others t ht hdb other hne := by
    rw [(hv'.of_db ht hdb).find, hv.find, hothers other hne]
  lists t ht hdb id := by
    rw [(hv'.of_db ht hdb).list, hv.list, hlists id]

/-- After one entry has taken the place of another. -/
theorem Operation.leaves_replace {o : Operation} {s : Session} {v : View} {e e' : Entry}
    (hv : s.Sees v) (hv' : (o.act.exec s).2.Sees (v.replace e')) (he : e ∈ v.entries)
    (hkey : e'.key = e.key) (hcategory : e'.category = e.category) :
    o.Leaves s e'.key (.ok e') fun _ es => es.map fun x => if x.key = e'.key then e' else x := by
  refine leaves_of_views hv hv' ?_ (fun other hne => View.find_replace_ne hne) ?_
  · exact hv'.shows.find_of_mem (List.mem_map.2 ⟨e, he, if_pos hkey.symm⟩)
  · exact View.list_arranged v (v.replace e')
      (f := fun _ es => es.map fun x => if x.key = e'.key then e' else x)
      rfl (View.filter_replace hv.shows he hkey hcategory)

namespace Session.Sees

variable {s : Session} {v : View}

theorem create (h : s.Sees v) {id : String} {key location quantity : Value}
    {fields : Mapping Value} {e : Entry}
    (ha : ((Operation.create id key location quantity fields).act.exec s).1 = .ok (.entry e)) :
    (∃ c, ((Registry.resolve id).exec s).1 = .ok c ∧
      c.Creates key location quantity fields s.now e) ∧
    (Operation.create id key location quantity fields).Leaves s e.key (.ok e) fun i es =>
      if e.category = i then es ++ [e] else es := by
  obtain ⟨v', hv', hbecomes⟩ := h.act ha
  cases hbecomes with
  | adjust hd => cases hd
  | read ho => exact ho.elim
  | create hc hnew he =>
      refine ⟨⟨_, (h.resolve id).trans hc, he⟩, Operation.leaves_of_views h hv' ?_ ?_ ?_⟩
      · exact hv'.shows.find_of_mem (by simp)
      · exact fun other hne => View.find_append_ne hne
      · exact View.list_arranged v _ (f := fun i es => if e.category = i then es ++ [e] else es)
          rfl (View.filter_append e)

theorem modify (h : s.Sees v) {key : String} {updates : Mapping Value} {e' : Entry}
    (ha : ((Operation.modify key updates).act.exec s).1 = .ok (.entry e')) :
    (∃ e c, ((Store.find key).exec s).1 = .ok e ∧
      ((Registry.resolve e.category).exec s).1 = .ok c ∧ c.Modifies updates s.now e e') ∧
    (Operation.modify key updates).Leaves s key (.ok e') fun _ es =>
      es.map fun x => if x.key = key then e' else x := by
  obtain ⟨v', hv', hbecomes⟩ := h.act ha
  cases hbecomes with
  | adjust hd => cases hd
  | read ho => exact ho.elim
  | @modify _ _ c e _ he hc hmodifies =>
      obtain ⟨hmem, rfl⟩ := View.mem_of_find he
      have hleaves := Operation.leaves_replace h hv' hmem hmodifies.key hmodifies.category
      rw [hmodifies.key] at hleaves
      exact ⟨⟨e, c, (h.find e.key).trans he, (h.resolve e.category).trans hc, hmodifies⟩, hleaves⟩

theorem add (h : s.Sees v) {o : Operation} {key : String} (ho : o.AddsTo key) {e' : Entry}
    (ha : (o.act.exec s).1 = .ok (.entry e')) :
    (∃ (e : Entry) (n d : Int), ((Store.find key).exec s).1 = .ok e ∧ e.quantity = .int n ∧
      o.delta? key = some d ∧ e' = e.withQuantity (n + d) s.now) ∧
    o.Leaves s key (.ok e') fun _ es => es.map fun x => if x.key = key then e' else x := by
  obtain ⟨v', hv', hbecomes⟩ := h.act ha
  cases hbecomes with
  | create | modify => exact ho.elim
  | read hreading => exact (ho.not_isReading hreading).elim
  | @adjust _ _ e n d hd he hn hlow hhigh =>
      obtain rfl := ho.key_of_delta? hd
      obtain ⟨hmem, rfl⟩ := View.mem_of_find he
      exact ⟨⟨e, n, d, (h.find e.key).trans he, hn, hd, rfl⟩,
        Operation.leaves_replace h hv' hmem rfl rfl⟩

theorem delete (h : s.Sees v) {key : String}
    (ha : ((Operation.delete key).act.exec s).1 = .ok .done) :
    (∃ e, ((Store.find key).exec s).1 = .ok e) ∧
    (Operation.delete key).Leaves s key (.error (.entryNotFound key)) fun _ es =>
      es.filter (·.key != key) := by
  obtain ⟨v', hv', hbecomes⟩ := h.act ha
  cases hbecomes with
  | read ho => exact ho.elim
  | delete he =>
      refine ⟨⟨_, (h.find key).trans he⟩, Operation.leaves_of_views h hv' View.find_filter
        (fun other hne => View.find_filter_ne hne) ?_⟩
      refine View.list_arranged v _ (f := fun _ es => es.filter (·.key != key)) rfl fun id => ?_
      rw [List.filter_filter, List.filter_filter]
      exact List.filter_congr fun x _ => Bool.and_comm _ _

end Session.Sees

/-- At every moment of a run that undoes no transaction: what creates, changes or deletes an entry
is read back as it was written, and no other entry is read differently from before. -/
theorem reads_what_was_written (m : Moment) :
    (∀ id key location quantity fields e,
      ((Operation.create id key location quantity fields).act.exec m.session).1 =
          .ok (.entry e) →
        (∃ c, ((Registry.resolve id).exec m.session).1 = .ok c ∧
          c.Creates key location quantity fields m.session.now e) ∧
        (Operation.create id key location quantity fields).Leaves m.session e.key (.ok e)
          fun i es => if e.category = i then es ++ [e] else es) ∧
    (∀ key updates e',
      ((Operation.modify key updates).act.exec m.session).1 = .ok (.entry e') →
        (∃ e c, ((Store.find key).exec m.session).1 = .ok e ∧
          ((Registry.resolve e.category).exec m.session).1 = .ok c ∧
          c.Modifies updates m.session.now e e' ∧
          ∀ f ∈ c.fields, updates.lastNamed? f.name = some .null ∨
            updates.lastNamed? f.name = some (.text "") → e'.fields.get? f.name = some .null) ∧
        (Operation.modify key updates).Leaves m.session key (.ok e') fun _ es =>
          es.map fun x => if x.key = key then e' else x) ∧
    (∀ (o : Operation) key e', o.AddsTo key → (o.act.exec m.session).1 = .ok (.entry e') →
        (∃ (e : Entry) (n d : Int), ((Store.find key).exec m.session).1 = .ok e ∧
          e.quantity = .int n ∧ o.delta? key = some d ∧
          e' = e.withQuantity (n + d) m.session.now) ∧
        o.Leaves m.session key (.ok e') fun _ es =>
          es.map fun x => if x.key = key then e' else x) ∧
    (∀ key, ((Operation.delete key).act.exec m.session).1 = .ok .done →
        (∃ e, ((Store.find key).exec m.session).1 = .ok e) ∧
        (Operation.delete key).Leaves m.session key (.error (.entryNotFound key)) fun _ es =>
          es.filter (·.key != key)) := by
  obtain ⟨v, hv⟩ := m.sees
  refine ⟨fun _ _ _ _ _ _ ha => hv.create ha, fun key updates e' ha => ?_,
    fun _ _ _ ho ha => hv.add ho ha, fun _ ha => hv.delete ha⟩
  obtain ⟨⟨e, c, he, hc, hmodifies⟩, hleaves⟩ := hv.modify ha
  refine ⟨⟨e, c, he, hc, hmodifies, fun f hf hnull => ?_⟩, hleaves⟩
  obtain ⟨before, after, -, hafter, hsets⟩ := hmodifies.fields.sets f hf
  rw [hafter]
  unfold Mapping.Sets at hsets
  rcases hnull with hlast | hlast
  · rw [hlast] at hsets
    cases hsets
    rfl
  · rw [hlast] at hsets
    cases hsets
    rfl

/-- The answer is an entry. -/
def Answer.isEntry : Answer → Bool
  | .entry _ => true
  | _ => false

/-- One side moves a hammer while the other has brought a nail: the hammer is found at its new place,
and the nail as it was. -/
theorem hammer_moved :
    let define := Operation.define (.text "tools") [(.text "size", .text)]
    let hammer := Operation.create "tools" (.text "hammer") (.text "shed") (.int 1) []
    let nail := Operation.create "Tools" (.text "nail") (.text "box") (.int 9) []
    let m : Moment := ⟨"2024-01-01 00:00:00",
      [⟨.first, "2024-01-01 00:00:01", .op define (.op hammer .done)⟩,
        ⟨.second, "2024-01-01 00:00:02", .op nail .done⟩],
      .first, "2024-01-01 00:00:03", true, .done⟩
    let move := Operation.modify "hammer" [("Location", .text "shop")]
    ∃ e, (move.act.exec m.session).1 = .ok (.entry e) ∧ e.location = "shop" ∧
      ((Store.find "hammer").exec (move.act.exec m.session).2).1 = .ok e ∧
      ((Store.find "nail").exec (move.act.exec m.session).2).1 =
        ((Store.find "nail").exec m.session).1 := by
  intro define hammer nail m move
  have hanswer : ∃ a, (move.act.exec m.session).1 = .ok a ∧ a.isEntry := by
    decide +kernel
  have hread := (reads_what_was_written m).2.1 "hammer" [("Location", .text "shop")]
  -- what is read from here on does not depend on how the session came about
  generalize m.session = s at hanswer hread ⊢
  obtain ⟨a, he, hentry⟩ := hanswer
  cases a with
  | entry e =>
      obtain ⟨⟨old, c, -, -, hmodifies, -⟩, hleaves⟩ := hread e he
      exact ⟨e, he, (Value.text.inj (Except.ok.inj hmodifies.location)).symm,
        hleaves.find _ hleaves.ready rfl, hleaves.others _ hleaves.ready rfl "nail" (by decide)⟩
  | _ => cases hentry

end Inventory

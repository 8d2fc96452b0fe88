import Inventory.Proofs.Frame

/-!
# Categories grow

A field that is added stands last in its category and is null in its entries, and nothing else
reads differently. As long as a category is not removed, its fields stay in their places. A
category that is defined anew has no entries, and whatever its entries hold later was given to them
since.
-/

namespace Inventory

/-! ## One more field -/

namespace View

variable {v : View} {id : String} {f : FieldDef}

theorem resolve_withField (other : String) : (v.withField id f).resolve other =
    (v.resolve other).map fun c => if c.id = id then c.withField f else c := by
  have hpred : (fun c : Category => c.id == Text.lower other) ∘
      (fun c => if c.id = id then c.withField f else c) = fun c => c.id == Text.lower other := by
    funext c
    by_cases hc : c.id = id <;> simp [hc, Category.withField]
  simp only [resolve, withField, List.find?_map, hpred]
  cases v.categories.find? (·.id == Text.lower other) <;> rfl

theorem find_withField (key : String) : (v.withField id f).find key =
    (v.find key).map fun e => if e.category = id then e.withNull f.name else e := by
  have hpred : (fun e : Entry => e.key == key) ∘
      (fun e => if e.category = id then e.withNull f.name else e) = fun e => e.key == key := by
    funext e
    by_cases he : e.category = id <;> simp [he, Entry.withNull]
  simp only [find, withField, List.find?_map, hpred]
  cases v.entries.find? (·.key == key) <;> rfl

theorem list_withField (other : String) : (v.withField id f).list other =
    (v.list other).map (List.map fun e => if e.category = id then e.withNull f.name else e) := by
  rw [list, list, resolve_withField]
  cases v.resolve other with
  | error g => rfl
  | ok c =>
      have hid : (if c.id = id then c.withField f else c).id = c.id := by split <;> rfl
      show Except.ok (List.filter
        (fun e : Entry => e.category == (if c.id = id then c.withField f else c).id) _) = Except.ok _
      rw [hid, withField, List.filter_map]
      refine congrArg Except.ok (congrArg _ (List.filter_congr fun e _ => ?_))
      by_cases he : e.category = id <;> simp [he, Entry.withNull]

end View

/-! ## Growth -/

/-- The step removed a category. -/
def Step.Removes (id : String) (x : Step) : Prop :=
  match x.operation, x.answer with
  | .remove given, .ok _ => Text.lower given = id
  | _, _ => False

/-- A category stays, and its fields in their places, until it is removed. -/
theorem View.Becomes.grows {now : String} {v v' : View} {o : Operation} {a : Answer}
    (h : v.Becomes now o a v') {c : Category} (hc : c ∈ v.categories) :
    Step.Removes c.id ⟨o, .ok a⟩ ∨ ∃ c' ∈ v'.categories, c'.id = c.id ∧ c.fields <+: c'.fields := by
  cases h with
  | define => exact .inr ⟨c, List.mem_append_left _ hc, rfl, List.prefix_rfl⟩
  | @addField id name type d canonical hd hname hnew =>
      refine .inr ⟨_, List.mem_map_of_mem hc, ?_, ?_⟩
      · split <;> rfl
      · split
        · exact List.prefix_append _ _
        · exact List.prefix_rfl
  | @remove id d hd hempty =>
      by_cases hid : c.id = d.id
      · exact .inl ((View.mem_of_resolve hd).2.symm.trans hid.symm)
      · exact .inr ⟨c, List.mem_filter.2 ⟨hc, by simpa using hid⟩, rfl, List.prefix_rfl⟩
  | create | modify | adjust | delete | read => exact .inr ⟨c, hc, rfl, List.prefix_rfl⟩

theorem Course.grows {db db' : Database} {h : History} (hcourse : Course db h db') {v : View}
    (hv : db.Shows v) {c : Category} (hc : c ∈ v.categories)
    (hkept : ∀ x ∈ h, ¬x.Removes c.id) :
    ∃ v', db'.Shows v' ∧ ∃ c' ∈ v'.categories, c'.id = c.id ∧ c.fields <+: c'.fields := by
  have hends := hcourse.sees (P := fun done v => (∃ x ∈ done, x.Removes c.id) ∨
    ∃ c' ∈ v.categories, c'.id = c.id ∧ c.fields <+: c'.fields) ?_ ?_ hv
    (.inr ⟨c, hc, rfl, List.prefix_rfl⟩)
  · obtain ⟨v', hv', ⟨x, hx, hremoves⟩ | hgrown⟩ := hends
    · exact absurd hremoves (hkept x hx)
    · exact ⟨v', hv', hgrown⟩
  · rintro done o now a v v' db db' - - hbecomes (⟨x, hx, hremoves⟩ | ⟨c', hc', hid, hprefix⟩)
    · exact .inl ⟨x, List.mem_append_left _ hx, hremoves⟩
    · rcases hbecomes.grows hc' with hremoves | ⟨c'', hc'', hid', hprefix'⟩
      · exact .inl ⟨_, by simp, hid ▸ hremoves⟩
      · exact .inr ⟨c'', hc'', hid'.trans hid, hprefix.trans hprefix'⟩
  · rintro done o f v (⟨x, hx, hremoves⟩ | hgrown)
    · exact .inl ⟨x, List.mem_append_left _ hx, hremoves⟩
    · exact .inr hgrown

/-! ## Where values come from -/

namespace Step

/-- The step created the entry with a key. -/
def CreatesKey (key : String) (x : Step) : Prop :=
  match x.operation, x.answer with
  | .create _ (.text given) _ _ _, .ok _ => given = key
  | _, _ => False

/-- The step gave a field of the entry with a key its value. -/
def Gives (key name : String) (value : Value) (x : Step) : Prop :=
  match x.operation, x.answer with
  | .create _ (.text given) _ _ items, .ok _ | .modify given items, .ok _ =>
    given = key ∧ ∃ (raw : Value) (type : FieldType), items.lastNamed? name = some raw ∧
      type.coerce raw = .ok value
  | _, _ => False

end Step

/-- The entry was created in the history, and so were all its values that are not null. -/
def History.Yields (h : History) (e : Entry) : Prop :=
  (∃ x ∈ h, x.CreatesKey e.key) ∧
    ∀ name value, e.fields.get? name = some value → value.isNull = false →
      ∃ x ∈ h, x.Gives e.key name value

theorem History.Yields.append {h : History} {e : Entry} (hy : h.Yields e) (k : History) :
    History.Yields (h ++ k) e := by
  obtain ⟨⟨x, hx, hcreates⟩, hvalues⟩ := hy
  refine ⟨⟨x, List.mem_append_left _ hx, hcreates⟩, fun name value hget hnull => ?_⟩
  obtain ⟨y, hy, hgives⟩ := hvalues name value hget hnull
  exact ⟨y, List.mem_append_left _ hy, hgives⟩

/-- A value after updates was given by them, or it was there before. -/
theorem Category.Changes.origin {c : Category} {updates old new : Mapping Value}
    (h : c.Changes updates old new) {name : String} {value : Value}
    (hget : new.get? name = some value) :
    (∃ (raw : Value) (type : FieldType), updates.lastNamed? name = some raw ∧
      type.coerce raw = .ok value) ∨ old.get? name = some value := by
  have hmem : name ∈ c.fieldNames := h.names ▸ List.mem_map_of_mem (Mapping.mem_of_get? hget)
  obtain ⟨f, hf, rfl⟩ := List.mem_map.1 hmem
  obtain ⟨before, after, hbefore, hafter, hsets⟩ := h.sets f hf
  cases hget.symm.trans hafter
  unfold Mapping.Sets at hsets
  split at hsets
  · next raw hraw => exact .inl ⟨raw, f.type, hraw, hsets⟩
  · exact .inr (hsets ▸ hbefore)

theorem Category.get?_unset_eq_null {c : Category} {name : String} {value : Value}
    (h : c.unset.get? name = some value) : value = .null := by
  obtain ⟨n, -, hpair⟩ := List.mem_map.1 (Mapping.mem_of_get? h)
  exact (Prod.mk.inj hpair).2.symm

/-- What readers see of a category all comes from the history. -/
def View.Yielded (v : View) (id : String) (h : History) : Prop :=
  ∀ e ∈ v.entries, e.category = id → h.Yields e

theorem View.Becomes.yielded {now : String} {v v' : View} {o : Operation} {a : Answer}
    (hbecomes : v.Becomes now o a v') {id : String} {h : History} (hv : v.Yielded id h) :
    v'.Yielded id (h ++ [⟨o, .ok a⟩]) := by
  intro e' he' hid
  have hstays : ∀ e ∈ v.entries, e.key = e'.key → e.category = id →
      (∀ name value, e'.fields.get? name = some value → value.isNull = false →
        e.fields.get? name = some value ∨ Step.Gives e'.key name value ⟨o, .ok a⟩) →
      History.Yields (h ++ [⟨o, .ok a⟩]) e' := by
    intro e he hkey hcategory hvalues
    obtain ⟨⟨x, hx, hcreates⟩, hold⟩ := hv e he hcategory
    refine ⟨⟨x, List.mem_append_left _ hx, hkey ▸ hcreates⟩, fun name value hget hnull => ?_⟩
    rcases hvalues name value hget hnull with hsame | hgives
    · obtain ⟨y, hy, hgives⟩ := hold name value hsame hnull
      exact ⟨y, List.mem_append_left _ hy, hkey ▸ hgives⟩
    · exact ⟨_, by simp, hgives⟩
  cases hbecomes with
  | define | remove | read => exact (hv e' he' hid).append _
  | delete => exact (hv e' (List.mem_of_mem_filter he') hid).append _
  | @addField _ name type c canonical hc hname hnew =>
      obtain ⟨e, he, rfl⟩ := List.mem_map.1 he'
      by_cases hc' : e.category = c.id
      · rw [if_pos hc'] at hid hstays ⊢
        refine hstays e he rfl hid fun name value hget hnull => .inl ?_
        rw [Entry.withNull, Mapping.get?, List.lookup_append] at hget
        cases hold : List.lookup name e.fields with
        | some w =>
            rw [hold, Option.some_or] at hget
            exact hold.trans hget
        | none =>
            -- the new field is null
            rw [hold, Option.none_or] at hget
            obtain ⟨-, rfl⟩ := Prod.mk.inj (List.mem_singleton.1 (Mapping.mem_of_get? hget))
            cases hnull
      · rw [if_neg hc'] at hid ⊢
        exact (hv e he hid).append _
  | @create _ key location quantity fields c e hc hnew he =>
      rcases List.mem_append.1 he' with hmem | hmem
      · exact (hv e' hmem hid).append _
      · obtain rfl := List.mem_singleton.1 hmem
        obtain rfl := he.key
        refine ⟨⟨_, List.mem_append_right _ (.head _), rfl⟩, fun name value hget hnull => ?_⟩
        refine ⟨_, List.mem_append_right _ (.head _), rfl, ?_⟩
        rcases he.fields.origin hget with hgiven | hunset
        · exact hgiven
        · rw [Category.get?_unset_eq_null hunset] at hnull
          cases hnull
  | @modify key updates c e _ he hc hmodifies =>
      obtain ⟨hmem, rfl⟩ := View.mem_of_find he
      rcases View.mem_replace he' with rfl | ⟨hmem', -⟩
      · refine hstays e hmem hmodifies.key.symm (hmodifies.category.symm.trans hid)
          fun name value hget _ => ?_
        rcases hmodifies.fields.origin hget with hgiven | hold
        · exact .inr ⟨hmodifies.key.symm, hgiven⟩
        · exact .inl hold
      · exact (hv e' hmem' hid).append _
  | @adjust _ key e n d hd he hn hlow hhigh =>
      obtain ⟨hmem, rfl⟩ := View.mem_of_find he
      rcases View.mem_replace he' with rfl | ⟨hmem', -⟩
      · exact hstays e hmem rfl hid fun name value hget _ => .inl hget
      · exact (hv e' hmem' hid).append _

/-- From tables where nothing of a category is seen, whatever is seen of it later was yielded in
between. -/
theorem Course.yielded {db db' : Database} {h : History} (hcourse : Course db h db') {v : View}
    (hv : db.Shows v) {id : String} (hempty : ∀ e ∈ v.entries, e.category ≠ id) :
    ∃ v', db'.Shows v' ∧ v'.Yielded id h := by
  refine hcourse.sees (P := fun done v => v.Yielded id done) ?_ ?_ hv
    fun e he hid => absurd hid (hempty e he)
  · exact fun done o now a v v' db db' _ _ hbecomes hdone => hbecomes.yielded hdone
  · exact fun done o f v hdone e he hid => (hdone e he hid).append _

/-! ## Evolution -/

/-- What is read after a category has gained a field, by the session that added it and by every
other one in order that sees the same tables: the category with the field at its end, its entries
with null for it, and everything else as it was. -/
structure Operation.Extends (o : Operation) (s : Session) (c : Category) (f : FieldDef) : Prop where
  ready : (o.act.exec s).2.Ready
  resolve : ∀ t : Session, t.Ready → t.db = (o.act.exec s).2.db → ∀ id,
    ((Registry.resolve id).exec t).1 = ((Registry.resolve id).exec s).1.map fun d =>
      if d.id = c.id then d.withField f else d
  find : ∀ t : Session, t.Ready → t.db = (o.act.exec s).2.db → ∀ key,
    ((Store.find key).exec t).1 = ((Store.find key).exec s).1.map fun e =>
      if e.category = c.id then e.withNull f.name else e
  lists : ∀ t : Session, t.Ready → t.db = (o.act.exec s).2.db → ∀ id,
    ((Store.list id).exec t).1 = ((Store.list id).exec s).1.map (List.map fun e =>
      if e.category = c.id then e.withNull f.name else e)

theorem Session.Sees.extend {s : Session} {v : View} (h : s.Sees v) {id : String} {name : Value}
    {type : FieldType} {c' : Category}
    (ha : ((Operation.addField id name type).act.exec s).1 = .ok (.category c')) :
    ∃ c raw, ((Registry.resolve id).exec s).1 = .ok c ∧ name = .text raw ∧
      c' = c.withField ⟨Text.lower raw, type⟩ ∧
      (Operation.addField id name type).Extends s c ⟨Text.lower raw, type⟩ := by
  obtain ⟨v', hv', hbecomes⟩ := h.act ha
  cases hbecomes with
  | read ho => exact ho.elim
  | @addField _ _ _ c canonical hc hname hnew =>
      obtain ⟨raw, rfl, -, rfl⟩ := Name.check_ok hname
      refine ⟨c, raw, (h.resolve id).trans hc, rfl, rfl, hv'.ready, ?_, ?_, ?_⟩
      · intro t ht hdb other
        rw [(hv'.of_db ht hdb).resolve, h.resolve, View.resolve_withField]
      · intro t ht hdb key
        rw [(hv'.of_db ht hdb).find, h.find, View.find_withField]
      · intro t ht hdb other
        rw [(hv'.of_db ht hdb).list, h.list, View.list_withField]

/-- A category that is defined has no entries. -/
theorem Session.Sees.define {s : Session} {v : View} (h : s.Sees v) {id : Value}
    {fields : List (Value × FieldType)} {c : Category}
    (ha : ((Operation.define id fields).act.exec s).1 = .ok (.category c)) :
    ∃ v', ((Operation.define id fields).act.exec s).2.Sees v' ∧
      (∀ e ∈ v'.entries, e.category ≠ c.id) ∧ v'.list c.id = .ok [] := by
  obtain ⟨v', hv', hbecomes⟩ := h.act ha
  cases hbecomes with
  | read ho => exact ho.elim
  | define hdefine hnew =>
      have hempty : ∀ e ∈ v.entries, e.category ≠ c.id := by
        intro e he
        obtain ⟨row, -, d, hd, -, rfl⟩ := h.shows.exists_row he
        exact hnew d hd
      refine ⟨_, hv', hempty, ?_⟩
      have hnone : v.entries.filter (·.category == c.id) = [] :=
        List.filter_eq_nil_iff.2 fun e he => by simpa using hempty e he
      rw [View.list, hv'.shows.resolve_of_mem (c := c) (by simp)]
      exact congrArg Except.ok hnone

/-- Along a run that undoes no transaction:

- a category that gains a field reads as its old fields with the new one at the end, which is what
  the operation answers; in its entries the new field is last and null, and nothing else changes;
- from one moment to a later one, as long as a category is not removed, its fields stay the first
  ones in the same order;
- a category that is defined has no entries, and at every later moment its entries were created,
  and their values given, after it was defined. -/
theorem categories_evolve :
    (∀ (m : Moment) id name type c',
      ((Operation.addField id name type).act.exec m.session).1 = .ok (.category c') →
        ∃ c raw, ((Registry.resolve id).exec m.session).1 = .ok c ∧ name = .text raw ∧
          c' = ⟨c.id, c.fields ++ [⟨Text.lower raw, type⟩]⟩ ∧
          ((Registry.resolve id).exec ((Operation.addField id name type).act.exec m.session).2).1 =
            .ok c' ∧
          (Operation.addField id name type).Extends m.session c ⟨Text.lower raw, type⟩) ∧
    (∀ (m m' : Moment) (h : History) id c, Course m.session.db h m'.session.db →
      ((Registry.resolve id).exec m.session).1 = .ok c → (∀ x ∈ h, ¬x.Removes c.id) →
        ∃ c', ((Registry.resolve id).exec m'.session).1 = .ok c' ∧ c'.id = c.id ∧
          c.fields <+: c'.fields) ∧
    (∀ (m m' : Moment) (h : History) id fields c,
      ((Operation.define id fields).act.exec m.session).1 = .ok (.category c) →
        ((Store.list c.id).exec ((Operation.define id fields).act.exec m.session).2).1 = .ok [] ∧
        (Course ((Operation.define id fields).act.exec m.session).2.db h m'.session.db →
          ∀ key e, ((Store.find key).exec m'.session).1 = .ok e → e.category = c.id →
            h.Yields e)) := by
  refine ⟨fun m id name type c' ha => ?_, fun m m' h id c hcourse hc hkept => ?_,
    fun m m' h id fields c ha => ?_⟩
  · obtain ⟨v, hv⟩ := m.sees
    obtain ⟨c, raw, hc, hname, rfl, hextends⟩ := hv.extend ha
    refine ⟨c, raw, hc, hname, rfl, ?_, hextends⟩
    rw [hextends.resolve _ hextends.ready rfl, hc]
    exact congrArg Except.ok (if_pos rfl)
  · obtain ⟨v, hv⟩ := m.sees
    obtain ⟨hmem, hid⟩ := View.mem_of_resolve ((hv.resolve id).symm.trans hc)
    obtain ⟨v', hv', c', hc', hid', hprefix⟩ := hcourse.grows hv.shows hmem hkept
    have hsame : Text.lower id = Text.lower c'.id := by
      rw [hid', (hv.shows.sound.canonical c hmem).id_lower, hid]
    have hresolve := View.resolve_of_lower (hv'.resolve_of_mem hc') hsame
    exact ⟨c', (Session.Sees.resolve ⟨m'.session_ready, hv'⟩ id).trans hresolve, hid', hprefix⟩
  · obtain ⟨v, hv⟩ := m.sees
    obtain ⟨v', hv', hempty, hlist⟩ := hv.define ha
    refine ⟨(hv'.list c.id).trans hlist, fun hcourse key e he hid => ?_⟩
    obtain ⟨v'', hv'', hyielded⟩ := hcourse.yielded hv'.shows hempty
    have hfind := (Session.Sees.find ⟨m'.session_ready, hv''⟩ key).symm.trans he
    exact hyielded e (View.mem_of_find hfind).1 hid

/-- The other side adds a field to a category, whose first field stays in its place. -/
theorem tools_gain_color :
    let define := Operation.define (.text "tools") [(.text "size", .text)]
    let create := Operation.create "tools" (.text "hammer") (.text "shed") (.int 1) []
    let color := Operation.addField "Tools" (.text "Color") .text
    let m : Moment := ⟨"2024-01-01 00:00:00", [], .first, "2024-01-01 00:00:01", false,
      .op define (.op create .done)⟩
    let m' := m.next [⟨.second, "2024-01-01 00:00:02", .op color .done⟩] .first
      "2024-01-01 00:00:03" true .done
    ∃ c, ((Registry.resolve "TOOLS").exec m'.session).1 = .ok c ∧ c.id = "tools" ∧
      [⟨"size", .text⟩] <+: c.fields := by
  intro define create color m m'
  have hcourse := m.course_next [⟨.second, "2024-01-01 00:00:02", .op color .done⟩] .first
    "2024-01-01 00:00:03" true .done
  have hresolve : ((Registry.resolve "TOOLS").exec m.session).1.toOption =
      some ⟨"tools", [⟨"size", .text⟩]⟩ := by
    decide +kernel
  cases hc : ((Registry.resolve "TOOLS").exec m.session).1 with
  | error f =>
      rw [hc] at hresolve
      cases hresolve
  | ok c =>
      rw [hc] at hresolve
      cases hresolve
      refine categories_evolve.2.1 m m' _ "TOOLS" _ hcourse hc fun x hx => ?_
      have hcolor : x.operation = color := by
        rcases List.mem_append.1 hx with hx | hx
        · exact List.mem_singleton.1 (operation_mem_of_zipWith hx)
        · cases operation_mem_of_zipWith hx
      rw [Step.Removes, hcolor]
      exact id

end Inventory

import Inventory.Proofs.Adjusting

/-!
# Updates one after the other

Modifying an entry reads, merges and rewrites its whole row, and yet only the updates count: two
modifications, one after the other, come to one with all their updates, where the later ones win.
So updates of different names can be made in either order, and values can be given to an entry when
it is created or right afterwards.
-/

namespace Inventory

/-! ## Updates -/

namespace Mapping

variable {updates later : Mapping Value} {name : String}

/-- The updates of both. Where both name the same in any case, the later ones count. -/
def overriddenBy (updates later : Mapping Value) : Mapping Value :=
  (Store.lowerNames updates).update (Store.lowerNames later)

/-- Nothing that the one names, in any case, is named by the other. -/
def Apart (updates other : Mapping Value) : Prop :=
  ∀ name ∈ updates.names, ∀ n ∈ other.names, Text.lower name ≠ Text.lower n

instance (updates other : Mapping Value) : Decidable (updates.Apart other) :=
  inferInstanceAs (Decidable (∀ name ∈ updates.names, ∀ n ∈ other.names, _ ≠ _))

/-- Under a name in lower case the later updates come first. -/
theorem lastNamed?_overriddenBy (hascii : ∀ c ∈ name.toList, Text.isAscii c)
    (hlower : Text.lower name = name) :
    (updates.overriddenBy later).lastNamed? name =
      (later.lastNamed? name).or (updates.lastNamed? name) := by
  have hlowered : ∀ n ∈ (updates.overriddenBy later).names, ∃ given, n = Text.lower given := by
    intro n hn
    obtain ⟨⟨_, v⟩, hp, rfl⟩ := List.mem_map.1 hn
    rcases mem_update _ _ hp with hp | hp
    · exact Store.names_lowerNames updates _ (List.mem_map_of_mem hp)
    · exact Store.names_lowerNames later _ (List.mem_map_of_mem hp)
  have hnodup : (updates.overriddenBy later).names.Nodup :=
    nodup_update _ _ (Store.nodup_lowerNames updates)
  rw [lastNamed?_of_lowered hascii hlower hlowered, last?_of_nodup hnodup, overriddenBy,
    get?_update, last?_of_nodup (Store.nodup_lowerNames later), Store.get?_lowerNames,
    Store.get?_lowerNames]

/-- What is apart is overridden in neither order. -/
theorem Apart.or_comm (h : updates.Apart later) (name : String) :
    (later.lastNamed? name).or (updates.lastNamed? name) =
      (updates.lastNamed? name).or (later.lastNamed? name) := by
  cases hv : updates.lastNamed? name with
  | none => rw [Option.or_none, Option.none_or]
  | some v =>
      cases hw : later.lastNamed? name with
      | none => rfl
      | some w =>
          obtain ⟨given, hgiven, hmem⟩ := mem_of_lastNamed? hv
          obtain ⟨n, hn, hmem'⟩ := mem_of_lastNamed? hw
          exact absurd (hgiven.trans hn.symm)
            (h given (List.mem_map_of_mem hmem) n (List.mem_map_of_mem hmem'))

/-- Where names differ in lower case, each item is the last one with its name. -/
theorem lastNamed?_of_mem (hdistinct : (updates.names.map Text.lower).Nodup) {p : String × Value}
    (hp : p ∈ updates) : updates.lastNamed? (Text.lower p.1) = some p.2 := by
  have hnodup : (names (updates.map fun p => (Text.lower p.1, p.2))).Nodup := by
    simpa [names, Function.comp_def] using hdistinct
  rw [lastNamed?_eq_last?, last?_of_nodup hnodup]
  exact get?_of_mem hnodup (List.mem_map_of_mem hp)

variable {coerce : Value → Except Fault Value} {old mid new new' : Value}

/-- A value that was set twice was set once by all updates. -/
theorem Sets.overriddenBy (hascii : ∀ c ∈ name.toList, Text.isAscii c)
    (hlower : Text.lower name = name) (h : updates.Sets name coerce old mid)
    (h' : later.Sets name coerce mid new) :
    (updates.overriddenBy later).Sets name coerce old new := by
  unfold Sets at h h' ⊢
  rw [lastNamed?_overriddenBy hascii hlower]
  cases hlast : later.lastNamed? name with
  | none =>
      rw [hlast] at h'
      subst h'
      exact h
  | some given =>
      rw [hlast] at h'
      exact h'

/-- What a value is set to depends on what the updates come to under its name. -/
theorem Sets.unique {other : Mapping Value} (h : updates.Sets name coerce old new)
    (h' : other.Sets name coerce old new')
    (hsame : updates.lastNamed? name = other.lastNamed? name) : new = new' := by
  unfold Sets at h h'
  rw [← hsame] at h'
  cases hlast : updates.lastNamed? name with
  | none =>
      rw [hlast] at h h'
      exact h.trans h'.symm
  | some given =>
      rw [hlast] at h h'
      exact Except.ok.inj (h.symm.trans h')

end Mapping

/-! ## Properties -/

namespace Category

variable {c : Category} {name : String} {v : Value} {updates later : Mapping Value}

/-- The name of what can be updated in entries of the category. -/
def IsProperty (c : Category) (name : String) : Prop :=
  name = "location" ∨ name = "quantity" ∨ name ∈ c.fieldNames

theorem isProperty_of_mem {f : FieldDef} (hf : f ∈ c.fields) : c.IsProperty f.name :=
  .inr (.inr (List.mem_map_of_mem hf))

/-- Properties are named in lower case and without special characters. -/
theorem IsProperty.plain (h : c.IsProperty name) (hnamed : c.Named) :
    (∀ ch ∈ name.toList, Text.isAscii ch) ∧ Text.lower name = name := by
  rcases h with rfl | rfl | hmem
  · exact ⟨List.all_eq_true.1 (by decide), by decide⟩
  · exact ⟨List.all_eq_true.1 (by decide), by decide⟩
  · obtain ⟨f, hf, rfl⟩ := List.mem_map.1 hmem
    exact ⟨(hnamed f hf).ascii, (hnamed f hf).lower⟩

/-- What is taken under a name in lower case is a property. -/
theorem Takes.isProperty {given : String} (h : c.Takes (Text.lower given) v) (hnamed : c.Named) :
    c.IsProperty (Text.lower given) := by
  by_cases hlocation : Text.lower given = "location"
  · exact .inl hlocation
  · by_cases hquantity : Text.lower given = "quantity"
    · exact .inr (.inl hquantity)
    · rw [Takes, if_neg hlocation, if_neg hquantity] at h
      obtain ⟨f, hf, -⟩ := h
      obtain ⟨hmem, hname⟩ := mem_of_field? hf
      rw [Text.lower_eq_of_lower_lower (hnamed f hmem).ascii hname.symm]
      exact isProperty_of_mem hmem

/-- What a category admits one after the other, it admits at once. -/
theorem Admits.overriddenBy (h : c.Admits updates) (h' : c.Admits later) (hnamed : c.Named) :
    c.Admits (updates.overriddenBy later) := by
  intro name v hv
  obtain ⟨lowered, rfl, hmem⟩ := Mapping.mem_of_lastNamed? hv
  have htakes {given : Mapping Value} (hgiven : c.Admits given)
      (hp : (lowered, v) ∈ Store.lowerNames given) : c.Takes (Text.lower lowered) v := by
    have hlowered := hgiven lowered v (Store.mem_lowerNames.1 hp)
    obtain ⟨n, rfl⟩ := Store.names_lowerNames given _ (List.mem_map_of_mem hp)
    rwa [((hlowered.isProperty hnamed).plain hnamed).2]
  rcases Mapping.mem_update _ _ hmem with hp | hp
  · exact htakes h hp
  · exact htakes h' hp

/-- The name of a declared field, in any case, stands for a field only. -/
theorem takes_lower_iff {given : String} (hnamed : c.Named) (hfield : (c.field? given).isSome) :
    c.Takes (Text.lower given) v ↔ c.Coerces given v := by
  obtain ⟨f, hf⟩ := Option.isSome_iff_exists.1 hfield
  obtain ⟨hmem, hname⟩ := mem_of_field? hf
  have hisField := hnamed f hmem
  have hlocation : Text.lower given ≠ "location" := fun heq =>
    hisField.unreserved (hname.trans heq ▸ by decide)
  have hquantity : Text.lower given ≠ "quantity" := fun heq =>
    hisField.unreserved (hname.trans heq ▸ by decide)
  have hsame : c.field? (Text.lower given) = c.field? given := by
    simp only [field?, ← hname, hisField.lower]
  rw [Takes, if_neg hlocation, if_neg hquantity, Coerces, Coerces, hsame]

/-- Of values for different fields each one counts. -/
theorem admits_iff_of_declaresAll (hnamed : c.Named) (hdeclared : c.DeclaresAll updates)
    (hdistinct : (updates.names.map Text.lower).Nodup) :
    c.Admits updates ↔ ∀ p ∈ updates, c.Coerces p.1 p.2 := by
  constructor
  · intro h p hp
    rw [← takes_lower_iff hnamed (hdeclared p.1 (List.mem_map_of_mem hp))]
    exact h _ _ (Mapping.lastNamed?_of_mem hdistinct hp)
  · intro h name v hv
    obtain ⟨given, rfl, hmem⟩ := Mapping.mem_of_lastNamed? hv
    rw [takes_lower_iff hnamed (hdeclared given (List.mem_map_of_mem hmem))]
    exact h (given, v) hmem

/-- Updates of declared fields do not name what every entry has. -/
theorem DeclaresAll.lastNamed?_eq_none (h : c.DeclaresAll updates) (hnamed : c.Named)
    (hname : name ∈ Name.reserved) : updates.lastNamed? name = none := by
  rw [← Store.get?_lowerNames]
  exact Mapping.get?_eq_none fun hmem => (h.lowerNames hnamed).2 name hmem hname

/-! ## Entries -/

variable {now now' : String} {e e₁ e₂ : Entry}

/-- An entry that was modified twice was modified once by all updates. -/
theorem Modifies.overriddenBy (h : c.Modifies updates now e e₁) (h' : c.Modifies later now' e₁ e₂)
    (hnamed : c.Named) : c.Modifies (updates.overriddenBy later) now' e e₂ where
  key := h'.key.trans h.key
  category := h'.category.trans h.category
  location :=
    have hplain := IsProperty.plain (.inl rfl) hnamed
    h.location.overriddenBy hplain.1 hplain.2 h'.location
  quantity :=
    have hplain := IsProperty.plain (.inr (.inl rfl)) hnamed
    h.quantity.overriddenBy hplain.1 hplain.2 h'.quantity
  created := h'.created.trans h.created
  modified := h'.modified
  fields := by
    refine ⟨h'.fields.names, fun f hf => ?_⟩
    obtain ⟨before, mid, hbefore, hmid, hsets⟩ := h.fields.sets f hf
    obtain ⟨mid', after, hmid', hafter, hsets'⟩ := h'.fields.sets f hf
    cases hmid.symm.trans hmid'
    exact ⟨before, after, hbefore, hafter,
      hsets.overriddenBy (hnamed f hf).ascii (hnamed f hf).lower hsets'⟩

/-- Values that are given to a new entry could have been given to it right afterwards. -/
theorem Creates.modifies {key location quantity : Value}
    (h₁ : c.Creates key location quantity [] now e₁)
    (h₂ : c.Creates key location quantity updates now e₂)
    (hlocation : updates.lastNamed? "location" = none)
    (hquantity : updates.lastNamed? "quantity" = none) : c.Modifies updates now e₁ e₂ where
  key := Value.text.inj (h₂.key.symm.trans h₁.key)
  category := h₂.category.trans h₁.category.symm
  location := by
    rw [Mapping.Sets, hlocation]
    exact h₂.location.symm.trans h₁.location
  quantity := by
    obtain ⟨n, hn, hquantity₁, -⟩ := h₁.quantity
    obtain ⟨n', hn', hquantity₂, -⟩ := h₂.quantity
    rw [Mapping.Sets, hquantity]
    rw [hquantity₁, hquantity₂, ← hn, ← hn']
  created := h₂.created.trans h₁.created.symm
  modified := h₂.modified
  fields := by
    refine ⟨h₂.fields.names, fun f hf => ?_⟩
    obtain ⟨unset, before, hunset, hbefore, hsets₁⟩ := h₁.fields.sets f hf
    obtain ⟨unset', after, hunset', hafter, hsets₂⟩ := h₂.fields.sets f hf
    cases hunset.symm.trans hunset'
    -- nothing is given to the field before
    obtain rfl : before = unset := hsets₁
    exact ⟨before, after, hbefore, hafter, hsets₂⟩

end Category

/-- An entry apart from the time of its last change. -/
def Entry.unstamped (e : Entry) : Entry :=
  { e with modified := none }

/-- Updates that come to the same under each property make the same of an entry. -/
theorem Category.Modifies.unstamped_eq {c : Category} {updates other : Mapping Value}
    {now now' : String} {e e₁ e₂ : Entry} (h : c.Modifies updates now e e₁)
    (h' : c.Modifies other now' e e₂) (hc : c.Canonical)
    (hsame : ∀ name, c.IsProperty name → updates.lastNamed? name = other.lastNamed? name) :
    e₁.unstamped = e₂.unstamped := by
  have hlocation : e₁.location = e₂.location :=
    Value.text.inj (h.location.unique h'.location (hsame _ (.inl rfl)))
  have hquantity : e₁.quantity = e₂.quantity :=
    h.quantity.unique h'.quantity (hsame _ (.inr (.inl rfl)))
  have hfields : e₁.fields = e₂.fields := by
    refine Mapping.ext_of_names (h.fields.names.trans h'.fields.names.symm)
      (h'.fields.names ▸ hc.names_nodup) fun name hname => ?_
    obtain ⟨f, hf, rfl⟩ := List.mem_map.1 (h'.fields.names ▸ hname)
    obtain ⟨before, after, hbefore, hafter, hsets⟩ := h.fields.sets f hf
    obtain ⟨before', after', hbefore', hafter', hsets'⟩ := h'.fields.sets f hf
    cases hbefore.symm.trans hbefore'
    rw [hafter, hafter', hsets.unique hsets' (hsame _ (isProperty_of_mem hf))]
  simp only [Entry.unstamped, Entry.mk.injEq]
  exact ⟨h.key.trans h'.key.symm, h.category.trans h'.category.symm, hlocation, hquantity, hfields,
    h.created.trans h'.created.symm, trivial⟩

/-! ## Sessions -/

/-- The session goes on from the tables that the other one has left, at whatever time. -/
structure Session.Resumes (t s : Session) : Prop where
  ready : t.Ready
  db : t.db = s.db

namespace Session.Sees

variable {s t : Session} {v : View} {key : String} {updates later : Mapping Value} {c : Category}
  {e e₁ e₂ : Entry}

theorem resumed (h : s.Sees v) (ht : t.Resumes s) : t.Sees v :=
  h.of_db ht.ready ht.db

/-- A modification that succeeds makes its change of what the session sees. -/
theorem modify_becomes (h : s.Sees v) (hop : ((Store.modify key updates).exec s).1 = .ok e₁) :
    ∃ v', ((Store.modify key updates).exec s).2.Sees v' ∧
      v.Becomes s.now (.modify key updates) (.entry e₁) v' := by
  have hexec : (Operation.modify key updates).act.exec s =
      (((Store.modify key updates).exec s).1.map .entry, ((Store.modify key updates).exec s).2) :=
    Action.exec_map _ _ s
  have ha : ((Operation.modify key updates).act.exec s).1 = .ok (.entry e₁) := by
    rw [hexec, hop]
    rfl
  have hact := h.act ha
  rwa [hexec] at hact

/-- What is modified is there. -/
theorem exists_of_modify (h : s.Sees v)
    (hop : ((Store.modify key updates).exec s).1 = .ok e₁) :
    ∃ e c, v.find key = .ok e ∧ v.resolve e.category = .ok c := by
  obtain ⟨v', -, hbecomes⟩ := h.modify_becomes hop
  cases hbecomes with
  | modify he hc => exact ⟨_, _, he, hc⟩
  | adjust hd => cases hd
  | read ho => exact ho.elim

/-- What a modification comes to when it succeeds. -/
theorem modified (h : s.Sees v) (he : v.find key = .ok e) (hc : v.resolve e.category = .ok c)
    (hop : ((Store.modify key updates).exec s).1 = .ok e₁) :
    c.Modifies updates s.now e e₁ ∧
      ((Store.modify key updates).exec s).2.Sees (v.replace e₁) := by
  obtain ⟨v', hv', hbecomes⟩ := h.modify_becomes hop
  cases hbecomes with
  | modify he' hc' hmodifies =>
      cases he.symm.trans he'
      cases hc.symm.trans hc'
      exact ⟨hmodifies, hv'⟩
  | adjust hd => cases hd
  | read ho => exact ho.elim

/-- What a creation comes to when it succeeds. -/
theorem created (h : s.Sees v) {id : String} {given location quantity : Value}
    (hc : v.resolve id = .ok c)
    (hop : ((Store.create id given location quantity updates).exec s).1 = .ok e) :
    c.Creates given location quantity updates s.now e ∧
      ((Store.create id given location quantity updates).exec s).2.Sees
        { v with entries := v.entries ++ [e] } := by
  have hexec : (Operation.create id given location quantity updates).act.exec s =
      (((Store.create id given location quantity updates).exec s).1.map .entry,
        ((Store.create id given location quantity updates).exec s).2) :=
    Action.exec_map _ _ s
  have ha : ((Operation.create id given location quantity updates).act.exec s).1 =
      .ok (.entry e) := by
    rw [hexec, hop]
    rfl
  obtain ⟨v', hv', hbecomes⟩ := h.act ha
  rw [hexec] at hv'
  cases hbecomes with
  | create hc' hnew he =>
      cases hc.symm.trans hc'
      exact ⟨he, hv'⟩
  | adjust hd => cases hd
  | read ho => exact ho.elim

/-- What a modification has answered is found afterwards, in the same category. -/
theorem find_modified (h : s.Sees (v.replace e₁)) (he : v.find key = .ok e)
    (hc : v.resolve e.category = .ok c) {now : String} (hmodifies : c.Modifies updates now e e₁) :
    (v.replace e₁).find key = .ok e₁ ∧ (v.replace e₁).resolve e₁.category = .ok c := by
  obtain ⟨hmem, rfl⟩ := View.mem_of_find he
  have hfind := h.shows.find_of_mem (View.mem_replace_self hmem hmodifies.key)
  exact ⟨hmodifies.key ▸ hfind, hmodifies.category ▸ hc⟩

/-- Two modifications come to one with all their updates. -/
theorem modified_twice (h : s.Sees v) (he : v.find key = .ok e) (hc : v.resolve e.category = .ok c)
    (hop : ((Store.modify key updates).exec s).1 = .ok e₁)
    (ht : t.Resumes ((Store.modify key updates).exec s).2)
    (hop' : ((Store.modify key later).exec t).1 = .ok e₂) :
    c.Admits later ∧ c.Modifies (updates.overriddenBy later) t.now e e₂ := by
  obtain ⟨hmodifies, hafter⟩ := h.modified he hc hop
  have hagain := hafter.resumed ht
  obtain ⟨hfind, hresolve⟩ := hafter.find_modified he hc hmodifies
  obtain ⟨hmodifies', -⟩ := hagain.modified hfind hresolve hop'
  exact ⟨(hagain.modify_ok_iff hfind hresolve later).1 ⟨e₂, hop'⟩,
    hmodifies.overriddenBy hmodifies' (h.shows.named c (View.mem_of_resolve hc).1)⟩

/-- Instead of two modifications there can be one with all their updates. -/
theorem composed (h : s.Sees v) (hop : ((Store.modify key updates).exec s).1 = .ok e₁)
    (ht : t.Resumes ((Store.modify key updates).exec s).2)
    (hop' : ((Store.modify key later).exec t).1 = .ok e₂) :
    ∃ e, ((Store.modify key (updates.overriddenBy later)).exec s).1 = .ok e ∧
      e.unstamped = e₂.unstamped := by
  obtain ⟨e, c, he, hc⟩ := h.exists_of_modify hop
  have hmem := (View.mem_of_resolve hc).1
  have hadmits := (h.modify_ok_iff he hc updates).1 ⟨e₁, hop⟩
  obtain ⟨hadmits', hmodifies⟩ := h.modified_twice he hc hop ht hop'
  obtain ⟨e₃, hop₃⟩ := (h.modify_ok_iff he hc _).2
    (hadmits.overriddenBy hadmits' (h.shows.named c hmem))
  obtain ⟨hmodifies₃, -⟩ := h.modified he hc hop₃
  exact ⟨e₃, hop₃, hmodifies₃.unstamped_eq hmodifies (h.shows.sound.canonical c hmem)
    fun _ _ => rfl⟩

/-- Two modifications with different names can be made in the other order. -/
theorem commuted (h : s.Sees v) (hop : ((Store.modify key updates).exec s).1 = .ok e₁)
    (ht : t.Resumes ((Store.modify key updates).exec s).2)
    (hop' : ((Store.modify key later).exec t).1 = .ok e₂) (hapart : updates.Apart later) :
    (∃ e, ((Store.modify key later).exec s).1 = .ok e) ∧
      ∀ t' : Session, t'.Resumes ((Store.modify key later).exec s).2 →
        ∃ e, ((Store.modify key updates).exec t').1 = .ok e ∧ e.unstamped = e₂.unstamped := by
  obtain ⟨e, c, he, hc⟩ := h.exists_of_modify hop
  have hmem := (View.mem_of_resolve hc).1
  have hadmits := (h.modify_ok_iff he hc updates).1 ⟨e₁, hop⟩
  obtain ⟨hadmits', hmodifies⟩ := h.modified_twice he hc hop ht hop'
  obtain ⟨e₃, hop₃⟩ := (h.modify_ok_iff he hc later).2 hadmits'
  refine ⟨⟨e₃, hop₃⟩, fun t' ht' => ?_⟩
  -- the category is the same, so it admits the first updates after the second ones as well
  obtain ⟨hmodifies₃, hafter⟩ := h.modified he hc hop₃
  obtain ⟨hfind, hresolve⟩ := hafter.find_modified he hc hmodifies₃
  obtain ⟨e₄, hop₄⟩ := ((hafter.resumed ht').modify_ok_iff hfind hresolve updates).2 hadmits
  obtain ⟨-, hmodifies₄⟩ := h.modified_twice he hc hop₃ ht' hop₄
  refine ⟨e₄, hop₄, hmodifies₄.unstamped_eq hmodifies (h.shows.sound.canonical c hmem) ?_⟩
  intro name hname
  obtain ⟨hascii, hlower⟩ := hname.plain (h.shows.named c hmem)
  rw [Mapping.lastNamed?_overriddenBy hascii hlower, Mapping.lastNamed?_overriddenBy hascii hlower,
    hapart.or_comm]

/-- An entry that was created without values can be modified by values if each of them can be
coerced, and becomes what it would have been created as with them. -/
theorem filled (h : s.Sees v) {id : String} {location quantity : Value}
    (hc : v.resolve id = .ok c) (hdeclared : c.DeclaresAll updates)
    (hdistinct : (updates.names.map Text.lower).Nodup)
    (hop : ((Store.create id (.text key) location quantity []).exec s).1 = .ok e)
    (ht : t.Resumes ((Store.create id (.text key) location quantity []).exec s).2) :
    ((∃ e', ((Store.modify key updates).exec t).1 = .ok e') ↔
      ∀ p ∈ updates, c.Coerces p.1 p.2) ∧
    ∀ e₁ e₂, ((Store.create id (.text key) location quantity updates).exec s).1 = .ok e₁ →
      ((Store.modify key updates).exec t).1 = .ok e₂ → e₁.unstamped = e₂.unstamped := by
  have hmem := (View.mem_of_resolve hc).1
  have hnamed := h.shows.named c hmem
  obtain ⟨hcreates, hafter⟩ := h.created hc hop
  have hagain := hafter.resumed ht
  obtain rfl : key = e.key := Value.text.inj hcreates.key
  have hfind := hagain.shows.find_of_mem (e := e) (by simp)
  have hresolve := hcreates.category ▸ hagain.shows.resolve_of_mem hmem
  constructor
  · rw [hagain.modify_ok_iff hfind hresolve, Category.admits_iff_of_declaresAll hnamed hdeclared
      hdistinct]
  · intro e₁ e₂ hop₁ hop₂
    obtain ⟨hcreates₁, -⟩ := h.created hc hop₁
    obtain ⟨hmodifies, -⟩ := hagain.modified hfind hresolve hop₂
    have hgiven := hcreates.modifies hcreates₁ (hdeclared.lastNamed?_eq_none hnamed (by decide))
      (hdeclared.lastNamed?_eq_none hnamed (by decide))
    exact hgiven.unstamped_eq hmodifies (h.shows.sound.canonical c hmem) fun _ _ => rfl

end Session.Sees

/-! ## Main result -/

/-- At every moment of a run that undoes no transaction:

- where two modifications of an entry succeed one after the other, one with all their updates, the
  later ones before the others, succeeds and makes the same of the entry, up to the time of its last
  change; if they have no name in common, in any case, they succeed in the other order as well and
  make the same of it;
- an entry is created with values for different declared fields if and only if it is created without
  them and then modified by them, and it is the same both ways. -/
theorem updates_compose (m : Moment) (key : String) (updates : Mapping Value) :
    (∀ later e₁ e₂ (t : Session), ((Store.modify key updates).exec m.session).1 = .ok e₁ →
      t.Resumes ((Store.modify key updates).exec m.session).2 →
      ((Store.modify key later).exec t).1 = .ok e₂ →
        (∃ e, ((Store.modify key (updates.overriddenBy later)).exec m.session).1 = .ok e ∧
          e.unstamped = e₂.unstamped) ∧
        (updates.Apart later →
          (∃ e, ((Store.modify key later).exec m.session).1 = .ok e) ∧
          ∀ t' : Session, t'.Resumes ((Store.modify key later).exec m.session).2 →
            ∃ e, ((Store.modify key updates).exec t').1 = .ok e ∧ e.unstamped = e₂.unstamped)) ∧
    ∀ id location quantity c (t : Session), ((Registry.resolve id).exec m.session).1 = .ok c →
      c.DeclaresAll updates → (updates.names.map Text.lower).Nodup →
      t.Resumes ((Store.create id (.text key) location quantity []).exec m.session).2 →
        ((∃ e, ((Store.create id (.text key) location quantity updates).exec m.session).1 = .ok e) ↔
          (∃ e, ((Store.create id (.text key) location quantity []).exec m.session).1 = .ok e) ∧
          ∃ e, ((Store.modify key updates).exec t).1 = .ok e) ∧
        ∀ e e', ((Store.create id (.text key) location quantity updates).exec m.session).1 = .ok e →
          ((Store.modify key updates).exec t).1 = .ok e' → e.unstamped = e'.unstamped := by
  obtain ⟨v, hv⟩ := m.sees
  refine ⟨fun later e₁ e₂ t hop ht hop' => ?_, ?_⟩
  · exact ⟨hv.composed hop ht hop', hv.commuted hop ht hop'⟩
  · intro id location quantity c t hc hdeclared hdistinct ht
    rw [hv.resolve] at hc
    have hcreate := hv.create_ok_iff hc (.text key) location quantity updates
    rw [hcreate]
    constructor
    · refine and_congr_right ?_
      rintro ⟨e₁, hop⟩
      exact (hv.filled hc hdeclared hdistinct hop ht).1.symm
    · intro e e' he he'
      obtain ⟨⟨e₁, hop⟩, -⟩ := hcreate.1 ⟨e, he⟩
      exact (hv.filled hc hdeclared hdistinct hop ht).2 e e' he he'

/-- A hammer is placed and counted, in the other order or at once. A saw gets its size when it is
created or afterwards. -/
theorem hammer_placed_and_counted :
    let define := Operation.define (.text "tools") [(.text "size", .integer)]
    let create := Operation.create "tools" (.text "hammer") (.text "shed") (.int 1) []
    let m : Moment := ⟨"2024-01-01 00:00:00",
      [⟨.first, "2024-01-01 00:00:01", .op define (.op create .done)⟩],
      .second, "2024-01-01 00:00:02", true, .done⟩
    let place : Mapping Value := [("Location", .text "shop")]
    let count : Mapping Value := [("QUANTITY", .text "2")]
    let saw := Store.create "tools" (.text "saw") (.text "shed") (.int 1)
    (∃ e, ((Store.modify "hammer" (place.overriddenBy count)).exec m.session).1 = .ok e ∧
      e.location = "shop" ∧ e.quantity.whole? = some 2) ∧
    (∃ e, ((Store.modify "hammer" place).exec
      ((Store.modify "hammer" count).exec m.session).2).1 = .ok e ∧
        e.location = "shop" ∧ e.quantity.whole? = some 2) ∧
    ∃ e e', ((saw [("Size", .int 7)]).exec m.session).1 = .ok e ∧
      ((Store.modify "saw" [("Size", .int 7)]).exec ((saw []).exec m.session).2).1 = .ok e' ∧
      e.unstamped = e'.unstamped := by
  intro define create m place count saw
  have hplaced : ∃ e, ((Store.modify "hammer" place).exec m.session).1 = .ok e ∧
      e.location = "shop" := by
    decide +kernel
  have hcounted : ∃ e, ((Store.modify "hammer" count).exec
      ((Store.modify "hammer" place).exec m.session).2).1 = .ok e ∧
        e.location = "shop" ∧ e.quantity.whole? = some 2 := by
    decide +kernel
  have htools : ∃ c, ((Registry.resolve "tools").exec m.session).1 = .ok c ∧
      c = ⟨"tools", [⟨"size", .integer⟩]⟩ := by
    decide +kernel
  have hsaw : ∃ e, ((saw [("Size", .int 7)]).exec m.session).1 = .ok e ∧ e.key = "saw" := by
    decide +kernel
  obtain ⟨v, hv⟩ := m.sees
  obtain ⟨e₁, hplace, -⟩ := hplaced
  obtain ⟨e₂, hcount, hlocation, hquantity⟩ := hcounted
  obtain ⟨_, hresolve, rfl⟩ := htools
  obtain ⟨e₃, hsaw, -⟩ := hsaw
  have like {e : Entry} (h : e.unstamped = e₂.unstamped) :
      e.location = "shop" ∧ e.quantity.whole? = some 2 :=
    ⟨(congrArg Entry.location h).trans hlocation,
      (congrArg (fun e : Entry => e.quantity.whole?) h).trans hquantity⟩
  obtain ⟨_, hplaced, -⟩ := hv.modify_becomes hplace
  obtain ⟨hboth, hother⟩ := (updates_compose m "hammer" place).1 count e₁ e₂ _ hplace
    ⟨hplaced.ready, rfl⟩ hcount
  obtain ⟨⟨e₄, hcountFirst⟩, hlast⟩ := hother (by decide)
  obtain ⟨_, hcounted, -⟩ := hv.modify_becomes hcountFirst
  refine ⟨hboth.imp fun e he => ⟨he.1, like he.2⟩,
    (hlast _ ⟨hcounted.ready, rfl⟩).imp fun e he => ⟨he.1, like he.2⟩, ?_⟩
  have htools := (hv.resolve _).symm.trans hresolve
  obtain ⟨⟨e₀, hempty⟩, -⟩ := (hv.create_ok_iff htools _ _ _ _).1 ⟨e₃, hsaw⟩
  obtain ⟨-, hcreated⟩ := hv.created htools hempty
  obtain ⟨hiff, hsame⟩ := (updates_compose m "saw" [("Size", .int 7)]).2 "tools" (.text "shed")
    (.int 1) _ _ hresolve (by decide) (by decide) ⟨hcreated.ready, rfl⟩
  obtain ⟨-, e₅, hsized⟩ := hiff.1 ⟨e₃, hsaw⟩
  exact ⟨e₃, e₅, hsaw, hsized, hsame _ _ hsaw hsized⟩

end Inventory

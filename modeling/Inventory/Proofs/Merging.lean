import Inventory.Config.Merge
import Inventory.Proofs.Distinct
import Inventory.Proofs.Rounding

/-!
# Merged mappings

Two mappings are merged name by name, and where both have a mapping for a name, these are merged in
the same way. What comes out is described here by the paths of names that lead to it: where the
upper mapping says something about a path it counts, and where it says nothing the lower one is
kept. From one step of a path this follows by induction on the path; that merging twice is merging
once follows by induction on the upper tree.
-/

namespace Inventory.Yaml

/-! ## Names that are the same -/

/-- What the scalars have in common that name one item. -/
inductive Identity where
  | null
  /-- A number: the whole number that it is, and else its place if it has one. -/
  | number (whole place : Option Int)
  | text (s : String)
  | codes (ns : List Nat)
  | date (d : Date)
  /-- A moment: whether its offset is known, and the microseconds that are counted then. -/
  | moment (isKnown : Bool) (microseconds : Int)
  | bytes (ns : List Nat)

namespace Scalar

def identity : Scalar → Identity
  | null => .null
  | bool b => .number (some (if b then 1 else 0)) none
  | int n => .number (some n) none
  | real x => .number x.toInt? (if x.toInt?.isSome then none else x.rank?)
  | text s => .text s
  | codes ns => .codes ns
  | date d => .date d
  | moment m => .moment m.offset.isSome (m.clock - 60000000 * m.offset.getD 0)
  | bytes ns => .bytes ns

variable {a b c : Scalar}

/-- Real numbers name one item if they have one place, or are both none. -/
theorem same_real_iff (x y : Binary64) : (real x).same (real y) ↔ x.rank? = y.rank? := by
  cases x <;> cases y <;> simp [same, Binary64.compareBy, Binary64.rank?]

theorem identity_real_iff (x y : Binary64) :
    (real x).identity = (real y).identity ↔ x.rank? = y.rank? := by
  simp only [identity, Identity.number.injEq]
  constructor
  · rintro ⟨hwhole, hplace⟩
    cases hx : x.toInt? with
    | some n => exact Binary64.rank?_congr hx (hwhole ▸ hx)
    | none => simpa [hx, ← hwhole] using hplace
  · intro h
    rw [Binary64.toInt?_congr h, h]
    exact ⟨rfl, rfl⟩

theorem same_iff : a.same b ↔ a.identity = b.identity := by
  cases a <;> cases b
  case real.real x y => rw [same_real_iff, identity_real_iff]
  case moment.moment m n =>
    obtain ⟨_, _, _, _, _, i⟩ := m
    obtain ⟨_, _, _, _, _, j⟩ := n
    cases i <;> cases j <;> simp [same, identity, Moment.same, Moment.clock]
  case bool.real _ x | int.real _ x | real.bool x _ | real.int x _ =>
    cases hx : x.toInt? <;> simp [same, identity, whole?, hx]
  all_goals simp [same, identity, whole?]

theorem same_refl (a : Scalar) : a.same a :=
  same_iff.2 rfl

theorem same_comm (a b : Scalar) : a.same b = b.same a := by
  rw [Bool.eq_iff_iff, same_iff, same_iff, eq_comm]

/-- Names that are the same are the same as the same names. -/
theorem same_congr (h : a.same b) (c : Scalar) : c.same a = c.same b := by
  rw [Bool.eq_iff_iff, same_iff, same_iff, same_iff.1 h]

end Scalar

namespace Tree

variable {items lower upper : List (Scalar × Tree)} {name other : Scalar} {t : Tree}

/-! ## Items -/

theorem get?_cons (name : Scalar) (t : Tree) (items : List (Scalar × Tree)) (other : Scalar) :
    get? ((name, t) :: items) other = if name.same other then some t else get? items other := by
  cases hsame : name.same other <;> simp [get?, hsame]

theorem get?_eq_none (h : ∀ item ∈ items, item.1.same name = false) : get? items name = none := by
  rw [get?, Option.map_eq_none_iff, List.find?_eq_none]
  exact fun item hitem => by simp [h item hitem]

theorem get?_congr (h : name.same other) (items : List (Scalar × Tree)) :
    get? items name = get? items other := by
  simp only [get?, Scalar.same_congr h]

theorem mem_of_get? (h : get? items name = some t) : ∃ item ∈ items, item.2 = t := by
  obtain ⟨item, hitem, rfl⟩ := Option.map_eq_some_iff.1 h
  exact ⟨item, List.mem_of_find?_eq_some hitem, rfl⟩

/-- Every item is found under its name where the names differ. -/
theorem get?_of_mem (h : DistinctNames (items.map Prod.fst)) (hmem : (name, t) ∈ items) :
    get? items name = some t := by
  induction items with
  | nil => cases hmem
  | cons item rest ih =>
      obtain ⟨n, old⟩ := item
      obtain ⟨hfirst, hrest⟩ := List.pairwise_cons.1 h
      rw [get?_cons]
      rcases List.mem_cons.1 hmem with heq | hmem
      · cases heq
        rw [if_pos (Scalar.same_refl name)]
      · have hdiffer : n.same name = false := hfirst name (List.mem_map_of_mem hmem)
        rw [hdiffer, if_neg Bool.false_ne_true]
        exact ih hrest hmem

/-- Only what stands for a name changes when it is given a value. -/
theorem get?_insert (name : Scalar) (t : Tree) (items : List (Scalar × Tree)) (other : Scalar) :
    get? (insert name t items) other = if name.same other then some t else get? items other := by
  induction items with
  | nil => exact get?_cons name t [] other
  | cons item rest ih =>
      obtain ⟨n, old⟩ := item
      rw [insert]
      by_cases hreplaced : n.same name
      · rw [if_pos hreplaced, get?_cons, get?_cons, Scalar.same_comm n other,
          Scalar.same_comm name other, Scalar.same_congr hreplaced other]
        split <;> rfl
      · rw [if_neg hreplaced, get?_cons, get?_cons, ih]
        by_cases hn : n.same other
        · have hname : ¬name.same other := fun hname =>
            hreplaced (by rwa [Scalar.same_congr hname])
          rw [if_pos hn, if_pos hn, if_neg hname]
        · rw [if_neg hn, if_neg hn]

/-- A name that is given the value that it has leaves everything in its place. -/
theorem insert_of_get? (h : get? items name = some t) : insert name t items = items := by
  induction items with
  | nil => cases h
  | cons item rest ih =>
      obtain ⟨n, old⟩ := item
      rw [get?_cons] at h
      rw [insert]
      split at h
      · next hsame =>
          cases h
          rw [if_pos hsame]
      · next hsame => rw [if_neg hsame, ih h]

theorem insert_of_get?_none (h : get? items name = none) :
    insert name t items = items ++ [(name, t)] := by
  induction items with
  | nil => rfl
  | cons item rest ih =>
      obtain ⟨n, old⟩ := item
      rw [get?_cons] at h
      rw [insert]
      split at h
      · cases h
      · next hsame => rw [if_neg hsame, ih h, List.cons_append]

/-! ## Merged items -/

/-- What is merged of two values for one name. -/
def atop (base : Option Tree) (upper : Tree) : Tree :=
  match base with
  | some old => merge old upper
  | none => upper

theorem mergeItems_cons (items : List (Scalar × Tree)) (name : Scalar) (t : Tree)
    (rest : List (Scalar × Tree)) :
    mergeItems items ((name, t) :: rest) =
      mergeItems (insert name (atop (get? items name) t) items) rest := by
  rw [mergeItems]
  rfl

theorem mergeItems_nil (items : List (Scalar × Tree)) : mergeItems items [] = items := by
  rw [mergeItems]

/-- A name stands for what the upper side has for it, merged with what the lower side has for it. -/
theorem get?_mergeItems (name : Scalar) (upper : List (Scalar × Tree)) :
    ∀ items, DistinctNames (upper.map Prod.fst) →
      get? (mergeItems items upper) name =
        match get? upper name with
        | some t => some (atop (get? items name) t)
        | none => get? items name := by
  induction upper with
  | nil =>
      intro items _
      rw [mergeItems_nil]
      rfl
  | cons item rest ih =>
      obtain ⟨first, t⟩ := item
      intro items hdistinct
      obtain ⟨hfirst, hrest⟩ := List.pairwise_cons.1 hdistinct
      rw [mergeItems_cons, ih _ hrest, get?_cons, get?_insert]
      by_cases hsame : first.same name
      · have hnone : get? rest name = none := by
          refine get?_eq_none fun item hitem => ?_
          rw [← Scalar.same_congr hsame, Scalar.same_comm]
          exact hfirst item.1 (List.mem_map_of_mem hitem)
        rw [hnone, if_pos hsame, if_pos hsame, get?_congr hsame]
      · rw [if_neg hsame, if_neg hsame]

section Looked

variable (items) (hupper : DistinctNames (upper.map Prod.fst))

include hupper

theorem get?_mergeItems_of_some (h : get? upper name = some t) :
    get? (mergeItems items upper) name = some (atop (get? items name) t) := by
  rw [get?_mergeItems name upper items hupper, h]

theorem get?_mergeItems_of_none (h : get? upper name = none) :
    get? (mergeItems items upper) name = get? items name := by
  rw [get?_mergeItems name upper items hupper, h]

end Looked

/-- Items whose names are new are put at the end. -/
theorem mergeItems_append (upper : List (Scalar × Tree)) :
    ∀ items, DistinctNames ((items ++ upper).map Prod.fst) →
      mergeItems items upper = items ++ upper := by
  induction upper with
  | nil => exact fun items _ => by rw [mergeItems_nil, List.append_nil]
  | cons item rest ih =>
      obtain ⟨name, t⟩ := item
      intro items hdistinct
      have hnone : get? items name = none := by
        rw [List.map_append] at hdistinct
        obtain ⟨-, -, hacross⟩ := List.pairwise_append.1 hdistinct
        exact get?_eq_none fun item hitem =>
          hacross item.1 (List.mem_map_of_mem hitem) name List.mem_cons_self
      rw [mergeItems_cons, hnone, atop, insert_of_get?_none hnone, ih _ (by simpa using hdistinct)]
      simp

theorem nil_mergeItems (h : DistinctNames (upper.map Prod.fst)) : mergeItems [] upper = upper :=
  mergeItems_append upper [] h

/-- Nothing changes when items are merged with what is merged into them already. -/
theorem mergeItems_of_forall_get? (upper : List (Scalar × Tree))
    (h : ∀ name t, (name, t) ∈ upper → ∃ u, get? items name = some u ∧ merge u t = u) :
    mergeItems items upper = items := by
  induction upper with
  | nil => exact mergeItems_nil items
  | cons item rest ih =>
      obtain ⟨name, t⟩ := item
      obtain ⟨u, hget, hmerge⟩ := h name t List.mem_cons_self
      rw [mergeItems_cons, hget, atop, hmerge, insert_of_get? hget]
      exact ih fun other v hmem => h other v (List.mem_cons_of_mem _ hmem)

theorem Distinct.names (h : Distinct (.mapping items)) : DistinctNames (items.map Prod.fst) := by
  cases h
  assumption

theorem Distinct.of_get? (h : Distinct (.mapping items)) (ht : get? items name = some t) :
    t.Distinct := by
  obtain ⟨item, hitem, rfl⟩ := mem_of_get? ht
  cases h with
  | mapping _ hitems => exact hitems item hitem

/-! ## Merging again -/

/-- The items of a mapping that is merged with another one; none if there is no mapping. -/
def under : Option Tree → List (Scalar × Tree)
  | some (.mapping items) => items
  | _ => []

theorem atop_mapping (h : DistinctNames (upper.map Prod.fst)) (base : Option Tree) :
    atop base (.mapping upper) = .mapping (mergeItems (under base) upper) := by
  cases base with
  | none => rw [atop, under, nil_mergeItems h]; exact nofun
  | some old =>
      cases old with
      | mapping items => rw [atop, merge, under]
      | _ => rw [atop, merge, under, nil_mergeItems h] <;> exact nofun

def isMapping : Tree → Bool
  | .mapping _ => true
  | _ => false

/-- A value that is no mapping takes the place of every other. -/
theorem atop_of_not_mapping {base : Option Tree} (h : t.isMapping = false) : atop base t = t := by
  cases base with
  | none => rfl
  | some old =>
      cases t with
      | mapping items => cases h
      | _ => rfl

/-- What is merged already is not changed by merging it again. -/
theorem merge_atop (h : t.Distinct) : ∀ base, merge (atop base t) t = atop base t := by
  induction h with
  | @mapping upper hnames _ ih =>
      intro base
      rw [atop_mapping hnames, merge]
      refine congrArg mapping (mergeItems_of_forall_get? upper fun name t hmem => ?_)
      exact ⟨atop (get? (under base) name) t,
        get?_mergeItems_of_some _ hnames (get?_of_mem hnames hmem), ih (name, t) hmem _⟩
  | _ =>
      intro base
      rw [atop_of_not_mapping rfl]
      rfl

/-! ## Paths of names -/

/-- The tree at the end of a path of names. -/
def at? : Tree → List Scalar → Option Tree
  | t, [] => some t
  | .mapping items, name :: rest => (get? items name).bind fun t => at? t rest
  | _, _ :: _ => none

/-- A value that is no mapping stands before the end of the path. -/
def Blocks (t : Tree) (path : List Scalar) : Prop :=
  ∃ front rest v, path = front ++ rest ∧ rest ≠ [] ∧ t.at? front = some v ∧ v.isMapping = false

/-- What is found at the end of a path in a tree that is merged over another one: a value of the
upper tree that is no mapping, and nothing behind such a value; a mapping where the upper tree has
one; and else what the lower tree has. -/
structure Overlaid (base : Option Tree) (upper merged : Tree) (path : List Scalar) : Prop where
  value : ∀ v, upper.at? path = some v → v.isMapping = false → merged.at? path = some v
  blocked : upper.Blocks path → merged.at? path = none
  mapping : ∀ v, upper.at? path = some v → v.isMapping →
    ∃ u, merged.at? path = some u ∧ u.isMapping
  kept : upper.at? path = none → ¬upper.Blocks path →
    merged.at? path = base.bind (·.at? path)

theorem not_blocks_nil (t : Tree) : ¬t.Blocks [] := by
  rintro ⟨front, rest, v, hpath, hrest, -⟩
  exact hrest (List.append_eq_nil_iff.1 hpath.symm).2

theorem at?_cons_of_not_mapping (h : t.isMapping = false) (name : Scalar) (rest : List Scalar) :
    t.at? (name :: rest) = none := by
  cases t with
  | mapping items => cases h
  | _ => rfl

theorem blocks_of_not_mapping (h : t.isMapping = false) (name : Scalar) (rest : List Scalar) :
    t.Blocks (name :: rest) :=
  ⟨[], name :: rest, t, rfl, List.cons_ne_nil _ _, by rw [at?], h⟩

theorem blocks_mapping_cons (rest : List Scalar) :
    (mapping items).Blocks (name :: rest) ↔ ∃ t, get? items name = some t ∧ t.Blocks rest := by
  constructor
  · rintro ⟨front, behind, v, hpath, hbehind, hv, hvalue⟩
    cases front with
    | nil =>
        rw [at?, Option.some.injEq] at hv
        subst hv
        cases hvalue
    | cons first front =>
        cases hpath
        obtain ⟨t, ht, hv⟩ := Option.bind_eq_some_iff.1 hv
        exact ⟨t, ht, front, behind, v, rfl, hbehind, hv, hvalue⟩
  · rintro ⟨t, ht, front, behind, v, rfl, hbehind, hv, hvalue⟩
    refine ⟨name :: front, behind, v, rfl, hbehind, ?_, hvalue⟩
    rw [at?, ht]
    exact hv

theorem bind_at?_cons (base : Option Tree) (name : Scalar) (rest : List Scalar) :
    (base.bind (·.at? (name :: rest))) = (get? (under base) name).bind (·.at? rest) := by
  cases base with
  | none => rfl
  | some old => cases old <;> rfl

theorem overlaid_nil (h : t.Distinct) (base : Option Tree) : Overlaid base t (atop base t) [] where
  value := by
    rintro _ ⟨⟩ hvalue
    rw [atop_of_not_mapping hvalue, at?]
  blocked := fun hblocked => absurd hblocked (not_blocks_nil t)
  mapping := by
    rintro _ ⟨⟩ hmapping
    cases t with
    | mapping upper => exact ⟨_, rfl, by rw [atop_mapping h.names]; rfl⟩
    | _ => cases hmapping
  kept := nofun

/-- Behind a value that is no mapping there is nothing, whatever it is merged over. -/
theorem overlaid_of_not_mapping (h : t.isMapping = false) (base : Option Tree) (name : Scalar)
    (rest : List Scalar) : Overlaid base t (atop base t) (name :: rest) := by
  have hnone := at?_cons_of_not_mapping h name rest
  rw [atop_of_not_mapping h]
  refine ⟨fun v hv => ?_, fun _ => hnone, fun v hv => ?_, fun _ hblocked => ?_⟩
  · cases hnone.symm.trans hv
  · cases hnone.symm.trans hv
  · exact absurd (blocks_of_not_mapping h name rest) hblocked

/-- A tree merged over another one, path by path. The induction follows the path into both trees. -/
theorem overlaid_atop (path : List Scalar) : ∀ base (t : Tree), t.Distinct →
    Overlaid base t (atop base t) path := by
  induction path with
  | nil => exact fun base t h => overlaid_nil h base
  | cons name rest ih =>
      intro base t h
      cases t with
      | mapping upper =>
          rw [atop_mapping h.names]
          cases hupper : get? upper name with
          | none =>
              have hget := get?_mergeItems_of_none (under base) h.names hupper
              have hnone : (mapping upper).at? (name :: rest) = none := by rw [at?, hupper]; rfl
              have hfree : ¬(mapping upper).Blocks (name :: rest) := by
                rw [blocks_mapping_cons, hupper]
                exact nofun
              refine ⟨fun v hv => ?_, fun hblocked => absurd hblocked hfree, fun v hv => ?_,
                fun _ _ => ?_⟩
              · cases hnone.symm.trans hv
              · cases hnone.symm.trans hv
              · rw [bind_at?_cons, at?, hget]
          | some t =>
              have hstep : (mapping upper).at? (name :: rest) = t.at? rest := by
                rw [at?, hupper]
                rfl
              have hmerged : (mapping (mergeItems (under base) upper)).at? (name :: rest) =
                  (atop (get? (under base) name) t).at? rest := by
                rw [at?, get?_mergeItems_of_some _ h.names hupper]
                rfl
              have hblocks : (mapping upper).Blocks (name :: rest) ↔ t.Blocks rest := by
                simp [blocks_mapping_cons, hupper]
              obtain ⟨hvalue, hblocked, hmapping, hkept⟩ :=
                ih (get? (under base) name) t (h.of_get? hupper)
              refine ⟨?_, ?_, ?_, ?_⟩
              · rwa [hstep, hmerged]
              · rwa [hblocks, hmerged]
              · rwa [hstep, hmerged]
              · rwa [hstep, hblocks, hmerged, bind_at?_cons]
      | _ => exact overlaid_of_not_mapping rfl base name rest

/-- Of two merged mappings, what is found at the end of any path comes from the right side; an empty
side leaves the other one as it is, and merging the upper side again changes nothing. -/
theorem merged_by_paths {lower upper : List (Scalar × Tree)} (h : Distinct (.mapping upper)) :
    (∀ path, Overlaid (some (.mapping lower)) (.mapping upper)
      (.mapping (mergeItems lower upper)) path) ∧
    mergeItems [] upper = upper ∧ mergeItems lower [] = lower ∧
    mergeItems (mergeItems lower upper) upper = mergeItems lower upper := by
  have hatop : atop (some (.mapping lower)) (.mapping upper) = .mapping (mergeItems lower upper) :=
    atop_mapping h.names _
  refine ⟨fun path => ?_, nil_mergeItems h.names, mergeItems_nil lower, ?_⟩
  · rw [← hatop]
    exact overlaid_atop path (some (.mapping lower)) (.mapping upper) h
  · have htwice := merge_atop h (some (.mapping lower))
    rw [hatop, merge] at htwice
    exact Tree.mapping.inj htwice

/-- A path stays beside a setting that is new, and a section takes the place of a text; the name
`true` is that of the item `1`. -/
theorem sections_merged_by_paths :
    let lower := [(.text "database", .mapping [(.text "path", .scalar (.text "/g.db"))]),
      (.int 1, .scalar (.text "one"))]
    let upper := [(.text "database", .mapping [(.text "strict", .scalar .null)]),
      (.bool true, .mapping [(.text "name", .scalar (.text "first"))])]
    Distinct (.mapping upper) ∧
      (∀ path, Overlaid (some (.mapping lower)) (.mapping upper)
        (.mapping (mergeItems lower upper)) path) ∧
      mergeItems [] upper = upper ∧ mergeItems lower [] = lower ∧
      mergeItems (mergeItems lower upper) upper = mergeItems lower upper := by
  intro lower upper
  have hsection (name : String) (s : Scalar) : Distinct (.mapping [(.text name, .scalar s)]) :=
    .mapping (List.pairwise_singleton ..) (by simpa using Distinct.scalar s)
  have hupper : Distinct (.mapping upper) := by
    refine .mapping (by simp [upper, DistinctNames, Scalar.same, Scalar.whole?]) ?_
    rw [List.forall_mem_cons, List.forall_mem_singleton]
    exact ⟨hsection _ _, hsection _ _⟩
  exact ⟨hupper, merged_by_paths hupper⟩

end Tree

end Inventory.Yaml

import Inventory.Yaml.Construction
import Mathlib.Data.List.Basic

/-!
# Names of items

No mapping of a settings file has two items with the same name. A mapping is built item by item,
and an item whose name is there already takes the place of the earlier one; what is built is then
copied into trees. So the names differ in every mapping of a tree that is read, at any depth.
-/

namespace Inventory.Yaml

/-- No two of the names are the same. -/
def DistinctNames (names : List Scalar) : Prop :=
  names.Pairwise fun a b => a.same b = false

/-! ## Building -/

namespace Builder

theorem names_insert (name : Scalar) (id : Nat) (items : List (Scalar × Nat)) :
    (insert name id items).map Prod.fst =
      if items.any (·.1.same name) then items.map Prod.fst else items.map Prod.fst ++ [name] := by
  induction items with
  | nil => rfl
  | cons item rest ih =>
      obtain ⟨n, old⟩ := item
      cases hsame : n.same name with
      | true => simp [insert, hsame]
      | false =>
          simp only [insert, hsame, Bool.false_eq_true, if_false, List.map_cons, ih, List.any_cons,
            Bool.false_or]
          split <;> rfl

theorem distinctNames_insert {name : Scalar} {id : Nat} {items : List (Scalar × Nat)}
    (h : DistinctNames (items.map Prod.fst)) :
    DistinctNames ((insert name id items).map Prod.fst) := by
  rw [names_insert]
  split
  · exact h
  · next hnew =>
      refine List.pairwise_append.2 ⟨h, List.pairwise_singleton .., fun n hn m hm => ?_⟩
      obtain ⟨item, hitem, rfl⟩ := List.mem_map.1 hn
      rw [List.mem_singleton.1 hm]
      simpa using fun hsame => hnew (List.any_eq_true.2 ⟨item, hitem, hsame⟩)

end Builder

/-- In every mapping that is built the names differ. -/
def Built.Distinct : Built → Prop
  | .mapping items => DistinctNames (items.map Prod.fst)
  | _ => True

/-- What is built so far. -/
def Site.Distinct (site : Site) : Prop :=
  ∀ (id : Nat) (b : Built), site.built[id]? = some (some b) → b.Distinct

namespace Builder

variable {α β : Type} {P : α → Prop} {Q : β → Prop}

/-- Where the names differ, they still do afterwards, and the result is as stated. -/
def Gives (m : Builder α) (P : α → Prop) : Prop :=
  ∀ site, site.Distinct → ∀ x site', m.run site = .ok (x, site') → site'.Distinct ∧ P x

/-- Only that the names differ. -/
def Keeps (m : Builder α) : Prop :=
  Gives m fun _ => True

namespace Gives

theorem weaken {P' : α → Prop} {m : Builder α} (h : Gives m P) (hP : ∀ x, P x → P' x) :
    Gives m P' :=
  fun site hsite x site' hrun => (h site hsite x site' hrun).imp_right (hP x)

theorem keeps {m : Builder α} (h : Gives m P) : Keeps m :=
  h.weaken fun _ _ => trivial

theorem pure {x : α} (hx : P x) : Gives (Pure.pure x) P := by
  rintro site hsite _ _ ⟨⟩
  exact ⟨hsite, hx⟩

theorem bind {m : Builder α} {k : α → Builder β} (hm : Gives m P)
    (hk : ∀ x, P x → Gives (k x) Q) : Gives (m >>= k) Q := by
  intro site hsite y site'' hrun
  simp only [StateT.run_bind] at hrun
  cases hfirst : m.run site with
  | error f =>
      rw [hfirst] at hrun
      cases hrun
  | ok r =>
      rw [hfirst] at hrun
      obtain ⟨hnext, hx⟩ := hm site hsite r.1 r.2 hfirst
      exact hk r.1 hx r.2 hnext y site'' hrun

theorem get : Gives (MonadState.get : Builder Site) Site.Distinct := by
  rintro site hsite _ _ ⟨⟩
  exact ⟨hsite, hsite⟩

theorem ofModify {f : Site → Site} (hf : ∀ site, site.Distinct → (f site).Distinct) :
    Keeps (modify f) := by
  rintro site hsite _ _ ⟨⟩
  exact ⟨hf site hsite, trivial⟩

theorem throw (f : Fault) : Gives (MonadExcept.throw f : Builder α) P := by
  rintro site hsite _ _ ⟨⟩

theorem lift (r : Read α) : Keeps (liftM r : Builder α) := by
  intro site hsite x site' hrun
  cases r with
  | error f => cases hrun
  | ok y =>
      cases hrun
      exact ⟨hsite, trivial⟩

end Gives

namespace Keeps

theorem discard {m : Builder α} (h : Keeps m) : Keeps (discard m) := by
  show Gives (m >>= fun _ => Pure.pure PUnit.unit) _
  exact Gives.bind h fun _ _ => Gives.pure trivial

theorem forM {f : α → Builder Unit} {xs : List α} (h : ∀ x ∈ xs, Keeps (f x)) :
    Keeps (xs.forM f) := by
  induction xs with
  | nil => exact Gives.pure trivial
  | cons x rest ih =>
      exact Gives.bind (h x List.mem_cons_self) fun _ _ =>
        ih fun y hy => h y (List.mem_cons_of_mem _ hy)

theorem mapM {f : α → Builder β} {xs : List α} (h : ∀ x ∈ xs, Keeps (f x)) :
    Keeps (xs.mapM f) := by
  induction xs with
  | nil => exact Gives.pure trivial
  | cons x rest ih =>
      rw [List.mapM_cons]
      exact Gives.bind (h x List.mem_cons_self) fun _ _ =>
        Gives.bind (ih fun y hy => h y (List.mem_cons_of_mem _ hy)) fun _ _ => Gives.pure trivial

end Keeps

theorem Gives.foldlM {f : β → α → Builder β} (hf : ∀ y x, Q y → Gives (f y x) Q) (xs : List α) :
    ∀ y, Q y → Gives (xs.foldlM f y) Q := by
  induction xs with
  | nil => exact fun y hy => Gives.pure hy
  | cons x rest ih =>
      intro y hy
      rw [List.foldlM_cons]
      exact Gives.bind (hf y x hy) ih

/-! ### Steps -/

theorem gives_fail : Gives (fail : Builder α) P :=
  Gives.throw _

theorem keeps_put (id : Nat) {b : Built} (hb : b.Distinct) : Keeps (put id b) := by
  refine Gives.ofModify fun site hsite other c hc => ?_
  simp only [Array.set!_eq_setIfInBounds, Array.getElem?_setIfInBounds] at hc
  split at hc
  · split at hc
    · cases hc
      exact hb
    · cases hc
  · exact hsite other c hc

theorem keeps_putOff (id : Nat) {b : Built} (hb : b.Distinct) : Keeps (putOff id b) :=
  Gives.bind (keeps_put id hb) fun _ _ => Gives.ofModify fun _ hsite => hsite

theorem keeps_value (id : Nat) : Keeps (value id) := by
  refine Gives.bind Gives.get fun site _ => ?_
  split
  · exact Gives.pure trivial
  · split
    · exact keeps_putOff id trivial
    · exact keeps_putOff id List.Pairwise.nil
    · exact keeps_putOff id trivial
    · exact keeps_putOff id trivial
    · exact gives_fail
    · exact gives_fail
    · exact gives_fail
    · split
      · split
        · exact Gives.throw _
        · exact Gives.bind (Gives.lift _) fun _ _ => keeps_put id trivial
      · exact gives_fail

theorem keeps_scalar (id : Nat) : Keeps (scalar id) := by
  refine Gives.bind (keeps_value id) fun _ _ => Gives.bind Gives.get fun site _ => ?_
  split
  · exact Gives.pure trivial
  · exact gives_fail

theorem keeps_itemsOf (id : Nat) : Keeps (itemsOf id) := by
  refine Gives.bind Gives.get fun site _ => ?_
  split
  · exact Gives.pure trivial
  · exact gives_fail

theorem keeps_mergedItems {prepare : Nat → Builder Unit} (h : ∀ id, Keeps (prepare id)) (id : Nat) :
    Keeps (mergedItems prepare id) := by
  refine Gives.bind Gives.get fun site _ => ?_
  split
  · exact Gives.bind (h id) fun _ _ => keeps_itemsOf id
  · refine Gives.bind (Keeps.mapM fun item _ => ?_) fun _ _ => Gives.pure trivial
    exact Gives.bind (keeps_itemsOf item).discard fun _ _ =>
      Gives.bind (h item) fun _ _ => keeps_itemsOf item
  · exact gives_fail

/-- Merging changes nodes only, and nothing that is built. -/
theorem keeps_merge (fuel : Nat) : ∀ id index merged, Keeps (merge fuel id index merged) := by
  induction fuel with
  | zero => exact fun _ _ _ => gives_fail
  | succ fuel ih =>
      intro id index merged
      refine Gives.bind (keeps_itemsOf id) fun items _ => Gives.bind Gives.get fun site _ =>
        Gives.bind (Gives.ofModify fun _ hsite => hsite) fun _ _ => ?_
      split
      · exact Gives.ofModify fun _ hsite => hsite
      · exact Gives.bind (Gives.ofModify fun _ hsite => hsite) fun _ _ =>
          Gives.bind (keeps_mergedItems (fun item => ih item 0 []) _) fun _ _ => ih _ _ _

theorem gives_named (id : Nat) : Gives (named id) fun items => DistinctNames (items.map Prod.fst) := by
  refine Gives.bind (keeps_itemsOf id).discard fun _ _ => Gives.bind Gives.get fun site _ =>
    Gives.bind (keeps_merge _ id 0 []) fun _ _ => Gives.bind (keeps_itemsOf id) fun items _ => ?_
  refine Gives.foldlM (fun done item hdone => ?_) items [] List.Pairwise.nil
  exact Gives.bind (keeps_scalar item.1) fun _ _ => Gives.bind (keeps_value item.2) fun _ _ =>
    Gives.pure (distinctNames_insert hdone)

theorem keeps_pair (id : Nat) : Keeps (pair id) := by
  refine Gives.bind (keeps_itemsOf id) fun items _ => ?_
  split
  · exact Gives.bind (keeps_value _) fun _ _ => Gives.bind (keeps_value _) fun _ _ =>
      Gives.pure trivial
  · exact gives_fail

theorem keeps_listed (id : Nat) : Keeps (listed id) := by
  refine Gives.bind Gives.get fun site _ => ?_
  split
  · exact Gives.pure trivial
  · exact gives_fail

theorem keeps_fill (id : Nat) : Keeps (fill id) := by
  refine Gives.bind Gives.get fun site _ => ?_
  split
  · exact Gives.bind (keeps_listed id) fun items _ =>
      Gives.bind (Keeps.forM fun item _ => keeps_value item) fun _ _ => keeps_put id trivial
  · exact Gives.bind (gives_named id) fun items hitems => keeps_put id hitems
  · exact Gives.bind (gives_named id) fun items _ => keeps_put id trivial
  · exact Gives.bind (keeps_listed id) fun items _ =>
      Gives.bind (Keeps.mapM fun item _ => keeps_pair item) fun _ _ => keeps_put id trivial
  · exact Gives.pure trivial

theorem keeps_finish (fuel : Nat) : Keeps (finish fuel) := by
  induction fuel with
  | zero => exact Gives.pure trivial
  | succ fuel ih =>
      refine Gives.bind Gives.get fun site _ => ?_
      dsimp only
      split
      · exact Gives.pure trivial
      · exact Gives.bind (Gives.ofModify fun _ hsite => hsite) fun _ _ =>
          Gives.bind (Keeps.forM fun id _ => keeps_fill id) fun _ _ => ih

end Builder

/-- In all mappings of a document the names differ. -/
theorem Nodes.build_distinct {nodes : Nodes} {root : Nat} {built : Array (Option Built)}
    (h : nodes.build root = .ok built) {id : Nat} {b : Built} (hb : built[id]? = some (some b)) :
    b.Distinct := by
  have hempty : Site.Distinct ⟨nodes, Array.replicate nodes.size none, []⟩ := by
    intro id b hb
    simp [Array.getElem?_replicate] at hb
  have hgives : Builder.Keeps (do Builder.value root; Builder.finish (nodes.size + 1)) :=
    Builder.Gives.bind (Builder.keeps_value root) fun _ _ => Builder.keeps_finish _
  dsimp only [build] at h
  cases hrun : (do Builder.value root; Builder.finish (nodes.size + 1) : Builder Unit).run
      ⟨nodes, Array.replicate nodes.size none, []⟩ with
  | error f =>
      rw [hrun] at h
      cases h
  | ok r =>
      rw [hrun] at h
      cases h
      exact (hgives _ hempty r.1 r.2 hrun).1 id b hb

/-! ## Trees -/

/-- In every mapping inside the tree the names differ. -/
inductive Tree.Distinct : Tree → Prop
  | scalar (s : Scalar) : Distinct (.scalar s)
  | list {items : List Tree} (h : ∀ t ∈ items, Distinct t) : Distinct (.list items)
  | mapping {items : List (Scalar × Tree)} (hnames : DistinctNames (items.map Prod.fst))
      (h : ∀ item ∈ items, Distinct item.2) : Distinct (.mapping items)
  | set (items : List Scalar) : Distinct (.set items)
  | pairs {items : List (Tree × Tree)} (hnames : ∀ item ∈ items, Distinct item.1)
      (h : ∀ item ∈ items, Distinct item.2) : Distinct (.pairs items)
  | listAgain : Distinct .listAgain
  | mappingAgain : Distinct .mappingAgain

/-- The trees that are remembered. -/
def Known.Distinct (known : Known) : Prop :=
  ∀ (id : Nat) (t : Tree), known[id]? = some (some t) → t.Distinct

/-- From trees in which the names differ, the result is as stated, and only such trees are
remembered. -/
def Yields {α : Type} (m : StateM Known α) (P : α → Prop) : Prop :=
  ∀ known : Known, known.Distinct → P (m.run known).1 ∧ Known.Distinct (m.run known).2

namespace Yields

variable {α β : Type} {P : α → Prop} {Q : β → Prop}

theorem pure {x : α} (hx : P x) : Yields (Pure.pure x) P :=
  fun _ hknown => ⟨hx, hknown⟩

theorem bind {m : StateM Known α} {k : α → StateM Known β} (hm : Yields m P)
    (hk : ∀ x, P x → Yields (k x) Q) : Yields (m >>= k) Q := by
  intro known hknown
  obtain ⟨hx, hnext⟩ := hm known hknown
  exact hk _ hx _ hnext

theorem get : Yields (MonadState.get : StateM Known Known) Known.Distinct :=
  fun _ hknown => ⟨hknown, hknown⟩

/-- The results for the items of a list are as stated, and have the names of the items. -/
theorem mapM_named {γ : Type} {g : α → γ} {k : β → γ} {f : α → StateM Known β} {xs : List α}
    (h : ∀ x, Yields (f x) fun y => k y = g x ∧ Q y) :
    Yields (xs.mapM f) fun ys => ys.map k = xs.map g ∧ ∀ y ∈ ys, Q y := by
  induction xs with
  | nil => exact pure ⟨rfl, fun _ hy => nomatch hy⟩
  | cons x rest ih =>
      rw [List.mapM_cons]
      refine bind (h x) fun y hy => bind ih fun ys hys => pure ⟨?_, ?_⟩
      · rw [List.map_cons, List.map_cons, hy.1, hys.1]
      · exact List.forall_mem_cons.2 ⟨hy.2, hys.2⟩

theorem mapM {f : α → StateM Known β} {xs : List α} (h : ∀ x, Yields (f x) Q) :
    Yields (xs.mapM f) fun ys => ∀ y ∈ ys, Q y := by
  have hnamed : Yields (xs.mapM f) fun ys => ys.map (fun _ => ()) = xs.map (fun _ => ()) ∧
      ∀ y ∈ ys, Q y :=
    mapM_named fun x known hknown => ⟨⟨rfl, (h x known hknown).1⟩, (h x known hknown).2⟩
  exact fun known hknown => ⟨(hnamed known hknown).1.2, (hnamed known hknown).2⟩

end Yields

theorem yields_keep (id : Nat) {p : Part} (hp : p.1.Distinct) :
    Yields (keep id p) fun q => q.1.Distinct := by
  have hset : ∀ known : Known, known.Distinct → Known.Distinct (known.set! id (some p.1)) := by
    intro known hknown other t ht
    simp only [Array.set!_eq_setIfInBounds, Array.getElem?_setIfInBounds] at ht
    split at ht
    · split at ht
      · cases ht
        exact hp
      · cases ht
    · exact hknown other t ht
  unfold keep
  split
  · exact fun known hknown => ⟨hp, hset known hknown⟩
  · exact Yields.pure hp

theorem of_bind_eq_some {xs : Array (Option α)} {id : Nat} {x : α}
    (h : (xs[id]?.bind fun x => x) = some x) : xs[id]? = some (some x) := by
  obtain ⟨y, hy, rfl⟩ := Option.bind_eq_some_iff.1 h
  exact hy

/-- A tree has the names of what is built. -/
theorem yields_treeAt {built : Array (Option Built)}
    (hbuilt : ∀ (id : Nat) (b : Built), built[id]? = some (some b) → b.Distinct) (fuel : Nat) :
    ∀ levels inside id, Yields (treeAt built fuel levels inside id) fun p => p.1.Distinct := by
  induction fuel with
  | zero => exact fun _ _ _ => Yields.pure (.scalar .null)
  | succ fuel ih =>
      intro levels inside id
      refine Yields.bind Yields.get fun known hknown => ?_
      dsimp only
      split
      · next t ht => exact Yields.pure (hknown id t (of_bind_eq_some ht))
      · split
        · exact Yields.pure (.scalar _)
        · exact Yields.pure (.set _)
        · split
          · exact Yields.pure .listAgain
          · refine Yields.bind (Yields.mapM (ih 0 (id :: inside))) fun parts hparts =>
              yields_keep id (.list fun t ht => ?_)
            obtain ⟨p, hp, rfl⟩ := List.mem_map.1 ht
            exact hparts p hp
        · next items hitems =>
            split
            · exact Yields.pure .mappingAgain
            · have hsetting (item : Nat) : Yields ((if levels = 0 then
                  treeAt built fuel 0 (id :: inside) else treeAt built fuel (levels - 1) []) item)
                  fun p => p.1.Distinct := by
                split
                · exact ih 0 (id :: inside) item
                · exact ih (levels - 1) [] item
              refine Yields.bind (Yields.mapM_named (g := Prod.fst) (k := Prod.fst)
                (Q := fun part => part.2.1.Distinct) fun item =>
                  Yields.bind (hsetting item.2) fun p hp => Yields.pure ⟨rfl, hp⟩)
                fun parts hparts => yields_keep id (.mapping ?_ ?_)
              · -- the names are copied
                have hnames : parts.map Prod.fst = items.map Prod.fst := hparts.1
                rw [List.map_map]
                exact hnames ▸ hbuilt id _ (of_bind_eq_some hitems)
              · intro item hitem
                obtain ⟨p, hp, rfl⟩ := List.mem_map.1 hitem
                exact hparts.2 p hp
        · split
          · exact Yields.pure .listAgain
          · refine Yields.bind (Yields.mapM (Q := fun part => part.1.1.Distinct ∧ part.2.1.Distinct)
              fun item => Yields.bind (ih 0 (id :: inside) item.1) fun p hp =>
                Yields.bind (ih 0 (id :: inside) item.2) fun q hq => Yields.pure ⟨hp, hq⟩)
              fun parts hparts => yields_keep id (.pairs ?_ ?_)
            · intro item hitem
              obtain ⟨p, hp, rfl⟩ := List.mem_map.1 hitem
              exact (hparts p hp).1
            · intro item hitem
              obtain ⟨p, hp, rfl⟩ := List.mem_map.1 hitem
              exact (hparts p hp).2
        · exact Yields.pure (.scalar .null)

/-- In all mappings of a tree that is read the names differ. -/
theorem Tree.distinct_of_read {text : String} {t : Tree} (h : Tree.read text = .ok t) :
    t.Distinct := by
  dsimp only [Tree.read] at h
  cases hnodes : Nodes.read text with
  | error f =>
      rw [hnodes] at h
      cases h
  | ok r =>
      obtain ⟨nodes, root⟩ := r
      rw [hnodes] at h
      cases root with
      | none =>
          cases h
          exact .scalar .null
      | some root =>
          cases hbuild : nodes.build root with
          | error f =>
              dsimp only [bind, Except.bind] at h
              rw [hbuild] at h
              cases h
          | ok built =>
              dsimp only [bind, Except.bind] at h
              rw [hbuild] at h
              cases h
              have hempty : Known.Distinct (Array.replicate nodes.size none) := by
                intro id t ht
                simp [Array.getElem?_replicate] at ht
              exact (yields_treeAt (fun _ _ => Nodes.build_distinct hbuild) _ _ _ _ _ hempty).1

end Inventory.Yaml

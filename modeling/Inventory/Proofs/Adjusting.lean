import Inventory.Proofs.Admission
import Inventory.Proofs.Ledger

/-!
# Adjusting and setting quantities

A quantity can be adjusted by a number or set to the sum. The one adds to a row, the other one reads
the entry, checks the sum and writes the whole row. They accept the same numbers and make the same
change of what is seen. So what is given can be taken again.
-/

namespace Inventory

/-! ## Entries with the same fields -/

/-- Mappings with the same names are equal if they hold the same under each of them. -/
theorem Mapping.ext_of_names {α : Type} {m m' : Mapping α} (hnames : m'.names = m.names)
    (hnodup : m.names.Nodup) (hget : ∀ name ∈ m.names, m'.get? name = m.get? name) : m' = m := by
  induction m generalizing m' with
  | nil => exact List.map_eq_nil_iff.1 hnames
  | cons p m ih =>
      obtain ⟨q, m', rfl, hname, hrest⟩ := List.map_eq_cons_iff.1 hnames
      obtain ⟨hnew, hnodup⟩ := List.nodup_cons.1 hnodup
      have hvalue := hget p.1 (List.mem_cons_self ..)
      rw [Mapping.get?_cons, Mapping.get?_cons, if_pos hname, if_pos rfl] at hvalue
      have htail : ∀ name ∈ names m, get? m' name = get? m name := by
        intro name hmem
        have hne : p.1 ≠ name := fun heq => hnew (heq ▸ hmem)
        have hboth := hget name (List.mem_cons_of_mem _ hmem)
        rwa [Mapping.get?_cons, Mapping.get?_cons, if_neg (hname ▸ hne), if_neg hne] at hboth
      rw [ih hrest hnodup htail, Prod.ext hname (Option.some.inj hvalue)]

theorem FieldType.coerce_integer_int {n : Int} {v : Value} :
    integer.coerce (.int n) = .ok v ↔ inInt64 n ∧ v = .int n := by
  rw [coerce, map_eq_ok_iff]
  constructor
  · rintro ⟨m, hm, rfl⟩
    obtain ⟨rfl, hrange⟩ := checkRange_ok hm
    exact ⟨hrange, rfl⟩
  · rintro ⟨hrange, rfl⟩
    exact ⟨n, if_pos hrange, rfl⟩

/-- The update that sets a quantity. -/
def quantityTo (n : Int) : Mapping Value :=
  [("quantity", .int n)]

section Updates

variable {n : Int} {name : String} {coerce : Value → Except Fault Value} {old new : Value}

theorem lastNamed?_quantityTo (n : Int) (name : String) : (quantityTo n).lastNamed? name =
    if "quantity" = name then some (.int n) else none := by
  have hlower : Text.lower "quantity" = "quantity" := by decide
  rw [quantityTo, Mapping.lastNamed?_cons, hlower]
  rfl

theorem sets_quantityTo_self :
    (quantityTo n).Sets "quantity" coerce old new ↔ coerce (.int n) = .ok new := by
  rw [Mapping.Sets, lastNamed?_quantityTo, if_pos rfl]

theorem sets_quantityTo (hname : name ≠ "quantity") :
    (quantityTo n).Sets name coerce old new ↔ new = old := by
  rw [Mapping.Sets, lastNamed?_quantityTo, if_neg (Ne.symm hname)]

end Updates

/-- An entry whose quantity is set stays as it is otherwise. -/
theorem Category.Modifies.eq_withQuantity {c : Category} {n : Int} {now : String} {e e' : Entry}
    (h : c.Modifies (quantityTo n) now e e') (hc : c.Canonical) (hnamed : c.Named)
    (hfields : e.fields.names = c.fieldNames) : e' = e.withQuantity n now := by
  have hlocation := Value.text.inj ((sets_quantityTo (by decide)).1 h.location)
  have hquantity := (FieldType.coerce_integer_int.1 (sets_quantityTo_self.1 h.quantity)).2
  have hvalues : e'.fields = e.fields := by
    refine Mapping.ext_of_names (h.fields.names.trans hfields.symm) (hfields ▸ hc.names_nodup) ?_
    intro name hname
    obtain ⟨f, hf, rfl⟩ := List.mem_map.1 (hfields ▸ hname)
    have hne : f.name ≠ "quantity" := fun heq => (hnamed f hf).unreserved (heq ▸ by decide)
    obtain ⟨before, after, hbefore, hafter, hsets⟩ := h.fields.sets f hf
    rw [hbefore, hafter, (sets_quantityTo hne).1 hsets]
  rw [Entry.withQuantity, ← h.key, ← h.category, ← hlocation, ← hquantity, ← hvalues, ← h.created,
    ← h.modified]

/-- A quantity can be set to what is in range. -/
theorem Category.admits_quantityTo (c : Category) (n : Int) :
    c.Admits (quantityTo n) ↔ 0 ≤ n ∧ n ≤ int64Max := by
  constructor
  · intro h
    obtain ⟨w, hw, m, hm⟩ := h "quantity" (.int n) ((lastNamed?_quantityTo n _).trans (if_pos rfl))
    obtain ⟨-, rfl⟩ := FieldType.coerce_integer_int.1 hw
    obtain ⟨⟨⟩, hrange⟩ := Store.checkQuantity_ok hm
    exact hrange
  · rintro ⟨hlow, hhigh⟩ name v hv
    rw [lastNamed?_quantityTo] at hv
    split at hv
    · next hname =>
        cases hv
        subst hname
        exact ⟨.int n, FieldType.coerce_integer_int.2 ⟨(inInt64_of_amount hlow hhigh).1, rfl⟩, n,
          Store.checkQuantity_int hlow hhigh⟩
    · cases hv

/-! ## Both ways -/

namespace Session.Sees

variable {s : Session} {v : View} {e : Entry} {q d : Int} {o : Operation} {a : Answer}

theorem quantity (h : s.Sees v) (he : e ∈ v.entries) :
    ∃ q : Int, e.quantity = .int q ∧ 0 ≤ q ∧ q ≤ int64Max := by
  obtain ⟨row, -, c, -, hdescribes, rfl⟩ := h.shows.exists_row he
  obtain ⟨q, hq, hrange⟩ := hdescribes.quantity
  exact ⟨q, by rw [Category.entry, hq]; rfl, hrange⟩

theorem addition_ok_iff (h : s.Sees v) (he : e ∈ v.entries) (hq : e.quantity = .int q)
    (hd : o.delta? e.key = some d) :
    (∃ a, (o.act.exec s).1 = .ok a) ↔ 0 ≤ q + d ∧ q + d ≤ int64Max := by
  have hmax : int64Max = 0x7fffffffffffffff := rfl
  rcases h.addition he hq hd with ⟨hok, hin⟩ | ⟨hrefused, hneg⟩ | ⟨hrefused, hover⟩
  · exact iff_of_true hok hin
  · refine iff_of_false ?_ (by omega)
    rintro ⟨a, ha⟩
    cases hrefused.1.symm.trans ha
  · refine iff_of_false ?_ (by omega)
    rintro ⟨a, ha⟩
    cases hrefused.1.symm.trans ha

theorem setting_ok_iff (h : s.Sees v) (he : e ∈ v.entries) (n : Int) :
    (∃ a, ((Operation.modify e.key (quantityTo n)).act.exec s).1 = .ok a) ↔
      0 ≤ n ∧ n ≤ int64Max := by
  obtain ⟨row, -, c, hc, -, rfl⟩ := h.shows.exists_row he
  have hfind := h.shows.find_of_mem he
  rw [← c.admits_quantityTo, ← h.modify_ok_iff hfind (h.shows.resolve_of_mem hc), Operation.act,
    Action.exec_map]
  simp [map_eq_ok_iff]

/-- What an addition comes to when it succeeds. -/
theorem added (h : s.Sees v) (he : e ∈ v.entries) (hq : e.quantity = .int q)
    (hd : o.delta? e.key = some d) (ha : (o.act.exec s).1 = .ok a) :
    a = .entry (e.withQuantity (q + d) s.now) ∧
      (o.act.exec s).2.Sees (v.replace (e.withQuantity (q + d) s.now)) := by
  obtain ⟨v', hv', hbecomes⟩ := h.act ha
  cases hbecomes with
  | read ho => cases (ho.delta? e.key).symm.trans hd
  | adjust hd' he' hn hlow hhigh =>
      obtain ⟨rfl, rfl⟩ := Operation.delta?_unique hd hd'
      cases he'.symm.trans (h.shows.find_of_mem he)
      cases hn.symm.trans hq
      exact ⟨rfl, hv'⟩
  | _ => cases hd

/-- What setting a quantity comes to when it succeeds. -/
theorem set (h : s.Sees v) (he : e ∈ v.entries) {n : Int}
    (ha : ((Operation.modify e.key (quantityTo n)).act.exec s).1 = .ok a) :
    a = .entry (e.withQuantity n s.now) ∧
      ((Operation.modify e.key (quantityTo n)).act.exec s).2.Sees
        (v.replace (e.withQuantity n s.now)) := by
  obtain ⟨v', hv', hbecomes⟩ := h.act ha
  cases hbecomes with
  | adjust hd => cases hd
  | read ho => exact ho.elim
  | @modify _ _ d _ _ he' hd hmodifies =>
      cases he'.symm.trans (h.shows.find_of_mem he)
      obtain ⟨row, -, c, hmem, -, rfl⟩ := h.shows.exists_row he
      obtain rfl : c = d := Except.ok.inj ((h.shows.resolve_of_mem hmem).symm.trans hd)
      have hset := hmodifies.eq_withQuantity (h.shows.sound.canonical c hmem)
        (h.shows.named c hmem) (Category.names_values c _)
      rw [← hset]
      exact ⟨rfl, hv'⟩

end Session.Sees

/-- Sessions in order read the same of both tables, whatever they look up. -/
structure Database.ReadsAs (db other : Database) : Prop where
  find : ∀ s t : Session, s.Ready → t.Ready → s.db = db → t.db = other →
    ∀ key, ((Store.find key).exec s).1 = ((Store.find key).exec t).1
  list : ∀ s t : Session, s.Ready → t.Ready → s.db = db → t.db = other →
    ∀ id, ((Store.list id).exec s).1 = ((Store.list id).exec t).1

/-- Tables that show the same view read the same. -/
theorem Session.Sees.readsAs {s t : Session} {v : View} (hs : s.Sees v) (ht : t.Sees v) :
    s.db.ReadsAs t.db where
  find _ _ hready hready' hdb hdb' key := by
    rw [(hs.of_db hready hdb).find, (ht.of_db hready' hdb').find]
  list _ _ hready hready' hdb hdb' id := by
    rw [(hs.of_db hready hdb).list, (ht.of_db hready' hdb').list]

/-! ## Giving and taking -/

/-- What succeeds in giving gives a whole number that is not negative. -/
theorem Operation.amount_of_give {key other : String} {amount : Value} {n : Int}
    (h : (give key amount).delta? other = some n) : amount = .int n ∧ 0 ≤ n ∧ n ≤ int64Max := by
  cases amount with
  | int m =>
      unfold delta? at h
      dsimp only at h
      split at h
      · next hrange =>
        cases h
        exact ⟨rfl, hrange.2⟩
      · cases h
  | _ => cases h

theorem View.mem_replace_self {v : View} {e e' : Entry} (he : e ∈ v.entries)
    (hkey : e'.key = e.key) : e' ∈ (v.replace e').entries :=
  List.mem_map.2 ⟨e, he, if_pos hkey.symm⟩

/-- What is given can be taken again, and the quantity is the old one then. -/
theorem Session.Sees.taken_again {s : Session} {v : View} (h : s.Sees v) {e : Entry}
    (he : e ∈ v.entries) {q : Int} (hq : e.quantity = .int q) {amount : Value} {a : Answer}
    (ha : ((Operation.give e.key amount).act.exec s).1 = .ok a) {t : Session} (ht : t.Ready)
    (hdb : t.db = ((Operation.give e.key amount).act.exec s).2.db) :
    ∃ e', ((Operation.take e.key amount).act.exec t).1 = .ok (.entry e') ∧ e'.quantity = .int q ∧
      ((Store.find e.key).exec ((Operation.take e.key amount).act.exec t).2).1 = .ok e' := by
  obtain ⟨n, rfl, hlow, hhigh⟩ : ∃ n : Int, amount = .int n ∧ 0 ≤ n ∧ n ≤ int64Max := by
    obtain ⟨v', -, hbecomes⟩ := h.act ha
    cases hbecomes with
    | read ho => exact ho.elim
    | adjust hd => exact ⟨_, Operation.amount_of_give hd⟩
  have hd : (Operation.give e.key (.int n)).delta? e.key = some n := if_pos ⟨rfl, hlow, hhigh⟩
  -- the old quantity is in range, so nothing stands against going back to it
  obtain ⟨q', hq', hpositive, hmax⟩ := h.quantity he
  cases hq.symm.trans hq'
  obtain ⟨rfl, hafter⟩ := h.added he hq hd ha
  have hgiven := hafter.of_db ht hdb
  have hmem := View.mem_replace_self he (rfl : (e.withQuantity (q + n) s.now).key = e.key)
  have hback : (Operation.take e.key (.int n)).delta? e.key = some (-n) :=
    if_pos ⟨rfl, hlow, hhigh⟩
  obtain ⟨a, hok⟩ := (hgiven.addition_ok_iff hmem rfl hback).2 ⟨by omega, by omega⟩
  obtain ⟨rfl, hend⟩ := hgiven.added hmem rfl hback hok
  refine ⟨_, hok, congrArg Value.int (Int.add_neg_cancel_right q n), ?_⟩
  exact (hend.find e.key).trans (hend.shows.find_of_mem (View.mem_replace_self hmem rfl))

/-! ## Main result -/

/-- At every moment of a run that undoes no transaction: a quantity can be adjusted by a number of
64 bits if and only if it can be set to the sum, that is, if the sum is in range. Both ways the
answer is the same entry, and everything that can be read afterwards is the same. What was given can
be taken again, and the quantity is the old one then. -/
theorem adjusting_is_setting (m : Moment) {row : EntryRow} (hrow : row ∈ m.session.db.entries) :
    ∃ q : Int, row.quantity = .int q ∧
      (∀ d, inInt64 d →
        let adjust := (Operation.adjust row.key (.int d)).act.exec m.session
        let set := (Operation.modify row.key [("quantity", .int (q + d))]).act.exec m.session
        ((∃ a, adjust.1 = .ok a) ↔ ∃ a, set.1 = .ok a) ∧
        ((∃ a, adjust.1 = .ok a) ↔ 0 ≤ q + d ∧ q + d ≤ int64Max) ∧
        ∀ a, adjust.1 = .ok a → set.1 = .ok a ∧ adjust.2.db.ReadsAs set.2.db) ∧
      ∀ amount a, ((Operation.give row.key amount).act.exec m.session).1 = .ok a →
        ∀ t : Session, t.Ready → t.db = ((Operation.give row.key amount).act.exec m.session).2.db →
          ∃ e, ((Operation.take row.key amount).act.exec t).1 = .ok (.entry e) ∧
            e.quantity = .int q ∧
            ((Store.find row.key).exec ((Operation.take row.key amount).act.exec t).2).1 = .ok e := by
  obtain ⟨v, hv⟩ := m.sees
  obtain ⟨c, hc, hdescribes⟩ := hv.shows.sound.described row hrow
  have hfind : v.find row.key = .ok (c.entry row) :=
    (hv.shows.find_eq row.key).symm.trans (hv.shows.sound.find_of_mem hrow hc hdescribes)
  obtain ⟨he, -⟩ := View.mem_of_find hfind
  obtain ⟨q, hrowq, -⟩ := hdescribes.quantity
  have hq : (c.entry row).quantity = .int q := by
    rw [Category.entry, hrowq]
    rfl
  refine ⟨q, hrowq, fun d hd => ?_, fun amount a ha t ht hdb => hv.taken_again he hq ha ht hdb⟩
  have hdelta : (Operation.adjust row.key (.int d)).delta? row.key = some d :=
    (if_pos rfl).trans (Value.whole?_int hd)
  have hadjust := hv.addition_ok_iff he hq hdelta
  have hset := hv.setting_ok_iff he (q + d)
  refine ⟨hadjust.trans hset.symm, hadjust, fun a ha => ?_⟩
  obtain ⟨a', ha'⟩ := hset.2 (hadjust.1 ⟨a, ha⟩)
  obtain ⟨rfl, hafter⟩ := hv.added he hq hdelta ha
  obtain ⟨rfl, hafter'⟩ := hv.set he ha'
  exact ⟨ha', hafter.readsAs hafter'⟩

/-- Four hammers are added to one, or five are set. Two cannot be taken from one. -/
theorem hammers_adjusted :
    let define := Operation.define (.text "tools") [(.text "size", .text)]
    let create := Operation.create "tools" (.text "hammer") (.text "shed") (.int 1) []
    let m : Moment := ⟨"2024-01-01 00:00:00",
      [⟨.first, "2024-01-01 00:00:01", .op define (.op create .done)⟩],
      .second, "2024-01-01 00:00:02", true, .done⟩
    (∃ a, ((Operation.adjust "hammer" (.int 4)).act.exec m.session).1 = .ok a ∧
      ((Operation.modify "hammer" [("quantity", .int 5)]).act.exec m.session).1 = .ok a) ∧
    ¬∃ a, ((Operation.modify "hammer" [("quantity", .int (-1))]).act.exec m.session).1 = .ok a := by
  intro define create m
  have hrows : m.session.db.entries.map (fun row => (row.key, row.quantity)) =
      [("hammer", .int 1)] := by
    decide +kernel
  obtain ⟨row, hrow, hpair⟩ := List.mem_map.1 (hrows ▸ List.mem_singleton_self _)
  obtain ⟨hkey, hquantity⟩ := Prod.mk.inj hpair
  obtain ⟨q, hq, hadjust, -⟩ := adjusting_is_setting m hrow
  cases hquantity.symm.trans hq
  rw [hkey] at hadjust
  obtain ⟨-, hrange, hsame⟩ := hadjust 4 (by decide)
  obtain ⟨a, ha⟩ := hrange.2 ⟨by decide, by decide⟩
  obtain ⟨hiff, hrange, -⟩ := hadjust (-2) (by decide)
  exact ⟨⟨a, ha, (hsame a ha).1⟩, fun hset => absurd (hrange.1 (hiff.2 hset)).1 (by decide)⟩

end Inventory

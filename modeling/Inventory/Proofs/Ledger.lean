import Inventory.Proofs.Seen
import Mathlib

/-!
# The ledger of quantities

The quantity of an entry is what was last set for its key, plus all that was added since by
operations that succeeded: no addition is lost, and none counts twice. An addition succeeds if and
only if the sum is in range.
-/

namespace Inventory

/-! ## Accounts -/

/-- The quantity that an operation is to set for a key. -/
def Operation.set? (key : String) : Operation → Option Int
  | create _ (.text other) _ quantity _ => if other = key then quantity.whole? else none
  | modify other updates =>
    if other = key then (updates.lastNamed? "quantity").bind Value.whole? else none
  | _ => none

namespace Step

/-- The quantity that was set for a key. -/
def set? (key : String) (x : Step) : Option Int :=
  match x.answer with
  | .ok _ => x.operation.set? key
  | .error _ => none

/-- The number that was added to the quantity of a key. -/
def delta (key : String) (x : Step) : Int :=
  match x.answer with
  | .ok _ => (x.operation.delta? key).getD 0
  | .error _ => 0

end Step

/-- By the history, the quantity of a key is `q`: what was last set for it, plus what was added
since. -/
def History.Totals (h : History) (key : String) (q : Int) : Prop :=
  ∃ before x after n, h = before ++ x :: after ∧ x.set? key = some n ∧
    (∀ y ∈ after, y.set? key = none) ∧ q = n + (after.map (·.delta key)).sum

namespace History.Totals

variable {h : History} {key : String} {q : Int} {x : Step}

theorem set (hx : x.set? key = some q) : History.Totals (h ++ [x]) key q :=
  ⟨h, x, [], q, rfl, hx, nofun, by simp⟩

theorem add (ht : h.Totals key q) (hx : x.set? key = none) :
    History.Totals (h ++ [x]) key (q + x.delta key) := by
  obtain ⟨before, y, after, n, rfl, hy, hafter, rfl⟩ := ht
  refine ⟨before, y, after ++ [x], n, by simp, hy, ?_, by simp [Int.add_assoc]⟩
  intro z hz
  rcases List.mem_append.1 hz with hz | hz
  · exact hafter z hz
  · rw [List.mem_singleton.1 hz]
    exact hx

end History.Totals

/-! ## Steps -/

namespace Operation

/-- An operation that adds to a quantity sets none. -/
theorem set?_of_delta? {o : Operation} {key : String} {d : Int} (h : o.delta? key = some d)
    (other : String) : o.set? other = none := by
  unfold delta? at h
  split at h
  · rfl
  · rfl
  · rfl
  · cases h

theorem IsReading.set? {o : Operation} (ho : o.IsReading) (key : String) : o.set? key = none := by
  cases o with
  | resolve | categories | stats | invalidate | find | list | nextKeys => rfl
  | _ => exact ho.elim

end Operation

/-- The operation accounts for the quantity of an entry: it sets this quantity, or it sets none and
the entry was there before with a quantity that it adds to. -/
def Operation.Accounts (o : Operation) (v : View) (e : Entry) : Prop :=
  (∃ n, o.set? e.key = some n ∧ e.quantity = .int n) ∨
    (o.set? e.key = none ∧ ∃ old ∈ v.entries, old.key = e.key ∧
      ∀ n : Int, old.quantity = .int n → e.quantity = .int (n + (o.delta? e.key).getD 0))

/-- An operation that is not about the key accounts for an entry that stays. -/
theorem Operation.accounts_other {o : Operation} {v : View} {e old : Entry}
    (hold : old ∈ v.entries) (hkey : old.key = e.key) (hquantity : old.quantity = e.quantity)
    (hset : o.set? e.key = none) (hdelta : o.delta? e.key = none) : o.Accounts v e :=
  .inr ⟨hset, old, hold, hkey, fun n hn => by rw [hdelta, ← hquantity, hn]; simp⟩

theorem View.Becomes.accounts {now : String} {v v' : View} {o : Operation} {a : Answer}
    {db : Database} (hv' : db.Shows v') (h : v.Becomes now o a v') {e' : Entry}
    (he' : e' ∈ v'.entries) : o.Accounts v e' := by
  cases h with
  | define | remove => exact Operation.accounts_other he' rfl rfl rfl rfl
  | delete => exact Operation.accounts_other (List.mem_of_mem_filter he') rfl rfl rfl rfl
  | read ho => exact Operation.accounts_other he' rfl rfl (ho.set? _) (ho.delta? _)
  | addField hc hname hnew =>
      obtain ⟨e, he, rfl⟩ := List.mem_map.1 he'
      refine Operation.accounts_other he ?_ ?_ rfl rfl
      · split <;> rfl
      · split <;> rfl
  | @create id key location quantity fields c e hc hnew he =>
      obtain ⟨n, rfl, hn, hlow, hhigh⟩ := he.quantity
      obtain rfl := he.key
      rcases List.mem_append.1 he' with hmem | hmem
      · have hne : e.key ≠ e'.key := fun hkey => hnew e' hmem hkey.symm
        exact Operation.accounts_other hmem rfl rfl (if_neg hne) rfl
      · obtain rfl := List.mem_singleton.1 hmem
        refine .inl ⟨n, ?_, hn⟩
        exact (if_pos rfl).trans (Value.whole?_int (inInt64_of_amount hlow hhigh).1)
  | @modify key updates c e e₁ he hc hmodifies =>
      obtain ⟨hmem, rfl⟩ := View.mem_of_find he
      rcases View.mem_replace he' with rfl | ⟨hmem', hne⟩
      · obtain ⟨row, -, d, -, hd, hrow⟩ := hv'.exists_row he'
        obtain ⟨n, hquantity, -⟩ := hd.quantity
        have hn : e'.quantity = .int n := by rw [hrow, Category.entry, hquantity]; rfl
        have hsets := hmodifies.quantity
        have hset : (Operation.modify e.key updates).set? e'.key =
            (updates.lastNamed? "quantity").bind Value.whole? := if_pos hmodifies.key.symm
        unfold Mapping.Sets at hsets
        cases hlast : updates.lastNamed? "quantity" with
        | some given =>
            rw [hlast] at hsets
            refine .inl ⟨n, ?_, hn⟩
            rw [hset, hlast, Option.bind_some, Value.whole?, hsets, hn]
        | none =>
            rw [hlast] at hsets
            exact Operation.accounts_other hmem hmodifies.key.symm hsets.symm (by rw [hset, hlast]; rfl) rfl
      · have hkey : e.key ≠ e'.key := fun hkey => hne (hkey.symm.trans hmodifies.key.symm)
        exact Operation.accounts_other hmem' rfl rfl (if_neg hkey) rfl
  | @adjust o key e n d hd he hn hlow hhigh =>
      obtain ⟨hmem, rfl⟩ := View.mem_of_find he
      have hset := Operation.set?_of_delta? hd e'.key
      rcases View.mem_replace he' with rfl | ⟨hmem', hne⟩
      · refine .inr ⟨hset, e, hmem, rfl, fun n' hn' => ?_⟩
        cases hn.symm.trans hn'
        show Value.int (n + d) = .int (n + (o.delta? e.key).getD 0)
        rw [hd, Option.getD_some]
      · exact Operation.accounts_other hmem' rfl rfl hset (Operation.delta?_of_ne hd hne)

/-- At every moment the history gives the quantity of each entry. -/
theorem Moment.totals (m : Moment) : ∃ v, m.session.Sees v ∧
    ∀ e ∈ v.entries, ∃ q, e.quantity = .int q ∧ m.history.Totals e.key q := by
  have hcourse := m.course.sees
    (P := fun done v => ∀ e ∈ v.entries, ∃ q, e.quantity = .int q ∧ done.Totals e.key q)
    ?_ ?_ (shows_initial m.stamp) nofun
  · obtain ⟨v, hv, htotals⟩ := hcourse
    exact ⟨v, ⟨m.session_ready, hv⟩, htotals⟩
  · intro done o now a v v' db db' hv hv' hbecomes hdone e' he'
    rcases hbecomes.accounts hv' he' with ⟨n, hset, hn⟩ | ⟨hset, e, he, hkey, hadd⟩
    · exact ⟨n, hn, .set hset⟩
    · obtain ⟨q, hq, htotal⟩ := hdone e he
      rw [hkey] at htotal
      exact ⟨_, hadd q hq, htotal.add hset⟩
  · intro done o f v hdone e he
    obtain ⟨q, hq, htotal⟩ := hdone e he
    have hstep := htotal.add (x := ⟨o, .error f⟩) rfl
    rw [Step.delta, Int.add_zero] at hstep
    exact ⟨q, hq, hstep⟩

/-! ## Additions in range and out of range -/

/-- The operation fails with a fault of the kind, and nothing changes. -/
def Operation.IsRefused (o : Operation) (s : Session) (f : Fault) (kind : FaultKind) : Prop :=
  (o.act.exec s).1 = .error f ∧ f.kind = kind ∧ (o.act.exec s).2.db = s.db

/-- Which additions succeed, and what the others fail with. -/
theorem Session.Sees.addition {s : Session} {v : View} (h : s.Sees v) {e : Entry}
    (he : e ∈ v.entries) {q d : Int} (hq : e.quantity = .int q) {o : Operation}
    (hd : o.delta? e.key = some d) :
    (∃ a, (o.act.exec s).1 = .ok a) ∧ 0 ≤ q + d ∧ q + d ≤ int64Max ∨
      o.IsRefused s (.insufficientQuantity e.key (.int q) d) .insufficientQuantity ∧ q + d < 0 ∨
      o.IsRefused s (.quantityOverflow e.key (.int q) d) .typeMismatch ∧ int64Max < q + d := by
  obtain ⟨row, hrow, c, hc, hdescribes, rfl⟩ := h.shows.exists_row he
  have hd : o.delta? row.key = some d := hd
  obtain ⟨hrange, heffect⟩ := Operation.effect_of_delta? hd
  obtain ⟨n, hn, -, -⟩ := hdescribes.quantity
  obtain rfl : n = q := by
    rw [Category.entry, hn] at hq
    cases hq
    rfl
  obtain ⟨cache, hexec, -⟩ := o.does_act s h.ready
  have hanswer : (o.act.exec s).1 = (o.effect s.now s.db).1 := by rw [hexec]
  have hdb := o.act_db h.ready
  rw [heffect] at hanswer hdb
  -- a fault of the sum is the fault of the operation, and nothing changes
  have hrefused : ∀ f, Tables.sum row.key d s.now s.db = .error f →
      (o.act.exec s).1 = .error f ∧ (o.act.exec s).2.db = s.db := by
    intro f hf
    simp only [Effect.map, Effect.change, hf] at hanswer hdb
    exact ⟨hanswer, hdb⟩
  rcases h.shows.sound.sum_eq hrow hn hrange s.now with ⟨change, hsum, hlow, hhigh, -⟩ |
    ⟨hsum, hneg⟩ | ⟨hsum, hhigh⟩
  · obtain ⟨e, m, -, -, -, -, -, hfind⟩ := h.shows.sum hsum
    refine .inl ⟨⟨.entry (e.withQuantity (m + d) s.now), ?_⟩, hlow, hhigh⟩
    rw [hanswer, Effect.map, Effect.change_of_ok hsum]
    exact congrArg (Except.map Answer.entry) hfind
  · obtain ⟨hfault, hsame⟩ := hrefused _ hsum
    exact .inr (.inl ⟨⟨hfault, rfl, hsame⟩, hneg⟩)
  · obtain ⟨hfault, hsame⟩ := hrefused _ hsum
    exact .inr (.inr ⟨⟨hfault, rfl, hsame⟩, hhigh⟩)

/-- At every moment of a run that undoes no transaction, the quantity of an entry is in range, and
it is what was last set for the key plus what was added since. A number of 64 bits can be added if
and only if the sum is in range; else the addition is refused, and nothing changes. -/
theorem quantity_is_ledger (m : Moment) {row : EntryRow} (hrow : row ∈ m.session.db.entries) :
    ∃ q : Int, row.quantity = .int q ∧ 0 ≤ q ∧ q ≤ int64Max ∧
      (∃ e, ((Store.find row.key).exec m.session).1 = .ok e ∧ e.quantity = .int q) ∧
      m.history.Totals row.key q ∧
      ∀ (o : Operation) (d : Int), o.delta? row.key = some d →
        ((∃ a, (o.act.exec m.session).1 = .ok a) ↔ 0 ≤ q + d ∧ q + d ≤ int64Max) ∧
        (q + d < 0 → o.IsRefused m.session (.insufficientQuantity row.key (.int q) d)
          .insufficientQuantity) ∧
        (int64Max < q + d → o.IsRefused m.session (.quantityOverflow row.key (.int q) d)
          .typeMismatch) := by
  obtain ⟨v, hv, htotals⟩ := m.totals
  obtain ⟨c, hc, hdescribes⟩ := hv.shows.sound.described row hrow
  obtain ⟨q, hq, hlow, hhigh⟩ := hdescribes.quantity
  have hentry : v.find row.key = .ok (c.entry row) :=
    (hv.shows.find_eq row.key).symm.trans (hv.shows.sound.find_of_mem hrow hc hdescribes)
  have hmem := (View.mem_of_find hentry).1
  have hquantity : (c.entry row).quantity = .int q := by
    rw [Category.entry, hq]
    rfl
  obtain ⟨q', hq', htotal⟩ := htotals _ hmem
  cases hquantity.symm.trans hq'
  refine ⟨q, hq, hlow, hhigh, ⟨_, (hv.find row.key).trans hentry, hquantity⟩, htotal,
    fun o d hd => ?_⟩
  rcases hv.addition hmem hquantity hd with ⟨hok, hin⟩ | ⟨hrefused, hneg⟩ | ⟨hrefused, hover⟩
  · exact ⟨⟨fun _ => hin, fun _ => hok⟩, fun h => by omega, fun h => by omega⟩
  · refine ⟨⟨fun h => ?_, fun h => by omega⟩, fun _ => hrefused, fun h => ?_⟩
    · obtain ⟨a, ha⟩ := h
      cases hrefused.1.symm.trans ha
    · have hmax : int64Max = 0x7fffffffffffffff := rfl
      omega
  · refine ⟨⟨fun h => ?_, fun h => by omega⟩, fun h => ?_, fun _ => hrefused⟩
    · obtain ⟨a, ha⟩ := h
      cases hrefused.1.symm.trans ha
    · have hmax : int64Max = 0x7fffffffffffffff := rfl
      omega

/-- One side creates an entry with one hammer, the other counts ten of them, and in the middle of a
transaction three are taken away. Then eight cannot be taken any more. -/
theorem hammers_counted :
    let define := Operation.define (.text "tools") [(.text "size", .text)]
    let create := Operation.create "tools" (.text "hammer") (.text "shed") (.int 1) []
    let count := Operation.modify "hammer" [("Quantity", .int 10)]
    let take := Operation.take "hammer" (.int 3)
    let m : Moment := ⟨"2024-01-01 00:00:00",
      [⟨.first, "2024-01-01 00:00:01", .op define (.op create .done)⟩,
        ⟨.second, "2024-01-01 00:00:02", .op count .done⟩],
      .first, "2024-01-01 00:00:03", true, .op take .done⟩
    m.history.Totals "hammer" 7 ∧
      (Operation.take "hammer" (.int 8)).IsRefused m.session
        (.insufficientQuantity "hammer" (.int 7) (-8)) .insufficientQuantity := by
  intro define create count take m
  have hrows : m.session.db.entries.map (fun row => (row.key, row.quantity)) =
      [("hammer", .int 7)] := by
    decide +kernel
  obtain ⟨row, hrow, hpair⟩ := List.mem_map.1 (hrows ▸ List.mem_singleton_self _)
  obtain ⟨hkey, hquantity⟩ := Prod.mk.inj hpair
  obtain ⟨q, hq, -, -, -, htotal, hadditions⟩ := quantity_is_ledger m hrow
  cases hquantity.symm.trans hq
  rw [hkey] at htotal hadditions
  exact ⟨htotal, (hadditions (.take "hammer" (.int 8)) (-8) rfl).2.1 (by decide)⟩

end Inventory

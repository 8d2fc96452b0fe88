import Inventory.Proofs.Integrity

/-!
# What fails changes nothing

An operation checks everything before it writes, its statements are made as a whole, and on sound
tables what it has written can be read back. So a fault means that nothing was written, also
where the operation is part of a transaction that goes on.
-/

namespace Inventory

open Effect (Atomic)

namespace Sound

variable {cs : List Category} {db : Database}

theorem find_creation (h : Sound cs db) {id : String} {key location quantity : Value}
    {fields : Mapping Value} {now : String} {x : String} {change : Database.Change}
    (hop : Tables.creation id key location quantity fields now db = .ok (x, change)) :
    ∃ e, Tables.find x change.db = .ok e := by
  refine (h.creation hop).find_of_key ?_
  obtain ⟨c, place, n, values, cell, -, -, -, -, -, -, -, rfl⟩ := Tables.creation_ok hop
  simp

theorem find_modification (h : Sound cs db) {key : String} {updates : Mapping Value}
    {now : String} {x : Nat} {change : Database.Change}
    (hop : Tables.modification key updates now db = .ok (x, change)) :
    ∃ e, Tables.find key change.db = .ok e := by
  refine (h.modification hop).find_of_key ?_
  obtain ⟨e, c, place, quantity, values, cell, he, -, -, -, -, -, rfl⟩ :=
    Tables.modification_ok hop
  obtain ⟨row, hrow, rfl, -⟩ := h.exists_of_find he
  rw [Tables.changeEntry_keys]
  · exact List.mem_map_of_mem hrow
  · exact fun _ => rfl

theorem find_adjustment (h : Sound cs db) {key : String} {v : Value} {now : String} {x : Unit}
    {change : Database.Change} (hop : Tables.adjustment key v now db = .ok (x, change)) :
    ∃ e, Tables.find key change.db = .ok e := by
  refine (h.adjustment hop).find_of_key ?_
  obtain ⟨delta, -, hsum⟩ := Tables.adjustment_ok hop
  obtain ⟨row, r, hentry, -, -, -, -, rfl⟩ := Tables.sum_ok hsum
  obtain ⟨hrow, rfl⟩ := mem_of_entry? hentry
  rw [Tables.changeEntry_keys]
  · exact List.mem_map_of_mem hrow
  · exact fun _ => rfl

theorem find_transfer (h : Sound cs db) {signed : Int → Int} {key : String} {amount : Value}
    {now : String} {x : Unit} {change : Database.Change}
    (hop : Tables.transfer signed key amount now db = .ok (x, change)) :
    ∃ e, Tables.find key change.db = .ok e := by
  obtain ⟨n, -, hadjust⟩ := Tables.transfer_ok hop
  exact h.find_adjustment hadjust

end Sound

theorem Operation.effect_atomic (o : Operation) : o.effect.Atomic Database.IsSound := by
  cases o with
  | define | addField => exact (Atomic.change fun _ _ x _ _ _ => ⟨x, rfl⟩).map _
  | remove | delete => exact (Atomic.change fun _ _ _ _ _ _ => ⟨(), rfl⟩).map _
  | create id key location quantity fields =>
      exact (Atomic.change fun _ _ _ _ ⟨_, h⟩ hop => h.find_creation hop).map _
  | modify key updates =>
      exact (Atomic.change fun _ _ _ _ ⟨_, h⟩ hop => h.find_modification hop).map _
  | adjust key delta =>
      exact (Atomic.change fun _ _ _ _ ⟨_, h⟩ hop => h.find_adjustment hop).map _
  | give key amount | take key amount =>
      exact (Atomic.change fun _ _ _ _ ⟨_, h⟩ hop => h.find_transfer hop).map _
  | resolve | categories | stats | invalidate | find | list | nextKeys =>
      exact (Atomic.reading _).map _

/-- An operation that fails leaves the session as it was but for its cache. -/
theorem Operation.act_like_of_error (o : Operation) {s : Session} {f : Fault} (hs : s.Ready)
    (hsound : s.db.IsSound) (h : (o.act.exec s).1 = .error f) : (o.act.exec s).2.Like s := by
  obtain ⟨cache, hexec, -⟩ := o.does_act s hs
  rw [hexec] at h ⊢
  rw [o.effect_atomic s.now s.db f hsound h]
  simp only [Session.apply_unchanged]
  exact ⟨rfl, rfl, rfl, rfl⟩

/-- A script by itself, or as one transaction. -/
def Script.within (inScope : Bool) (p : Script) : Script :=
  if inScope then .scope p .done else p

namespace Workspace

/-- An operation that fails, alone or inside a transaction that is kept, leaves the tables as they
were, and whatever follows leaves the tables that it would leave if the operation had not been
tried. -/
theorem failed_operation_unchanged (stamp : String) (events : List Event) (turn : Turn)
    (now : String) (inScope : Bool) (p : Script) (o : Operation) (f : Fault)
    (h : (o.act.exec (((initial stamp).run events).2.during turn now inScope p)).1 =
      .error f) :
    let w := ((initial stamp).run events).2
    (o.act.exec (w.during turn now inScope p)).2.db = (w.during turn now inScope p).db ∧
      ∀ q : Script,
        (((p.append (.op o q)).within inScope).run (w.session turn now)).2.db =
          (((p.append q).within inScope).run (w.session turn now)).2.db := by
  intro w
  have hw : w.Ready := Ready.run events _ (ofDatabase_ready _)
  have hs : (w.during turn now inScope p).Ready := during_ready hw turn now inScope p
  have hlike := o.act_like_of_error hs (isSound_during stamp events turn now inScope p) h
  refine ⟨hlike.db, fun q => ?_⟩
  -- what follows starts from sessions that differ in their caches only
  have hfollow := (q.run_like _ _ (o.act_follows hs).1 hs hlike).2.db
  cases inScope with
  | false =>
      simp only [Script.within, Bool.false_eq_true, if_false, Script.run_append, Script.run]
      exact hfollow
  | true =>
      have hsaved : (w.session turn now).saved = none := session_saved ..
      simp only [Script.within, if_true, Script.run, Script.run_append, Session.enter, hsaved,
        Option.isSome_none, Bool.false_eq_true, if_false, Session.leave_db]
      exact hfollow

/-- Too many are taken in the middle of a transaction, which then takes fewer. -/
theorem take_too_many_unchanged :
    let define := Operation.define (.text "tools") [(.text "size", .text)]
    let create := Operation.create "tools" (.text "hammer") (.text "shed") (.int 1) []
    let events := [⟨.first, "2024-01-01 00:00:01", .op define (.op create .done)⟩]
    let w := ((initial "2024-01-01 00:00:00").run events).2
    let p := Script.op (.give "hammer" (.int 2)) .done
    let q := Script.op (.take "hammer" (.int 3)) .done
    let o := Operation.take "hammer" (.int 4)
    let s := w.during .second "2024-01-01 00:00:02" true p
    (o.act.exec s).1 = .error (.insufficientQuantity "hammer" (.int 3) (-4)) ∧
      (o.act.exec s).2.db = s.db ∧
      (((p.append (.op o q)).within true).run (w.session .second "2024-01-01 00:00:02")).2.db =
        (((p.append q).within true).run (w.session .second "2024-01-01 00:00:02")).2.db := by
  refine ⟨rfl, ?_⟩
  obtain ⟨hdb, hfollow⟩ := failed_operation_unchanged "2024-01-01 00:00:00"
    [⟨.first, "2024-01-01 00:00:01",
      .op (.define (.text "tools") [(.text "size", .text)])
        (.op (.create "tools" (.text "hammer") (.text "shed") (.int 1) []) .done)⟩]
    .second "2024-01-01 00:00:02" true (.op (.give "hammer" (.int 2)) .done)
    (.take "hammer" (.int 4)) (.insufficientQuantity "hammer" (.int 3) (-4)) rfl
  exact ⟨hdb, hfollow (.op (.take "hammer" (.int 3)) .done)⟩

end Workspace

end Inventory

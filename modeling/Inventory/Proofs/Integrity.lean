import Inventory.Proofs.Preservation
import Inventory.Proofs.Run

/-!
# Integrity over whole runs

Every operation keeps the tables sound, so they are sound after every run that begins with an
empty inventory and undoes no transaction, also in the middle of a transaction. Then every entry
can be read, whichever side reads it and whatever its cache holds.
-/

namespace Inventory

open Effect (Keeps)

/-- There are categories with which the tables are sound. -/
def Database.IsSound (db : Database) : Prop :=
  ∃ cs, Sound cs db

theorem isSound_initial (stamp : String) : (Workspace.initial stamp).db.IsSound :=
  ⟨[], rfl, nofun, List.nodup_nil, List.nodup_nil, nofun⟩

theorem Operation.effect_keeps_sound (o : Operation) : o.effect.Keeps Database.IsSound := by
  cases o with
  | define id fields =>
      exact (Keeps.change (fun _ _ _ _ ⟨_, h⟩ hop => ⟨_, h.definition hop⟩) _).map _
  | addField id name type =>
      exact (Keeps.change (fun _ _ _ _ ⟨_, h⟩ hop => h.extension hop) _).map _
  | remove id => exact (Keeps.change (fun _ _ _ _ ⟨_, h⟩ hop => h.removal hop) _).map _
  | create id key location quantity fields =>
      exact (Keeps.change (fun _ _ _ _ ⟨_, h⟩ hop => ⟨_, h.creation hop⟩) _).map _
  | modify key updates =>
      exact (Keeps.change (fun _ _ _ _ ⟨_, h⟩ hop => ⟨_, h.modification hop⟩) _).map _
  | adjust key delta =>
      exact (Keeps.change (fun _ _ _ _ ⟨_, h⟩ hop => ⟨_, h.adjustment hop⟩) _).map _
  | give key amount | take key amount =>
      exact (Keeps.change (fun _ _ _ _ ⟨_, h⟩ hop => ⟨_, h.transfer hop⟩) _).map _
  | delete key => exact (Keeps.change (fun _ _ _ _ ⟨_, h⟩ hop => ⟨_, h.deletion hop⟩) _).map _
  | resolve | categories | stats | invalidate | find | list | nextKeys =>
      exact (Keeps.reading _).map _

namespace Workspace

/-- The tables are sound whenever a side is about to do something. -/
theorem isSound_during (stamp : String) (events : List Event) (turn : Turn) (now : String)
    (inScope : Bool) (p : Script) :
    (((initial stamp).run events).2.during turn now inScope p).db.IsSound :=
  during_keeps Operation.effect_keeps_sound (Ready.run events _ (ofDatabase_ready _))
    (run_keeps Operation.effect_keeps_sound events _ (ofDatabase_ready _)
      (isSound_initial stamp)) turn now inScope p

/-- After every run, and in the middle of every transaction, the tables are sound, and each side
finds each entry with the fields that its category declares. -/
theorem sound_and_found (stamp : String) (events : List Event) (turn : Turn) (now : String)
    (inScope : Bool) (p : Script) :
    let s := ((initial stamp).run events).2.during turn now inScope p
    ∃ cs, Sound cs s.db ∧ ∀ row ∈ s.db.entries, ∃ c ∈ cs, c.Describes row ∧
      ((Registry.resolve row.categoryId).exec s).1 = .ok c ∧
      ((Store.find row.key).exec s).1 = .ok (c.entry row) ∧
      (c.entry row).fields.names = c.fieldNames := by
  intro s
  have hs : s.Ready :=
    during_ready (Ready.run events _ (ofDatabase_ready _)) turn now inScope p
  obtain ⟨cs, h⟩ := isSound_during stamp events turn now inScope p
  refine ⟨cs, h, fun row hrow => ?_⟩
  obtain ⟨c, hc, hd⟩ := h.described row hrow
  obtain ⟨cache, hresolve, -⟩ := Registry.does_resolve row.categoryId s hs
  obtain ⟨cache', hfind, -⟩ := Store.does_find row.key s hs
  refine ⟨c, hc, hd, ?_, ?_, ?_⟩
  · rw [hresolve, hd.category]
    exact h.resolve_of_mem hc
  · rw [hfind]
    exact h.find_of_mem hrow hc hd
  · simp [Category.entry]

/-- An entry that one side has created before its category gained a field is found by the other
side in the middle of a transaction. -/
theorem hammer_found :
    let define := Operation.define (.text "tools") [(.text "size", .text)]
    let create := Operation.create "tools" (.text "hammer") (.text "shed") (.int 1) []
    let events := [⟨.first, "2024-01-01 00:00:01", .op define (.op create .done)⟩]
    let extend := Script.op (.addField "tools" (.text "color") .text) .done
    let s := ((initial "2024-01-01 00:00:00").run events).2.during .second
      "2024-01-01 00:00:02" true extend
    ∃ c e, ((Registry.resolve "tools").exec s).1 = .ok c ∧
      ((Store.find "hammer").exec s).1 = .ok e ∧ e.fields.names = c.fieldNames := by
  obtain ⟨cs, -, hfound⟩ := sound_and_found "2024-01-01 00:00:00"
    [⟨.first, "2024-01-01 00:00:01",
      .op (.define (.text "tools") [(.text "size", .text)])
        (.op (.create "tools" (.text "hammer") (.text "shed") (.int 1) []) .done)⟩]
    .second "2024-01-01 00:00:02" true (.op (.addField "tools" (.text "color") .text) .done)
  obtain ⟨c, -, -, hresolve, hfind, hnames⟩ := hfound
    ⟨"hammer", "tools", "shed", .int 1, .mapping [], "2024-01-01 00:00:01",
      "2024-01-01 00:00:01"⟩ (.head _)
  exact ⟨c, _, hresolve, hfind, hnames⟩

end Workspace

end Inventory

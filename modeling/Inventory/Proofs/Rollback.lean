import Inventory.Database.Migration
import Inventory.Proofs.Run

/-!
# Caches across a rollback

A transaction that a fault ends restores the tables but not the cache. The session stays in order
exactly if the cache, as far as it is still used, was filled from categories that were there
before; else later lookups answer with what was undone.
-/

namespace Inventory

/-- A script inside a transaction that a fault ends. -/
def Script.abandoned (p : Script) (f : Fault) : Action Unit :=
  Action.transaction do
    discard p.act
    throw f

namespace Session

/-- The session with a registry that has looked up nothing yet. -/
def forget (s : Session) : Session :=
  { s with cache := none }

/-- The next lookup is answered from the cache. -/
def UsesCache (s : Session) : Prop :=
  ∃ c, s.cache = some c ∧ c.version = s.version

/-- An abandoned script leaves the tables and the transaction as they were. Only the cache and
what the script knows of others are those at its end. -/
theorem exec_abandoned (p : Script) (f : Fault) {s : Session} (hs : s.saved = none) :
    (p.abandoned f).exec s = (.error f, (p.run s.begin).2.rollback) := by
  rw [Script.abandoned, Action.transaction, Action.exec_transactionIf _ _ hs,
    Action.discard_bind, Action.exec_bind, p.exec_act]
  rfl

theorem rollback_db {s t : Session} (h : s.begin.Follows t) : t.rollback.db = s.db := by
  have hsaved : t.saved = some s.db := h.saved
  rw [rollback, hsaved]
  rfl

theorem Ready.forget {s : Session} (h : s.Ready) : s.forget.Ready :=
  .ofNoCache h.clean rfl

end Session

/-- A used cache is what lookups answer with. -/
theorem Operation.categories_of_usesCache {s : Session} {c : Cache} (hc : s.cache = some c)
    (hv : c.version = s.version) :
    (Operation.categories.act.exec s).1 = .ok (.categories c.categories) := by
  rw [Operation.act, Action.exec_map, Registry.exec_categories, hc]
  dsimp only
  rw [if_pos hv]
  rfl

namespace Session

/-- Being in order is not only enough for right answers. A lookup of all categories tells whether
a used cache is right. -/
theorem answers_forget_iff {t : Session} (hforget : t.forget.Ready)
    (hahead : ∀ c, t.cache = some c → c.version ≤ t.version)
    (hforgetful : t.remembers = false → t.cache = none) :
    (∀ q : Script, (q.run t).1 = (q.run t.forget).1) ↔ t.Ready := by
  constructor
  · refine fun hall => ⟨hforget.clean, hahead, fun c hc hv => ?_, hforgetful⟩
    have hcached := Operation.categories_of_usesCache hc hv
    obtain ⟨cache, hexec, -⟩ := Operation.categories.does_act _ hforget
    have hanswers := hall (.op .categories .done)
    simp only [Script.run, hcached, hexec, List.cons.injEq, Prod.mk.injEq] at hanswers
    have hanswer := hanswers.1.1
    simp only [Operation.effect, Effect.map, Effect.reading] at hanswer
    obtain ⟨cs, hcs, heq⟩ := map_eq_ok_iff.1 hanswer.symm
    cases heq
    exact hcs
  · intro hready q
    exact (q.run_like _ _ hready hready.forget ⟨rfl, rfl, rfl, rfl⟩).1

/-- A rollback leaves a session in order if and only if a cache that is used says what the tables
said before the transaction. -/
theorem rollback_ready_iff {s t : Session} (ht : t.Ready) (h : s.begin.Follows t) :
    t.rollback.Ready ↔ (t.UsesCache → Tables.categories t.db = Tables.categories s.db) := by
  constructor
  · rintro hready ⟨c, hc, hv⟩
    have hafter := hready.coherent c hc hv
    rw [rollback_db h] at hafter
    exact (ht.coherent c hc hv).trans hafter.symm
  · intro hsame
    refine ⟨fun _ => rfl, ht.notAhead, fun c hc hv => ?_, ht.forgetful⟩
    rw [rollback_db h]
    exact (hsame ⟨c, hc, hv⟩).symm.trans (ht.coherent c hc hv)

end Session

namespace Workspace

/-- After a rollback, all later answers of a side are those of a registry that has looked up
nothing yet if and only if, at the moment of the rollback, the cache was not in use or the
categories were the same as before the transaction. -/
theorem answers_after_rollback_iff (db : Database) (events : List Event) (turn : Turn)
    (now : String) (p : Script) (f : Fault) :
    let s := ((ofDatabase db).run events).2.session turn now
    let t := ((p.abandoned f).exec s).2
    (∀ q : Script, (q.run t).1 = (q.run t.forget).1) ↔
      ((p.run s.begin).2.UsesCache →
        Tables.categories (p.run s.begin).2.db = Tables.categories s.db) := by
  intro s t
  -- the rollback takes the tables back, but not the cache at the end of the script
  have hs : s.Ready := Ready.run events _ (ofDatabase_ready db) turn now
  obtain ⟨hready, hfollows⟩ := p.run_follows _ hs.begin
  have ht : t = (p.run s.begin).2.rollback := by
    simp only [t, Session.exec_abandoned p f (session_saved ..), s]
  have hforget : t.forget.Ready := .ofNoCache (fun _ => by rw [ht]; rfl) rfl
  rw [Session.answers_forget_iff hforget (by rw [ht]; exact hready.notAhead)
    (by rw [ht]; exact hready.forgetful), ht]
  exact Session.rollback_ready_iff hready hfollows

/-- A field that is added and looked up in a transaction stays visible after a fault has undone
it. An entry is then created with a value for it, and can never be read again. -/
theorem create_after_rollback_undeclared :
    let w := ofDatabase (Database.empty.migrate "2024-01-01 00:00:00")
    let define := Script.op (.define (.text "tools") [(.text "size", .text)]) .done
    let s := (w.run [⟨.first, "2024-01-01 00:00:01", define⟩]).2.session .first
      "2024-01-01 00:00:02"
    let p := Script.op (.addField "tools" (.text "color") .text) (.op (.resolve "tools") .done)
    let t := ((p.abandoned (.entryNotFound "hammer")).exec s).2
    let create := Operation.create "tools" (.text "hammer") (.text "shed") (.int 1)
      [("color", .text "red")]
    ((Script.op create .done).run t).1 ≠ ((Script.op create .done).run t.forget).1 ∧
      Tables.find "hammer" ((Script.op create .done).run t).2.db =
        .error (.undeclaredFields "hammer" "tools" ["color"]) := by
  refine ⟨fun h => ?_, rfl⟩
  -- the create succeeds with the cache and is refused without it
  have hanswers := congrArg (List.map fun reply => reply.1.isOk) h
  exact absurd hanswers (by decide)

end Workspace

end Inventory

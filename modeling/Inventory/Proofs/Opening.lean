import Inventory.Proofs.Command
import Inventory.Proofs.Seen

/-!
# Opening an inventory and acting on it

A command that changes an inventory opens it first, with tables that are up to date, and leaves in its
file what its action has made of them. The equations here say so for an inventory that is found.
-/

namespace Inventory

/-! ## Opened tables -/

namespace Database

/-- What is seen of an inventory is in its rows. -/
theorem Extends.shows {db done : Database} (h : db.Extends done) {v : View} (hv : db.Shows v) :
    done.Shows v := by
  obtain ⟨objects, versions, categories, entries⟩ := done
  obtain ⟨-, -, hcategories, hentries⟩ := h
  dsimp only at hcategories hentries
  subst hcategories hentries
  obtain ⟨hsound, hnamed, hshown⟩ := hv
  exact ⟨⟨hsound.rows, hsound.canonical, hsound.ids_nodup, hsound.keys_nodup, hsound.described⟩,
    hnamed, hshown⟩

/-- A migration leaves categories and entries alone. -/
theorem Shows.migrate {db : Database} {v : View} (h : db.Shows v) (now : String) :
    (db.migrate now).Shows v :=
  (extends_migrate now db).shows h

theorem Shows.fresh_sees {db : Database} {v : View} (h : db.Shows v) (now : String) :
    (Session.fresh db now).Sees v :=
  ⟨.ofNoCache (fun _ => rfl) rfl, h⟩

end Database

/-! ## Parts of commands -/

/-- The progress with an inventory in the file at a place. -/
def Progress.saving (q : Progress) (place : Place) (db : Database) : Progress :=
  { q with surroundings :=
    { q.surroundings with disk := q.surroundings.disk.put place (.file (.inventory db)) } }

namespace Run

variable {α : Type} {q : Progress} {p : Path} {place : Place} {db : Database}

theorem exec_surroundings_bind {k : Surroundings → Run α} :
    (surroundings >>= k).exec q = (k q.surroundings).exec q :=
  rfl

theorem exec_accepted (kinds : List FaultKind) (r : Except Fault α) (q : Progress) :
    (accepted kinds r).exec q =
      match r with
      | .ok x => (.ok x, q)
      | .error f =>
        if f.kind ∈ kinds then
          (.error (.exit 1), { q with shown := q.shown ++ [.line (Message.invalidInput f.message)] })
        else (.error (.fault f), q) := by
  cases r with
  | ok x => rfl
  | error f =>
      simp only [accepted, orFault, List.contains_iff_mem]
      split <;> rfl

theorem exec_settings {loaded : Settings × List String}
    (h : Settings.load q.surroundings = .ok loaded) : settings.exec q = (.ok loaded.1, q) := by
  rw [settings, exec_surroundings_bind, exec_bind, exec_accepted, h]
  rfl

theorem exec_databasePath {given : Option Path} (h : q.surroundings.inventoryPath given = .ok p) :
    (databasePath given).exec q = (.ok p, q) := by
  cases given with
  | some given =>
      cases h
      rfl
  | none =>
      obtain ⟨loaded, hloaded, rfl⟩ := map_eq_ok_iff.1 h
      rw [databasePath, exec_bind, exec_settings hloaded]
      rfl

theorem exec_connect (hfound : q.surroundings.disk.find? q.surroundings.work p =
      .ok (some (place, .file (.inventory db)))) :
    (connect p).exec q = (.ok (), q.saving place (db.migrate q.surroundings.now)) := by
  -- where the file was found, the directory above it is there
  have hmake : (changeDisk (·.makeDirectory (q.surroundings.work.join p).parent)).exec q =
      (.ok (), q) := by
    rw [changeDisk, exec_surroundings_bind, Disk.makeDirectory_of_find? hfound]
    rfl
  have hconnected : connected q.surroundings p = .ok (q.surroundings.disk.put place
      (.file (.inventory (db.migrate q.surroundings.now)))) := by
    rw [connected, hfound]
    rfl
  rw [connect, exec_surroundings_bind, exec_bind, hmake]
  dsimp only
  rw [exec_surroundings_bind, hconnected]
  rfl

/-- The inventory at a path is opened with tables that are up to date. -/
theorem exec_openInventory {given : Option Path} (hpath : q.surroundings.inventoryPath given = .ok p)
    (hfound : q.surroundings.disk.find? q.surroundings.work p =
      .ok (some (place, .file (.inventory db)))) :
    (openInventory given).exec q = (.ok p, q.saving place (db.migrate q.surroundings.now)) := by
  have hthere : q.surroundings.disk.contains q.surroundings.work p = .ok true := by
    rw [Disk.contains, hfound]
    rfl
  rw [openInventory, exec_bind, exec_databasePath hpath]
  dsimp only
  rw [exec_surroundings_bind, hthere]
  show (connect p >>= fun _ => pure p).exec q = _
  rw [exec_bind, exec_connect hfound]
  rfl

/-- An action on the inventory at a path leaves its tables in the file. -/
theorem exec_attempt (hfound : q.surroundings.disk.find? q.surroundings.work p =
      .ok (some (place, .file (.inventory db)))) (a : Action α) :
    (attempt p a).exec q = (.ok (a.exec (Session.fresh db q.surroundings.now)).1,
      q.saving place (a.exec (Session.fresh db q.surroundings.now)).2.db) := by
  rw [attempt, exec_surroundings_bind, hfound]
  rfl

end Run

end Inventory

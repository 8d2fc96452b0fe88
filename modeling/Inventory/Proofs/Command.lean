import Inventory.Command.Run
import Inventory.Proofs.Disk
import Inventory.Proofs.Migrations
import Inventory.Proofs.Spec

/-!
# Parts of commands that only look

A part of a command may show lines, ask questions, read files and look into an inventory, and leave
its surroundings as they are. `Looks` says so, with what its result is then known to be, and there is
one lemma for each way in which parts are put together. `Meets` is for the parts that change the disk.
Opening an inventory is a look where its layout is the current one.
-/

namespace Inventory

/-- Opening the content of a file as an inventory does not change it: an inventory has the current
layout, and what is none is not empty. -/
def Content.IsCurrent : Content → Prop
  | .inventory db => db.IsCurrent
  | .bytes data => data.isEmpty = false

namespace Surroundings

/-- The path of the inventory, as it is given or as the settings say. -/
def inventoryPath (s : Surroundings) : (given : Option Path) → Except Fault Path
  | some p => .ok p
  | none => (Settings.load s).map (·.1.database)

/-- The file at the path of the inventory has, if it is there, the current layout. -/
def IsCurrent (s : Surroundings) (given : Option Path) : Prop :=
  ∀ p place content, s.inventoryPath given = .ok p →
    s.disk.find? s.work p = .ok (some (place, .file content)) → content.IsCurrent

/-- The inventory that is found. -/
def Holds (s : Surroundings) (p : Path) (db : Database) : Prop :=
  ∃ place, s.disk.find? s.work p = .ok (some (place, .file (.inventory db)))

theorem Holds.unique {s : Surroundings} {p : Path} {db db' : Database} (h : s.Holds p db)
    (h' : s.Holds p db') : db = db' := by
  obtain ⟨place, h⟩ := h
  obtain ⟨place', h'⟩ := h'
  rw [h] at h'
  cases h'
  rfl

end Surroundings

namespace Run

variable {α β : Type} {s : Surroundings}

theorem exec_bind (r : Run α) (k : α → Run β) (p : Progress) :
    (r >>= k).exec p =
      match r.exec p with
      | (.ok x, q) => (k x).exec q
      | (.error e, q) => (.error e, q) := by
  unfold exec ExceptT.run StateT.run
  simp only [bind, ExceptT.bind, ExceptT.mk, StateT.bind, ExceptT.bindCont]
  rcases r p with ⟨_ | _, q⟩ <;> rfl

/-! ## What parts do to the surroundings -/

/-- In the surroundings `s`, the part leaves surroundings as `Q` says, with its result, and where it
ends the command as `E` says. -/
def Meets (r : Run α) (s : Surroundings) (Q : α → Surroundings → Prop)
    (E : Surroundings → Prop) : Prop :=
  ∀ p : Progress, p.surroundings = s →
    (∃ x q, r.exec p = (.ok x, q) ∧ Q x q.surroundings) ∨
      ∃ e q, r.exec p = (.error e, q) ∧ E q.surroundings

/-- In the surroundings `s`, the part leaves them as they are, and `Q` says what its result is. -/
def Looks (r : Run α) (s : Surroundings) (Q : α → Prop) : Prop :=
  Meets r s (fun x t => t = s ∧ Q x) (· = s)

namespace Meets

variable {r : Run α} {k : α → Run β} {Q Q' : α → Surroundings → Prop}
  {R : β → Surroundings → Prop} {E E' : Surroundings → Prop}

theorem weaken (h : Meets r s Q E) (hQ : ∀ x t, Q x t → Q' x t) (hE : ∀ t, E t → E' t) :
    Meets r s Q' E' := by
  intro p hp
  rcases h p hp with ⟨x, q, hexec, hx⟩ | ⟨e, q, hexec, he⟩
  · exact .inl ⟨x, q, hexec, hQ x _ hx⟩
  · exact .inr ⟨e, q, hexec, hE _ he⟩

theorem bind (h : Meets r s Q E) (hk : ∀ x t, Q x t → Meets (k x) t R E) :
    Meets (r >>= k) s R E := by
  intro p hp
  rw [exec_bind]
  rcases h p hp with ⟨x, q, hexec, hx⟩ | ⟨e, q, hexec, he⟩
  · rw [hexec]
    exact hk x _ hx q rfl
  · rw [hexec]
    exact .inr ⟨e, q, rfl, he⟩

theorem surroundings_bind {k : Surroundings → Run β} (h : Meets (k s) s R E) :
    Meets (surroundings >>= k) s R E := by
  rintro p rfl
  exact h p rfl

theorem changeDisk {change : Disk → Except Disk.Broken Disk} {Q : Unit → Surroundings → Prop}
    (hQ : ∀ d, change s.disk = .ok d → Q () { s with disk := d })
    (hE : ∀ b, change s.disk = .error b → E { s with disk := b.disk }) :
    Meets (changeDisk change) s Q E := by
  refine surroundings_bind ?_
  rintro p rfl
  cases hchange : change p.surroundings.disk with
  | ok d => exact .inl ⟨(), _, rfl, hQ d hchange⟩
  | error broken => exact .inr ⟨_, _, rfl, hE broken hchange⟩

end Meets

namespace Looks

variable {r : Run α} {k : α → Run β} {Q Q' : α → Prop} {R : β → Prop}

theorem weaken (h : Looks r s Q) (hQ : ∀ x, Q x → Q' x) : Looks r s Q' :=
  Meets.weaken h (fun x _ hx => ⟨hx.1, hQ x hx.2⟩) fun _ he => he

theorem bind_meets {R : β → Surroundings → Prop} {E : Surroundings → Prop} (h : Looks r s Q)
    (hE : E s) (hk : ∀ x, Q x → Meets (k x) s R E) : Meets (r >>= k) s R E := by
  refine Meets.bind (Meets.weaken h (fun _ _ hx => hx) ?_) ?_
  · rintro t rfl
    exact hE
  · rintro x t ⟨rfl, hx⟩
    exact hk x hx

theorem bind (h : Looks r s Q) (hk : ∀ x, Q x → Looks (k x) s R) : Looks (r >>= k) s R :=
  h.bind_meets rfl hk

theorem pure {x : α} (hx : Q x) : Looks (Pure.pure x) s Q :=
  fun p hp => .inl ⟨x, p, rfl, hp, hx⟩

theorem throw (e : Ending) : Looks (MonadExcept.throw e : Run α) s Q :=
  fun p hp => .inr ⟨e, p, rfl, hp⟩

theorem get : Looks (MonadState.get : Run Progress) s (·.surroundings = s) :=
  fun p hp => .inl ⟨p, p, rfl, hp, hp⟩

theorem set {q : Progress} (hq : q.surroundings = s) :
    Looks (MonadStateOf.set q : Run Unit) s fun _ => True :=
  fun _ _ => .inl ⟨(), q, rfl, hq, trivial⟩

end Looks

/-- Showing a line does not end a command. -/
theorem meets_showLine {E : Surroundings → Prop} (markup : String) :
    Meets (showLine markup) s (fun _ t => t = s) E :=
  fun p hp => .inl ⟨(), { p with shown := p.shown ++ [.line markup] }, rfl, hp⟩

theorem looks_showLine (markup : String) : Looks (showLine markup) s fun _ => True :=
  (meets_showLine markup).weaken (fun _ _ ht => ⟨ht, trivial⟩) fun _ ht => ht

theorem looks_fail {Q : α → Prop} (message : String) : Looks (fail message) s Q :=
  (looks_showLine message).bind fun _ _ => Looks.throw _

/-- A disk that is set as it is. -/
theorem looks_setDisk {d : Disk} (h : d = s.disk) : Looks (setDisk d) s fun _ => True := by
  rintro p rfl
  subst h
  exact .inl ⟨(), p, rfl, rfl, trivial⟩

theorem looks_onDisk (e : Except Fault α) : Looks (onDisk e) s (e = .ok ·) := by
  cases e with
  | error f => exact Looks.throw _
  | ok x => exact Looks.pure rfl

theorem looks_orFault {hasMessage : FaultKind → Bool} {handle : Fault → Run α}
    (hhandle : ∀ (Q : α → Prop) (f : Fault), Looks (handle f) s Q) (e : Except Fault α) :
    Looks (orFault hasMessage handle e) s (e = .ok ·) := by
  cases e with
  | error f =>
      rw [orFault]
      split
      · exact hhandle _ f
      · exact Looks.throw _
  | ok x => exact Looks.pure rfl

theorem looks_reported (e : Except Fault α) : Looks (reported e) s (e = .ok ·) :=
  looks_orFault (fun _ _ => looks_fail _) e

theorem looks_accepted (kinds : List FaultKind) (e : Except Fault α) :
    Looks (accepted kinds e) s (e = .ok ·) :=
  looks_orFault (fun _ _ => looks_fail _) e

theorem looks_confirm (question : String) : Looks (confirm question) s fun _ => True := by
  refine Looks.get.bind fun p hp => ?_
  rcases readAnswer (question ++ " [y/N]: ") p.input with ⟨answer, screen, rest⟩
  dsimp only
  refine Looks.bind (Looks.set ?_) fun _ _ => ?_
  · exact hp
  · cases answer with
    | none => exact Looks.throw _
    | some b => exact Looks.pure trivial

theorem looks_confirmed (question cancelled : String) :
    Looks (confirmed question cancelled) s fun _ => True := by
  refine (looks_confirm question).bind fun b _ => ?_
  split
  · exact (looks_showLine cancelled).bind fun _ _ => Looks.throw _
  · exact Looks.pure trivial

theorem looks_forIn {f : α → β → Run (ForInStep β)} (hf : ∀ x b, Looks (f x b) s fun _ => True)
    (xs : List α) : ∀ b, Looks (forIn xs b f) s fun _ => True := by
  induction xs with
  | nil => exact fun b => Looks.pure trivial
  | cons x rest ih =>
      intro b
      rw [List.forIn_cons]
      refine (hf x b).bind fun step _ => ?_
      cases step with
      | done b => exact Looks.pure trivial
      | yield b => exact ih b

/-! ## The settings and the inventory -/

theorem looks_settings : Looks settings s fun initial =>
    (Settings.load s).map Prod.fst = .ok initial := by
  refine Meets.surroundings_bind ?_
  exact (looks_accepted [.config] _).bind fun loaded hload => Looks.pure (by rw [hload]; rfl)

theorem looks_databasePath (given : Option Path) :
    Looks (databasePath given) s (s.inventoryPath given = .ok ·) := by
  cases given with
  | some p => exact Looks.pure rfl
  | none =>
      refine looks_settings.bind fun initial hload => Looks.pure ?_
      obtain ⟨loaded, hloaded, rfl⟩ := map_eq_ok_iff.1 hload
      exact map_eq_ok_iff.2 ⟨loaded, hloaded, rfl⟩

/-- Opening an inventory of the current layout changes nothing. -/
theorem connected_of_isCurrent {p : Path} {place : Place} {node : Node} {d : Disk}
    (hfound : s.disk.find? s.work p = .ok (some (place, node)))
    (hcurrent : ∀ content, node = .file content → content.IsCurrent)
    (h : connected s p = .ok d) : d = s.disk := by
  rw [connected, hfound, ok_bind] at h
  cases node with
  | directory => cases h
  | file content =>
      obtain ⟨db, hstored, h⟩ := bind_eq_ok_iff.1 h
      cases h
      cases content with
      | bytes data =>
          rw [stored, hcurrent _ rfl] at hstored
          cases hstored
      | inventory db' =>
          cases hstored
          rw [Database.IsCurrent.migrate_eq (hcurrent _ rfl)]
          exact Disk.put_of_find? hfound

theorem looks_connect {p : Path} {place : Place} {node : Node}
    (hfound : s.disk.find? s.work p = .ok (some (place, node)))
    (hcurrent : ∀ content, node = .file content → content.IsCurrent) :
    Looks (connect p) s fun _ => True := by
  have hmake := Disk.makeDirectory_of_find? hfound
  have hchange : Looks (changeDisk (·.makeDirectory (s.work.join p).parent)) s fun _ => True := by
    refine Meets.changeDisk (fun d hd => ?_) fun b hb => ?_
    · rw [hmake] at hd
      cases hd
      exact ⟨rfl, trivial⟩
    · rw [hmake] at hb
      cases hb
  refine Meets.surroundings_bind (hchange.bind fun _ _ => Meets.surroundings_bind ?_)
  exact (looks_reported _).bind fun d hd => looks_setDisk (connected_of_isCurrent hfound hcurrent hd)

theorem looks_openInventory {given : Option Path} (h : s.IsCurrent given) :
    Looks (openInventory given) s (s.inventoryPath given = .ok ·) := by
  refine (looks_databasePath given).bind fun p hp => Meets.surroundings_bind ?_
  refine (looks_onDisk _).bind fun isThere hthere => ?_
  cases isThere with
  | false => exact (looks_fail (Q := fun _ => False) _).bind fun _ h => h.elim
  | true =>
      obtain ⟨⟨place, node⟩, hfound⟩ : ∃ found, s.disk.find? s.work p = .ok (some found) := by
        obtain ⟨found, hfound, hsome⟩ := bind_eq_ok_iff.1 hthere
        obtain ⟨found', rfl⟩ := Option.isSome_iff_exists.1 (Except.ok.inj hsome)
        exact ⟨found', hfound⟩
      refine (looks_connect hfound fun content hcontent => ?_).bind fun _ _ => Looks.pure hp
      exact h p place content hp (hcontent ▸ hfound)

/-- An action that leaves the tables as they are is a look at the inventory. -/
theorem looks_attempt {p : Path} {a : Action α}
    (ha : ∀ db, (a.exec (Session.fresh db s.now)).2.db = db) :
    Looks (attempt p a) s fun result =>
      ∃ db, s.Holds p db ∧ (a.exec (Session.fresh db s.now)).1 = result := by
  refine Meets.surroundings_bind ((looks_onDisk _).bind fun found hfound => ?_)
  split
  · next place db =>
      refine (looks_setDisk ?_).bind fun _ _ => Looks.pure ⟨db, ⟨place, hfound⟩, rfl⟩
      change s.disk.put place (.file (.inventory (a.exec (Session.fresh db s.now)).2.db)) = s.disk
      rw [ha db]
      exact Disk.put_of_find? hfound
  · exact Looks.throw _

theorem looks_perform {p : Path} {a : Action α}
    (ha : ∀ db, (a.exec (Session.fresh db s.now)).2.db = db) :
    Looks (perform p a) s fun x =>
      ∃ db, s.Holds p db ∧ (a.exec (Session.fresh db s.now)).1 = .ok x :=
  (looks_attempt ha).bind fun result hresult => (looks_reported result).weaken fun _ hx => hx ▸ hresult

end Run

end Inventory

import Inventory.Proofs.Damaged
import Inventory.Proofs.Operation

/-!
# What sessions keep whatever their caches hold

Operations on sessions in order come to functions of the tables. Of other sessions, whose caches are
out of date, less is known, but what every statement keeps, every session keeps, also through
transactions that are rolled back. That entries are filed is such a property: the database refuses
what would break it.
-/

namespace Inventory

open Database (Change Statement)

/-! ## What statements keep -/

/-- The rows are filed under the categories. -/
def Database.IsFiled (db : Database) : Prop :=
  ∃ cs, Filed cs db

/-- What held before the statement holds after it. -/
def Database.Statement.Upholds (I : Database → Prop) (f : Statement) : Prop :=
  ∀ db c, I db → f db = .ok c → I c.db

namespace Database

theorem exists_of_category? {cs : List Category} {db : Database} (h : Filed cs db) {id : String}
    (hsome : (db.category? id).isSome) : ∃ c ∈ cs, id = c.id := by
  obtain ⟨row, hrow⟩ := Option.isSome_iff_exists.1 hsome
  have hid : row.id = id := by simpa using List.find?_some hrow
  have hmem := List.mem_of_find?_eq_some hrow
  rw [h.rows] at hmem
  obtain ⟨c, hc, rfl⟩ := List.mem_map.1 hmem
  exact ⟨c, hc, hid.symm⟩

theorem upholds_addCategory {id : String} (hid : Text.lower id = id) :
    (addCategory id).Upholds IsFiled := by
  rintro db c ⟨cs, h⟩ hc
  rw [addCategory, refuse_eq_ok_iff] at hc
  obtain ⟨hnone, ⟨⟩⟩ := hc
  refine ⟨_, h.define (c := ⟨id, []⟩) hid fun d hd heq => hnone ?_⟩
  rw [category?, h.rows]
  exact List.find?_isSome.2 ⟨Tables.rowOf d, List.mem_map_of_mem hd, beq_iff_eq.2 heq⟩

theorem upholds_addField (id : String) (f : FieldDef) : (addField id f).Upholds IsFiled := by
  rintro db c ⟨cs, h⟩ hc
  rw [Tables.addField_ok hc]
  exact ⟨_, h.extend id f⟩

theorem upholds_removeCategory (id : String) : (removeCategory id).Upholds IsFiled := by
  rintro db c ⟨cs, h⟩ hc
  unfold removeCategory at hc
  split at hc
  · cases hc
    exact ⟨cs, h⟩
  · rw [refuse_eq_ok_iff] at hc
    obtain ⟨hempty, ⟨⟩⟩ := hc
    exact ⟨_, h.remove (by simpa using hempty)⟩

theorem upholds_addEntry (now key id location : String) (quantity : Value)
    (fields : Mapping Value) :
    (addEntry now key id location quantity fields).Upholds IsFiled := by
  rintro db c ⟨cs, h⟩ hc
  simp only [addEntry, bind_eq_ok_iff, guard_eq_ok_iff] at hc
  obtain ⟨-, -, cell, -, hkey, howner, hc⟩ := hc
  cases hc
  have howned : (db.category? id).isSome := by simpa [Option.isSome_iff_ne_none] using howner
  exact ⟨cs, h.insert (exists_of_category? h howned) (by simpa using hkey)⟩

theorem filed_changeEntry {cs : List Category} {db : Database} (h : Filed cs db) (key : String)
    {change : EntryRow → EntryRow} (hkey : ∀ row, (change row).key = row.key)
    (hid : ∀ row, (change row).categoryId = row.categoryId) :
    Filed cs (db.changeEntry key change).db := by
  refine h.changeEntry (fun row _ hk => .inl ((hkey row).trans hk)) fun row hrow _ => ?_
  rw [hid]
  exact h.owned row hrow

theorem upholds_updateEntry (now key location : String) (quantity : Value)
    (fields : Mapping Value) : (updateEntry now key location quantity fields).Upholds IsFiled := by
  rintro db c ⟨cs, h⟩ hc
  obtain ⟨cell, -, rfl⟩ := Tables.updateEntry_ok hc
  exact ⟨cs, filed_changeEntry h key (fun _ => rfl) fun _ => rfl⟩

theorem upholds_adjustQuantity (now key : String) (delta : Int) :
    (adjustQuantity now key delta).Upholds IsFiled := by
  rintro db c ⟨cs, h⟩ hc
  by_cases hrows : c.rows = 0
  · rw [Tables.adjustQuantity_none hc hrows]
    exact ⟨cs, h⟩
  · obtain ⟨-, row, -, -, rfl⟩ := Tables.adjustQuantity_ok hc hrows
    exact ⟨cs, filed_changeEntry h key (fun _ => rfl) fun _ => rfl⟩

theorem upholds_deleteEntry (key : String) : (deleteEntry key).Upholds IsFiled := by
  rintro db c ⟨cs, h⟩ hc
  by_cases hrows : c.rows = 0
  · rw [Tables.deleteEntry_none hc hrows]
    exact ⟨cs, h⟩
  · rw [Tables.deleteEntry_ok hc hrows]
    exact ⟨cs, h.delete key⟩

/-! ### By hand -/

theorem putValue_ok {α : Type} {read : Value → Except Fault α} {put : α → Database → Change}
    {key : String} {v : Value} {db : Database} {c : Change}
    (h : putValue read put key v db = .ok c) :
    c = db.unchanged ∨ ∃ x, read v = .ok x ∧ c = put x db := by
  unfold putValue at h
  split at h
  · obtain ⟨_, -, h⟩ := bind_eq_ok_iff.1 h
    cases h
    exact .inl rfl
  · obtain ⟨x, hx, h⟩ := bind_eq_ok_iff.1 h
    cases h
    exact .inr ⟨x, hx, rfl⟩

/-- A value that neither moves nor renames the row. -/
theorem upholds_putValue {α : Type} (read : Value → Except Fault α)
    {change : α → EntryRow → EntryRow} (key : String) (v : Value)
    (hkey : ∀ x row, (change x row).key = row.key)
    (hid : ∀ x row, (change x row).categoryId = row.categoryId) :
    (putValue read (fun x => changeEntry key (change x)) key v).Upholds IsFiled := by
  rintro db c ⟨cs, h⟩ hc
  rcases putValue_ok hc with rfl | ⟨x, -, rfl⟩
  · exact ⟨cs, h⟩
  · exact ⟨cs, filed_changeEntry h key (hkey x) (hid x)⟩

theorem upholds_moveEntry (key : String) (id : Value) : (moveEntry key id).Upholds IsFiled := by
  rintro db c ⟨cs, h⟩ hc
  unfold moveEntry at hc
  rcases putValue_ok hc with rfl | ⟨owner, howner, rfl⟩
  · exact ⟨cs, h⟩
  · simp only [bind_eq_ok_iff, guard_eq_ok_iff] at howner
    obtain ⟨_, -, hthere, howner⟩ := howner
    cases howner
    have howned : (db.category? owner).isSome := by simpa [Option.isSome_iff_ne_none] using hthere
    exact ⟨cs, h.changeEntry (fun row _ hk => .inl hk)
      fun row _ _ => exists_of_category? h howned⟩

theorem upholds_renameEntry (key : String) (newKey : Value) :
    (renameEntry key newKey).Upholds IsFiled := by
  rintro db c ⟨cs, h⟩ hc
  unfold renameEntry at hc
  rcases putValue_ok hc with rfl | ⟨name, hname, rfl⟩
  · exact ⟨cs, h⟩
  · simp only [bind_eq_ok_iff, guard_eq_ok_iff] at hname
    obtain ⟨_, -, hfree, hname⟩ := hname
    cases hname
    refine ⟨cs, h.changeEntry (fun row _ hk => ?_) fun row hrow _ => h.owned row hrow⟩
    by_cases hsame : name = key
    · exact .inl hsame
    · exact .inr (by simpa [hsame] using hfree)

end Database

/-! ## What actions keep -/

/-- The tables of a session have a property, and so do those that a rollback would restore. -/
def Session.Within (I : Database → Prop) (s : Session) : Prop :=
  I s.db ∧ ∀ db, s.saved = some db → I db

/-- What held before the action holds after it, whether it succeeds or not and whatever the cache of
the session holds. -/
def Action.Upholds {α : Type} (I : Database → Prop) (a : Action α) : Prop :=
  ∀ s : Session, s.Within I → (a.exec s).2.Within I

theorem Session.Within.commit {I : Database → Prop} {s : Session} (h : s.Within I) :
    s.commit.Within I :=
  ⟨h.1, nofun⟩

theorem Session.Within.rollback {I : Database → Prop} {s : Session} (h : s.Within I) :
    s.rollback.Within I := by
  refine ⟨?_, nofun⟩
  show I (s.saved.getD s.db)
  cases hsaved : s.saved with
  | none => exact h.1
  | some db => exact h.2 db hsaved

namespace Action.Upholds

variable {α β : Type} {I : Database → Prop} {a : Action α}

/-- An action that only reads. -/
theorem reading (hdb : ∀ s, (a.exec s).2.db = s.db) (hsaved : ∀ s, (a.exec s).2.saved = s.saved) :
    a.Upholds I := by
  rintro s ⟨hs, hold⟩
  rw [Session.Within, hdb, hsaved]
  exact ⟨hs, hold⟩

theorem pure (x : α) : (Pure.pure x : Action α).Upholds I :=
  reading (fun _ => rfl) fun _ => rfl

theorem throw (e : Fault) : (MonadExcept.throw e : Action α).Upholds I :=
  reading (fun _ => rfl) fun _ => rfl

theorem get : (MonadState.get : Action Session).Upholds I :=
  reading (fun _ => rfl) fun _ => rfl

theorem ofExcept (e : Except Fault α) : (Action.ofExcept e).Upholds I :=
  reading (fun s => by rw [exec_ofExcept]) fun s => by rw [exec_ofExcept]

theorem read (f : Database → Except Fault α) : (Action.read f).Upholds I :=
  reading (fun s => by rw [exec_read]) fun s => by rw [exec_read]

theorem bind {k : α → Action β} (ha : a.Upholds I) (hk : ∀ x, (k x).Upholds I) :
    (a >>= k).Upholds I := by
  intro s hs
  have hstep := ha s hs
  rw [exec_bind]
  rcases hexec : a.exec s with ⟨f | x, t⟩ <;> rw [hexec] at hstep
  · exact hstep
  · exact hk x t hstep

theorem ofExcept_bind {e : Except Fault α} {k : α → Action β}
    (hk : ∀ x, e = .ok x → (k x).Upholds I) : (Action.ofExcept e >>= k).Upholds I := by
  cases e with
  | error f => exact throw f
  | ok x => exact hk x rfl

/-- A guard in front of further actions. -/
theorem guard {p : Prop} [Decidable p] {e : Fault} {k : Unit → Action α} (hk : (k ()).Upholds I) :
    (if p then (MonadExcept.throw e : Action Unit) >>= k else k ()).Upholds I := by
  split
  · exact (throw e).bind fun _ => hk
  · exact hk

theorem tryCatch {k : Fault → Action α} (ha : a.Upholds I) (hk : ∀ f, (k f).Upholds I) :
    (MonadExcept.tryCatch a k : Action α).Upholds I := by
  intro s hs
  have hstep := ha s hs
  have hexec : (MonadExcept.tryCatch a k : Action α).exec s = _ := exec_tryCatch a k s
  rw [hexec]
  rcases hexec : a.exec s with ⟨f | x, t⟩ <;> rw [hexec] at hstep
  · exact hk f t hstep
  · exact hstep

theorem map (ha : a.Upholds I) (f : α → β) : (f <$> a).Upholds I := by
  rw [map_eq_pure_bind]
  exact ha.bind fun x => pure (f x)

theorem write {f : String → Statement} (hf : ∀ now, (f now).Upholds I) :
    (Action.write f).Upholds I := by
  rintro s ⟨hs, hold⟩
  rw [exec_write]
  cases hc : f s.now s.db with
  | error e => exact ⟨hs, hold⟩
  | ok c => exact ⟨hf s.now s.db c hs hc, hold⟩

/-- A transaction keeps what its action keeps: it ends with the tables of the action or with those
at its start. -/
theorem transactionIf (keep : α → Bool) (ha : a.Upholds I) : (transactionIf keep a).Upholds I := by
  rintro s ⟨hs, hold⟩
  cases hsaved : s.saved with
  | some db =>
      rw [exec_transactionIf_joined keep a (by rw [hsaved]; rfl)]
      exact ha s ⟨hs, hold⟩
  | none =>
      rw [exec_transactionIf keep a hsaved]
      have hbegin : s.begin.Within I := ⟨hs, fun db hdb => by cases hdb; exact hs⟩
      have hstep := ha _ hbegin
      rcases hexec : a.exec s.begin with ⟨f | x, t⟩ <;> rw [hexec] at hstep
      · exact hstep.rollback
      · dsimp only
        split
        · exact hstep.commit
        · exact hstep.rollback

theorem transaction (ha : a.Upholds I) : (transaction a).Upholds I :=
  ha.transactionIf _

end Action.Upholds

/-! ## What sessions do -/

open Database (IsFiled)

namespace Registry

variable {I : Database → Prop}

theorem upholds_categories : categories.Upholds I := by
  refine .reading db_exec_categories fun s => ?_
  obtain ⟨cache, hexec⟩ := snd_exec_categories s
  rw [hexec]

theorem upholds_resolve (id : String) : (resolve id).Upholds I := by
  refine upholds_categories.bind fun cs => ?_
  split
  · exact .pure _
  · exact .throw _

theorem upholds_stats : stats.Upholds I :=
  upholds_categories.bind fun _ => .bind .get fun _ => .pure _

theorem upholds_invalidate : invalidate.Upholds I :=
  .reading (fun _ => rfl) fun _ => rfl

theorem upholds_addFields (id : String) (fields : List FieldDef) :
    (addFields id fields).Upholds IsFiled := by
  induction fields with
  | nil => exact .pure ()
  | cons f rest ih =>
      exact ((Action.Upholds.write fun _ => Database.upholds_addField id f).map _).bind fun _ => ih

theorem upholds_define (id : Value) (fields : List (Value × FieldType)) :
    (define id fields).Upholds IsFiled := by
  refine .ofExcept_bind fun c hc => upholds_categories.bind fun cs => ?_
  have hid := (Category.define_canonical hc).id_lower
  have hadd := Action.Upholds.write fun _ => Database.upholds_addCategory hid
  refine .guard (.bind (.transaction (.bind (hadd.map _) fun _ => ?_)) fun _ => ?_)
  · exact upholds_addFields c.id c.fields
  · exact upholds_invalidate.bind fun _ => .pure c

theorem upholds_addField (id : String) (name : Value) (type : FieldType) :
    (addField id name type).Upholds IsFiled := by
  refine (upholds_resolve id).bind fun c => .bind (.ofExcept _) fun canonical => ?_
  have hadd := Action.Upholds.write fun _ => Database.upholds_addField c.id ⟨canonical, type⟩
  refine .guard (.bind (hadd.transaction.map _) fun _ => ?_)
  exact upholds_invalidate.bind fun _ => .pure _

theorem upholds_remove (id : String) : (remove id).Upholds IsFiled := by
  refine (upholds_resolve id).bind fun c => ?_
  refine .bind (.map (.transaction (.bind .get fun s => .guard ?_)) _) fun _ => upholds_invalidate
  exact .write fun _ => Database.upholds_removeCategory c.id

end Registry

namespace Store

variable {I : Database → Prop}

theorem upholds_category (key id : String) : (find.category key id).Upholds I :=
  .tryCatch (Registry.upholds_resolve id) fun _ => .throw _

theorem upholds_find (key : String) : (find key).Upholds I := by
  refine .bind (.read _) fun r? => ?_
  cases r? with
  | none => exact .throw _
  | some r => exact (upholds_category key r.categoryId).bind fun c => .ofExcept _

theorem upholds_list (id : String) : (list id).Upholds I :=
  (Registry.upholds_resolve id).bind fun _ => .bind (.read _) fun _ => .ofExcept _

theorem upholds_nextKeys (count : Nat) (start : Int) : (nextKeys count start).Upholds I := by
  unfold nextKeys
  split
  · exact .pure []
  · exact .bind (.map (.ofExcept _) _) fun _ => .bind .get fun _ => .pure _

theorem upholds_create (id : String) (key location quantity : Value) (fields : Mapping Value) :
    (create id key location quantity fields).Upholds IsFiled := by
  refine (Registry.upholds_resolve id).bind fun c => ?_
  refine .bind (.ofExcept _) fun key => .bind (.ofExcept _) fun place => ?_
  refine .bind (.ofExcept _) fun n => .bind (.ofExcept _) fun values => ?_
  refine .bind (.map (.transaction (.bind .get fun s => .guard ?_)) _) fun _ => upholds_find key
  exact .write fun now => Database.upholds_addEntry now key c.id place _ _

theorem upholds_modify (key : String) (updates : Mapping Value) :
    (modify key updates).Upholds IsFiled := by
  refine (upholds_find key).bind fun e => (Registry.upholds_resolve e.category).bind fun c => ?_
  refine .bind (.ofExcept _) fun _ => .bind (.ofExcept _) fun place => ?_
  refine .bind (.ofExcept _) fun quantity => .bind (.ofExcept _) fun values => ?_
  refine .bind (.map (.transaction (.write fun now => ?_)) _) fun _ => upholds_find key
  exact Database.upholds_updateEntry now e.key place _ _

theorem upholds_adjust (key : String) (delta : Value) :
    (adjust key delta).Upholds IsFiled := by
  refine .bind (.ofExcept _) fun n => .bind (.transaction (.bind (.read _) fun r? => ?_))
    fun _ => upholds_find key
  cases r? with
  | none => exact .throw _
  | some r =>
      refine .bind (.ofExcept _) fun isLarge => .guard (.bind (.write fun now => ?_) fun rows => ?_)
      · exact Database.upholds_adjustQuantity now key n
      · split
        · exact .throw _
        · exact .pure ()

theorem upholds_give (key : String) (amount : Value) : (give key amount).Upholds IsFiled :=
  .bind (.ofExcept _) fun n => upholds_adjust key (.int n)

theorem upholds_take (key : String) (amount : Value) : (take key amount).Upholds IsFiled :=
  .bind (.ofExcept _) fun n => upholds_adjust key (.int (-n))

theorem upholds_delete (key : String) : (delete key).Upholds IsFiled := by
  refine .transaction (.bind (.write fun _ => Database.upholds_deleteEntry key) fun rows => ?_)
  split
  · exact .throw _
  · exact .pure ()

end Store

theorem Operation.upholds (o : Operation) : o.act.Upholds IsFiled := by
  cases o with
  | define id fields => exact (Registry.upholds_define id fields).map _
  | addField id name type => exact (Registry.upholds_addField id name type).map _
  | remove id => exact (Registry.upholds_remove id).map _
  | resolve id => exact (Registry.upholds_resolve id).map _
  | categories => exact Registry.upholds_categories.map _
  | stats => exact Registry.upholds_stats.map _
  | invalidate => exact Registry.upholds_invalidate.map _
  | create id key location quantity fields =>
      exact (Store.upholds_create id key location quantity fields).map _
  | find key => exact (Store.upholds_find key).map _
  | list id => exact (Store.upholds_list id).map _
  | modify key updates => exact (Store.upholds_modify key updates).map _
  | adjust key delta => exact (Store.upholds_adjust key delta).map _
  | give key amount => exact (Store.upholds_give key amount).map _
  | take key amount => exact (Store.upholds_take key amount).map _
  | delete key => exact (Store.upholds_delete key).map _
  | nextKeys count start => exact (Store.upholds_nextKeys count start).map _

end Inventory

import Inventory.Database.Direct
import Inventory.Proofs.Run
import Inventory.Proofs.Upholding

/-!
# Finding, listing and counting

Three ways of reading go through the rows: an entry is found by its key, the entries of a category
are listed, and the rows of each category are counted. They agree on all tables that sessions can
leave, whatever their caches held and whatever was written into the rows by hand.
-/

namespace Inventory

open Database (IsFiled Statement)

/-! ## Tables that were written -/

/-- A column of the entries. -/
inductive Column where
  | key
  | category
  | location
  | quantity
  | fields
  | created
  | modified

/-- The statement that puts a value into a column of a row, as far as the database lets it. -/
def Column.put : Column → (key : String) → Value → Statement
  | key => Database.renameEntry
  | category => Database.moveEntry
  | location => Database.putLocation
  | quantity => Database.putQuantity
  | fields => Database.putFields
  | created => Database.putCreated
  | modified => Database.putModified

/-- What is done to an inventory: an operation of the registry or the store, a row that is added
past the store, or a value that is put into a row by hand. -/
inductive Deed where
  | op (o : Operation)
  | add (key categoryId : String) (location quantity : Value) (fields : Mapping Value)
  | put (column : Column) (key : String) (v : Value)

def Deed.act : Deed → Action Unit
  | op o => discard o.act
  | add key categoryId location quantity fields =>
    Direct.addEntry key categoryId location quantity fields
  | put column key v => discard (Direct.change (column.put key v))

/-- The tables of an inventory at some time: those of a new one, and those that a session leaves
after a deed. Of the session it is only asked that its tables before the deed, and those that it
would restore, are of this kind; its cache may be out of date, also through a rollback. -/
inductive Database.Written : Database → Prop where
  | initial (stamp : String) : Written (Workspace.initial stamp).db
  | deed (d : Deed) {s : Session} (hdb : Written s.db)
      (hsaved : ∀ db, s.saved = some db → Written db) : Written (d.act.exec s).2.db

theorem Column.upholds_put (column : Column) (key : String) (v : Value) :
    (column.put key v).Upholds IsFiled := by
  cases column with
  | key => exact Database.upholds_renameEntry key v
  | category => exact Database.upholds_moveEntry key v
  | location | quantity | fields | created | modified =>
      exact Database.upholds_putValue _ key v (fun _ _ => rfl) fun _ _ => rfl

theorem Deed.upholds (d : Deed) : d.act.Upholds IsFiled := by
  cases d with
  | op o => exact o.upholds.map _
  | add key categoryId location quantity fields =>
      refine .transaction (.map (.write fun now => ?_) _)
      intro db c h hc
      obtain ⟨-, -, hc⟩ := bind_eq_ok_iff.1 hc
      obtain ⟨place, -, hc⟩ := bind_eq_ok_iff.1 hc
      exact Database.upholds_addEntry now key categoryId place quantity fields db c h hc
  | put column key v => exact .map (.transaction (.write fun _ => column.upholds_put key v)) _

theorem Database.Written.isFiled {db : Database} (h : db.Written) : db.IsFiled := by
  induction h with
  | initial stamp => exact ⟨[], rfl, nofun, List.nodup_nil, List.nodup_nil, nofun⟩
  | deed d _ _ ih ihsaved => exact (d.upholds _ ⟨ih, ihsaved⟩).1

/-! ## The ways of reading -/

namespace Filed

variable {cs : List Category} {s : Session}

theorem result_resolve (h : Filed cs s.db) (hs : s.Ready) {c : Category} (hc : c ∈ cs)
    {id : String} (hid : Text.lower id = c.id) : s.result (Registry.resolve id) = .ok c := by
  obtain ⟨cache, hresolve, -⟩ := Registry.does_resolve id s hs
  rw [Session.result, hresolve]
  exact h.resolve_of_mem hc hid

/-- A row is found as what it is loaded as under its category. -/
theorem find_row (h : Filed cs s.db) (hs : s.Ready) {c : Category} (hc : c ∈ cs) {row : EntryRow}
    (hrow : row ∈ s.db.entriesOf c.id) {e : Entry} :
    s.result (Store.find row.key) = .ok e ↔ ∃ r, row.record = .ok r ∧ r.load c = .ok e := by
  obtain ⟨hrow, hid⟩ := List.mem_filter.1 hrow
  have hentry := h.entry?_of_mem hrow
  have howner {r : Record} (hr : row.record = .ok r) : s.owner row.key r.categoryId = .ok c := by
    obtain ⟨m, -, rfl⟩ := EntryRow.record_eq_ok_iff.1 hr
    rw [Session.owner_eq_ok_iff, eq_of_beq hid]
    exact h.result_resolve hs hc (h.lower c hc)
  constructor
  · intro hfind
    obtain ⟨row', r, c', hrow', hr, hc', hload⟩ := Store.result_find_eq_ok_iff.1 hfind
    cases hentry.symm.trans hrow'
    cases (howner hr).symm.trans hc'
    exact ⟨r, hr, hload⟩
  · rintro ⟨r, hr, hload⟩
    rw [Store.result_find_of_owner hentry hr (howner hr)]
    exact hload

/-- A category is listed as what its keys are found as, one after the other. -/
theorem list_eq_ok_iff (h : Filed cs s.db) (hs : s.Ready) {c : Category} (hc : c ∈ cs) {id : String}
    (hid : Text.lower id = c.id) {es : List Entry} :
    s.result (Store.list id) = .ok es ↔
      ((s.db.entriesOf c.id).map (·.key)).mapM (fun key => s.result (Store.find key)) = .ok es := by
  rw [Store.result_list, h.result_resolve hs hc hid, ok_bind, Record.loadRows_eq_ok_iff,
    mapM_eq_ok_iff, List.forall₂_map_left_iff, List.forall₂_iff_zip, List.forall₂_iff_zip]
  refine and_congr_right fun _ => ?_
  constructor
  · intro hall row e hmem
    exact (h.find_row hs hc (List.of_mem_zip hmem).1).2 (hall hmem)
  · intro hall row e hmem
    exact (h.find_row hs hc (List.of_mem_zip hmem).1).1 (hall hmem)

/-- A key is filed under the category of its row and under no other. -/
theorem existsUnique_category (h : Filed cs s.db) {key : String}
    (hkey : key ∈ s.db.entries.map (·.key)) :
    ∃! c, c ∈ cs ∧ key ∈ (s.db.entriesOf c.id).map (·.key) := by
  obtain ⟨row, hrow, rfl⟩ := List.mem_map.1 hkey
  obtain ⟨c, hc, hid⟩ := h.owned row hrow
  refine ⟨c, ⟨hc, ?_⟩, ?_⟩
  · exact List.mem_map_of_mem (List.mem_filter.2 ⟨hrow, beq_iff_eq.2 hid⟩)
  · rintro d ⟨hd, hkey⟩
    obtain ⟨other, hother, hsame⟩ := List.mem_map.1 hkey
    obtain ⟨hother, hid'⟩ := List.mem_filter.1 hother
    obtain rfl := List.inj_on_of_nodup_map h.keys_nodup hother hrow hsame
    exact h.category_unique hd hc ((eq_of_beq hid').symm.trans hid)

end Filed

/-- On all tables that were written, an inventory is read in one way: each key is filed under
exactly one category; a category, by its id in any case, is listed exactly if all keys filed under
it are found, as what is found, in the order of insertion; and the counts, category by category in
the order of creation, are those of the keys. -/
theorem reading_ways_agree {s : Session} (hwritten : s.db.Written) (hs : s.Ready) :
    ∃ cs : List Category, s.result Registry.categories = .ok cs ∧
      cs.map (·.id) = s.db.categories.map (·.id) ∧
      (∀ key ∈ s.db.entries.map (·.key),
        ∃! c, c ∈ cs ∧ key ∈ (s.db.entriesOf c.id).map (·.key)) ∧
      (∀ c ∈ cs, ∀ id, Text.lower id = c.id →
        ((∃ es, s.result (Store.list id) = .ok es) ↔
          ∀ key ∈ (s.db.entriesOf c.id).map (·.key),
            ∃ e, s.result (Store.find key) = .ok e) ∧
        ∀ es, s.result (Store.list id) = .ok es →
          List.Forall₂ (fun key e => s.result (Store.find key) = .ok e)
            ((s.db.entriesOf c.id).map (·.key)) es ∧
          es.length = s.db.countEntries c.id) ∧
      s.result Registry.stats = .ok (cs.map fun c => (c, s.db.countEntries c.id)) := by
  obtain ⟨cs, h⟩ := hwritten.isFiled
  obtain ⟨cache, hcategories, -⟩ := Registry.does_categories s hs
  obtain ⟨cache', hstats, -⟩ := Registry.does_stats s hs
  refine ⟨cs, ?_, ?_, fun key hkey => h.existsUnique_category hkey, fun c hc id hid => ⟨?_, ?_⟩, ?_⟩
  · rw [Session.result, hcategories]
    exact h.categories_eq
  · rw [h.rows, List.map_map]
    rfl
  · rw [← exists_mapM_eq_ok_iff]
    exact exists_congr fun es => h.list_eq_ok_iff hs hc hid
  · intro es hes
    have hall := mapM_eq_ok_iff.1 ((h.list_eq_ok_iff hs hc hid).1 hes)
    refine ⟨hall, ?_⟩
    rw [← hall.length_eq, List.length_map, Database.countEntries]
  · rw [Session.result, hstats]
    show Tables.stats s.db = _
    rw [Tables.stats, h.categories_eq]
    rfl

/-- The tables after deeds of sessions that are new each time. -/
def Database.after (db : Database) (now : String) : List Deed → Database
  | [] => db
  | d :: rest => Database.after (d.act.exec (.fresh db now)).2.db now rest

theorem Database.Written.after (now : String) (deeds : List Deed) :
    ∀ {db : Database}, db.Written → (db.after now deeds).Written := by
  induction deeds with
  | nil => exact id
  | cons d rest ih =>
      intro db h
      refine ih (.deed d (s := .fresh db now) h ?_)
      rintro _ ⟨⟩

/-- Where the field data of a hammer are no mapping, the tools cannot be listed, but there are still
two of them. -/
theorem tools_counted :
    let db := (Workspace.initial "2024-01-01 00:00:00").db.after "2024-01-01 00:00:01"
      [.op (.define (.text "tools") [(.text "size", .text)]),
        .op (.create "tools" (.text "hammer") (.text "shed") (.int 1) []),
        .op (.create "tools" (.text "nail") (.text "box") (.int 9) []),
        .put .fields "hammer" (.text "[]")]
    let s := Session.fresh db "2024-01-01 00:00:02"
    s.db.Written ∧ s.Ready ∧ (¬∃ es, s.result (Store.list "Tools") = .ok es) ∧
      ∃ c, s.result Registry.stats = .ok [(c, 2)] := by
  intro db s
  have hwritten : s.db.Written := Database.Written.after _ _ (.initial _)
  have hready : s.Ready := .ofNoCache (fun _ => rfl) rfl
  have hids : s.db.categories.map (·.id) = ["tools"] := by decide +kernel
  have hkeys : (s.db.entriesOf "tools").map (·.key) = ["hammer", "nail"] := by decide +kernel
  have hdamaged : (s.result (Store.find "hammer")).isOk = false := by decide +kernel
  obtain ⟨cs, -, hcs, -, hlist, hstats⟩ := reading_ways_agree hwritten hready
  -- what follows does not depend on how the tables came about
  generalize s = s at hids hkeys hdamaged hcs hlist hstats hwritten hready ⊢
  rw [hids] at hcs
  obtain ⟨c, rfl, hc⟩ := List.map_eq_singleton_iff.1 hcs
  obtain ⟨hlisted, -⟩ := hlist c List.mem_cons_self "Tools" (by rw [hc]; decide)
  refine ⟨hwritten, hready, fun hes => ?_, c, ?_⟩
  · rw [hc, hkeys] at hlisted
    obtain ⟨e, he⟩ := hlisted.1 hes "hammer" List.mem_cons_self
    rw [he] at hdamaged
    cases hdamaged
  · have hcount : s.db.countEntries c.id = 2 := by
      rw [Database.countEntries, hc, ← List.length_map (·.key), hkeys]
      rfl
    rw [hstats, List.map_singleton, hcount]

end Inventory

import Inventory.Proofs.Checks
import Inventory.Proofs.Composing
import Inventory.Proofs.ImportLines

/-!
# Batches of rows

A batch is imported row by row, each row in a change of its own. What a row asks for depends on the
categories, which an import leaves alone, and besides on one thing only: whether its key is taken. So
the rows of a batch do not get in each other's way unless they have the same key.
-/

namespace Inventory

open Database (Change)

/-! ## What a creation asks for -/

section Drafts

variable {cs : List Category} {db other : Database} {id now : String}
  {key location quantity : Value} {fields : Mapping Value}

namespace Tables

/-- The row that a creation would add, whatever keys are taken. -/
def draft (id : String) (key location quantity : Value) (fields : Mapping Value) (now : String)
    (db : Database) : Except Fault EntryRow := do
  let c ← resolve id db
  let key ← Store.checkKey key
  let location ← Store.checkLocation location
  let quantity ← Store.checkQuantity quantity
  let values ← Store.coerceUpdates c [] fields
  return c.newRow key location quantity values now

/-- The kinds of the faults that keep a row from being added before its key is looked for. -/
def draftKinds : List FaultKind :=
  [.categoryNotFound, .validation, .typeMismatch, .badValue, .beyondRange, .negativeQuantity,
    .unknownField]

theorem draft_congr (h : other.categories = db.categories) :
    draft id key location quantity fields now other = draft id key location quantity fields now db := by
  rw [draft, draft, resolve, resolve, categories, categories, h]

theorem hasKey_append (db : Database) (rows : List EntryRow) (key : String) :
    ({ db with entries := db.entries ++ rows } : Database).hasKey key =
      (db.hasKey key || rows.any (·.key == key)) :=
  List.any_append

end Tables

namespace Sound

theorem category?_isSome (h : Sound cs db) {c : Category} (hc : c ∈ cs) :
    (db.category? c.id).isSome := by
  rw [Database.category?, h.rows, List.find?_isSome]
  exact ⟨_, List.mem_map_of_mem hc, by simp [Tables.rowOf]⟩

/-- Nothing but a taken key is in the way of a row with coerced values. -/
theorem insertion_eq (h : Sound cs db) {c : Category} (hc : c ∈ cs) {values : Mapping Value} {n : Int}
    (hn : Store.checkQuantity quantity = .ok n) (hvalues : Store.coerceUpdates c [] fields = .ok values)
    (key place now : String) :
    Tables.insertion c key place n values now db =
      if db.hasKey key then .error (.duplicateKey key)
      else .ok (key, ⟨1, true, { db with
        entries := db.entries ++ [c.newRow key place n values now] }⟩) := by
  rw [Tables.insertion]
  split
  · rfl
  · next hfresh =>
      obtain ⟨-, hlow, hhigh⟩ := Store.checkQuantity_ok hn
      have hcategory := h.category?_isSome hc
      rw [map_eq_ok_iff]
      refine ⟨_, ?_, rfl⟩
      simp only [Database.addEntry, bind_eq_ok_iff, guard_eq_ok_iff]
      refine ⟨(), ((h.canonical c hc).stores_unset hvalues).checkFields, .int n,
        Tables.quantityCell_of_range 4 hlow hhigh, hfresh, ?_, rfl⟩
      rw [Option.isNone_iff_eq_none, ← Option.not_isSome_iff_eq_none, not_not]
      exact hcategory

/-- A creation adds what it asks for unless the key is taken. -/
theorem creation_eq (h : Sound cs db) :
    Tables.creation id key location quantity fields now db =
      Tables.draft id key location quantity fields now db >>= fun row =>
        if db.hasKey row.key then .error (.duplicateKey row.key)
        else .ok (row.key, ⟨1, true, { db with entries := db.entries ++ [row] }⟩) := by
  -- the key is looked for only when all else is in order
  simp only [Tables.creation, Tables.draft, bind_assoc, pure_bind]
  refine bind_congr_ok fun c hc => bind_congr_ok fun key _ => bind_congr_ok fun place _ => ?_
  refine bind_congr_ok fun n hn => bind_congr_ok fun values hvalues => ?_
  exact h.insertion_eq (h.mem_of_resolve hc).1 hn hvalues key place now

/-! ### Faults -/

theorem finds_resolve (h : Sound cs db) (id : String) :
    Finds [.categoryNotFound] (Tables.resolve id db) := by
  rw [h.resolve_eq]
  split
  · exact .ok _
  · exact .error rfl rfl

/-- What a creation finds wrong, whatever keys are taken. -/
theorem finds_draft (h : Sound cs db) :
    Finds Tables.draftKinds (Tables.draft id key location quantity fields now db) := by
  refine ((h.finds_resolve id).mono (by decide)).bind fun c => ?_
  refine ((Store.finds_checkKey key).mono (by decide)).bind fun _ => ?_
  refine ((Store.finds_checkLocation location).mono (by decide)).bind fun _ => ?_
  refine ((Store.finds_checkQuantity quantity).mono (by decide)).bind fun _ => ?_
  exact ((Store.finds_coerceUpdates c fields []).mono (by decide)).bind fun _ => .ok _

end Sound

end Drafts

/-! ## Sessions -/

namespace Session.Sees

variable {s : Session} {v : View} {id : String} {key location quantity : Value}
  {fields : Mapping Value} {r : EntryRow} {f : Fault}

/-- What is asked for is created if its key is not taken. -/
theorem drafted (h : s.Sees v)
    (hr : Tables.draft id key location quantity fields s.now s.db = .ok r)
    (hfresh : s.db.hasKey r.key = false) :
    ∃ t, (Store.create id key location quantity fields).exec s = (.ok (entryOf v.categories r), t) ∧
      t.Sees { v with entries := v.entries ++ [entryOf v.categories r] } ∧ t.now = s.now ∧
      t.db = { s.db with entries := s.db.entries ++ [r] } := by
  have hop : Tables.creation id key location quantity fields s.now s.db =
      .ok (r.key, ⟨1, true, { s.db with entries := s.db.entries ++ [r] }⟩) := by
    rw [h.shows.sound.creation_eq, hr, ok_bind, hfresh]
    rfl
  obtain ⟨cache, hexec, hready⟩ := Store.does_create id key location quantity fields s h.ready
  rw [Effect.change_of_ok hop] at hexec hready
  obtain ⟨e, v', hshows, hfind, hbecomes⟩ := h.shows.creation hop
  rw [hshows.find_eq, hfind] at hexec
  cases hbecomes with
  | create hc hnew he =>
      have hentries := hshows.entries
      rw [List.map_append, ← h.shows.entries] at hentries
      obtain rfl : e = entryOf v.categories r :=
        (List.cons.inj (List.append_cancel_left hentries)).1
      exact ⟨_, hexec, ⟨hready, by simpa using hshows⟩, by simp, by simp⟩
  | adjust hd => cases hd
  | read ho => exact ho.elim

/-- What the tables refuse is refused, and nothing is changed. -/
theorem exec_refused (h : s.Sees v)
    (hop : Tables.creation id key location quantity fields s.now s.db = .error f) :
    ∃ t, (Store.create id key location quantity fields).exec s = (.error f, t) ∧ t.db = s.db := by
  obtain ⟨cache, hexec, -⟩ := Store.does_create id key location quantity fields s h.ready
  rw [Effect.change, hop] at hexec
  exact ⟨_, hexec, by simp⟩

/-- What comes of a creation: what it asks for, unless its key is taken. -/
theorem result_create (h : s.Sees v) :
    ((Store.create id key location quantity fields).exec s).1 =
      Tables.draft id key location quantity fields s.now s.db >>= fun r =>
        if s.db.hasKey r.key then .error (.duplicateKey r.key)
        else .ok (entryOf v.categories r) := by
  have hcreation : Tables.creation id key location quantity fields s.now s.db = _ :=
    h.shows.sound.creation_eq
  cases hr : Tables.draft id key location quantity fields s.now s.db with
  | error f =>
      rw [hr] at hcreation
      obtain ⟨t, hexec, -⟩ := h.exec_refused hcreation
      rw [hexec]
      rfl
  | ok r =>
      rw [hr, ok_bind] at hcreation
      rw [ok_bind]
      split
      · next htaken =>
          rw [if_pos htaken] at hcreation
          obtain ⟨t, hexec, -⟩ := h.exec_refused hcreation
          rw [hexec]
      · next hfresh =>
          obtain ⟨t, hexec, -⟩ := h.drafted hr (by simpa using hfresh)
          rw [hexec]

/-- The fault of a creation does not say where it arose. -/
theorem finds_create (h : s.Sees v) :
    Finds (.duplicateKey :: Tables.draftKinds)
      ((Store.create id key location quantity fields).exec s).1 := by
  rw [h.result_create]
  refine (h.shows.sound.finds_draft.mono fun k hk => List.mem_cons_of_mem _ hk).bind fun r => ?_
  split
  · exact .error rfl rfl
  · exact .ok _

/-- What is not created changes nothing. -/
theorem refused (h : s.Sees v)
    (hf : ((Store.create id key location quantity fields).exec s).1 = .error f) :
    ((Store.create id key location quantity fields).exec s).2.db = s.db := by
  have hop : Tables.creation id key location quantity fields s.now s.db = .error f := by
    rw [h.result_create, bind_eq_error_iff] at hf
    rw [h.shows.sound.creation_eq, bind_eq_error_iff]
    refine hf.imp_right fun ⟨r, hr, hf⟩ => ⟨r, hr, ?_⟩
    split at hf
    · next htaken => exact (if_pos htaken).trans (congrArg Except.error (Except.error.inj hf))
    · cases hf
  obtain ⟨t, hexec, hdb⟩ := h.exec_refused hop
  rwa [hexec]

end Session.Sees

/-! ## Rows of imports -/

namespace ImportRow

variable {s : Session} {v : View} {category now : String} {db : Database} {row : ImportRow}
  {r : EntryRow}

/-- What a row of an import would add to the tables. -/
def draft (category : String) (row : ImportRow) (now : String) (db : Database) :
    Except Fault EntryRow :=
  Tables.draft category (.text row.key) (.text row.location) (.int row.quantity)
    (row.fields.map fun (name, value) => (name, .text value)) now db

theorem key_of_draft (h : row.draft category now db = .ok r) : r.key = row.key := by
  simp only [draft, Tables.draft, bind_eq_ok_iff] at h
  obtain ⟨c, -, key, hkey, place, -, n, -, values, -, hrow⟩ := h
  cases hrow
  cases Store.checkKey_ok hkey
  rfl

theorem category_of_draft (h : row.draft category now db = .ok r) :
    ∃ c, Tables.resolve category db = .ok c ∧ r.categoryId = c.id := by
  simp only [draft, Tables.draft, bind_eq_ok_iff] at h
  obtain ⟨c, hc, key, -, place, -, n, -, values, -, hrow⟩ := h
  cases hrow
  exact ⟨c, hc, rfl⟩

theorem exec_creation (h : s.Sees v) (hr : row.draft category s.now s.db = .ok r)
    (hfresh : s.db.hasKey row.key = false) :
    ∃ t, (row.creation category).exec s = (.ok (entryOf v.categories r), t) ∧
      t.Sees { v with entries := v.entries ++ [entryOf v.categories r] } ∧ t.now = s.now ∧
      t.db = { s.db with entries := s.db.entries ++ [r] } :=
  h.drafted hr (key_of_draft hr ▸ hfresh)

/-- A row is created if and only if what it asks for can be had and its key is not taken. -/
theorem creation_ok_iff (h : s.Sees v) :
    (∃ e, ((row.creation category).exec s).1 = .ok e) ↔
      (∃ r, row.draft category s.now s.db = .ok r) ∧ s.db.hasKey row.key = false := by
  rw [creation, h.result_create, ← draft]
  simp only [bind_eq_ok_iff, refuse_eq_ok_iff, Bool.not_eq_true]
  constructor
  · rintro ⟨e, r, hr, hfresh, -⟩
    exact ⟨⟨r, hr⟩, key_of_draft hr ▸ hfresh⟩
  · rintro ⟨⟨r, hr⟩, hfresh⟩
    exact ⟨_, r, hr, (key_of_draft hr).symm ▸ hfresh, rfl⟩

end ImportRow

namespace ImportBatch

variable {s t : Session} {v : View} {category : String} {row : ImportRow} {r : EntryRow}
  {rows rest : List ImportRow} {drafts : List EntryRow} {created : List Entry} {f : Fault}

/-! ## Rows after each other -/

/-- What the rows ask for can be had, and their keys are neither taken nor repeated. -/
structure Drafts (s : Session) (category : String) (rows : List ImportRow)
    (drafts : List EntryRow) : Prop where
  drafted : List.Forall₂ (fun row r => row.draft category s.now s.db = .ok r) rows drafts
  fresh : ∀ row ∈ rows, s.db.hasKey row.key = false
  nodup : (rows.map (·.key)).Nodup

theorem Drafts.keys (h : Drafts s category rows drafts) :
    drafts.map (·.key) = rows.map (·.key) := by
  rw [← List.forall₂_eq_eq_eq, List.forall₂_map_left_iff, List.forall₂_map_right_iff]
  exact (h.drafted.imp fun _ _ => ImportRow.key_of_draft).flip

/-- A row that was added only takes its key. -/
theorem drafts_cons_iff (hr : row.draft category s.now s.db = .ok r)
    (hfresh : s.db.hasKey row.key = false) (hnow : t.now = s.now)
    (hdb : t.db = { s.db with entries := s.db.entries ++ [r] }) :
    Drafts s category (row :: rest) (r :: drafts) ↔ Drafts t category rest drafts := by
  -- the categories are the same, so each of the others asks for the same
  have hdraft (other : ImportRow) :
      other.draft category t.now t.db = other.draft category s.now s.db := by
    rw [hnow, hdb]
    exact Tables.draft_congr rfl
  -- but now the key of the row is taken as well
  have htaken (other : ImportRow) : t.db.hasKey other.key = false ↔
      s.db.hasKey other.key = false ∧ row.key ≠ other.key := by
    rw [hdb, Tables.hasKey_append, ← ImportRow.key_of_draft hr]
    simp
  constructor
  · rintro ⟨hdrafted, hfree, hnodup⟩
    obtain ⟨hkey, hnodup⟩ := List.nodup_cons.1 hnodup
    refine ⟨?_, fun other hother => (htaken other).2 ⟨?_, ?_⟩, hnodup⟩
    · simpa only [hdraft] using (List.forall₂_cons.1 hdrafted).2
    · exact hfree other (List.mem_cons_of_mem _ hother)
    · exact fun heq => hkey (List.mem_map.2 ⟨other, hother, heq.symm⟩)
  · rintro ⟨hdrafted, hfree, hnodup⟩
    simp only [hdraft] at hdrafted
    refine ⟨.cons hr hdrafted, List.forall_mem_cons.2 ⟨hfresh, fun other hother => ?_⟩,
      List.nodup_cons.2 ⟨fun hkey => ?_, hnodup⟩⟩
    · exact ((htaken other).1 (hfree other hother)).1
    · obtain ⟨other, hother, heq⟩ := List.mem_map.1 hkey
      exact ((htaken other).1 (hfree other hother)).2 heq.symm

/-- Rows that can be had are created, and stand behind all others. -/
theorem exec_createRows (hdrafts : Drafts s category rows drafts) (h : s.Sees v) :
    ∃ t, (createRows category rows).exec s = (.ok (drafts.map (entryOf v.categories)), t) ∧
      t.Sees { v with entries := v.entries ++ drafts.map (entryOf v.categories) } ∧
      t.db = { s.db with entries := s.db.entries ++ drafts } := by
  induction rows generalizing s v drafts with
  | nil =>
      cases hdrafts.drafted
      refine ⟨s, rfl, ?_, ?_⟩
      · simpa using h
      · simp
  | cons row rest ih =>
      obtain ⟨r, others, hr, -, rfl⟩ := List.forall₂_cons_left_iff.1 hdrafts.drafted
      have hfresh := hdrafts.fresh row List.mem_cons_self
      obtain ⟨t, hexec, ht, hnow, hdb⟩ := ImportRow.exec_creation h hr hfresh
      obtain ⟨u, hrest, hu, hudb⟩ := ih ((drafts_cons_iff hr hfresh hnow hdb).1 hdrafts) ht
      refine ⟨u, ?_, ?_, ?_⟩
      · rw [exec_createRows_cons, hexec]
        dsimp only
        rw [hrest]
        rfl
      · simpa using hu
      · rw [hudb, hdb]
        simp

/-- Rows that are created could be had. -/
theorem exists_drafts (h : s.Sees v) (hop : ((createRows category rows).exec s).1 = .ok created) :
    ∃ drafts, Drafts s category rows drafts := by
  induction rows generalizing s v created with
  | nil => exact ⟨[], .nil, nofun, List.nodup_nil⟩
  | cons row rest ih =>
      rw [exec_createRows_cons] at hop
      rcases hrow : (row.creation category).exec s with ⟨f | e, u⟩
      · rw [hrow] at hop
        cases hop
      · obtain ⟨⟨r, hr⟩, hfresh⟩ := (ImportRow.creation_ok_iff h).1 ⟨e, congrArg Prod.fst hrow⟩
        obtain ⟨t, hexec, ht, hnow, hdb⟩ := ImportRow.exec_creation h hr hfresh
        rw [hexec] at hop
        obtain ⟨others, hrest, -⟩ := map_eq_ok_iff.1 hop
        obtain ⟨drafts, hdrafts⟩ := ih ht hrest
        exact ⟨r :: drafts, (drafts_cons_iff hr hfresh hnow hdb).2 hdrafts⟩

/-- The rows of a batch are created if and only if each alone would be and no key is repeated. -/
theorem createRows_ok_iff (h : s.Sees v) :
    (∃ created, ((createRows category rows).exec s).1 = .ok created) ↔
      (∀ row ∈ rows, ∃ e, ((row.creation category).exec s).1 = .ok e) ∧
        (rows.map (·.key)).Nodup := by
  constructor
  · rintro ⟨created, hop⟩
    obtain ⟨drafts, hdrafted, hfresh, hnodup⟩ := exists_drafts h hop
    have hdraft := exists_mapM_eq_ok_iff.1 ⟨drafts, mapM_eq_ok_iff.2 hdrafted⟩
    exact ⟨fun row hrow => (ImportRow.creation_ok_iff h).2 ⟨hdraft row hrow, hfresh row hrow⟩, hnodup⟩
  · rintro ⟨halone, hnodup⟩
    obtain ⟨drafts, hdrafts⟩ := exists_mapM_eq_ok_iff.2 fun row hrow =>
      ((ImportRow.creation_ok_iff h).1 (halone row hrow)).1
    have hfresh row hrow := ((ImportRow.creation_ok_iff h).1 (halone row hrow)).2
    obtain ⟨t, hexec, -⟩ := exec_createRows ⟨mapM_eq_ok_iff.1 hdrafts, hfresh, hnodup⟩ h
    exact ⟨_, congrArg Prod.fst hexec⟩

/-- The entries of a batch are those that its rows give alone. -/
theorem created_alone (hdrafts : Drafts s category rows drafts) (h : s.Sees v) :
    List.Forall₂ (fun row e => ((row.creation category).exec s).1 = .ok e) rows
      (drafts.map (entryOf v.categories)) := by
  rw [List.forall₂_map_right_iff]
  have hboth := (List.forall₂_and_left _ _).2 ⟨hdrafts.fresh, hdrafts.drafted⟩
  refine hboth.imp fun row r ⟨hfresh, hr⟩ => ?_
  obtain ⟨t, hexec, -⟩ := ImportRow.exec_creation h hr hfresh
  exact congrArg Prod.fst hexec

/-- All rows of a batch are of its category. -/
theorem list_created (hdrafts : Drafts s category rows drafts) (h : s.Sees v) (hrows : rows ≠ []) :
    ∃ old, v.list category = .ok old ∧
      { v with entries := v.entries ++ drafts.map (entryOf v.categories) : View }.list category =
        .ok (old ++ drafts.map (entryOf v.categories)) := by
  obtain ⟨row, hrow⟩ := List.exists_mem_of_ne_nil rows hrows
  obtain ⟨r, hr⟩ := exists_mapM_eq_ok_iff.1 ⟨drafts, mapM_eq_ok_iff.2 hdrafts.drafted⟩ row hrow
  obtain ⟨c, hc, -⟩ := ImportRow.category_of_draft hr
  have hresolve : v.resolve category = .ok c := (h.shows.resolve_eq category).symm.trans hc
  have hfiled : List.Forall₂ (fun r _ => r.categoryId = c.id ∧ True) drafts rows := by
    refine (hdrafts.drafted.imp fun row r hr => ?_).flip
    obtain ⟨d, hd, hid⟩ := ImportRow.category_of_draft hr
    cases hc.symm.trans hd
    exact ⟨hid, trivial⟩
  have hall := ((List.forall₂_and_left _ _).1 hfiled).1
  have hkept : (drafts.map (entryOf v.categories)).filter (·.category == c.id) =
      drafts.map (entryOf v.categories) := by
    refine List.filter_eq_self.2 fun e he => ?_
    obtain ⟨r, hr, rfl⟩ := List.mem_map.1 he
    simpa using hall r hr
  refine ⟨v.entries.filter (·.category == c.id), by rw [View.list, hresolve]; rfl, ?_⟩
  have hlater : View.resolve { v with entries := v.entries ++ drafts.map (entryOf v.categories) }
      category = .ok c := hresolve
  rw [View.list, hlater]
  show Except.ok (List.filter _ (v.entries ++ _)) = _
  rw [List.filter_append, hkept]

/-- A batch is imported row by row. It is created as a whole if and only if each row alone would be
created and no key is repeated; its entries are then those of the single rows, they stand behind the
entries that were there, and the order of the rows does not matter. Otherwise the rows in front of
the first one that is refused are created and nothing else happens, and a fault of the inventory's
own kinds has one note, which names that row. -/
theorem rows_are_created_alone (m : Moment) (batch : ImportBatch) :
    ((∃ created, (batch.create.exec m.session).1 = .ok created) ↔
      (∀ row ∈ batch.rows, ∃ e, ((row.creation batch.category).exec m.session).1 = .ok e) ∧
        (batch.rows.map (·.key)).Nodup) ∧
    (∀ created, (batch.create.exec m.session).1 = .ok created →
      List.Forall₂ (fun row e => ((row.creation batch.category).exec m.session).1 = .ok e)
        batch.rows created ∧
      (batch.rows ≠ [] → ∃ old, ((Store.list batch.category).exec m.session).1 = .ok old ∧
        ((Store.list batch.category).exec (batch.create.exec m.session).2).1 =
          .ok (old ++ created)) ∧
      ∀ rows, rows.Perm batch.rows →
        ∃ others, ((createRows batch.category rows).exec m.session).1 = .ok others) ∧
    ∀ f, (batch.create.exec m.session).1 = .error f →
      ∃ before row after created t g added, batch.rows = before ++ row :: after ∧
        (createRows batch.category before).exec m.session = (.ok created, t) ∧
        List.Forall₂ (fun row e => ((row.creation batch.category).exec m.session).1 = .ok e)
          before created ∧
        (batch.create.exec m.session).2.db =
          { m.session.db with entries := m.session.db.entries ++ added } ∧
        t.db = (batch.create.exec m.session).2.db ∧ added.map (·.key) = before.map (·.key) ∧
        ((row.creation batch.category).exec t).1 = .error g ∧
        if g.kind.isOwn then
          f.kind = g.kind ∧ f.notes = [s!"while importing line {row.line} (key '{row.key}')"]
        else f = g ∧ f.notes = [] := by
  obtain ⟨v, h⟩ := m.sees
  refine ⟨createRows_ok_iff h, fun created hop => ?_, fun f hf => ?_⟩
  · obtain ⟨drafts, hdrafts⟩ := exists_drafts h hop
    obtain ⟨t, hexec, ht, -⟩ := exec_createRows hdrafts h
    cases (congrArg Prod.fst hexec).symm.trans hop
    refine ⟨created_alone hdrafts h, fun hrows => ?_, fun rows hperm => ?_⟩
    · obtain ⟨old, hold, hnew⟩ := list_created hdrafts h hrows
      rw [create, hexec, h.list, ht.list]
      exact ⟨old, hold, hnew⟩
    · obtain ⟨halone, hnodup⟩ := (createRows_ok_iff h).1 ⟨_, hop⟩
      exact (createRows_ok_iff h).2 ⟨fun row hrow => halone row (hperm.mem_iff.1 hrow),
        (hperm.map _).nodup_iff.2 hnodup⟩
  · obtain ⟨before, row, after, created, t, g, hrows, hbefore, hrow, rfl⟩ := createRows_error hf
    obtain ⟨drafts, hdrafts⟩ := exists_drafts h (congrArg Prod.fst hbefore)
    obtain ⟨u, hexec, hu, hdb⟩ := exec_createRows hdrafts h
    cases hbefore.symm.trans hexec
    -- the row that is refused has changed nothing
    have hsame : ((row.creation batch.category).exec t).2.db = t.db :=
      hu.refused (congrArg Prod.fst hrow)
    have hnotes := (hu.finds_create g (congrArg Prod.fst hrow)).2
    rw [hrow] at hsame
    refine ⟨before, row, after, _, t, g, drafts, hrows, hexec, created_alone hdrafts h,
      hsame.trans hdb, hsame.symm, hdrafts.keys, congrArg Prod.fst hrow, ?_⟩
    unfold noted
    split
    · exact ⟨rfl, by rw [Fault.notes, hnotes]; rfl⟩
    · exact ⟨rfl, hnotes⟩

/-- An inventory with one category of tools. -/
def toolsDefined : Moment where
  stamp := "2024-01-01 00:00:00"
  events := [⟨.first, "2024-01-01 00:00:01",
    .op (.define (.text "tools") [(.text "size", .text)]) .done⟩]
  turn := .second
  now := "2024-01-01 00:00:02"
  inScope := false
  script := .done

/-- A batch of tools in a shed, each with its key and its line. -/
def toolBatch (rows : List (String × Nat)) : ImportBatch :=
  ⟨"Tools", ["key", "location", "quantity"],
    rows.map fun (key, line) => ⟨line, key, "shed", 1, []⟩⟩

/-- A saw and a hammer are imported in both orders. Of two hammers the second one ends the import. -/
theorem saw_and_hammer :
    (∃ created, ((toolBatch [("saw", 3), ("hammer", 4)]).create.exec toolsDefined.session).1 =
        .ok created ∧
      ∃ others, ((createRows "Tools" (toolBatch [("hammer", 4), ("saw", 3)]).rows).exec
        toolsDefined.session).1 = .ok others) ∧
    ∃ f, ((toolBatch [("hammer", 3), ("hammer", 4)]).create.exec toolsDefined.session).1 =
        .error f ∧
      ∃ before row after added, (toolBatch [("hammer", 3), ("hammer", 4)]).rows =
          before ++ row :: after ∧
        ((toolBatch [("hammer", 3), ("hammer", 4)]).create.exec toolsDefined.session).2.db =
          { toolsDefined.session.db with entries := toolsDefined.session.db.entries ++ added } ∧
        added.map (·.key) = before.map (·.key) := by
  constructor
  · obtain ⟨hiff, hcreated, -⟩ :=
      rows_are_created_alone toolsDefined (toolBatch [("saw", 3), ("hammer", 4)])
    have halone : ∀ row ∈ (toolBatch [("saw", 3), ("hammer", 4)]).rows,
        ∃ e, ((row.creation "Tools").exec toolsDefined.session).1 = .ok e ∧ e.location = "shed" := by
      decide +kernel
    obtain ⟨created, hop⟩ := hiff.2
      ⟨fun row hrow => (halone row hrow).imp fun _ he => he.1, by decide +kernel⟩
    exact ⟨created, hop, (hcreated created hop).2.2 _ (.swap ..)⟩
  · obtain ⟨hiff, -, hfault⟩ :=
      rows_are_created_alone toolsDefined (toolBatch [("hammer", 3), ("hammer", 4)])
    cases hop : ((toolBatch [("hammer", 3), ("hammer", 4)]).create.exec toolsDefined.session).1 with
    | ok created => exact absurd (hiff.1 ⟨created, hop⟩).2 (by decide +kernel)
    | error f =>
        obtain ⟨before, row, after, -, -, -, added, hrows, -, -, hdb, -, hkeys, -⟩ := hfault f hop
        exact ⟨f, rfl, before, row, after, added, hrows, hdb, hkeys⟩

end ImportBatch
end Inventory

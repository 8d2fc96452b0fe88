import Inventory.Proofs.Effect
import Inventory.Proofs.Execution

/-!
# Sessions in order, and what actions come to

A session is in order when its cache, as far as it will still be used, says what the tables say.
On such a session the result of an action and the tables after it depend neither on the cache nor
on an open transaction nor on the commits of other sessions: the action comes to an effect.
`Does a f` says that `f` is the effect of `a`, and there is one lemma for each way in which
actions are put together.
-/

namespace Inventory

open Database (Change)

namespace Session

/-- The cache does not claim to be newer than it can be, and while it is good it says what the
tables say; a session that keeps no categories has none. Outside a transaction nothing waits to
be committed. -/
structure Ready (s : Session) : Prop where
  clean : s.saved = none → s.dirty = false
  notAhead : ∀ c, s.cache = some c → c.version ≤ s.version
  coherent : ∀ c, s.cache = some c → c.version = s.version →
    Database.readCategories s.db.categories = .ok c.categories
  forgetful : s.remembers = false → s.cache = none

/-- The session after a change that was made as a whole: inside a transaction it is kept for the
end of that one, and else it is committed. -/
def apply (s : Session) (c : Change) : Session :=
  match s.saved with
  | some _ => { s with db := c.db, dirty := s.dirty || c.isWritten }
  | none => { s with db := c.db, commits := s.commits + (if c.isWritten then 1 else 0) }

@[simp] theorem apply_db (s : Session) (c : Change) : (s.apply c).db = c.db := by
  unfold apply; split <;> rfl

@[simp] theorem apply_now (s : Session) (c : Change) : (s.apply c).now = s.now := by
  unfold apply; split <;> rfl

@[simp] theorem apply_saved (s : Session) (c : Change) : (s.apply c).saved = s.saved := by
  unfold apply; split <;> simp_all

@[simp] theorem apply_version (s : Session) (c : Change) :
    (s.apply c).version = s.version := by
  unfold apply; split <;> rfl

@[simp] theorem apply_cache (s : Session) (c : Change) : (s.apply c).cache = s.cache := by
  unfold apply; split <;> rfl

@[simp] theorem apply_remembers (s : Session) (c : Change) :
    (s.apply c).remembers = s.remembers := by
  unfold apply; split <;> rfl

@[simp] theorem apply_unchanged (s : Session) : s.apply s.db.unchanged = s := by
  unfold apply; split <;> simp [Database.unchanged]

/-- A change does not look at the cache. -/
theorem apply_withCache (s : Session) (c : Change) (cache : Option Cache) :
    ({ s with cache := cache } : Session).apply c = { s.apply c with cache := cache } := by
  unfold apply; split <;> simp_all

theorem Ready.apply_clean {s : Session} (h : s.Ready) (c : Change) :
    (s.apply c).saved = none → (s.apply c).dirty = false := by
  intro hs
  rw [apply_saved] at hs
  simpa only [apply, hs] using h.clean hs

/-- A change that leaves the categories alone leaves the session in order. -/
theorem Ready.apply {s : Session} (h : s.Ready) {c : Change}
    (hc : c.db.categories = s.db.categories) : (s.apply c).Ready where
  clean := h.apply_clean c
  notAhead := by simpa using h.notAhead
  coherent := by simpa [hc] using h.coherent
  forgetful := by simpa using h.forgetful

/-- Without a cache nothing can be out of order but the transaction. -/
theorem Ready.ofNoCache {s : Session} (hclean : s.saved = none → s.dirty = false)
    (hcache : s.cache = none) : s.Ready where
  clean := hclean
  notAhead := by simp [hcache]
  coherent := by simp [hcache]
  forgetful := fun _ => hcache

theorem Ready.begin {s : Session} (h : s.Ready) : s.begin.Ready where
  clean := by simp [Session.begin]
  notAhead := h.notAhead
  coherent := h.coherent
  forgetful := h.forgetful

theorem Ready.commit {s : Session} (h : s.Ready) : s.commit.Ready where
  clean := fun _ => rfl
  notAhead := h.notAhead
  coherent := h.coherent
  forgetful := h.forgetful

end Session

namespace Action

variable {α β γ : Type}

/-- Inside a transaction the action is the statement `w`: it touches nothing but the tables, and
nothing at all when it fails. -/
def Runs (b : Action β) (w : (now : String) → Database → Except Fault (β × Change)) : Prop :=
  ∀ s : Session, b.exec s =
    match w s.now s.db with
    | .ok (x, c) => (.ok x, { s with db := c.db, dirty := s.dirty || c.isWritten })
    | .error e => (.error e, s)

theorem Runs.write (f : String → Database.Statement) :
    Runs (write f) fun now db => (f now db).map fun c => (c.rows, c) := by
  intro s
  simp only [exec_write]
  cases f s.now s.db <;> rfl

/-- What the tables forbid is refused before the statement runs. -/
theorem Runs.guard (p : Database → Prop) [∀ db, Decidable (p db)] (e : Database → Fault)
    {k : Unit → Action β} {w} (hk : Runs (k ()) w) :
    Runs (get >>= fun s => if p s.db then (throw (e s.db) : Action Unit) >>= k else k ())
      fun now db => if p db then .error (e db) else w now db := by
  intro s
  rw [exec_bind, exec_get]
  dsimp only
  by_cases hp : p s.db
  · rw [if_pos hp, if_pos hp]
    rfl
  · rw [if_neg hp, if_neg hp]
    exact hk s

/-- A statement that was about no row has changed nothing and may still be refused. -/
theorem Runs.orNone {f : String → Database.Statement}
    (hf : ∀ now db c, f now db = .ok c → c.rows = 0 → c = db.unchanged) (e : Fault) :
    Runs (Action.write f >>= fun rows => if rows = 0 then (throw e : Action Unit) else pure ())
      fun now db => f now db >>= fun c => if c.rows = 0 then .error e else .ok ((), c) := by
  intro s
  rw [exec_bind, exec_write]
  simp only [bind, Except.bind]
  cases hr : f s.now s.db with
  | error e => rfl
  | ok c =>
      by_cases hrows : c.rows = 0
      · rw [hf _ _ c hr hrows]
        simp [Database.unchanged, exec_throw]
      · simp [hrows, exec_pure]

/-- A transaction of such an action is one change, alone or inside another transaction. -/
theorem Runs.transaction {b : Action β} {w} (hb : Runs b w) {s : Session} (hs : s.Ready) :
    (transaction b).exec s =
      match w s.now s.db with
      | .ok (x, c) => (.ok x, s.apply c)
      | .error e => (.error e, s) := by
  unfold Action.transaction
  cases hsaved : s.saved with
  | some db =>
      rw [exec_transactionIf_joined _ _ (by simp [hsaved]), hb s]
      simp only [Session.apply, hsaved]
  | none =>
      have hclean : s.dirty = false := hs.clean hsaved
      rw [exec_transactionIf _ _ hsaved, hb s.begin]
      obtain ⟨db, now, saved, dirty, commits, version, cache, remembers⟩ := s
      simp only at hsaved hclean
      subst hsaved hclean
      simp only [Session.begin, Session.apply]
      cases w now db <;> simp [Session.commit, Session.rollback]

/-- `f` is the effect of `a`: on a session in order, `a` has the result that `f` says and makes
the change that `f` says, and apart from that only its cache may differ, which is in order. -/
def Does (a : Action α) (f : Effect α) : Prop :=
  ∀ s : Session, s.Ready → ∃ cache,
    a.exec s = ((f s.now s.db).1, { s.apply (f s.now s.db).2 with cache := cache }) ∧
      ({ s.apply (f s.now s.db).2 with cache := cache } : Session).Ready

namespace Does

open Effect

theorem ofExcept (e : Except Fault α) : Does (Action.ofExcept e) (reading fun _ => e) := by
  intro s hs
  refine ⟨s.cache, ?_, ?_⟩
  · simp [exec_ofExcept, reading]
  · simpa [reading] using hs

theorem pure (x : α) : Does (Pure.pure x) (reading fun _ => .ok x) :=
  Does.ofExcept (.ok x)

theorem throw (e : Fault) : Does (α := α) (MonadExcept.throw e) (reading fun _ => .error e) :=
  Does.ofExcept (.error e)

theorem read (g : Database → Except Fault α) : Does (Action.read g) (reading g) := by
  intro s hs
  refine ⟨s.cache, ?_, ?_⟩
  · simp [exec_read, reading]
  · simpa [reading] using hs

/-- What is read first leaves at most a filled cache behind. -/
theorem bind {a : Action β} {g} (ha : Does a (reading g)) {k : β → Action α} {h : β → Effect α}
    (hk : ∀ x, Does (k x) (h x)) : Does (a >>= k) (after g h) := by
  intro s hs
  obtain ⟨cache, hexec, hready⟩ := ha s hs
  simp only [reading, Session.apply_unchanged] at hexec hready
  cases hg : g s.db with
  | error e =>
      refine ⟨cache, ?_, ?_⟩
      · simp [exec_bind, hexec, hg, after]
      · simpa [after, hg] using hready
  | ok x =>
      obtain ⟨cache', hexec', hready'⟩ := hk x _ hready
      rw [Session.apply_withCache] at hexec' hready'
      refine ⟨cache', ?_, ?_⟩
      · simpa [exec_bind, hexec, hg, after] using hexec'
      · simpa [after, hg] using hready'

theorem bind_reading {a : Action β} {g} (ha : Does a (reading g)) {k : β → Action α}
    {h : β → Database → Except Fault α} (hk : ∀ x, Does (k x) (reading (h x))) :
    Does (a >>= k) (reading fun db => g db >>= fun x => h x db) := by
  rw [← after_reading]
  exact ha.bind hk

theorem bind_change {a : Action β} {g} (ha : Does a (reading g)) {k : β → Action α}
    {w : β → String → Database → Except Fault (γ × Change)}
    {back : γ → Database → Except Fault α} (hk : ∀ x, Does (k x) (change (w x) back)) :
    Does (a >>= k) (change (fun now db => g db >>= fun x => w x now db) back) := by
  rw [← after_change]
  exact ha.bind hk

/-- A check whose outcome what follows may rely on. -/
theorem ofExcept_bind {e : Except Fault β} {k : β → Action α}
    {w : β → String → Database → Except Fault (γ × Change)}
    {back : γ → Database → Except Fault α}
    (hk : ∀ x, e = .ok x → Does (k x) (change (w x) back)) :
    Does (Action.ofExcept e >>= k) (change (fun now db => e >>= fun x => w x now db) back) := by
  cases e with
  | error f => exact Does.throw f
  | ok x => exact hk x rfl

/-- A guard refuses before anything is changed. -/
theorem guard {p : Prop} [Decidable p] {e : Fault} {k : Unit → Action α}
    {w : String → Database → Except Fault (γ × Change)} {back : γ → Database → Except Fault α}
    (hk : ¬p → Does (k ()) (change w back)) :
    Does (if p then (MonadExcept.throw e : Action Unit) >>= k else k ())
      (change (fun now db => if p then .error e else w now db) back) := by
  split
  · exact Does.throw e
  · exact hk ‹_›

theorem tryCatch {a : Action α} {g} (ha : Does a (reading g)) {k : Fault → Action α}
    {h : Fault → Database → Except Fault α} (hk : ∀ e, Does (k e) (reading (h e))) :
    Does (tryCatchThe Fault a k) (reading (orElse g h)) := by
  intro s hs
  obtain ⟨cache, hexec, hready⟩ := ha s hs
  simp only [reading, Session.apply_unchanged] at hexec hready
  cases hg : g s.db with
  | ok x =>
      refine ⟨cache, ?_, ?_⟩
      · show (MonadExcept.tryCatch a k : Action α).exec s = _
        simp [exec_tryCatch, hexec, hg, reading, orElse]
      · simpa [reading] using hready
  | error e =>
      obtain ⟨cache', hexec', hready'⟩ := hk e _ hready
      simp only [reading, Session.apply_unchanged] at hexec' hready'
      refine ⟨cache', ?_, ?_⟩
      · show (MonadExcept.tryCatch a k : Action α).exec s = _
        simpa [exec_tryCatch, hexec, hg, reading, orElse] using hexec'
      · simpa [reading] using hready'

theorem map {a : Action α} {f : Effect α} (ha : Does a f) (r : α → β) :
    Does (r <$> a) (f.map r) := by
  intro s hs
  obtain ⟨cache, hexec, hready⟩ := ha s hs
  exact ⟨cache, by simp [exec_map, hexec, Effect.map], hready⟩

/-- A change `w` that leaves the categories alone, and what is read back after it. The statement
`u` that makes it may give something else than the change is said to give. -/
theorem entryChange {δ : Type} {b : Action β} {u} (hb : Runs b u) (r : β → δ)
    {w : String → Database → Except Fault (δ × Change)}
    (hu : ∀ now db, (u now db).map (fun xc => (r xc.1, xc.2)) = w now db)
    (hw : ∀ now db x c, w now db = .ok (x, c) → c.db.categories = db.categories)
    {k : β → Action α} {back : δ → Database → Except Fault α}
    (hk : ∀ x, Does (k x) (reading (back (r x)))) :
    Does (transaction b >>= k) (change w back) := by
  intro s hs
  rw [exec_bind, hb.transaction hs]
  have hus := hu s.now s.db
  cases hr : u s.now s.db with
  | error e =>
      rw [hr] at hus
      refine ⟨s.cache, ?_, ?_⟩
      · simp [change, ← hus, Except.map]
      · simpa [change, ← hus, Except.map] using hs
  | ok xc =>
      obtain ⟨x, c⟩ := xc
      rw [hr] at hus
      have hready : (s.apply c).Ready := hs.apply (hw _ _ (r x) c hus.symm)
      obtain ⟨cache, hexec, hready⟩ := hk x _ hready
      simp only [reading, Session.apply_unchanged] at hexec hready
      rw [Session.apply_db] at hexec
      refine ⟨cache, ?_, ?_⟩
      · simpa [change, ← hus, Except.map, reading] using hexec
      · simpa [change, ← hus, Except.map] using hready

/-- A change of the categories. The cache is dropped after it, so it need not agree with them. -/
theorem schemaChange {b : Action β} {u} (hb : Runs b u) {y : α}
    {w : String → Database → Except Fault (α × Change)}
    (hu : ∀ now db, (u now db).map (fun xc => (y, xc.2)) = w now db) {k : Action α}
    (hk : ∀ s, k.exec s = (.ok y, { s with cache := none })) :
    Does (transaction b >>= fun _ => k) (change w fun y _ => .ok y) := by
  intro s hs
  rw [exec_bind, hb.transaction hs]
  have hus := hu s.now s.db
  cases hr : u s.now s.db with
  | error e =>
      rw [hr] at hus
      refine ⟨s.cache, ?_, ?_⟩
      · simp [change, ← hus, Except.map]
      · simpa [change, ← hus, Except.map] using hs
  | ok xc =>
      obtain ⟨x, c⟩ := xc
      rw [hr] at hus
      refine ⟨none, ?_, ?_⟩
      · simp [change, ← hus, Except.map, hk]
      · exact .ofNoCache (hs.apply_clean _) rfl

end Does

end Action

end Inventory

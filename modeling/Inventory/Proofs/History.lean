import Inventory.Proofs.Integrity

/-!
# Histories

What two sides did in a run, operation by operation, and what they were answered. On the tables a
run is a course: the effects of the operations of its history, one after another. What is said
about moments of runs is proved of courses, by induction on the history.
-/

namespace Inventory

/-- An operation that was done, and what it was answered. -/
structure Step where
  operation : Operation
  answer : Except Fault Answer

abbrev History := List Step

/-! ## Courses -/

/-- The tables come from `db` to `db'` by the steps of a history, each at some time. -/
inductive Course : Database → History → Database → Prop
  | nil (db : Database) : Course db [] db
  | cons (o : Operation) (now : String) {db db' : Database} {h : History} :
      Course (o.effect now db).2.db h db' → Course db (⟨o, (o.effect now db).1⟩ :: h) db'

namespace Course

variable {db db' db'' : Database} {h k : History}

theorem append (hh : Course db h db') (hk : Course db' k db'') : Course db (h ++ k) db'' := by
  induction hh with
  | nil db => exact hk
  | cons o now _ ih => exact .cons o now (ih hk)

/-- Between two parts of a history there are tables. -/
theorem split (hc : Course db (h ++ k) db'') : ∃ db', Course db h db' ∧ Course db' k db'' := by
  induction h generalizing db with
  | nil => exact ⟨db, .nil db, hc⟩
  | cons x h ih =>
      cases hc with
      | cons o now hrest =>
          obtain ⟨db', hh, hk⟩ := ih hrest
          exact ⟨db', .cons o now hh, hk⟩

/-- What is true of the steps done so far and of the tables stays true, if it does at every single
step from sound tables. -/
theorem preserves {P : History → Database → Prop}
    (hstep : ∀ done o now db, db.IsSound → P done db →
      P (done ++ [⟨o, (o.effect now db).1⟩]) (o.effect now db).2.db)
    (hc : Course db h db') :
    ∀ done, db.IsSound → P done db → db'.IsSound ∧ P (done ++ h) db' := by
  induction hc with
  | nil db =>
      intro done hsound hP
      exact ⟨hsound, by rwa [List.append_nil]⟩
  | cons o now _ ih =>
      intro done hsound hP
      have hend := ih _ (o.effect_keeps_sound now _ hsound) (hstep done o now _ hsound hP)
      rwa [List.append_assoc, List.singleton_append] at hend

theorem isSound (hc : Course db h db') (hsound : db.IsSound) : db'.IsSound :=
  (hc.preserves (P := fun _ _ => True) (fun _ _ _ _ _ _ => trivial) [] hsound trivial).1

end Course

/-- What was done with its answers is among what was done. -/
theorem operation_mem_of_zipWith {os : List Operation} {answers : List (Except Fault Answer)}
    {x : Step} (h : x ∈ List.zipWith Step.mk os answers) : x.operation ∈ os := by
  induction os generalizing answers with
  | nil => cases h
  | cons o rest ih =>
      cases answers with
      | nil => cases h
      | cons a others =>
          rcases List.mem_cons.1 h with rfl | h
          · exact List.mem_cons_self
          · exact List.mem_cons_of_mem _ (ih h)

/-! ## Scripts -/

namespace Script

/-- The operations of a script, in the order in which they are done. -/
def operations : Script → List Operation
  | done => []
  | op o rest => o :: rest.operations
  | scope inner rest => inner.operations ++ rest.operations
  | tick _ rest => rest.operations

/-- The operations of a script with the answers in its run. -/
def history (p : Script) (s : Session) : History :=
  List.zipWith Step.mk p.operations ((p.run s).1.map Prod.fst)

/-- Every operation is answered. -/
theorem length_run (p : Script) : ∀ s, (p.run s).1.length = p.operations.length := by
  induction p with
  | done => exact fun _ => rfl
  | op o rest ih =>
      intro s
      simp only [run, operations, List.length_cons, ih]
  | scope inner rest ihi ihr =>
      intro s
      simp only [run, operations, List.length_append, ihi, ihr]
  | tick now rest ih =>
      intro s
      exact ih _

theorem history_scope (inner rest : Script) (s : Session) :
    (scope inner rest).history s =
      inner.history s.enter ++ rest.history (s.leave (inner.run s.enter).2) := by
  simp only [history, operations, run, List.map_append]
  exact List.zipWith_append (by rw [List.length_map, length_run])

/-- On a session in order a script is a course of the tables. -/
theorem course (p : Script) :
    ∀ s : Session, s.Ready → Course s.db (p.history s) (p.run s).2.db := by
  induction p with
  | done => exact fun s _ => .nil s.db
  | op o rest ih =>
      intro s hs
      obtain ⟨cache, hexec, -⟩ := o.does_act s hs
      have hrest := ih _ (o.act_follows hs).1
      rw [o.act_db hs] at hrest
      have hhistory : (op o rest).history s =
          ⟨o, (o.effect s.now s.db).1⟩ :: rest.history (o.act.exec s).2 := by
        simp only [history, operations, run, List.map_cons, List.zipWith_cons_cons, hexec]
      rw [hhistory]
      exact .cons o s.now hrest
  | scope inner rest ihi ihr =>
      intro s hs
      have hinner := ihi _ hs.enter
      have hrest := ihr (s.leave (inner.run s.enter).2) (inner.run_follows _ hs.enter).1.leave
      rw [Session.enter_db] at hinner
      rw [Session.leave_db] at hrest
      rw [history_scope]
      exact hinner.append hrest
  | tick now rest ih =>
      intro s hs
      exact ih _ (hs.withNow now)

end Script

/-! ## Runs of two sides -/

namespace Workspace

/-- The operations of events with the answers in their run. -/
def history (w : Workspace) (events : List Event) : History :=
  List.zipWith Step.mk (events.flatMap (·.script.operations)) ((w.run events).1.map Prod.fst)

/-- What a side has done in the middle of something. -/
def historyDuring (w : Workspace) (turn : Turn) (now : String) (inScope : Bool) (p : Script) :
    History :=
  p.history (if inScope then (w.session turn now).begin else w.session turn now)

theorem history_cons (w : Workspace) (e : Event) (rest : List Event) :
    w.history (e :: rest) = e.script.history (w.session e.turn e.now) ++
      (w.keep e.turn (e.script.run (w.session e.turn e.now)).2).history rest := by
  simp only [history, Script.history, run, List.flatMap_cons, List.map_append]
  exact List.zipWith_append (by rw [List.length_map, Script.length_run])

theorem course (events : List Event) :
    ∀ w : Workspace, w.Ready → Course w.db (w.history events) (w.run events).2.db := by
  induction events with
  | nil => exact fun w _ => .nil w.db
  | cons e rest ih =>
      intro w hw
      have hside := e.script.course _ (hw e.turn e.now)
      obtain ⟨hready, hfollows⟩ := e.script.run_follows _ (hw e.turn e.now)
      have hrest := ih _ (hw.keep hready hfollows)
      rw [session_db] at hside
      rw [keep_db] at hrest
      rw [history_cons]
      exact hside.append hrest

theorem course_during {w : Workspace} (hw : w.Ready) (turn : Turn) (now : String)
    (inScope : Bool) (p : Script) :
    Course w.db (w.historyDuring turn now inScope p) (w.during turn now inScope p).db := by
  unfold historyDuring during
  split
  · simpa [Session.begin] using p.course _ (hw turn now).begin
  · simpa using p.course _ (hw turn now)

end Workspace

/-! ## Moments -/

/-- A moment of a run that begins with an empty inventory and undoes no transaction: two sides
have been through events, and since then one of them has done a script, by itself or in a
transaction that is still open. -/
structure Moment where
  stamp : String
  events : List Event
  turn : Workspace.Turn
  now : String
  inScope : Bool
  script : Script

namespace Moment

/-- The two sides before the last script. -/
def workspace (m : Moment) : Workspace :=
  ((Workspace.initial m.stamp).run m.events).2

/-- The session of the side that is about to do something. -/
def session (m : Moment) : Session :=
  m.workspace.during m.turn m.now m.inScope m.script

/-- All that both sides have done so far. -/
def history (m : Moment) : History :=
  (Workspace.initial m.stamp).history m.events ++
    m.workspace.historyDuring m.turn m.now m.inScope m.script

theorem workspace_ready (m : Moment) : m.workspace.Ready :=
  Workspace.Ready.run m.events _ (Workspace.ofDatabase_ready _)

theorem session_ready (m : Moment) : m.session.Ready :=
  Workspace.during_ready m.workspace_ready m.turn m.now m.inScope m.script

theorem session_sound (m : Moment) : m.session.db.IsSound :=
  Workspace.isSound_during m.stamp m.events m.turn m.now m.inScope m.script

theorem course (m : Moment) :
    Course (Workspace.initial m.stamp).db m.history m.session.db :=
  (Workspace.course m.events _ (Workspace.ofDatabase_ready _)).append
    (Workspace.course_during m.workspace_ready m.turn m.now m.inScope m.script)

end Moment

end Inventory

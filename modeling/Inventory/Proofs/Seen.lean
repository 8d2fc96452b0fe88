import Inventory.Proofs.History
import Inventory.Proofs.Transition

/-!
# What sessions see

A session in order sees a view: its lookups are lookups in the view, and each of its operations
that succeeds makes its change of it. What is to hold of all that was done and of what is seen
needs to be proved for single changes of views only.
-/

namespace Inventory

/-! ## Along a course -/

/-- What is seen of an empty inventory. -/
def View.empty : View :=
  ⟨[], []⟩

theorem shows_initial (stamp : String) : (Workspace.initial stamp).db.Shows .empty :=
  ⟨⟨rfl, nofun, List.nodup_nil, List.nodup_nil, nofun⟩, nofun, rfl⟩

/-- What is true of the steps done so far and of the view stays true, if it does whenever the view
changes and whenever an operation fails. -/
theorem Course.sees {P : History → View → Prop}
    (hok : ∀ (done : History) (o : Operation) (now : String) (a : Answer) (v v' : View)
      (db db' : Database), db.Shows v → db'.Shows v' → v.Becomes now o a v' → P done v →
        P (done ++ [⟨o, .ok a⟩]) v')
    (herror : ∀ (done : History) (o : Operation) (f : Fault) (v : View), P done v →
      P (done ++ [⟨o, .error f⟩]) v)
    {db db' : Database} {h : History} (hc : Course db h db') {v : View} (hv : db.Shows v)
    (hP : P [] v) : ∃ v', db'.Shows v' ∧ P h v' := by
  refine (hc.preserves (P := fun done db => ∃ v, db.Shows v ∧ P done v) ?_ []
    ⟨_, hv.sound⟩ ⟨v, hv, hP⟩).2
  rintro done o now db - ⟨v, hv, hP⟩
  cases hanswer : (o.effect now db).1 with
  | ok a =>
      obtain ⟨v', hv', hbecomes⟩ := o.effect_becomes hv hanswer
      exact ⟨v', hv', hok done o now a v v' _ _ hv hv' hbecomes hP⟩
  | error f =>
      rw [o.effect_atomic now db f ⟨_, hv.sound⟩ hanswer]
      exact ⟨v, hv, herror done o f v hP⟩

/-- At every moment some view is seen. -/
theorem Moment.shows (m : Moment) : ∃ v, m.session.db.Shows v := by
  obtain ⟨v, hv, -⟩ := m.course.sees (P := fun _ _ => True)
    (fun _ _ _ _ _ _ _ _ _ _ _ _ => trivial) (fun _ _ _ _ _ => trivial)
    (shows_initial m.stamp) trivial
  exact ⟨v, hv⟩

/-! ## Sessions -/

/-- The session is in order, and readers of its tables see the view. -/
structure Session.Sees (s : Session) (v : View) : Prop where
  ready : s.Ready
  shows : s.db.Shows v

theorem Moment.sees (m : Moment) : ∃ v, m.session.Sees v := by
  obtain ⟨v, hv⟩ := m.shows
  exact ⟨v, m.session_ready, hv⟩

namespace Session.Sees

variable {s : Session} {v : View}

theorem resolve (h : s.Sees v) (id : String) :
    ((Registry.resolve id).exec s).1 = v.resolve id := by
  obtain ⟨cache, hexec, -⟩ := Registry.does_resolve id s h.ready
  rw [hexec]
  exact h.shows.resolve_eq id

theorem find (h : s.Sees v) (key : String) : ((Store.find key).exec s).1 = v.find key := by
  obtain ⟨cache, hexec, -⟩ := Store.does_find key s h.ready
  rw [hexec]
  exact h.shows.find_eq key

theorem list (h : s.Sees v) (id : String) : ((Store.list id).exec s).1 = v.list id := by
  obtain ⟨cache, hexec, -⟩ := Store.does_list id s h.ready
  rw [hexec]
  exact h.shows.list_eq id

/-- An operation that succeeds makes its change of what the session sees. -/
theorem act (h : s.Sees v) {o : Operation} {a : Answer} (ha : (o.act.exec s).1 = .ok a) :
    ∃ v', (o.act.exec s).2.Sees v' ∧ v.Becomes s.now o a v' := by
  obtain ⟨cache, hexec, -⟩ := o.does_act s h.ready
  rw [hexec] at ha
  obtain ⟨v', hv', hbecomes⟩ := o.effect_becomes h.shows ha
  exact ⟨v', ⟨(o.act_follows h.ready).1, (o.act_db h.ready).symm ▸ hv'⟩, hbecomes⟩

/-- Sessions in order that read the same tables see the same. -/
theorem of_db (h : s.Sees v) {t : Session} (ht : t.Ready) (hdb : t.db = s.db) : t.Sees v :=
  ⟨ht, hdb ▸ h.shows⟩

end Session.Sees

/-! ## Later moments -/

theorem Workspace.run_events_append (events more : List Event) :
    ∀ w : Workspace, (w.run (events ++ more)).2 = ((w.run events).2.run more).2 := by
  induction events with
  | nil => exact fun w => rfl
  | cons e rest ih => exact fun w => ih _

namespace Moment

/-- The moment after the side has gone on. -/
def go (m : Moment) (q : Script) : Moment :=
  { m with script := m.script.append q }

/-- The moment after the side has ended what it was doing and more events have followed, when a
side has done something again. -/
def next (m : Moment) (more : List Event) (turn : Workspace.Turn) (now : String)
    (inScope : Bool) (p : Script) : Moment :=
  ⟨m.stamp, m.events ++ ⟨m.turn, m.now, m.script.within m.inScope⟩ :: more, turn, now, inScope, p⟩

theorem course_go (m : Moment) (q : Script) :
    Course m.session.db (q.history m.session) (m.go q).session.db := by
  have hsession : (m.go q).session = (q.run m.session).2 := by
    show ((m.script.append q).run _).2 = _
    rw [Script.run_append]
    rfl
  rw [hsession]
  exact q.course _ m.session_ready

/-- The two sides after the side has ended what it was doing. -/
def ended (m : Moment) : Workspace :=
  m.workspace.keep m.turn
    ((m.script.within m.inScope).run (m.workspace.session m.turn m.now)).2

theorem ended_ready (m : Moment) : m.ended.Ready := by
  obtain ⟨hready, hfollows⟩ :=
    (m.script.within m.inScope).run_follows _ (m.workspace_ready m.turn m.now)
  exact m.workspace_ready.keep hready hfollows

theorem ended_db (m : Moment) : m.ended.db = m.session.db := by
  obtain ⟨stamp, events, turn, now, inScope, p⟩ := m
  cases inScope with
  | false => simp [ended, session, Script.within, Workspace.during]
  | true =>
      simp [ended, session, Script.within, Workspace.during, Script.run, Session.enter,
        Workspace.session_saved, Session.leave_db]

theorem course_next (m : Moment) (more : List Event) (turn : Workspace.Turn) (now : String)
    (inScope : Bool) (p : Script) :
    Course m.session.db
      (m.ended.history more ++ (m.ended.run more).2.historyDuring turn now inScope p)
      (m.next more turn now inScope p).session.db := by
  have hworkspace : (m.next more turn now inScope p).workspace = (m.ended.run more).2 :=
    Workspace.run_events_append _ _ _
  have hevents := Workspace.course more _ m.ended_ready
  have hduring := Workspace.course_during (Workspace.Ready.run more _ m.ended_ready) turn now
    inScope p
  rw [ended_db] at hevents
  rw [← hworkspace] at hevents hduring ⊢
  exact hevents.append hduring

end Moment

end Inventory

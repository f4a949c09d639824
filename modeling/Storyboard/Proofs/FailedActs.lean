import Storyboard.Proofs.Passes

/-!
# A rendering stops at the act that fails

If nothing fails, a rendering asks its painter for a fixed list of tasks: to
start, to place each screen, to connect the two ends of each link, and to
finish. Only the handles in the connectors are not known beforehand, and they
are known once every screen is placed. A rendering that fails has gone through
this list up to a task that the painter failed at, and no further.

The tasks are performed one after the other by `Painter.performAll`, which
knows nothing of passes. Both passes are runs of it, so what is shown of such a
run, namely that it fails with the first task that fails, holds of them.

## Main results

* `Task`, `Flow.tasks` — the tasks of a rendering.
* `Painter.performAll_eq_error_iff` — a run fails with the first task that
  fails.
* `Painter.exists_task_of_passes_error`, `Painter.passes_error_of_task` — so do
  the two passes.
* `Painter.render_stops_at_failure` — what a failed rendering has asked for,
  and what leaves it.
-/

namespace Storyboard

/-! ## Tasks -/

/-- An act that a painter is asked for, with all that it is given. -/
inductive Task (η : Type) where
  | start (f : Flow)
  | place (s : Screen)
  | connect (w : Wire η)
  | finish

/-- A task as it is written down in a trace. -/
def Task.call {η : Type} : Task η → Call η
  | .start f => .start f.names
  | .place s => .place s.name
  | .connect w => .connect w.source w.target w.label
  | .finish => .finish

namespace Flow

variable {η : Type} {f : Flow} {handles : List η}

/-- The tasks up to the last screen placed. -/
def openingTasks (η : Type) (f : Flow) : List (Task η) := .start f :: f.screens.map .place

/-- The tasks that follow, when the screens have these handles. -/
def closingTasks (f : Flow) (handles : List η) : List (Task η) :=
  (f.wires handles).map .connect ++ [.finish]

/-- The tasks of a rendering of the flow in which nothing fails. -/
def tasks (f : Flow) (handles : List η) : List (Task η) :=
  f.openingTasks η ++ f.closingTasks handles

private theorem map_call_tasks (f : Flow) (handles : List η) :
    (f.tasks handles).map Task.call = Painter.calls f handles := by
  simp [tasks, openingTasks, closingTasks, Painter.calls, Flow.names, Task.call,
    Function.comp_def]

/-- The connectors of a flow need no more handles than there are screens. -/
theorem wires_append (h : handles.length = f.size) (more : List η) :
    f.wires (handles ++ more) = f.wires handles := by
  unfold wires
  refine List.filterMap_congr fun l hl => ?_
  obtain ⟨hsource, htarget⟩ := lt_size_of_mem_resolved hl
  rw [List.getElem?_append_left (by omega), List.getElem?_append_left (by omega)]

private theorem closingTasks_append (h : handles.length = f.size) (more : List η) :
    f.closingTasks (handles ++ more) = f.closingTasks handles := by
  rw [closingTasks, closingTasks, wires_append h]

end Flow

namespace Painter

variable {σ η α : Type}

/-! ## Performing tasks -/

/-- Does what is asked for, and answers the handle of a screen that was
placed. -/
def perform (p : Painter σ η α) : Task η → Act σ (List η)
  | .start f => do
    p.start f
    pure []
  | .place s => do
    let handle ← p.place s
    pure [handle]
  | .connect w => do
    p.connect w.source w.target w.label
    pure []
  | .finish => do
    let _ ← p.finish
    pure []

/-- Performs tasks in order, and answers the handles of the screens placed. -/
def performAll (p : Painter σ η α) : List (Task η) → Act σ (List η)
  | [] => pure []
  | task :: rest => do
    let handles ← p.perform task
    let more ← p.performAll rest
    pure (handles ++ more)

variable (p : Painter σ η α)

/-- A run of tasks succeeds exactly if the first does and the rest do. -/
theorem performAll_cons_eq_ok_iff {task : Task η} {rest : List (Task η)} {s s' : σ}
    {handles : List η} :
    (p.performAll (task :: rest)).run s = (.ok handles, s') ↔
      ∃ first more s₁, (p.perform task).run s = (.ok first, s₁) ∧
        (p.performAll rest).run s₁ = (.ok more, s') ∧ handles = first ++ more := by
  constructor
  · intro h
    obtain ⟨first, s₁, hfirst, h⟩ := Act.exists_of_run_bind h
    obtain ⟨more, s₂, hmore, h⟩ := Act.exists_of_run_bind h
    cases h
    exact ⟨first, more, s₁, hfirst, hmore, rfl⟩
  · rintro ⟨first, more, s₁, hfirst, hmore, rfl⟩
    rw [performAll, Act.run_bind_ok hfirst, Act.run_bind_ok hmore]
    rfl

/-- A run of tasks fails exactly if the first does, or it succeeds and the
rest fail. -/
theorem performAll_cons_eq_error_iff {task : Task η} {rest : List (Task η)} {s s' : σ}
    {failure : Failure} :
    (p.performAll (task :: rest)).run s = (.error failure, s') ↔
      (p.perform task).run s = (.error failure, s') ∨
        ∃ first s₁, (p.perform task).run s = (.ok first, s₁) ∧
          (p.performAll rest).run s₁ = (.error failure, s') := by
  rw [performAll, Act.run_bind_eq_error_iff]
  simp only [Act.run_bind_pure_eq_error_iff]

/-- A run of tasks fails exactly if, after some tasks that succeed, one fails;
it then ends as that one does. -/
theorem performAll_eq_error_iff {s' : σ} {failure : Failure} (tasks : List (Task η)) :
    ∀ s : σ, (p.performAll tasks).run s = (.error failure, s') ↔
      ∃ done task rest handles s₁, tasks = done ++ task :: rest ∧
        (p.performAll done).run s = (.ok handles, s₁) ∧
        (p.perform task).run s₁ = (.error failure, s') := by
  induction tasks with
  | nil =>
      intro s
      constructor
      · intro h
        cases h
      · rintro ⟨done, task, rest, -, -, hsplit, -⟩
        simp at hsplit
  | cons first tasks ih =>
      intro s
      rw [performAll_cons_eq_error_iff]
      constructor
      · rintro (h | ⟨handles, s₁, hfirst, h⟩)
        · exact ⟨[], first, tasks, [], s, rfl, rfl, h⟩
        · obtain ⟨done, task, rest, more, s₂, hsplit, hdone, hfail⟩ := (ih s₁).1 h
          refine ⟨first :: done, task, rest, handles ++ more, s₂, by simp [hsplit], ?_, hfail⟩
          exact p.performAll_cons_eq_ok_iff.2 ⟨handles, more, s₁, hfirst, hdone, rfl⟩
      · rintro ⟨done, task, rest, handles, s₂, hsplit, hdone, hfail⟩
        cases done with
        | nil =>
            cases hdone
            cases hsplit
            exact Or.inl hfail
        | cons head done =>
            cases hsplit
            obtain ⟨first', more, s₁, hfirst, hmore, -⟩ := p.performAll_cons_eq_ok_iff.1 hdone
            exact Or.inr ⟨first', s₁, hfirst, (ih s₁).2
              ⟨done, task, rest, more, s₂, rfl, hmore, hfail⟩⟩

/-- A run of tasks in two parts. -/
theorem performAll_append_eq_ok_iff {s' : σ} (tasks rest : List (Task η)) :
    ∀ (s : σ) (handles : List η), (p.performAll (tasks ++ rest)).run s = (.ok handles, s') ↔
      ∃ first more s₁, (p.performAll tasks).run s = (.ok first, s₁) ∧
        (p.performAll rest).run s₁ = (.ok more, s') ∧ handles = first ++ more := by
  induction tasks with
  | nil =>
      intro s handles
      constructor
      · intro h
        exact ⟨[], handles, s, rfl, h, rfl⟩
      · rintro ⟨first, more, s₁, hfirst, hmore, rfl⟩
        cases hfirst
        exact hmore
  | cons task tasks ih =>
      intro s handles
      rw [List.cons_append, performAll_cons_eq_ok_iff]
      constructor
      · rintro ⟨first, more, s₁, hfirst, hmore, rfl⟩
        obtain ⟨second, last, s₂, hsecond, hlast, rfl⟩ := (ih s₁ more).1 hmore
        refine ⟨first ++ second, last, s₂, ?_, hlast, by rw [List.append_assoc]⟩
        exact p.performAll_cons_eq_ok_iff.2 ⟨first, second, s₁, hfirst, hsecond, rfl⟩
      · rintro ⟨first, more, s₂, hfirst, hmore, rfl⟩
        obtain ⟨head, second, s₁, hhead, hsecond, rfl⟩ := p.performAll_cons_eq_ok_iff.1 hfirst
        exact ⟨head, second ++ more, s₁, hhead, (ih s₁ _).2 ⟨second, more, s₂, hsecond, hmore, rfl⟩,
          by rw [List.append_assoc]⟩

/-! ## The passes perform the tasks -/

theorem performAll_place (screens : List Screen) :
    p.performAll (screens.map .place) = screens.mapM p.place := by
  induction screens with
  | nil => rfl
  | cons s rest ih => simp [performAll, perform, ih]

theorem firstPass_eq (f : Flow) : p.firstPass f = p.performAll (f.openingTasks η) := by
  simp [firstPass, Flow.openingTasks, performAll, perform, performAll_place]

private theorem performAll_closingTasks (f : Flow) (handles : List η) :
    p.performAll (f.closingTasks handles) = p.secondPass f handles >>= fun _ => pure [] := by
  rw [Flow.closingTasks, secondPass]
  generalize f.wires handles = ws
  induction ws with
  | nil => simp [performAll, perform, connectWires]
  | cons w ws ih => simp [performAll, perform, connectWires_cons, ih]

/-- The second pass fails exactly if one of its tasks does. -/
theorem secondPass_eq_error_iff {f : Flow} {handles : List η} {s s' : σ} {failure : Failure} :
    (p.secondPass f handles).run s = (.error failure, s') ↔
      (p.performAll (f.closingTasks handles)).run s = (.error failure, s') := by
  rw [performAll_closingTasks, Act.run_bind_pure_eq_error_iff]

/-- If the passes fail, then with a task of the flow, after those before it. -/
theorem exists_task_of_passes_error {f : Flow} {s s' : σ} {failure : Failure}
    (h : (p.firstPass f >>= p.secondPass f).run s = (.error failure, s')) :
    ∃ done task handles s₁, (p.performAll done).run s = (.ok handles, s₁) ∧
      (p.perform task).run s₁ = (.error failure, s') ∧
      ∀ more, done ++ [task] <+: f.tasks (handles ++ more) := by
  rcases Act.run_bind_eq_error_iff.1 h with hfirst | ⟨handles, s₁, hfirst, hsecond⟩
  · rw [firstPass_eq] at hfirst
    obtain ⟨done, task, rest, handles, s₁, hsplit, hdone, hfail⟩ :=
      (p.performAll_eq_error_iff _ s).1 hfirst
    refine ⟨done, task, handles, s₁, hdone, hfail, fun more => ?_⟩
    exact ⟨rest ++ f.closingTasks (handles ++ more), by simp [Flow.tasks, hsplit]⟩
  · -- all screens are placed, so the handles still to come make no difference
    have hlength : handles.length = f.size := p.length_of_firstPass hfirst
    rw [firstPass_eq] at hfirst
    obtain ⟨done, task, rest, extra, s₂, hsplit, hdone, hfail⟩ :=
      (p.performAll_eq_error_iff _ s₁).1 (p.secondPass_eq_error_iff.1 hsecond)
    refine ⟨f.openingTasks η ++ done, task, handles ++ extra, s₂, ?_, hfail, fun more => ⟨rest, ?_⟩⟩
    · exact (p.performAll_append_eq_ok_iff _ _ _ _).2 ⟨handles, extra, s₁, hfirst, hdone, rfl⟩
    · rw [Flow.tasks, List.append_assoc handles, Flow.closingTasks_append hlength, hsplit]
      simp

/-- If a task of the flow fails after those before it, the passes fail with
it. -/
theorem passes_error_of_task {f : Flow} {done : List (Task η)} {task : Task η}
    {handles : List η} {s s₁ s' : σ} {failure : Failure}
    (hdone : (p.performAll done).run s = (.ok handles, s₁))
    (hfail : (p.perform task).run s₁ = (.error failure, s'))
    (hbegins : done ++ [task] <+: f.tasks handles) :
    (p.firstPass f >>= p.secondPass f).run s = (.error failure, s') := by
  have hopening : done ++ [task] <+: f.openingTasks η ∨ f.openingTasks η <+: done := by
    rcases List.prefix_or_prefix_of_prefix hbegins (List.prefix_append _ _) with h | h
    · exact Or.inl h
    · rcases List.prefix_concat_iff.1 h with heq | h
      · exact Or.inl (heq ▸ List.prefix_rfl)
      · exact Or.inr h
  rcases hopening with ⟨rest, hrest⟩ | ⟨later, rfl⟩
  · have hfirst : (p.firstPass f).run s = (.error failure, s') := by
      rw [firstPass_eq, performAll_eq_error_iff]
      exact ⟨done, task, rest, handles, s₁, by simp [← hrest], hdone, hfail⟩
    exact Act.run_bind_error hfirst
  · obtain ⟨first, extra, s₂, hfirst, hlater, rfl⟩ :=
      (p.performAll_append_eq_ok_iff _ _ _ _).1 hdone
    rw [← firstPass_eq] at hfirst
    have hlength : first.length = f.size := p.length_of_firstPass hfirst
    rw [Flow.tasks, Flow.closingTasks_append hlength, List.append_assoc,
      List.prefix_append_right_inj] at hbegins
    obtain ⟨rest, hrest⟩ := hbegins
    rw [Act.run_bind_ok hfirst, secondPass_eq_error_iff, performAll_eq_error_iff]
    exact ⟨later, task, rest, extra, s₁, by simp [← hrest], hlater, hfail⟩

/-! ## Renderings that fail -/

/-- A rendering fails exactly if the passes do, and ends as they do; what
leaves it is the failure as it is seen from outside. -/
theorem render_eq_error_iff {f : Flow} {s s' : σ} {fault : RenderFault} :
    (p.render f s).outcome = .error fault ∧ (p.render f s).state = s' ↔
      ∃ failure, (p.firstPass f >>= p.secondPass f).run s = (.error failure, s') ∧
        fault = failure.toRenderFault := by
  obtain ⟨t, hrun, -⟩ := p.draw_records f s {}
  cases hpasses : (p.firstPass f >>= p.secondPass f).run s with
  | mk outcome s₁ =>
      rw [hpasses] at hrun
      cases outcome with
      | error failure =>
          rw [render, hrun]
          constructor
          · rintro ⟨hfault, rfl⟩
            exact ⟨failure, rfl, (Except.error.inj hfault).symm⟩
          · rintro ⟨_, heq, rfl⟩
            cases heq
            exact ⟨rfl, rfl⟩
      | ok artifact =>
          rw [render_ok hrun]
          constructor
          · rintro ⟨hfault, -⟩
            cases hfault
          · rintro ⟨_, heq, -⟩
            cases heq

/-- An act that is written down first, with a change of its result. -/
theorem run_logged_bind_pure {β γ : Type} (call : Call η) (act : Act σ β) (change : β → γ) (s : σ)
    (log : List (Call η)) :
    (logged call act >>= fun b => pure (change b)).run (s, log) =
      (((act >>= fun b => pure (change b)).run s).1,
        (((act >>= fun b => pure (change b)).run s).2, log ++ [call])) := by
  have hlogged : (logged call act).run (s, log) =
      ((act.run s).1, ((act.run s).2, log ++ [call])) := rfl
  cases hact : act.run s with
  | mk outcome s₁ =>
      rw [hact] at hlogged
      cases outcome with
      | error failure => rw [Act.run_bind_error hlogged, Act.run_bind_error hact]
      | ok b =>
          rw [Act.run_bind_ok hlogged, Act.run_bind_ok hact]
          rfl

/-- A task is written down whether it succeeds or fails. -/
theorem run_traced_perform (task : Task η) (s : σ) (log : List (Call η)) :
    (p.traced.perform task).run (s, log) =
      (((p.perform task).run s).1, (((p.perform task).run s).2, log ++ [task.call])) := by
  cases task with
  | start f => exact run_logged_bind_pure _ (p.start f) (fun _ => []) s log
  | place screen => exact run_logged_bind_pure _ (p.place screen) (fun handle => [handle]) s log
  | connect w =>
      exact run_logged_bind_pure _ (p.connect w.source w.target w.label) (fun _ => []) s log
  | finish => exact run_logged_bind_pure _ p.finish (fun _ => []) s log

private theorem run_traced_performAll {s' : σ} (tasks : List (Task η)) :
    ∀ (s : σ) (log : List (Call η)) (handles : List η),
      (p.performAll tasks).run s = (.ok handles, s') →
        (p.traced.performAll tasks).run (s, log) =
          (.ok handles, (s', log ++ tasks.map Task.call)) := by
  induction tasks with
  | nil =>
      intro s log handles h
      cases h
      rw [List.map_nil, List.append_nil]
      rfl
  | cons task tasks ih =>
      intro s log handles h
      obtain ⟨first, more, s₁, hfirst, hmore, rfl⟩ := p.performAll_cons_eq_ok_iff.1 h
      have htraced : (p.traced.perform task).run (s, log) =
          (.ok first, (s₁, log ++ [task.call])) := by
        rw [run_traced_perform, hfirst]
      refine p.traced.performAll_cons_eq_ok_iff.2 ⟨first, more, _, htraced, ?_, rfl⟩
      rw [ih s₁ _ more hmore, List.map_cons, List.append_assoc, List.singleton_append]

/-- Renderings stop at the first act that fails. If none does, the acts that
the painter is asked for are the tasks of the flow, in order. A rendering fails
exactly if the painter, asked for these tasks one after the other, succeeds at
some and fails at the next. It has then asked for those and for the one that
failed, which begin the tasks of the flow whatever handles were still to come,
and for nothing else. A failed rendering leaves it as it was raised, and a plain
cause as a failed rendering with the wording of the cause and the cause
itself. -/
theorem render_stops_at_failure (f : Flow) (s : σ) :
    (∀ summary, (p.render f s).outcome = .ok summary →
      ∃ handles, handles.length = f.size ∧ ∀ log, (p.traced.render f (s, log)).state =
        ((p.render f s).state, log ++ (f.tasks handles).map Task.call)) ∧
    ∀ (fault : RenderFault) (s' : σ),
      ((p.render f s).outcome = .error fault ∧ (p.render f s).state = s') ↔
        ∃ done task failure handles s₁,
          (p.performAll done).run s = (.ok handles, s₁) ∧
          (p.perform task).run s₁ = (.error failure, s') ∧
          (∀ more, done ++ [task] <+: f.tasks (handles ++ more)) ∧
          (∀ log, (p.traced.render f (s, log)).state =
            (s', log ++ (done ++ [task]).map Task.call)) ∧
          (∀ raised, failure = .render raised → fault = raised) ∧
          ∀ cause, failure = .plain cause → fault = .failed cause.message (some cause) := by
  constructor
  · intro summary h
    obtain ⟨handles, s₁, hfirst, hsecond⟩ := p.exists_passes_of_render h
    refine ⟨handles, p.length_of_firstPass hfirst, fun log => ?_⟩
    rw [Flow.map_call_tasks, p.traced_render_of_passes hfirst hsecond]
  · intro fault s'
    rw [render_eq_error_iff]
    constructor
    · rintro ⟨failure, hpasses, rfl⟩
      obtain ⟨done, task, handles, s₁, hdone, hfail, hbegins⟩ :=
        p.exists_task_of_passes_error hpasses
      refine ⟨done, task, failure, handles, s₁, hdone, hfail, hbegins, fun log => ?_, ?_, ?_⟩
      · have htraced : (p.traced.perform task).run (s₁, log ++ done.map Task.call) =
            (.error failure, (s', log ++ (done ++ [task]).map Task.call)) := by
          rw [run_traced_perform, hfail]
          simp
        have hstops := p.traced.passes_error_of_task
          (p.run_traced_performAll done s log handles hdone)
          htraced (by simpa using hbegins [])
        exact (p.traced.render_eq_error_iff.2 ⟨failure, hstops, rfl⟩).2
      · rintro raised rfl
        rfl
      · rintro cause rfl
        rfl
    · rintro ⟨done, task, failure, handles, s₁, hdone, hfail, hbegins, -, hraised, hcause⟩
      refine ⟨failure, p.passes_error_of_task hdone hfail (by simpa using hbegins []), ?_⟩
      cases failure with
      | plain cause => exact hcause cause rfl
      | render raised => exact hraised raised rfl

end Painter

end Storyboard

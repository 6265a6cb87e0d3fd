import GameLink.Proofs.Client.Final

/-! # Who may dial

A connect begins with three checks: its token is not empty, the token has not expired,
and the client is idle. A connect that fails one of them ends at once and leaves nothing
behind but its failure (`after_refused`), and one that passes all dials
(`after_admitted`).

What a step leaves alone that brings no link up is said once, by `Unobtrusive`. The
writer, the stored cancellation and the links of others are among it as long as the
client is in use after the step: whoever is the last one to let go of a client takes its
link along.
-/
namespace GameLink.Client

/-- An operation that connects with `session` where the wall clock shows `clock`. -/
inductive Presents (clock : Int) (session : Session) : Operation → Prop
  | connect (online : Option Bool) : Presents clock session (.connect session online)
  | signIn {token : String} (online : Option Bool)
    (starts : Session.start token "" false clock = .ok session) :
    Presents clock session (.signIn token online)

/-- The client lets a connect with this session dial. -/
structure Machine.Admits (m : Machine) (session : Session) : Prop where
  token : session.token ≠ ""
  unexpired : session.accessExpired m.clock = .ok false
  idle : m.state = .idle

/-- What a step of task `i` from `a` to `b` leaves alone where `os` is all that is observed. -/
structure Unobtrusive (i : TaskId) (a : Machine) (os : List Observation) (b : Machine) : Prop where
  trace : b.trace = a.trace ++ os
  handler : b.handler = a.handler
  registry : b.registry = a.registry
  nextTask : b.nextTask = a.nextTask
  others : ∀ j, j ≠ i → b.task? j = a.task? j
  /-- What the users of a client share; a task may close the link that it holds itself. -/
  shared : b.inUse = true → b.writer = a.writer ∧ b.cancel = a.cancel ∧ b.cancelled = a.cancelled ∧
    ∀ l < a.links.length, (∀ t, a.task? i = some t → t.position.held ≠ some l) →
      b.links[l]? = a.links[l]?

namespace Machine

variable {a b c m : Machine} {i : TaskId} {t : Task} {os : List Observation}

/-! ## Letting go -/

theorem inUse_release (m : Machine) : m.release.inUse = m.inUse := by
  obtain ⟨_, _, _, _, heq⟩ := release_eq m
  rw [heq]
  rfl

/-- Nobody lets go of a client that is in use. -/
theorem release_used (h : m.inUse = true) : m.release = m := by
  have owned : (m.held || !m.tasks.isEmpty) = true := by
    rw [inUse, Bool.or_eq_true] at h
    rcases h with h | h
    · rw [h, Bool.true_or]
    · obtain ⟨t, ht, _⟩ := List.any_eq_true.mp h
      rw [List.isEmpty_eq_false_iff.mpr (List.ne_nil_of_mem ht), Bool.not_false, Bool.or_true]
  rw [release, releaseHandle, if_pos h, releaseWriter, if_pos owned]

theorem finish_used {r : Result} (h : (m.finish i r).inUse = true) :
    m.inUse = true ∧
      m.finish i r = { m.record (.finished i r) with tasks := without i m.tasks } := by
  have used := h
  rw [finish, removeTask, inUse_release] at used
  refine ⟨?_, release_used used⟩
  rw [inUse, Bool.or_eq_true] at used ⊢
  refine used.imp_right fun operates => ?_
  obtain ⟨t, ht, op⟩ := List.any_eq_true.mp operates
  exact List.any_eq_true.mpr ⟨t, (List.mem_filter.mp ht).1, op⟩

theorem finish_fields (i : TaskId) (r : Result) (m : Machine) :
    (m.finish i r).state = m.state ∧ (m.finish i r).generation = m.generation ∧
      (m.finish i r).handler = m.handler ∧ (m.finish i r).registry = m.registry ∧
      (m.finish i r).nextTask = m.nextTask ∧ (m.finish i r).tasks = without i m.tasks := by
  obtain ⟨_, _, _, _, heq⟩ := @removeTask_eq i (m.record (.finished i r))
  rw [finish, heq]
  exact ⟨rfl, rfl, rfl, rfl, rfl, rfl⟩

theorem inUse_move (i : TaskId) (p : Position) (m : Machine) : (m.move i p).inUse = m.inUse := by
  have same : (placed i p m.tasks).any Task.isOperation = m.tasks.any Task.isOperation := by
    rw [placed, List.any_map]
    congr 1
    funext t
    simp only [Function.comp_apply]
    split <;> rfl
  exact congrArg (m.held || ·) same

@[simp] theorem log_trace (e : Log.Entry) (m : Machine) : (m.log e).trace = m.trace := by
  simp [trace]

end Machine

namespace Unobtrusive

open Machine

variable {a b c : Machine} {i : TaskId} {t : Task} {os : List Observation}

theorem finish (h : Unobtrusive i a os c) (r : Result) :
    Unobtrusive i a (os ++ [.finished i r]) (c.finish i r) := by
  obtain ⟨_, _, handler, registry, nextTask, tasks⟩ := finish_fields i r c
  refine ⟨?_, handler.trans h.handler, registry.trans h.registry, nextTask.trans h.nextTask,
    fun j hj => ?_, fun used => ?_⟩
  · rw [finish_trace, h.trace, List.append_assoc]
  · rw [← h.others j hj, task?_eq, tasks, findTask_without, if_neg hj, task?_eq]
  · obtain ⟨before, heq⟩ := finish_used used
    rw [heq]
    exact h.shared before

theorem log (h : Unobtrusive i a os c) (e : Log.Entry) : Unobtrusive i a os (c.log e) :=
  ⟨(log_trace e c).trans h.trace, h.handler, h.registry, h.nextTask, h.others, h.shared⟩

/-- What is logged before the step does not matter. -/
theorem of_logged {history : List Record} (same : observed history = observed a.history)
    (h : Unobtrusive i { a with history := history } os b) : Unobtrusive i a os b := by
  refine ⟨h.trace.trans ?_, h.handler, h.registry, h.nextTask, h.others, h.shared⟩
  rw [Machine.trace, Machine.trace, same]

theorem refl (i : TaskId) (a : Machine) : Unobtrusive i a [] a :=
  ⟨(List.append_nil _).symm, rfl, rfl, rfl, fun _ _ => rfl,
    fun _ => ⟨rfl, rfl, rfl, fun _ _ _ => rfl⟩⟩

theorem move (h : Unobtrusive i a os c) (p : Position) : Unobtrusive i a os (c.move i p) := by
  refine ⟨h.trace, h.handler, h.registry, h.nextTask, fun j hj => ?_, fun used => h.shared ?_⟩
  · rw [← h.others j hj]
    exact findTask_placed.trans (if_neg hj)
  · rwa [inUse_move] at used

theorem state (h : Unobtrusive i a os c) (s : Lifecycle) :
    Unobtrusive i a os { c with state := s } :=
  ⟨h.trace, h.handler, h.registry, h.nextTask, h.others, h.shared⟩

theorem leaveLock (h : Unobtrusive i a os c) : Unobtrusive i a os (c.leaveLock i) :=
  ⟨h.trace, h.handler, h.registry, h.nextTask, h.others, h.shared⟩

end Unobtrusive

/-! ## The first step of a connect -/

namespace Machine

variable {m : Machine} {t : Task} {op : Operation} {session : Session} {online : Option Bool}

theorem refuseConnect_quiet {a c : Machine} (h : Unobtrusive t.id a [] c)
    (reason : String) :
    Unobtrusive t.id a [.finished t.id (.failed (.connection reason))] (c.refuseConnect t reason) ∧
      (c.refuseConnect t reason).state = c.state ∧
      (c.refuseConnect t reason).generation = c.generation := by
  obtain ⟨state, generation, _⟩ := finish_fields t.id (.failed (.connection reason)) c
  exact ⟨h.finish _, state, generation⟩

theorem beginConnect_refused
    (computes : session.token = "" ∨ ∃ b, session.accessExpired m.clock = .ok b)
    (refused : ¬m.Admits session) : ∃ reason,
      Unobtrusive t.id m [.finished t.id (.failed (.connection reason))]
        (m.beginConnect t session online) ∧
      (m.beginConnect t session online).state = m.state ∧
      (m.beginConnect t session online).generation = m.generation := by
  have quiet := Unobtrusive.refl t.id m
  -- What the checks of the token come to, together.
  generalize hx : (if session.token.isEmpty then .ok true else session.accessExpired m.clock) = x
  cases x with
  | error fault =>
    split at hx
    · cases hx
    · rename_i empty
      rcases computes with none | ⟨b, ok⟩
      · simp [none] at empty
      · cases ok.symm.trans hx
  | ok expired =>
    cases expired with
    | true =>
      rw [beginConnect]
      simp only [hx]
      exact ⟨_, refuseConnect_quiet (quiet.log _) _⟩
    | false =>
      have busy : m.state ≠ .idle := by
        rintro idle
        split at hx
        · cases hx
        · rename_i some
          exact refused ⟨fun none => some (by rw [none]; rfl), hx, idle⟩
      rw [beginConnect]
      simp only [hx, if_neg busy]
      exact ⟨_, refuseConnect_quiet quiet _⟩

theorem beginConnect_admitted (ht : m.task? t.id = some t) (admits : m.Admits session) :
    Unobtrusive t.id m [] (m.beginConnect t session online) ∧
      (m.beginConnect t session online).state = .connecting ∧
      (m.beginConnect t session online).generation = m.generation + 1 ∧
      ∃ deadline stage, (m.beginConnect t session online).task? t.id = some { t with
        position := .dialing (m.generation + 1)
          (Link.address m.settings.server session.token
            (online.getD m.settings.realtime.appearOnline)) deadline stage } := by
  have some : session.token.isEmpty = false := by
    simpa using admits.token
  have dials : m.beginConnect t session online =
      m.beginDial t session (online.getD m.settings.realtime.appearOnline) := by
    simp [beginConnect, some, admits.unexpired, admits.idle]
  rw [dials, beginDial]
  refine ⟨Unobtrusive.move (Unobtrusive.log ?_ _) _, rfl, rfl, _, _, task?_move_self ht _⟩
  exact ⟨(List.append_nil _).symm, rfl, rfl, rfl, fun _ _ => rfl,
    fun _ => ⟨rfl, rfl, rfl, fun _ _ _ => rfl⟩⟩

/-- The first step of an operation that connects. -/
theorem run_presents (ht : m.task? t.id = some t) (ha : t.aborted = false)
    (hr : t.role = .operation op) (hp : t.position = .start)
    (presents : Presents m.clock session op) :
    ∃ history online, observed history = observed m.history ∧
      m.run (.task t.id) = { m with history := history }.beginConnect t session online := by
  have run : m.run (.task t.id) = m.runStart t := by
    rw [Machine.run, ht]
    dsimp only
    rw [runTask, ha, hp]
    rfl
  cases presents with
  | connect online => exact ⟨m.history, online, rfl, by rw [run, runStart, hr]⟩
  | signIn online starts =>
    refine ⟨(m.log session.appliedNote).history, online, by simp, ?_⟩
    rw [run, runStart, hr]
    simp only [beginSignIn, starts]
    rfl

theorem after_refused (ht : m.task? t.id = some t) (ha : t.aborted = false)
    (hr : t.role = .operation op) (hp : t.position = .start)
    (presents : Presents m.clock session op)
    (computes : session.token = "" ∨ ∃ b, session.accessExpired m.clock = .ok b)
    (refused : ¬m.Admits session) : ∃ reason,
      Unobtrusive t.id m [.finished t.id (.failed (.connection reason))]
        (m.after (.work (.task t.id))) ∧
      (m.after (.work (.task t.id))).state = m.state ∧
      (m.after (.work (.task t.id))).generation = m.generation := by
  obtain ⟨history, online, same, first⟩ := run_presents ht ha hr hp presents
  obtain ⟨reason, quiet, kept⟩ := beginConnect_refused (m := { m with history := history }) (t := t)
    computes fun admits => refused ⟨admits.token, admits.unexpired, admits.idle⟩
  rw [after, first]
  exact ⟨reason, quiet.of_logged same, kept⟩

theorem after_admitted (ht : m.task? t.id = some t) (ha : t.aborted = false)
    (hr : t.role = .operation op) (hp : t.position = .start)
    (presents : Presents m.clock session op) (admits : m.Admits session) :
    Unobtrusive t.id m [] (m.after (.work (.task t.id))) ∧
      (m.after (.work (.task t.id))).state = .connecting ∧
      (m.after (.work (.task t.id))).generation = m.generation + 1 ∧
      ∃ u online deadline stage, (m.after (.work (.task t.id))).task? t.id = some u ∧
        u.position = .dialing (m.generation + 1)
          (Link.address m.settings.server session.token online) deadline stage := by
  obtain ⟨history, online, same, first⟩ := run_presents ht ha hr hp presents
  obtain ⟨quiet, state, generation, deadline, stage, there⟩ :=
    beginConnect_admitted (m := { m with history := history }) ht
      ⟨admits.token, admits.unexpired, admits.idle⟩
  rw [after, first]
  exact ⟨quiet.of_logged same, state, generation, _, _, deadline, stage, there, rfl⟩

end Machine

end GameLink.Client

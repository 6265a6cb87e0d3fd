import GameLink.Client.Machine
import GameLink.Proofs.Secrecy.Address

/-! # A client without the secrets of its tokens

A client keeps tokens in the operations it was asked for, in its policy and in
the addresses it dials. The veil takes header and signature off each of them.
What a client does is the same with and without it, so every function of the
machine commutes with the veil.
-/
namespace GameLink

/-! ## The veil -/

def Link.veil (server : Settings.Server) (l : Link) : Link := { l with url := veilUrl server l.url }

namespace Client

def Operation.veil : Operation → Operation
  | .connect session online => .connect session.veil online
  | .signIn token online => .signIn (Claims.veil token) online
  | op => op

def Role.veil : Role → Role
  | .operation op => .operation op.veil
  | role => role

def Position.veil (server : Settings.Server) : Position → Position
  | .dialing g url deadline stage => .dialing g (Link.veilUrl server url) deadline stage
  | position => position

def Task.veil (server : Settings.Server) (t : Task) : Task :=
  { t with role := t.role.veil, position := t.position.veil server }

def Policy.veil : Policy → Policy
  | .redial left token => .redial left (Claims.veil token)
  | policy => policy

/-- What is observed of a token is the address that is dialed. The start of an operation is on
record with the operation itself. -/
def Observation.veil (server : Settings.Server) : Observation → Observation
  | .dialed task link url => .dialed task link (Link.veilUrl server url)
  | .started task op => .started task op.veil
  | o => o

def Record.veil (server : Settings.Server) (r : Record) : Record :=
  { r with what := r.what.veil server }

def Machine.veil (server : Settings.Server) (m : Machine) : Machine :=
  { m with
    links := m.links.map (Link.veil server)
    policy := m.policy.veil
    tasks := m.tasks.map (Task.veil server)
    history := m.history.map (Record.veil server) }

theorem Task.veil_isOperation {server : Settings.Server} (t : Task) :
    (t.veil server).isOperation = t.isOperation := by
  obtain ⟨id, role, position, aborted⟩ := t
  cases role <;> rfl

/-- The same choice is made on both sides. -/
theorem veiled_ite {α β : Type} {f : α → β} {c c' : Prop} [Decidable c] [Decidable c'] {a b : α}
    {a' b' : β} (hc : c ↔ c') (ha : c → f a = a') (hb : ¬ c → f b = b') :
    f (if c then a else b) = if c' then a' else b' := by
  by_cases h : c
  · rw [if_pos h, if_pos (hc.mp h), ha h]
  · rw [if_neg h, if_neg (fun h' => h (hc.mpr h')), hb h]

namespace Machine
variable {server : Settings.Server} (m : Machine)

@[simp] theorem veil_state : (m.veil server).state = m.state := rfl
@[simp] theorem veil_settings : (m.veil server).settings = m.settings := rfl
@[simp] theorem veil_now : (m.veil server).now = m.now := rfl
@[simp] theorem veil_clock : (m.veil server).clock = m.clock := rfl
@[simp] theorem veil_registry : (m.veil server).registry = m.registry := rfl
@[simp] theorem veil_writer : (m.veil server).writer = m.writer := rfl
@[simp] theorem veil_handler : (m.veil server).handler = m.handler := rfl
@[simp] theorem veil_dialer : (m.veil server).dialer = m.dialer := rfl
@[simp] theorem veil_closeMode : (m.veil server).closeMode = m.closeMode := rfl
@[simp] theorem veil_policy : (m.veil server).policy = m.policy.veil := rfl
@[simp] theorem veil_held : (m.veil server).held = m.held := rfl
@[simp] theorem veil_cancel : (m.veil server).cancel = m.cancel := rfl

/-! ## Observing -/

theorem record_veil (o : Observation) :
    (m.record o).veil server = (m.veil server).record (o.veil server) := rfl

theorem log_veil (e : Log.Entry) : (m.log e).veil server = (m.veil server).log e := rfl

theorem logAll_veil (entries : List Log.Entry) :
    (m.logAll entries).veil server = (m.veil server).logAll entries := by
  induction entries generalizing m with
  | nil => rfl
  | cons e rest ih => exact ih (m.log e)

theorem emit_veil (e : Event) : (m.emit e).veil server = (m.veil server).emit e := by
  simp only [emit, record, veil_handler]
  cases m.handler with
  | direct => rfl
  | channel c => exact logAll_veil _ _

/-! ## Tasks -/

theorem task?_veil (id : TaskId) :
    (m.veil server).task? id = (m.task? id).map (Task.veil server) := by
  rw [task?, task?, veil, List.find?_map]
  rfl

theorem move_veil (id : TaskId) (position : Position) :
    (m.move id position).veil server = (m.veil server).move id (position.veil server) := by
  have htasks : (m.move id position).tasks.map (Task.veil server) =
      ((m.veil server).move id (position.veil server)).tasks := by
    simp only [move, veil, List.map_map]
    refine List.map_congr_left fun t _ => ?_
    by_cases ht : t.id = id
    · have ht' : (t.veil server).id = id := ht
      rw [Function.comp_apply, Function.comp_apply, if_pos ht, if_pos ht']
      rfl
    · have ht' : (t.veil server).id ≠ id := ht
      rw [Function.comp_apply, Function.comp_apply, if_neg ht, if_neg ht']
  rw [veil, htasks]
  rfl

theorem spawn_veil (role : Role) :
    (m.spawn role).veil server = (m.veil server).spawn role.veil := by
  simp only [spawn, veil, List.map_append]
  rfl

theorem start_veil (op : Operation) :
    (m.start op).veil server = (m.veil server).start op.veil := by
  rw [start, record_veil, spawn_veil]
  rfl

theorem cancelStored_veil : m.cancelStored.veil server = (m.veil server).cancelStored := by
  simp only [cancelStored, veil_cancel]
  cases m.cancel <;> rfl

/-! ## Links -/

theorem updateLink_veil (id : LinkId) {f g : Link → Link}
    (h : ∀ l, (f l).veil server = g (l.veil server)) :
    (m.updateLink id f).veil server = (m.veil server).updateLink id g := by
  have hlinks : (m.links.modify id f).map (Link.veil server) =
      (m.links.map (Link.veil server)).modify id g := by
    refine List.ext_getElem? fun i => ?_
    simp only [List.getElem?_map, List.getElem?_modify]
    cases m.links[i]? with
    | none => rfl
    | some l =>
      by_cases hi : id = i
      · simp [hi, h]
      · simp [hi]
  simp only [updateLink, veil, hlinks]

theorem replaceLink_veil (id : LinkId) (l : Link) :
    (m.updateLink id fun _ => l).veil server =
      (m.veil server).updateLink id fun _ => l.veil server :=
  m.updateLink_veil id fun _ => rfl

theorem closeWriter_veil (id : LinkId) :
    (m.closeWriter id).veil server = (m.veil server).closeWriter id :=
  m.updateLink_veil id fun _ => rfl

theorem closeReader_veil (id : LinkId) :
    (m.closeReader id).veil server = (m.veil server).closeReader id :=
  m.updateLink_veil id fun _ => rfl

theorem link?_veil (id : LinkId) :
    (m.veil server).links[id]? = (m.links[id]?).map (Link.veil server) := List.getElem?_map

/-! ## The writer lock -/

theorem joinLock_veil (id : TaskId) :
    (m.joinLock id).veil server = (m.veil server).joinLock id := rfl

theorem leaveLock_veil (id : TaskId) :
    (m.leaveLock id).veil server = (m.veil server).leaveLock id := rfl

/-! ## The end of a task -/

theorem inUse_veil : (m.veil server).inUse = m.inUse := by
  simp only [inUse, veil, List.any_map]
  congr 2
  funext t
  exact t.veil_isOperation

theorem releaseHandle_veil : m.releaseHandle.veil server = (m.veil server).releaseHandle := by
  simp only [releaseHandle, inUse_veil]
  split
  · rfl
  · exact cancelStored_veil m

theorem releaseWriter_veil : m.releaseWriter.veil server = (m.veil server).releaseWriter := by
  have hempty : (m.veil server).tasks.isEmpty = m.tasks.isEmpty := by simp [veil]
  simp only [releaseWriter, hempty, veil_held, veil_writer]
  split
  · rfl
  · cases m.writer with
    | none => rfl
    | some link => exact closeWriter_veil _ link

theorem release_veil : m.release.veil server = (m.veil server).release := by
  rw [release, release, releaseWriter_veil, releaseHandle_veil]

theorem removeTask_veil (id : TaskId) :
    (m.removeTask id).veil server = (m.veil server).removeTask id := by
  have htasks : (m.tasks.filter (fun t => t.id != id)).map (Task.veil server) =
      (m.tasks.map (Task.veil server)).filter (fun t => t.id != id) := by
    rw [List.filter_map]
    rfl
  simp only [removeTask, release_veil]
  simp only [veil, htasks]

theorem finish_veil (id : TaskId) (result : Result) :
    (m.finish id result).veil server = (m.veil server).finish id result := by
  rw [finish, removeTask_veil, record_veil]
  rfl

end Machine
end Client
end GameLink

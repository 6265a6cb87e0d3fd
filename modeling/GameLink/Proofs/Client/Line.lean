import GameLink.Proofs.Client.Errand
import GameLink.Proofs.Registry.Table

/-! # The line for the writer

Whoever has a frame to write, a link to install or one to tear down queues for
the writer. The queue, those who stand in it, the ids given out and what was
written are a machine of their own, and every change of a client is a step of it
(`Change.line`). A request gets its id at the moment at which it joins the
queue, and only the head of the queue writes, so the ids written and those that
still wait are in the order in which they were given out (`Line.Ranked.ordered`).
-/
namespace GameLink.Client

open Function (update)

/-! ## What was written -/

/-- A write that completed. -/
structure Utterance where
  task : TaskId
  link : LinkId
  frame : Envelope.Outgoing

/-- The call that a write belongs to: a heartbeat makes one under each of its ids. -/
def Utterance.call (u : Utterance) : TaskId × Option String := (u.task, u.frame.cid)

def Observation.utterance : Observation → Option Utterance
  | .wrote i link frame => some ⟨i, link, frame⟩
  | _ => none

/-- What was written, on any link. -/
def utterances (tr : List Observation) : List Utterance := tr.filterMap Observation.utterance

@[simp] theorem utterances_append (a b : List Observation) :
    utterances (a ++ b) = utterances a ++ utterances b := List.filterMap_append

theorem mem_utterances {tr : List Observation} {i : TaskId} {link : LinkId}
    {frame : Envelope.Outgoing} : ⟨i, link, frame⟩ ∈ utterances tr ↔ .wrote i link frame ∈ tr :=
  mem_picked fun o => by cases o <;> simp [Observation.utterance]

/-! ## The machine -/

/-- How a task stands to the writer. -/
inductive Stance
  /-- An operation that has not begun. -/
  | new
  /-- In the queue or at its head, perhaps with a frame to write. -/
  | line (draft : Option Envelope.Outgoing)
  | said (frame : Envelope.Outgoing)

def Exchange.stance (x : Exchange) : ExchangeStage → Stance
  | .awaiting => .said (Machine.frameOf x)
  | .queued | .stalled _ => .line (some (Machine.frameOf x))

def stances (r : Role) : Position → Option Stance
  | .start =>
    match r with
    | .operation _ => some .new
    | _ => none
  | .installing _ _ | .tearing _ .queued => some (.line none)
  | .exchanging x stage | .probing _ x stage => some (x.stance stage)
  | .dialing _ _ _ _ | .discarding _ | .tearing _ (.closing _ _) | .reading | .ticking _ => none

structure Line where
  queue : List TaskId
  stances : TaskId → Option Stance
  /-- How many ids have been given out. -/
  issued : Nat
  next : TaskId
  written : List Utterance

def Machine.line (tr : List Observation) (m : Machine) : Line where
  queue := m.lockQueue
  stances := m.view Client.stances
  issued := m.registry.issued
  next := m.nextTask
  written := utterances tr

namespace Line

def InLine (c : Line) (i : TaskId) : Prop := ∃ draft, c.stances i = some (.line draft)

/-- What a task brings along when it joins the queue, and how many ids have been given out then. -/
inductive Brings (c : Line) (i : TaskId) : Option Envelope.Outgoing → Nat → Prop
  | nothing : Brings c i none c.issued
  | message (frame : Envelope.Outgoing) (hi : c.stances i = some .new) (hf : frame.cid = none) :
      Brings c i (some frame) c.issued
  | request (frame : Envelope.Outgoing) (hf : frame.cid = some (toString (c.issued + 1))) :
      Brings c i (some frame) (c.issued + 1)

inductive Step (c : Line) : Line → Prop
  | stay (next : TaskId) (hn : c.next ≤ next) : Step c { c with next := next }
  | came : Step c { c with stances := update c.stances c.next (some .new), next := c.next + 1 }
  | joined (i : TaskId) (draft : Option Envelope.Outgoing) (issued : Nat) (hi : ¬ c.InLine i)
      (hd : c.Brings i draft issued) :
      Step c
        { c with
          queue := c.queue ++ [i]
          stances := update c.stances i (some (.line draft))
          issued := issued }
  | wrote (i : TaskId) (link : LinkId) (frame : Envelope.Outgoing)
      (hi : c.stances i = some (.line (some frame))) (hh : c.queue.head? = some i)
      (hlt : i < c.next) :
      Step c
        { c with
          queue := c.queue.erase i
          stances := update c.stances i (some (.said frame))
          written := c.written ++ [⟨i, link, frame⟩] }
  | left (i : TaskId) (queue : List TaskId) (issued : Nat) (next : TaskId)
      (hq : queue = c.queue.erase i ∨ queue = c.queue ∧ ¬ c.InLine i) (hi : c.issued ≤ issued)
      (hn : c.next ≤ next) :
      Step c
        { c with
          queue := queue
          stances := update c.stances i none
          issued := issued
          next := next }

end Line

/-! ## Changes are steps -/

section
variable {m n : Machine} {t : Task} {os tr : List Observation}

theorem Host.stances_position (host : Host) (x : Exchange) (stage : ExchangeStage) (r : Role) :
    stances r (host.position x stage) = some (x.stance stage) := by
  cases host <;> rfl

theorem not_inLine (ht : m.task? t.id = some t)
    (h : ∀ draft, stances t.role t.position ≠ some (.line draft)) :
    ¬ (m.line tr).InLine t.id := by
  rintro ⟨draft, hd⟩
  exact h draft ((view_of ht).symm.trans hd)

/-- Nobody stands in line where a request or a probe begins. -/
theorem Host.Ready.not_inLine {host : Host} (ht : m.task? t.id = some t) (h : host.Ready m t) :
    ¬ (m.line tr).InLine t.id := by
  refine Client.not_inLine ht fun draft => ?_
  cases host with
  | operation op => rw [h.1, h.2.1]; exact fun h => nomatch h
  | heartbeat g k =>
    obtain ⟨_, _, hp, _⟩ := h
    rw [hp]
    exact fun h => nomatch h

theorem Line.goes {c : Line} {queue : List TaskId} {stances : TaskId → Option Stance} {issued : Nat}
    {next : TaskId} {written : List Utterance} (hq : n.lockQueue = queue)
    (hv : n.view Client.stances = stances) (hi : n.registry.issued = issued)
    (hn : n.nextTask = next) (hw : utterances tr = written)
    (h : Line.Step c ⟨queue, stances, issued, next, written⟩) : Line.Step c (n.line tr) := by
  subst hq hv hi hn hw
  exact h

theorem Line.still (hq : n.lockQueue = m.lockQueue)
    (hv : n.view Client.stances = m.view Client.stances)
    (hi : n.registry.issued = m.registry.issued) (hn : m.nextTask ≤ n.nextTask)
    (hw : utterances os = []) : Line.Step (m.line tr) (n.line (tr ++ os)) :=
  Line.goes hq hv hi rfl (by rw [utterances_append, hw, List.append_nil]; rfl)
    (.stay (c := m.line tr) n.nextTask hn)

theorem Line.joins (i : TaskId) {draft : Option Envelope.Outgoing}
    (hl : ¬ (m.line tr).InLine i) (hd : (m.line tr).Brings i draft n.registry.issued)
    (hq : n.lockQueue = m.lockQueue ++ [i])
    (hv : n.view Client.stances = update (m.view Client.stances) i (some (.line draft)))
    (hn : n.nextTask = m.nextTask) (hw : utterances os = []) :
    Line.Step (m.line tr) (n.line (tr ++ os)) :=
  Line.goes hq hv rfl hn (by rw [utterances_append, hw, List.append_nil]; rfl)
    (.joined (c := m.line tr) i draft n.registry.issued hl hd)

theorem Line.leaves (i : TaskId)
    (hq : n.lockQueue = m.lockQueue.erase i ∨
      n.lockQueue = m.lockQueue ∧ ¬ (m.line tr).InLine i)
    (hv : n.view Client.stances = update (m.view Client.stances) i none)
    (hi : m.registry.issued ≤ n.registry.issued) (hn : m.nextTask ≤ n.nextTask)
    (hw : utterances os = []) : Line.Step (m.line tr) (n.line (tr ++ os)) :=
  Line.goes rfl hv rfl rfl (by rw [utterances_append, hw, List.append_nil]; rfl)
    (.left (c := m.line tr) i n.lockQueue n.registry.issued n.nextTask hq hi hn)

theorem stances_placed (ht : m.task? t.id = some t) (p : Position) :
    view stances (placed t.id p m.tasks) = update (m.view stances) t.id (stances t.role p) :=
  view_placed ht

/-- A task that moves where it is out of sight is as good as gone. -/
theorem stances_placed_none (ht : m.task? t.id = some t) {p : Position}
    (hp : stances t.role p = none) :
    view stances (placed t.id p m.tasks) = update (m.view stances) t.id none := by
  rw [stances_placed ht, hp]

theorem Host.stances_released (host : Host) (ht : m.task? t.id = some t) :
    view stances (host.released t.id m.tasks) = update (m.view stances) t.id none := by
  cases host with
  | operation op => exact view_without _
  | heartbeat g k => exact stances_placed_none ht rfl

theorem Host.utterances_farewell (host : Host) (i : TaskId) (outcome : Except Failure Answer) :
    utterances (host.farewell i outcome) = [] := by
  cases host <;> rfl

theorem utterances_heard (m : Machine) (frame : Bytes) : utterances (heard m frame) = [] := by
  unfold heard
  split <;> rfl

theorem Outside.line (hm : Fit m) (h : Outside m os n) :
    Line.Step (m.line tr) (n.line (tr ++ os)) := by
  cases h with
  | started op policy h =>
    have hv : Client.view stances (m.tasks ++ [⟨m.nextTask, .operation op, .start, false⟩]) =
        update (m.view stances) m.nextTask (some .new) := view_append (hm.absent (Nat.le_refl _))
    exact Line.goes rfl hv rfl rfl (by rw [utterances_append]; exact List.append_nil _)
      (.came (c := m.line tr))
  | aborted id h => exact Line.still rfl (view_told id) rfl (Nat.le_refl _) rfl
  | _ => exact Line.still rfl rfl rfl (Nat.le_refl _) rfl

theorem Connecting.line (ht : m.task? t.id = some t) (h : Connecting m t os n) :
    Line.Step (m.line tr) (n.line (tr ++ os)) := by
  cases h with
  | begun op url deadline stage hr hp hm hs =>
    refine Line.leaves t.id (.inr ⟨rfl, ?_⟩) (stances_placed_none ht rfl) (Nat.le_refl _)
      (Nat.le_refl _) rfl
    exact not_inLine ht (by rw [hr, hp]; exact fun _ h => nomatch h)
  | backedOut n hr hp hs => exact Line.still rfl rfl rfl (Nat.le_refl _) rfl
  | hung op g url deadline wake hr hp =>
    exact Line.still rfl (view_placed_none ht (by rw [hp]; rfl) rfl) rfl (Nat.le_refl _) rfl
  | abandoned g url deadline stage hp hg hs => exact Line.still rfl rfl rfl (Nat.le_refl _) rfl
  | dialed op g url deadline stage hr hp =>
    refine Line.joins t.id ?_ .nothing rfl (stances_placed ht _) rfl rfl
    exact not_inLine ht (by rw [hp]; exact fun _ h => nomatch h)
  | installed op g link hr hp hl hg hs =>
    refine Line.leaves t.id (.inl rfl) ?_ (Nat.le_refl _) (Nat.le_add_right _ _) rfl
    rw [Machine.view, view_without, view_append_same rfl, view_append_same rfl]
    rfl
  | outdated op g link hr hp hl hg =>
    exact Line.leaves t.id (.inl rfl) (stances_placed_none ht rfl) (Nat.le_refl _) (Nat.le_refl _)
      rfl
  | discarded op link f hr hp =>
    exact Line.still rfl (view_without_same ht (by rw [hp]; rfl)) rfl (Nat.le_refl _) rfl

theorem Exchanging.line (hm : Fit m) (ht : m.task? t.id = some t) (h : Exchanging m t os n) :
    Line.Step (m.line tr) (n.line (tr ++ os)) := by
  have here : ∀ {host : Host} {x : Exchange} {stage : ExchangeStage},
      t.position = host.position x stage → m.view stances t.id = some (x.stance stage) := by
    intro host x stage hp
    have hv : m.view stances t.id = stances t.role t.position := view_of ht
    rw [hv, hp, host.stances_position]
  have unqueued : ∀ (host : Host) {x : Exchange}, t.position = host.position x .awaiting →
      ¬ (m.line tr).InLine t.id := by
    intro host x hp
    refine not_inLine ht fun draft => ?_
    rw [hp, host.stances_position]
    exact fun h => nomatch h
  have silent : ∀ (os : List Observation) (host : Host) (outcome : Except Failure Answer),
      utterances os = [] → utterances (os ++ host.farewell t.id outcome) = [] := by
    intro os host outcome ho
    rw [utterances_append, ho, host.utterances_farewell]
    rfl
  cases h with
  | sending op message hr hp hq hs hmsg =>
    have hi : m.view stances t.id = some .new :=
      Eq.trans (view_of ht) (by rw [hr, hp]; rfl)
    refine Line.joins t.id ?_ (.message ⟨none, message⟩ hi rfl) rfl (stances_placed ht _) rfl rfl
    exact not_inLine ht (by rw [hr, hp]; exact fun _ h => nomatch h)
  | requesting host x hh hx hs hmsg =>
    have hf : (Machine.frameOf x).cid = some (toString (m.registry.issued + 1)) := by
      rw [Machine.frameOf, hx]
      rfl
    refine Line.joins t.id (hh.not_inLine ht) (.request (Machine.frameOf x) hf) rfl ?_ rfl rfl
    exact (stances_placed ht _).trans (by rw [host.stances_position]; rfl)
  | refused host hh hs =>
    exact Line.leaves t.id (.inr ⟨rfl, hh.not_inLine ht⟩) (host.stances_released ht)
      (Nat.le_succ _) (Nat.le_refl _) (silent [_, _] host _ rfl)
  | stalled host x l link hr hv hp hl hw hk hf =>
    refine Line.still rfl (view_placed_same ht ?_) rfl (Nat.le_refl _) rfl
    rw [hp, host.stances_position, host.stances_position]
    rfl
  | written host x l link link' hr hv hp hl hw hk hf =>
    have hv' : view stances (placed t.id (host.position x .awaiting) m.tasks) =
        update (m.view stances) t.id (some (.said (Machine.frameOf x))) := by
      rw [stances_placed ht, host.stances_position]
      rfl
    exact Line.goes rfl hv' rfl rfl (utterances_append _ _)
      (.wrote (c := m.line tr) t.id l (Machine.frameOf x) (here hp) (beq_iff_eq.mp hl)
        (hm.fresh _ _ ht))
  | sent op x hr hp hx =>
    exact Line.leaves t.id (.inr ⟨rfl, unqueued (.operation op) hp⟩) (view_without _)
      (Nat.le_refl _) (Nat.le_refl _) rfl
  | notSent op x stage f hr hp hx hn =>
    exact Line.leaves t.id (.inl rfl) (view_without _) (Nat.le_refl _) (Nat.le_refl _) rfl
  | unsent host x stage k f hr hv hp hx hn =>
    exact Line.leaves t.id (.inl rfl) (host.stances_released ht) (Nat.le_refl _) (Nat.le_refl _)
      (silent [.answered t.id k.cid (.error f)] host _ rfl)
  | replied host x k outcome hr hv hp hx hw =>
    exact Line.leaves t.id (.inr ⟨rfl, unqueued host hp⟩) (host.stances_released ht) (Nat.le_refl _)
      (Nat.le_refl _) (silent [.answered t.id k.cid (outcome.map .envelope)] host _ rfl)
  | givenUp host x stage hr hp hv =>
    refine Line.leaves t.id (.inl rfl) (view_without _) ?_ (Nat.le_refl _) rfl
    dsimp only
    split <;> exact Nat.le_refl _

theorem Background.line (ht : m.task? t.id = some t) (h : Background m t os n) :
    Line.Step (m.line tr) (n.line (tr ++ os)) := by
  cases h with
  | readerStarted g link hr hp =>
    exact Line.still rfl (view_placed_none ht (by rw [hr, hp]; rfl) rfl) rfl (Nat.le_refl _) rfl
  | heartbeatStarted g hr hp =>
    exact Line.still rfl (view_placed_none ht (by rw [hr, hp]; rfl) rfl) rfl (Nat.le_refl _) rfl
  | dispatched g link l l' frame hr hp hc hl hf =>
    exact Line.still rfl rfl (hear_issued frame m.registry) (Nat.le_refl _)
      (utterances_heard m frame)
  | readerLeft g link hr hp ho =>
    exact Line.still rfl (view_without_same ht (by rw [hp]; rfl)) rfl (Nat.le_refl _) rfl
  | heartbeatLeft g k hr hp ho =>
    exact Line.still rfl (view_without_same ht (by rw [hp]; rfl)) rfl (Nat.le_refl _) rfl

theorem Tearing.line (ht : m.task? t.id = some t) (h : Tearing m t os n) :
    Line.Step (m.line tr) (n.line (tr ++ os)) := by
  cases h with
  | begun td links hb hg hs =>
    refine Line.joins t.id (not_inLine ht ?_) .nothing rfl (stances_placed ht _) rfl ?_
    · cases hb with
      | close n hr hp => rw [hr, hp]; exact fun _ h => nomatch h
      | remote g link l l' hr hp => rw [hp]; exact fun _ h => nomatch h
      | failed g link l l' f hr hp => rw [hp]; exact fun _ h => nomatch h
      | silent g k hr hp => rw [hp]; exact fun _ h => nomatch h
    · split <;> rfl
  | taken td link hp hl hw =>
    exact Line.leaves t.id (.inl rfl) (stances_placed_none ht rfl) (Nat.le_refl _) (Nat.le_refl _)
      rfl
  | ended td stage links queue hf hp hv =>
    refine Line.leaves t.id ?_ (view_without _) (Nat.le_refl _) (Nat.le_refl _) ?_
    · cases hv with
      | empty hl hw => exact .inl rfl
      | closed link deadline =>
        exact .inr ⟨rfl, not_inLine ht (by rw [hp]; exact fun _ h => nomatch h)⟩
    · split <;> split <;> split <;> rfl

/-- Whoever leaves the client leaves the queue with it, or did not stand in line. -/
theorem Leaving.unqueued (h : Leaving m t os n) :
    n.lockQueue = m.lockQueue.erase t.id ∨
      n.lockQueue = m.lockQueue ∧ ∀ draft, stances t.role t.position ≠ some (.line draft) := by
  cases h with
  | finished op r hr hp =>
    refine .inr ⟨rfl, ?_⟩
    rcases hp with ⟨hp, _⟩ | ⟨_, _, _, _, hp⟩
    · rw [hr, hp]
      exact fun _ h => nomatch h
    · rw [hp]
      exact fun _ h => nomatch h
  | dropped links queue ha hd =>
    generalize t.position = p at hd ⊢
    cases hd with
    | installing g link => exact .inl rfl
    | queued td => exact .inl rfl
    | start => exact .inr ⟨rfl, fun _ => by cases t.role <;> exact fun h => nomatch h⟩
    | _ => exact .inr ⟨rfl, fun _ h => nomatch h⟩

theorem Leaving.line (ht : m.task? t.id = some t) (h : Leaving m t os n) :
    Line.Step (m.line tr) (n.line (tr ++ os)) := by
  have apart : n.lockQueue = m.lockQueue.erase t.id ∨
      n.lockQueue = m.lockQueue ∧ ¬ (m.line tr).InLine t.id :=
    h.unqueued.imp_right (And.imp_right (not_inLine ht))
  cases h with
  | finished =>
    exact Line.leaves t.id apart (view_without _) (Nat.le_refl _) (Nat.le_refl _) rfl
  | dropped =>
    exact Line.leaves t.id apart (view_without _) (Nat.le_refl _) (Nat.le_refl _) rfl

/-- A change of a client is a step of its line. -/
theorem Change.line (hm : Fit m) (h : Change m os n) :
    Line.Step (m.line tr) (n.line (tr ++ os)) := by
  cases h with
  | outside h => exact h.line hm
  | released h => cases h <;> exact Line.still rfl rfl rfl (Nat.le_refl _) rfl
  | connecting ht h => exact h.line ht
  | exchanging ht h => exact h.line hm ht
  | background ht h => exact h.line ht
  | tearing ht h => exact h.line ht
  | leaving ht h => exact h.line ht

end

end GameLink.Client

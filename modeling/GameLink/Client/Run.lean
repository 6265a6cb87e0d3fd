import GameLink.Client.Step

/-! # Runs of the client

What happens from outside is an action: a caller starts or drops an operation,
the server end sends, fails or closes, a mode changes, time passes. A run is any
sequence of actions and of steps of workers that can go on, in any order, except
that a server end that is gone does nothing, and that time passes only when no
worker can go on, and then no further than the next deadline.
-/
namespace GameLink.Client

inductive Action
  | start (op : Operation)
  | abort (task : TaskId)
  | dropHandle
  | setDialer (d : Dialer)
  | setCloseMode (c : CloseMode)
  | setClock (seconds : Int)
  /-- The server end puts a frame on its way. -/
  | serverPush (link : LinkId) (frame : ServerFrame)
  | serverMode (link : LinkId) (mode : WriteMode)
  | serverClose (link : LinkId)
  /-- The server end reads a frame. -/
  | serverTake (link : LinkId)
  /-- The application takes an event from the channel. -/
  | receive
  | elapse (ms : Nat)

namespace Machine

def abort (id : TaskId) (m : Machine) : Machine :=
  { m with tasks := m.tasks.map (fun t => if t.id = id then { t with aborted := true } else t) }

def receive (m : Machine) : Machine × Option Event :=
  match m.handler with
  | .channel c => ({ m with handler := .channel c.receive.1 }, c.receive.2)
  | .direct => (m, none)

def dropHandle (m : Machine) : Machine := { m with held := false }.release

/-- A frame that the client can still read. -/
def serverPush (link : LinkId) (frame : ServerFrame) (m : Machine) : Machine :=
  match m.links[link]? with
  | none => m
  | some l =>
    match l.push frame with
    | (l, true) => (m.updateLink link (fun _ => l)).record (.pushed link frame)
    | (_, false) => m

def serverTake (link : LinkId) (m : Machine) : Machine :=
  match m.links[link]? with
  | none => m
  | some l =>
    match l.take with
    | (l, .frame text) => (m.updateLink link (fun _ => l)).record (.taken link text)
    | _ => m

def act (a : Action) (m : Machine) : Machine :=
  match a with
  | .start op => m.start op
  | .abort id => m.abort id
  | .dropHandle => m.dropHandle
  | .setDialer d => { m with dialer := d }
  | .setCloseMode c => { m with closeMode := c }
  | .setClock seconds => { m with clock := seconds }
  | .serverPush link frame => m.serverPush link frame
  | .serverMode link mode => m.updateLink link (fun l => l.setMode mode)
  | .serverClose link => m.updateLink link Link.closeServer
  | .serverTake link => m.serverTake link
  | .receive => m.receive.1
  | .elapse ms => { m with now := m.now + ms }

/-! ## Time -/

def exchangeDeadlines (x : Exchange) (stage : ExchangeStage) : List Nat :=
  match stage, x.ticket with
  | .stalled deadline, _ => [deadline]
  | .awaiting, some ticket => [Registry.deadline ticket x.timeout]
  | _, _ => []

/-- The moments at which time alone lets a task go on. -/
def taskDeadlines (t : Task) : List Nat :=
  match t.position with
  | .dialing _ _ deadline (.delayed wake _) => [wake, deadline]
  | .dialing _ _ deadline .hung => [deadline]
  | .exchanging x stage => exchangeDeadlines x stage
  | .tearing _ (.closing _ deadline) => [deadline]
  | .ticking ticker => [ticker.next]
  | .probing _ x stage => exchangeDeadlines x stage
  | .start | .installing _ _ | .discarding _ | .tearing _ .queued | .reading => []

def deadlines (m : Machine) : List Nat :=
  (m.tasks.flatMap taskDeadlines).filter (fun d => m.now < d)

def nextDeadline (m : Machine) : Option Nat := m.deadlines.min?

/-- No worker can go on. -/
def quiet (m : Machine) : Bool := m.workers.all (fun w => !m.enabled w)

/-- Time may pass without skipping a deadline. -/
def mayElapse (m : Machine) (ms : Nat) : Bool :=
  m.quiet && m.deadlines.all (fun d => m.now + ms ≤ d)

/-! ## Moves -/

/-- The server end of a link still exists. -/
def serverPresent (m : Machine) (link : LinkId) : Bool :=
  match m.links[link]? with
  | some l => l.serverOpen
  | none => false

def permits (m : Machine) : Action → Bool
  | .elapse ms => m.mayElapse ms
  | .serverPush link _ | .serverMode link _ | .serverClose link | .serverTake link =>
    m.serverPresent link
  | .start _ => m.held
  | .abort id => (m.task? id).any Task.isOperation
  | .dropHandle | .setDialer _ | .setCloseMode _ | .setClock _ | .receive => true

end Machine

/-- One move of a run. -/
inductive Move
  | work (w : Machine.Worker)
  | act (a : Action)

namespace Machine

def allows (m : Machine) : Move → Bool
  | .work w => m.enabled w
  | .act a => m.permits a

def after (m : Machine) : Move → Machine
  | .work w => m.run w
  | .act a => m.act a

/-! ## Runs -/

/-- The moves made from `start`, newest first, and where they lead. -/
inductive Run (start : Machine) : List Move → Machine → Prop
  | nil : Run start [] start
  | cons {moves : List Move} {m : Machine} (run : Run start moves m) (v : Move)
      (h : m.allows v = true) : Run start (v :: moves) (m.after v)

theorem Run.append {a b c : Machine} {xs ys : List Move} (hab : Run a xs b) (hbc : Run b ys c) :
    Run a (ys ++ xs) c := by
  induction hbc with
  | nil => exact hab
  | cons _ v h ih => exact .cons ih v h

/-- What the runs from `start` reach by moves that `may` holds of. -/
def Reaches (may : Move → Prop) (start m : Machine) : Prop :=
  ∃ moves, Run start moves m ∧ ∀ v ∈ moves, may v

theorem Reaches.refl (may : Move → Prop) (m : Machine) : Reaches may m m :=
  ⟨[], .nil, fun _ h => nomatch h⟩

theorem Reaches.step {may : Move → Prop} {start m : Machine} (hm : Reaches may start m) {v : Move}
    (h : m.allows v = true) (hv : may v) : Reaches may start (m.after v) := by
  obtain ⟨moves, run, all⟩ := hm
  refine ⟨v :: moves, .cons run v h, ?_⟩
  intro u hu
  cases hu with
  | head => exact hv
  | tail _ hu => exact all u hu

theorem Reaches.trans {may : Move → Prop} {a b c : Machine} (hab : Reaches may a b)
    (hbc : Reaches may b c) : Reaches may a c := by
  obtain ⟨xs, runX, allX⟩ := hab
  obtain ⟨ys, runY, allY⟩ := hbc
  refine ⟨ys ++ xs, runX.append runY, ?_⟩
  intro v hv
  rcases List.mem_append.mp hv with h | h
  · exact allY v h
  · exact allX v h

/-- What holds at the start and is kept by every move holds wherever a run leads. -/
theorem Reaches.invariant {may : Move → Prop} {I : Machine → Prop} {start m : Machine}
    (hm : Reaches may start m) (base : I start)
    (keep : ∀ m v, I m → m.allows v = true → may v → I (m.after v)) : I m := by
  obtain ⟨moves, run, all⟩ := hm
  induction run with
  | nil => exact base
  | cons _ v h ih =>
    exact keep _ v (ih fun u hu => all u (.tail _ hu)) h (all v (.head _))

/-- A new client over usable settings, at any time of the wall clock. -/
inductive Initial : Machine → Prop
  | build {s : Settings} {delivery : Delivery} {policy : Policy} {m : Machine}
      (h : Client.build s delivery policy = .ok m) (seconds : Int) :
      Initial { m with clock := seconds }

/-- The states of all runs by moves that `may` holds of. -/
def Reachable (may : Move → Prop) (m : Machine) : Prop :=
  ∃ start, Initial start ∧ Reaches may start m

theorem Reachable.reaches {may : Move → Prop} {m n : Machine} (hm : m.Reachable may)
    (h : Reaches may m n) : n.Reachable may := by
  obtain ⟨start, hs, hr⟩ := hm
  exact ⟨start, hs, hr.trans h⟩

theorem Reachable.step {may : Move → Prop} {m : Machine} (hm : m.Reachable may) {v : Move}
    (h : m.allows v = true) (hv : may v) : (m.after v).Reachable may :=
  hm.reaches (.step (.refl may m) h hv)

end Machine

end GameLink.Client

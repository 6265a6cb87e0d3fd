import GameLink.Proofs.Client.View

/-! # The life of a link

What a client does with its links, apart from requests, is a small machine of
its own: the lifecycle, the generation and its cancellation, the writer, who
serves a link, who tears it down, and what is observed of all that. Every change
of a client is a step of it or leaves it alone (`Change.life`).
-/
namespace GameLink.Client

open Function (update)

/-! ## The machine -/

/-- A link opens, speaks or is torn down, and the application or the policy hears of it. -/
def Observation.isAffair : Observation → Bool
  | .event _ | .disconnect _ | .opened _ _ | .closing _ _ | .closed _ _ | .dispatched _ _ => true
  | _ => false

def affairs (tr : List Observation) : List Observation := tr.filter Observation.isAffair

@[simp] theorem affairs_append (a b : List Observation) :
    affairs (a ++ b) = affairs a ++ affairs b := List.filter_append ..

def tears : Role → Position → Option (Teardown × TeardownStage)
  | _, .tearing td stage => some (td, stage)
  | _, _ => none

/-- The generation of a background task, and the link that a reader reads. -/
def serves : Role → Position → Option (Generation × Option LinkId)
  | .operation _, _ => none
  | .reader g link, _ => some (g, some link)
  | .heartbeat g, _ => some (g, none)

structure Life where
  state : Lifecycle
  generation : Generation
  cancel : Option Generation
  cancelled : List Generation
  writer : Option LinkId
  held : Bool
  tears : TaskId → Option (Teardown × TeardownStage)
  serves : TaskId → Option (Generation × Option LinkId)
  affairs : List Observation

def Machine.life (tr : List Observation) (m : Machine) : Life where
  state := m.state
  generation := m.generation
  cancel := m.cancel
  cancelled := m.cancelled
  writer := m.writer
  held := m.held
  tears := m.view Client.tears
  serves := m.view Client.serves
  affairs := Client.affairs tr

/-- A frame, and the event that it causes, if it does. -/
def tidings (link : LinkId) (frame : Bytes) : List Observation :=
  .dispatched link frame :: ((eventIn frame).map Observation.event).toList

/-- What is observed when a teardown takes effect. -/
def Teardown.opening (i : TaskId) (td : Teardown) : List Observation :=
  .closing i td :: if td.cause = .heartbeat then [.event .heartbeatTimeout] else []

/-- What is observed when it has drained the requests. -/
def Teardown.ending (td : Teardown) : List Observation :=
  .closed td.generation td.cause ::
    ((if td.notify then [.event (.disconnected td.cause)] else []) ++
      if td.cause = .user then [] else [.disconnect td.cause])

inductive Life.Step (c : Life) : Life → Prop
  | stay : Step c c
  | unheld : Step c { c with held := false }
  | begun (hs : c.state = .idle) :
      Step c { c with state := .connecting, generation := c.generation + 1 }
  | backedOut (hs : c.state = .connecting) :
      Step c { c with state := .idle, generation := c.generation + 1 }
  | abandoned (hs : c.state = .connecting) : Step c { c with state := .idle }
  | installed (link : LinkId) (i j : TaskId) (hs : c.state = .connecting)
      (hi : c.serves i = none) (hj : c.serves j = none) (hij : i ≠ j) :
      Step c
        { c with
          state := .open
          cancel := some c.generation
          writer := some link
          serves := update (update c.serves i (some (c.generation, some link))) j
            (some (c.generation, none))
          affairs := c.affairs ++ [.opened c.generation link, .event .connected] }
  | heard (i : TaskId) (g : Generation) (link : LinkId) (frame : Bytes)
      (hi : c.serves i = some (g, some link)) (hg : g ∉ c.cancelled) :
      Step c
        { c with
          affairs := c.affairs ++ tidings link frame }
  | began (i : TaskId) (td : Teardown) (hs : c.state = .open) (hg : c.generation = td.generation)
      (hi : c.tears i = none) :
      Step c
        { c with
          state := .closing
          cancel := none
          cancelled := c.cancel.toList ++ c.cancelled
          tears := update c.tears i (some (td, .queued))
          affairs := c.affairs ++ td.opening i }
  | taken (i : TaskId) (td : Teardown) (stage : TeardownStage)
      (hi : c.tears i = some (td, .queued)) :
      Step c { c with writer := none, tears := update c.tears i (some (td, stage)) }
  | ended (i : TaskId) (td : Teardown) (stage : TeardownStage) (hi : c.tears i = some (td, stage))
      (hw : stage = .queued → c.writer = none) :
      Step c
        { c with
          state := .idle
          tears := update c.tears i none
          serves := update c.serves i none
          affairs := c.affairs ++ td.ending }
  | left (i : TaskId) (g : Generation) (l : Option LinkId) (hi : c.serves i = some (g, l))
      (hg : g ∈ c.cancelled ∨ ¬ (c.generation = g ∧ c.state = .open)) :
      Step c { c with serves := update c.serves i none }
  | dropped (i : TaskId) : Step c { c with tears := update c.tears i none }
  | cancelled (g : Generation) (hh : c.held = false) (hc : c.cancel = some g) :
      Step c { c with cancel := none, cancelled := g :: c.cancelled }
  | emptied (hh : c.held = false) (hc : c.cancel = none) : Step c { c with writer := none }

/-! ## Changes are steps -/

section
variable {m n : Machine} {t : Task} {os tr : List Observation}

/-- What touches none of this is no step. -/
theorem Life.stay (hs : n.state = m.state) (hg : n.generation = m.generation)
    (hc : n.cancel = m.cancel) (hd : n.cancelled = m.cancelled) (hw : n.writer = m.writer)
    (hh : n.held = m.held) (ht : n.view Client.tears = m.view Client.tears)
    (hv : n.view Client.serves = m.view Client.serves) (ho : Client.affairs os = []) :
    Life.Step (m.life tr) (n.life (tr ++ os)) := by
  have same : n.life (tr ++ os) = m.life tr := by
    simp only [Machine.life, hs, hg, hc, hd, hw, hh, ht, hv, affairs_append, ho, List.append_nil]
  exact same ▸ .stay

theorem tears_plain (r : Role) (p : Position) (h : p.plain = true) : tears r p = none := by
  cases p with
  | tearing td stage => cases h
  | _ => rfl

theorem Host.affairs_farewell (host : Host) (i : TaskId) (outcome : Except Failure Answer) :
    affairs (host.farewell i outcome) = [] := by
  cases host <;> rfl

theorem Outside.life (h : Outside m os n) : Life.Step (m.life tr) (n.life (tr ++ os)) := by
  have hts := h.view_same (f := Client.tears) (fun _ => rfl)
  cases h with
  | started op policy h =>
    exact Life.stay rfl rfl rfl rfl rfl rfl hts (view_append_same rfl) rfl
  | aborted id h => exact Life.stay rfl rfl rfl rfl rfl rfl hts (view_told id) rfl
  | unheld =>
    rw [List.append_nil]
    exact .unheld
  | _ => exact Life.stay rfl rfl rfl rfl rfl rfl hts rfl rfl

theorem Released.life (h : Released m os n) : Life.Step (m.life tr) (n.life (tr ++ os)) := by
  cases h with
  | cancelled g hu hc =>
    have hh : m.held = false := by
      rw [Machine.inUse, Bool.or_eq_false_iff] at hu
      exact hu.1
    rw [List.append_nil]
    exact .cancelled (c := m.life tr) g hh hc
  | emptied link hh ht hc hw =>
    rw [List.append_nil]
    exact .emptied (c := m.life tr) hh hc

theorem serves_position (r : Role) (p q : Position) : serves r p = serves r q := by
  cases r <;> rfl

theorem serves_placed (ht : m.task? t.id = some t) (p : Position) :
    Client.view serves (placed t.id p m.tasks) = m.view serves :=
  view_placed_same ht (serves_position _ _ _)

theorem serves_without {op : Operation} (ht : m.task? t.id = some t) (hr : t.role = .operation op) :
    Client.view serves (without t.id m.tasks) = m.view serves :=
  view_without_same ht (by rw [hr]; rfl)

theorem tears_placed (ht : m.task? t.id = some t) {p : Position}
    (hp : tears t.role t.position = none) (hq : tears t.role p = none) :
    Client.view tears (placed t.id p m.tasks) = m.view tears :=
  view_placed_none ht hp hq

theorem tears_without (ht : m.task? t.id = some t) (hp : tears t.role t.position = none) :
    Client.view tears (without t.id m.tasks) = m.view tears :=
  view_without_same ht hp

theorem Connecting.life (hm : Fit m) (ht : m.task? t.id = some t) (h : Connecting m t os n) :
    Life.Step (m.life tr) (n.life (tr ++ os)) := by
  cases h with
  | begun op url deadline stage hr hp hm hs =>
    have hts : Client.view tears
        (placed t.id (.dialing (m.generation + 1) url deadline stage) m.tasks) = m.view tears :=
      tears_placed ht (by rw [hp]; rfl) rfl
    have step := Life.Step.begun (c := m.life tr) hs
    rw [List.append_nil]
    simpa only [Machine.life, Machine.view, serves_placed ht, hts] using step
  | backedOut n hr hp hs =>
    rw [List.append_nil]
    exact .backedOut (c := m.life tr) hs
  | hung op g url deadline wake hr hp =>
    exact Life.stay rfl rfl rfl rfl rfl rfl (tears_placed ht (by rw [hp]; rfl) rfl)
      (serves_placed ht _) rfl
  | abandoned g url deadline stage hp hg hs =>
    rw [List.append_nil]
    exact .abandoned (c := m.life tr) hs
  | dialed op g url deadline stage hr hp =>
    exact Life.stay rfl rfl rfl rfl rfl rfl (tears_placed ht (by rw [hp]; rfl) rfl)
      (serves_placed ht _) rfl
  | installed op g link hr hp hl hg hs =>
    have hts : Client.view tears _ = m.view tears :=
      view_installed_same ht (by rw [hp]; rfl) g link rfl rfl
    have hss : Client.view serves _ = _ :=
      hm.view_installed ht (by rw [hr]; rfl) (.reader g link) (.heartbeat g)
    have unserved : ∀ {k}, m.nextTask ≤ k → m.view serves k = none := hm.view_absent
    have step := Life.Step.installed (c := m.life tr) link m.nextTask (m.nextTask + 1) hs
      (unserved (Nat.le_refl _)) (unserved (Nat.le_succ _)) (Nat.ne_of_lt (Nat.lt_succ_self _))
    subst hg
    simp only [Machine.life, Machine.view, hts, hss, affairs_append]
    exact step
  | outdated op g link hr hp hl hg =>
    exact Life.stay rfl rfl rfl rfl rfl rfl (tears_placed ht (by rw [hp]; rfl) rfl)
      (serves_placed ht _) rfl
  | discarded op link f hr hp =>
    exact Life.stay rfl rfl rfl rfl rfl rfl (tears_without ht (by rw [hp]; rfl))
      (serves_without ht hr) rfl

theorem Exchanging.life (hm : Fit m) (ht : m.task? t.id = some t) (h : Exchanging m t os n) :
    Life.Step (m.life tr) (n.life (tr ++ os)) := by
  have hts := h.view_same tears_plain ht
  have released : ∀ {host : Host}, t.role = host.role →
      Client.view serves (host.released t.id m.tasks) = m.view serves := by
    intro host hr
    cases host with
    | operation op => exact serves_without ht hr
    | heartbeat g k => exact serves_placed ht _
  cases h with
  | sending op message hr hp hq hs =>
    exact Life.stay rfl rfl rfl rfl rfl rfl hts (serves_placed ht _) rfl
  | requesting host x hh hx hs =>
    exact Life.stay rfl rfl rfl rfl rfl rfl hts (serves_placed ht _) rfl
  | refused host hh hs =>
    refine Life.stay rfl rfl rfl rfl rfl rfl hts (released hh.role_eq) ?_
    rw [affairs_append, host.affairs_farewell]
    rfl
  | stalled host x l link hr hv hp hl hw hk hf =>
    exact Life.stay rfl rfl rfl rfl rfl rfl hts (serves_placed ht _) rfl
  | written host x l link link' hr hv hp hl hw hk hf =>
    exact Life.stay rfl rfl rfl rfl rfl rfl hts (serves_placed ht _) rfl
  | sent op x hr hp hx =>
    exact Life.stay rfl rfl rfl rfl rfl rfl hts (serves_without ht hr) rfl
  | notSent op x stage f hr hp hx hn =>
    exact Life.stay rfl rfl rfl rfl rfl rfl hts (serves_without ht hr) rfl
  | unsent host x stage k f hr hv hp hx hn =>
    exact Life.stay rfl rfl rfl rfl rfl rfl hts (released hr) (host.affairs_farewell _ _)
  | replied host x k outcome hr hv hp hx hw =>
    exact Life.stay rfl rfl rfl rfl rfl rfl hts (released hr) (host.affairs_farewell _ _)
  | givenUp host x stage hr hp hv =>
    cases host with
    | operation op => exact Life.stay rfl rfl rfl rfl rfl rfl hts (serves_without ht hr) rfl
    | heartbeat g k =>
      -- a heartbeat gives up only where it is cancelled
      have hc : g ∈ m.cancelled := by
        rcases hv with ha | hn
        · have hop := hm.told _ _ ht ha
          rw [Task.isOperation, hr] at hop
          cases hop
        · simpa [Host.Live, Machine.isCancelled] using hn
      have hi : m.view serves t.id = some (g, none) := (view_of ht).trans (by rw [hr]; rfl)
      have step := Life.Step.left (c := m.life tr) t.id g none hi (.inl hc)
      rw [List.append_nil]
      have hts : Client.view tears (without t.id m.tasks) = m.view tears := hts
      simpa only [Machine.life, Machine.view, view_without (f := serves), hts] using step

theorem Background.life (ht : m.task? t.id = some t) (h : Background m t os n) :
    Life.Step (m.life tr) (n.life (tr ++ os)) := by
  have hts := h.view_same tears_plain ht
  have left : ∀ {g : Generation} {l : Option LinkId} {links : List Link},
      Client.view tears (without t.id m.tasks) = m.view tears →
      serves t.role t.position = some (g, l) → Obsolete m g →
      Life.Step (m.life tr) (Machine.life (tr ++ [])
        { m with links := links, tasks := without t.id m.tasks }) := by
    intro g l links hts hss ho
    have hg : g ∈ m.cancelled ∨ ¬ (m.generation = g ∧ m.state = .open) := by
      simpa [Obsolete, Machine.isCancelled] using ho
    have step := Life.Step.left (c := m.life tr) t.id g l ((view_of ht).trans hss) hg
    rw [List.append_nil]
    simpa only [Machine.life, Machine.view, view_without (f := serves), hts] using step
  cases h with
  | readerStarted g link hr hp =>
    exact Life.stay rfl rfl rfl rfl rfl rfl hts (serves_placed ht _) rfl
  | heartbeatStarted g hr hp =>
    exact Life.stay rfl rfl rfl rfl rfl rfl hts (serves_placed ht _) rfl
  | dispatched g link l l' frame hr hp hc hl hf =>
    have hi : m.view serves t.id = some (g, some link) := (view_of ht).trans (by rw [hr]; rfl)
    have hg : g ∉ m.cancelled := by simpa [Machine.isCancelled] using hc
    have step := Life.Step.heard (c := m.life tr) t.id g link frame hi hg
    have told : affairs (.dispatched link frame :: heard m frame) = tidings link frame := by
      unfold heard tidings
      cases eventIn frame <;> rfl
    simp only [Machine.life, affairs_append, told]
    exact step
  | readerLeft g link hr hp ho => exact left hts (by rw [hr]; rfl) ho
  | heartbeatLeft g k hr hp ho => exact left hts (by rw [hr]; rfl) ho

theorem Tearing.life (ht : m.task? t.id = some t) (h : Tearing m t os n) :
    Life.Step (m.life tr) (n.life (tr ++ os)) := by
  cases h with
  | begun td links hb hg hs =>
    have hi : m.view tears t.id = none := (view_of ht).trans (tears_plain _ _ hb.plain)
    have step := Life.Step.began (c := m.life tr) t.id td hs hg hi
    have opening : affairs (.closing t.id td ::
        if td.cause = .heartbeat then [.shown .closing m.registry.size, .event .heartbeatTimeout]
        else []) = td.opening t.id := by
      unfold Teardown.opening
      split <;> rfl
    simp only [Machine.life, Machine.view, view_placed (f := tears) ht, serves_placed ht,
      affairs_append, opening]
    exact step
  | taken td link hp hl hw =>
    have hi : m.view tears t.id = some (td, .queued) := (view_of ht).trans (by rw [hp]; rfl)
    have step := Life.Step.taken (c := m.life tr) t.id td
      (.closing link (m.now + m.settings.realtime.sendTimeout.toNat)) hi
    rw [List.append_nil]
    simp only [Machine.life, Machine.view, view_placed (f := tears) ht, serves_placed ht]
    exact step
  | ended td stage links queue hf hp hv =>
    have hi : m.view tears t.id = some (td, stage) := (view_of ht).trans (by rw [hp]; rfl)
    have hw : stage = .queued → m.writer = none := by
      cases hv with
      | empty hl hw => exact fun _ => hw
      | closed link deadline =>
        intro h
        cases h
    have step := Life.Step.ended (c := m.life tr) t.id td stage hi hw
    have ending : affairs (.closed td.generation td.cause ::
        ((if td.notify then [.shown .idle 0, .event (.disconnected td.cause)] else []) ++
          (if td.cause = .user then [] else [.disconnect td.cause]) ++
          (if t.isOperation then [.finished t.id (.ok .nothing)] else []))) = td.ending := by
      unfold Teardown.ending
      split <;> split <;> split <;> rfl
    simp only [Machine.life, Machine.view, view_without, affairs_append, ending]
    exact step

theorem Leaving.life (hm : Fit m) (ht : m.task? t.id = some t) (h : Leaving m t os n) :
    Life.Step (m.life tr) (n.life (tr ++ os)) := by
  cases h with
  | finished op r hr hp =>
    refine Life.stay rfl rfl rfl rfl rfl rfl (tears_without ht ?_) (serves_without ht hr) rfl
    rcases hp with ⟨hp, _⟩ | ⟨_, _, _, _, hp⟩
    · rw [hp]
      rfl
    · rw [hp]
      rfl
  | dropped links queue ha hd =>
    have hop := hm.told _ _ ht ha
    obtain ⟨op, hr⟩ : ∃ op, t.role = .operation op := by
      cases hr : t.role with
      | operation op => exact ⟨op, rfl⟩
      | reader g link => simp [Task.isOperation, hr] at hop
      | heartbeat g => simp [Task.isOperation, hr] at hop
    have step := Life.Step.dropped (c := m.life tr) t.id
    rw [List.append_nil]
    simp only [Machine.life, Machine.view, serves_without ht hr, view_without]
    exact step

/-- A change of a client is a step of its life. -/
theorem Change.life (hm : Fit m) (h : Change m os n) :
    Life.Step (m.life tr) (n.life (tr ++ os)) := by
  cases h with
  | outside h => exact h.life
  | released h => exact h.life
  | connecting ht h => exact h.life hm ht
  | exchanging ht h => exact h.life hm ht
  | background ht h => exact h.life ht
  | tearing ht h => exact h.life ht
  | leaving ht h => exact h.life hm ht

end

/-- A life before its first step. -/
structure Life.New (c : Life) : Prop where
  state : c.state = .idle
  cancel : c.cancel = none
  cancelled : c.cancelled = []
  writer : c.writer = none
  tears : c.tears = fun _ => none
  serves : c.serves = fun _ => none
  affairs : c.affairs = []

/-- What the steps of a life keep is an invariant. -/
theorem Life.invariant {I : Life → Prop} (initial : ∀ c : Life, c.New → I c)
    (keep : ∀ c d, Life.Step c d → I c → I d) : Invariant (fun tr m => Fit m ∧ I (m.life tr)) := by
  refine fit_invariant.and ?_ ?_ ?_
  · intro m h
    obtain ⟨_, _, _, _, rfl⟩ := h.fields
    exact initial _ ⟨rfl, rfl, rfl, rfl, rfl, rfl, rfl⟩
  · intro m os n tr h hm hi
    exact keep _ _ (h.life hm) hi
  · intro tr n handler history h
    exact h

end GameLink.Client

import GameLink.Proofs.Client.Change

/-! # Courses of exchanges

The functions of a request, a probe and a message that awaits nothing, taken
apart into changes. What an exchange does is the same for every host until it
has ended (`proceed`).
-/
namespace GameLink.Client

variable {R : Machine → List Observation → Machine → Prop} {i : TaskId}

theorem Effect.of {m n : Machine} {os : List Observation} (h : R m os n) (handler : Handler)
    (history : List Record)
    (ho : observed history = observed m.history ++ os.map (Record.mk m.now)) :
    Effect R m { n with handler := handler, history := history } :=
  ⟨os, n, h, ⟨handler, history, rfl⟩, ho⟩

theorem Deed.effect {m n : Machine} {os : List Observation} (h : Deed i m os n)
    (handler : Handler) (history : List Record)
    (ho : observed history = observed m.history ++ os.map (Record.mk m.now)) :
    Effect (Deed i) m { n with handler := handler, history := history } := .of h handler history ho

namespace Course

theorem one {a b : Machine} (h : Effect R a b) : Course R a 1 b := .leap .refl h

theorem one_calm {a b : Machine} (h : Effect R a b) (hs : b.state = a.state)
    (hg : b.generation = a.generation) : Course R a 0 b := .calm .refl h hs hg

/-- What only logs and hands on is calm. -/
theorem quiet {a : Machine} (handler : Handler) (history : List Record)
    (ho : observed history = observed a.history) :
    Course (Deed i) a 0 { a with handler := handler, history := history } :=
  one_calm (Deed.nothing.effect handler history (by simp [ho])) rfl rfl

theorem log (e : Log.Entry) (m : Machine) : Course (Deed i) m 0 (m.log e) :=
  quiet _ _ (by simp)

end Course

namespace Machine

variable {m : Machine} {t : Task}

/-! ## The end of a task -/

theorem course_release {R : Machine → List Observation → Machine → Prop}
    (hr : ∀ {m os n}, Released m os n → R m os n) (m : Machine) : Course R m 0 m.release := by
  have handle : Course R m 0 m.releaseHandle := by
    unfold releaseHandle cancelStored
    split
    · exact .refl
    · rename_i hu
      split
      · rename_i g hc
        exact .one_calm (.of (hr (.cancelled g (by simpa using hu) hc)) _ _ (by simp)) rfl rfl
      · exact .refl
  have none_of_unused : ∀ n : Machine, n = m.releaseHandle → n.inUse = false → n.cancel = none := by
    rintro n rfl hn
    unfold releaseHandle cancelStored at hn ⊢
    split
    · rename_i hu
      simp [hu] at hn
    · split
      · rfl
      · assumption
  refine handle.trans (k := 0) ?_
  unfold release
  generalize hn : m.releaseHandle = n
  unfold releaseWriter
  split
  · exact .refl
  · rename_i hk
    obtain ⟨hh, ht⟩ : n.held = false ∧ n.tasks = [] := by simpa using hk
    split
    · rename_i link hw
      have hc := none_of_unused n hn.symm (by simp [inUse, hh, ht])
      exact .one_calm (.of (hr (.emptied link hh ht hc hw)) _ _ (by simp)) rfl rfl
    · exact .refl

theorem course_finish (ht : m.task? t.id = some t) {op : Operation} (r : Result)
    (hr : t.role = .operation op)
    (hp : (t.position = .start ∧ op.requests = false) ∨
      ∃ g url deadline stage, t.position = .dialing g url deadline stage)
    (hm : t.position = .start → op.message? = none ∨ r = .failed .notConnected)
    (hd : ∀ g url deadline stage, t.position = .dialing g url deadline stage →
      (∃ f, r = .failed f) ∧ ¬ (m.generation = g ∧ m.state = .connecting)) :
    Course (Deed t.id) m 0 (m.finish t.id r) :=
  (Course.one_calm ((Deed.leaving rfl ht (.finished op r hr hp hm hd)).effect _ _
    (observed_cons _ _)) rfl rfl).trans (course_release .released _)

/-! ## Exchanges -/

/-- A machine after the exchange of a task has ended. -/
def leave (t : Task) (host : Host) (outcome : Except Failure Answer) (m : Machine) : Machine :=
  { m with
    tasks := host.released t.id m.tasks
    history := (host.farewell t.id outcome).map (Record.mk m.now) ++ m.history }

theorem observed_farewell (host : Host) (id now : Nat) (outcome : Except Failure Answer)
    (h : List Record) : observed ((host.farewell id outcome).map (Record.mk now) ++ h) =
      observed h ++ (host.farewell id outcome).map (Record.mk now) := by
  cases host <;> simp [Host.farewell]

/-- How an exchange goes on for its host. -/
def proceed (t : Task) (host : Host) (x : Exchange) (r : Machine × Exchanged) : Machine :=
  match r.2 with
  | .waiting stage => r.1.move t.id (host.position x stage)
  | .ended outcome => (r.1.noteAnswer t.id x outcome).leave t host outcome

theorem course_notSent {host : Host} {x : Exchange} {stage : ExchangeStage} {f : Failure}
    (ht : m.task? t.id = some t) (hr : t.role = host.role) (hv : host.Live m)
    (hp : t.position = host.position x stage) (hx : x.ticket = none → ∃ op, host = .operation op)
    (hn : NotSent m t x stage f) :
    Course (Deed t.id) m 0 (proceed t host x ((m.leaveLock t.id).notSent x f)) := by
  cases hk : x.ticket with
  | none =>
    obtain ⟨op, rfl⟩ := hx hk
    simp only [proceed, notSent, hk, noteAnswer]
    exact .one_calm ((Deed.exchanging rfl ht (.notSent op x stage f hr hp hk hn)).effect _ _
      (observed_farewell _ _ _ _ _)) rfl rfl
  | some k =>
    simp only [proceed, notSent, hk, noteAnswer]
    refine .one_calm ((Deed.exchanging rfl ht (.unsent host x stage k f hr hv hp hk hn)).effect _ _
      ?_) rfl rfl
    rw [observed_farewell]
    simp

/-- A message that awaits nothing is over once it is written. -/
theorem effect_sent {op : Operation} {x : Exchange} (ht : m.task? t.id = some t)
    (hr : t.role = .operation op) (hx : x.ticket = none) :
    Effect (Deed t.id) (m.move t.id (.exchanging x .awaiting)) (m.leave t (.operation op) (.ok .nothing)) := by
  have gone := (Deed.exchanging (t := { t with position := .exchanging x .awaiting }) rfl
    (task?_move_self ht _) (.sent op x hr rfl hx)).effect m.handler _
      (observed_farewell (.operation op) t.id m.now (.ok .nothing) _)
  rwa [show (m.move t.id (.exchanging x .awaiting)).tasks = placed t.id _ m.tasks from rfl,
    without_placed] at gone

/-- A step of an exchange that can go on. -/
theorem course_runExchange (host : Host) {x : Exchange} {stage : ExchangeStage}
    (ht : m.task? t.id = some t) (hr : t.role = host.role) (hv : host.Live m)
    (hp : t.position = host.position x stage) (hx : x.ticket = none → ∃ op, host = .operation op)
    (he : m.exchangeReady t.id x stage = true) :
    Course (Deed t.id) m 0 (proceed t host x (m.runExchange t.id x stage)) := by
  cases stage with
  | queued =>
    have hl : m.holdsLock t.id = true := he
    simp only [runExchange, writeFrame]
    split
    · rename_i hw
      exact course_notSent ht hr hv hp hx (.noWriter hl hw)
    · rename_i l link hw
      obtain ⟨hw, hk⟩ : m.writer = some l ∧ m.links[l]? = some link := by
        simpa [Option.bind_eq_some_iff] using hw
      split
      · rename_i hf
        exact .one_calm ((Deed.exchanging rfl ht (.stalled host x l link hr hv hp hl hw hk
          (by rw [hf]))).effect _ _ (by simp)) rfl rfl
      · rename_i f hf
        exact course_notSent ht hr hv hp hx (.refused l link f hl hw hk (by rw [hf]))
      · rename_i link' hf
        have sent : Course (Deed t.id) m 0 ((((m.updateLink l (fun _ => link')).record
            (.wrote t.id l (frameOf x))).leaveLock t.id).move t.id (host.position x .awaiting)) :=
          .one_calm
            ((Deed.exchanging rfl ht (.written host x l link link' hr hv hp hl hw hk hf)).effect
            _ _ (by simp)) rfl rfl
        cases hk : x.ticket with
        | none =>
          obtain ⟨op, rfl⟩ := hx hk
          simp only [proceed, wasSent, hk, noteAnswer]
          exact sent.calm (effect_sent ht hr hk) rfl rfl
        | some k =>
          simp only [proceed, wasSent, hk]
          exact sent.trans (Course.log _ _)
  | stalled deadline =>
    exact course_notSent ht hr hv hp hx (.timedOut deadline (by simpa [exchangeReady] using he))
  | awaiting =>
    cases hk : x.ticket with
    | none =>
      obtain ⟨op, rfl⟩ := hx hk
      simp only [runExchange, hk, proceed, noteAnswer]
      exact .one_calm ((Deed.exchanging rfl ht (.sent op x hr hp hk)).effect _ _
        (observed_farewell _ _ _ _ _)) rfl rfl
    | some k =>
      obtain ⟨outcome, hw⟩ : ∃ outcome, m.registry.wait k x.timeout m.now = some outcome := by
        simpa [exchangeReady, hk, Option.isSome_iff_exists] using he
      have gone := Deed.exchanging rfl ht (.replied host x k outcome hr hv hp hk hw)
      simp only [runExchange, hk, takeReply, hw, proceed, noteAnswer]
      split
      · exact .one_calm (gone.effect _ _ (by rw [observed_farewell]; simp)) rfl rfl
      · exact .one_calm (gone.effect _ _ (by rw [observed_farewell]; simp)) rfl rfl

theorem beginExchange_open {id : TaskId} {x : Exchange} (hs : m.state = .open) :
    m.beginExchange id x = (m.joinLock id, .waiting .queued) := if_pos hs

theorem beginExchange_refused {id : TaskId} {x : Exchange} (hs : m.state ≠ .open) :
    m.beginExchange id x = m.notSent x .notConnected := if_neg hs

/-- A request as it begins. -/
theorem course_newExchange {host : Host} {message : Outbound} (timeout : Nat)
    (ht : m.task? t.id = some t) (hh : host.Ready m t) (hm : host.message? = some message)
    (hb : timeout = host.bound m) :
    Course (Deed t.id) m 0 (proceed t host (m.newExchange t.id message timeout).2
      ((m.newExchange t.id message timeout).1.beginExchange t.id
        (m.newExchange t.id message timeout).2)) := by
  by_cases hs : m.state = .open
  · rw [beginExchange_open (m := (m.newExchange t.id message timeout).1) hs]
    have begun := Deed.exchanging rfl ht
      (.requesting host (m.newExchange t.id message timeout).2 hh rfl hs hm hb)
    exact .one_calm (begun.effect m.handler (⟨m.now, .issued t.id m.registry.nextCid⟩ :: m.history)
      (by simp)) rfl rfl
  · rw [beginExchange_refused (m := (m.newExchange t.id message timeout).1) hs]
    simp only [proceed, notSent, noteAnswer, newExchange]
    refine .one_calm ((Deed.exchanging rfl ht (.refused host hh hs)).effect _ _ ?_) rfl rfl
    rw [observed_farewell]
    simp [Registry.register]

/-- An operation goes on as every host does, and lets go when it is over. -/
theorem course_settleExchange (t : Task) (op : Operation) (x : Exchange) (r : Machine × Exchanged) :
    Course (Deed t.id) (proceed t (.operation op) x r) 0 (settleExchange t op x r) := by
  unfold settleExchange proceed
  cases r.2 with
  | waiting stage => exact .refl
  | ended outcome => exact course_release .released _

/-- A message that awaits nothing as it begins. -/
theorem course_newSend {op : Operation} {message : Outbound} (ht : m.task? t.id = some t)
    (hr : t.role = .operation op) (hp : t.position = .start) (hq : op.requests = false)
    (hm : op.message? = some message) :
    Course (Deed t.id) m 0 (proceed t (.operation op) ⟨message, none, 0⟩
      (m.beginExchange t.id ⟨message, none, 0⟩)) := by
  by_cases hs : m.state = .open
  · rw [beginExchange_open hs]
    exact .one_calm ((Deed.exchanging rfl ht (.sending op message hr hp hq hs hm)).effect _ _
      (by simp)) rfl rfl
  · rw [beginExchange_refused hs]
    have refused := Deed.leaving rfl ht (.finished op (.failed .notConnected) hr (.inl ⟨hp, hq⟩)
      (fun _ => .inr rfl) fun _ _ _ _ hd => by cases hp.symm.trans hd)
    exact .one_calm (refused.effect _ _ (observed_farewell (.operation op) _ _ _ _)) rfl rfl

theorem course_beginSend {op : Operation} {message : Outbound} (ht : m.task? t.id = some t)
    (hr : t.role = .operation op) (hp : t.position = .start) (hq : op.requests = false)
    (hm : op.message? = some message) : Course (Deed t.id) m 0 (m.beginSend t op message) :=
  (course_newSend ht hr hp hq hm).trans (course_settleExchange _ _ _ _)

end Machine

end GameLink.Client

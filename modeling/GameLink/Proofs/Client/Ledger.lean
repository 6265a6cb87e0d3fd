import GameLink.Proofs.Client.Order
import GameLink.Proofs.Client.Settlement
import GameLink.Proofs.Registry.Table

/-! # The ledger of requests

What a client does with its requests is a machine of its own: the table, what
every task waits for, the links that are cancelled, and what is observed of all
that. Every change of a client is a step of it or leaves it alone
(`Change.ledger`).
-/
namespace GameLink.Client

open Function (update)

/-! ## The machine -/

/-- How a task stands to a request: it is to make one, or it waits for the reply of one, which may
be the probe of a generation and may have been sent. -/
inductive Standing
  | ready
  | waiting (cid : String) (sent : Bool) (probe : Option Generation)

def calls : Role → Position → Option Standing
  | .operation op, .start => if op.requests then some .ready else none
  | .operation _, .exchanging x stage =>
    x.ticket.map (fun k => .waiting k.cid (decide (stage = .awaiting)) none)
  | .heartbeat g, .probing _ x stage =>
    x.ticket.map (fun k => .waiting k.cid (decide (stage = .awaiting)) (some g))
  | _, _ => none

structure Ledger where
  registry : Registry
  calls : TaskId → Option Standing
  cancelled : List Generation
  next : TaskId
  deals : List Observation

def Machine.ledger (tr : List Observation) (m : Machine) : Ledger where
  registry := m.registry
  calls := m.view Client.calls
  cancelled := m.cancelled
  next := m.nextTask
  deals := Client.deals tr

namespace Ledger

/-- Who may make a request: an operation that is to, or a heartbeat that waits for nothing. -/
def Issuer (c : Ledger) (i : TaskId) : Option Generation → Prop
  | none => c.calls i = some .ready
  | some _ => c.calls i = none ∧ i < c.next ∧ ∀ op, .started i op ∉ c.deals

/-- A probe goes on while its link is not cancelled. -/
def Live (c : Ledger) : Option Generation → Prop
  | none => True
  | some g => g ∉ c.cancelled

inductive Step (c : Ledger) : Ledger → Prop
  | stay (cancelled : List Generation) (next : TaskId) (hg : c.cancelled ⊆ cancelled)
      (hn : c.next ≤ next) : Step c { c with cancelled := cancelled, next := next }
  | asked (op : Operation) (hq : op.requests = true) (hi : c.calls c.next = none) :
      Step c
        { c with
          calls := update c.calls c.next (some .ready)
          next := c.next + 1
          deals := c.deals ++ [.started c.next op] }
  | issued (i : TaskId) (probe : Option Generation) (now : Nat) (hi : c.Issuer i probe) :
      Step c
        { c with
          registry := (c.registry.register now).1
          calls := update c.calls i (some (.waiting c.registry.nextCid false probe))
          deals := c.deals ++ [.issued i c.registry.nextCid] }
  | refused (i : TaskId) (probe : Option Generation) (now : Nat) (hi : c.Issuer i probe) :
      Step c
        { c with
          registry := (c.registry.register now).1.release c.registry.nextCid
          calls := update c.calls i none
          deals := c.deals ++ [.issued i c.registry.nextCid,
            .answered i c.registry.nextCid (.error .notConnected)] }
  | wrote (i : TaskId) (cid : String) (probe : Option Generation) (link : LinkId)
      (frame : Envelope.Outgoing) (hi : c.calls i = some (.waiting cid false probe))
      (hf : frame.cid = some cid) :
      Step c
        { c with
          calls := update c.calls i (some (.waiting cid true probe))
          deals := c.deals ++ [.wrote i link frame] }
  | unsent (i : TaskId) (cid : String) (probe : Option Generation) (f : Failure)
      (hi : c.calls i = some (.waiting cid false probe)) (hl : c.Live probe)
      (hf : f = .notConnected ∨ ∃ reason, f = .transport reason) :
      Step c
        { c with
          registry := c.registry.release cid
          calls := update c.calls i none
          deals := c.deals ++ [.answered i cid (.error f)] }
  | replied (i : TaskId) (cid : String) (probe : Option Generation) (outcome : Outcome)
      (hi : c.calls i = some (.waiting cid true probe)) (hl : c.Live probe)
      (ho : c.registry.poll cid = some outcome ∨
        c.registry.poll cid = none ∧ ∃ ms, outcome = .error (.timeout cid ms)) :
      Step c
        { c with
          registry := c.registry.release cid
          calls := update c.calls i none
          deals := c.deals ++ [.answered i cid (outcome.map .envelope)] }
  | withdrawn (i : TaskId) (hi : c.calls i = some .ready) :
      Step c { c with calls := update c.calls i none }
  | dropped (i : TaskId) (cid : String) (sent : Bool) (probe : Option Generation)
      (hi : c.calls i = some (.waiting cid sent probe)) :
      Step c { c with registry := c.registry.release cid, calls := update c.calls i none }
  | heard (link : LinkId) (frame : Bytes) :
      Step c
        { c with
          registry := hear frame c.registry
          deals := c.deals ++ [.dispatched link frame] }
  | drained (g : Generation) (cause : Cause)
      (hc : ∀ f, cause = .error f → ∃ reason, f = .transport reason)
      (hp : ∀ i cid sent g', c.calls i = some (.waiting cid sent (some g')) → g' ∈ c.cancelled) :
      Step c
        { c with
          registry := (c.registry.drain cause.failure).1
          deals := c.deals ++ [.closed g cause] }

end Ledger

/-! ## Who waits for what -/

def Host.probe : Host → Option Generation
  | .operation _ => none
  | .heartbeat g _ => some g

section
variable {m n : Machine} {t : Task} {os tr : List Observation}

theorem Host.calls_position (host : Host) (x : Exchange) (stage : ExchangeStage) :
    calls host.role (host.position x stage) =
      x.ticket.map (fun k => .waiting k.cid (decide (stage = .awaiting)) host.probe) := by
  cases host <;> rfl

/-- Whoever waits for a reply is in the exchange of a host. -/
theorem exists_host_of_calls {r : Role} {p : Position} {cid : String} {sent : Bool}
    {probe : Option Generation} (h : calls r p = some (.waiting cid sent probe)) :
    ∃ (host : Host) (x : Exchange) (stage : ExchangeStage) (k : Ticket), r = host.role ∧
      p = host.position x stage ∧ x.ticket = some k ∧ k.cid = cid ∧ host.probe = probe := by
  unfold calls at h
  split at h
  · split at h <;> cases h
  · rename_i op x stage
    obtain ⟨k, hx, hk⟩ := Option.map_eq_some_iff.mp h
    cases hk
    exact ⟨.operation op, x, stage, k, rfl, rfl, hx, rfl, rfl⟩
  · rename_i g ticker x stage
    obtain ⟨k, hx, hk⟩ := Option.map_eq_some_iff.mp h
    cases hk
    exact ⟨.heartbeat g ticker, x, stage, k, rfl, rfl, hx, rfl, rfl⟩
  · cases h

theorem calls_placed (ht : m.task? t.id = some t) (p : Position) :
    view calls (placed t.id p m.tasks) = update (m.view calls) t.id (calls t.role p) :=
  view_placed ht

/-- At the end of an exchange nobody waits for it any more. -/
theorem Host.calls_released {host : Host} (ht : m.task? t.id = some t) (hr : t.role = host.role) :
    view calls (host.released t.id m.tasks) = update (m.view calls) t.id none := by
  cases host with
  | operation op => exact view_without _
  | heartbeat g k =>
    rw [Host.released, calls_placed ht, hr]
    rfl

theorem Host.deals_farewell (host : Host) (i : TaskId) (outcome : Except Failure Answer) :
    deals (host.farewell i outcome) = [] := by
  cases host <;> rfl

/-- Of the end of an exchange, the answer is all that requests know of. -/
theorem deals_answered (host : Host) (i : TaskId) (cid : String) (o : Except Failure Answer) :
    deals (tr ++ .answered i cid o :: host.farewell i o) = deals tr ++ [.answered i cid o] := by
  rw [deals_append, deals, deals, List.filter_cons_of_pos rfl]
  exact congrArg (deals tr ++ _ :: ·) (host.deals_farewell _ _)

theorem Ledger.goes {c : Ledger} {registry : Registry} {calls : TaskId → Option Standing}
    {ds : List Observation} (hr : n.registry = registry) (hv : n.view Client.calls = calls)
    (hd : Client.deals tr = ds)
    (h : Ledger.Step c ⟨registry, calls, n.cancelled, n.nextTask, ds⟩) :
    Ledger.Step c (n.ledger tr) := by
  subst hr hv hd
  exact h

/-- What touches no request is no step. -/
theorem Ledger.still (hr : n.registry = m.registry)
    (hv : n.view Client.calls = m.view Client.calls) (hd : Client.deals os = [])
    (hc : m.cancelled ⊆ n.cancelled) (hn : m.nextTask ≤ n.nextTask) :
    Ledger.Step (m.ledger tr) (n.ledger (tr ++ os)) := by
  exact Ledger.goes hr hv (by rw [deals_append, hd, List.append_nil]; rfl)
    (.stay (c := m.ledger tr) n.cancelled n.nextTask hc hn)

/-! ## Changes are steps -/

theorem Outside.ledger (hm : Fit m) (h : Outside m os n) :
    Ledger.Step (m.ledger tr) (n.ledger (tr ++ os)) := by
  cases h with
  | started op policy h =>
    cases hq : op.requests with
    | true =>
      have hv : Client.view Client.calls (m.tasks ++ [⟨m.nextTask, .operation op, .start, false⟩]) =
          update (m.view Client.calls) m.nextTask (some .ready) := by
        rw [view_append (hm.absent (Nat.le_refl _)), calls, hq]
        rfl
      have hd : deals (tr ++ [.started m.nextTask op]) = deals tr ++ [.started m.nextTask op] := by
        have one : deals [.started m.nextTask op] = [.started m.nextTask op] :=
          List.filter_cons_of_pos hq
        rw [deals_append, one]
      exact Ledger.goes rfl hv hd (.asked (c := m.ledger tr) op hq (hm.view_absent (Nat.le_refl _)))
    | false =>
      refine Ledger.still rfl (view_append_same ?_) ?_ (fun _ h => h) (Nat.le_succ _)
      · rw [calls, hq]
        rfl
      · rw [deals, List.filter_cons_of_neg (by simp [Observation.isDeal, hq])]
        rfl
  | aborted id h => exact Ledger.still rfl (view_told id) rfl (fun _ h => h) (Nat.le_refl _)
  | _ => exact Ledger.still rfl rfl rfl (fun _ h => h) (Nat.le_refl _)

theorem Released.ledger (h : Released m os n) :
    Ledger.Step (m.ledger tr) (n.ledger (tr ++ os)) := by
  cases h with
  | cancelled g hu hc =>
    exact Ledger.still rfl rfl rfl (List.subset_cons_self _ _) (Nat.le_refl _)
  | emptied link hh ht hc hw => exact Ledger.still rfl rfl rfl (fun _ h => h) (Nat.le_refl _)

theorem Connecting.ledger (ht : m.task? t.id = some t) (h : Connecting m t os n) :
    Ledger.Step (m.ledger tr) (n.ledger (tr ++ os)) := by
  cases h with
  | begun op url deadline stage hr hp hm hs =>
    refine Ledger.still rfl (view_placed_none ht ?_ ?_) rfl (fun _ h => h) (Nat.le_refl _)
    · rw [hr, hp, calls, Operation.requests_eq_false hm]
      rfl
    · rw [hr]
      rfl
  | backedOut n hr hp hs => exact Ledger.still rfl rfl rfl (fun _ h => h) (Nat.le_refl _)
  | hung op g url deadline wake hr hp =>
    exact Ledger.still rfl (view_placed_none ht (by rw [hr, hp]; rfl) (by rw [hr]; rfl)) rfl
      (fun _ h => h) (Nat.le_refl _)
  | abandoned g url deadline stage hp hg hs =>
    exact Ledger.still rfl rfl rfl (fun _ h => h) (Nat.le_refl _)
  | dialed op g url deadline stage hr hp =>
    exact Ledger.still rfl (view_placed_none ht (by rw [hr, hp]; rfl) (by rw [hr]; rfl)) rfl
      (fun _ h => h) (Nat.le_refl _)
  | installed op g link hr hp hl hg hs =>
    exact Ledger.still rfl (view_installed_same ht (by rw [hr, hp]; rfl) g link rfl rfl) rfl
      (fun _ h => h) (Nat.le_add_right _ _)
  | outdated op g link hr hp hl hg =>
    exact Ledger.still rfl (view_placed_none ht (by rw [hr, hp]; rfl) (by rw [hr]; rfl)) rfl
      (fun _ h => h) (Nat.le_refl _)
  | discarded op link f hr hp =>
    exact Ledger.still rfl (view_without_same ht (by rw [hr, hp]; rfl)) rfl (fun _ h => h)
      (Nat.le_refl _)

theorem NotSent.failure {x : Exchange} {stage : ExchangeStage} {f : Failure}
    (h : NotSent m t x stage f) :
    stage ≠ .awaiting ∧ (f = .notConnected ∨ ∃ reason, f = .transport reason) := by
  cases h with
  | noWriter hl hw => exact ⟨fun h => (nomatch h), .inl rfl⟩
  | refused l link f hl hw hk hf =>
    refine ⟨fun h => (nomatch h), .inr ?_⟩
    unfold Link.write at hf
    split at hf
    · cases hf
      exact ⟨_, rfl⟩
    · split at hf
      · cases hf
        exact ⟨_, rfl⟩
      · cases hf
      · split at hf
        · cases hf
        · cases hf
          exact ⟨_, rfl⟩
  | timedOut deadline h => exact ⟨fun h => (nomatch h), .inr ⟨_, rfl⟩⟩

/-- Operations and heartbeats that are to make a request may do so. -/
theorem Host.Ready.issuer {host : Host} (hm : Fit m) (he : Errands tr m)
    (ht : m.task? t.id = some t) (h : host.Ready m t) : (m.ledger tr).Issuer t.id host.probe := by
  have hv : m.view calls t.id = calls t.role t.position := view_of ht
  cases host with
  | operation op =>
    obtain ⟨hr, hp, hq⟩ := h
    show m.view calls t.id = some .ready
    rw [hv, hr, hp, calls, hq]
    rfl
  | heartbeat g k =>
    obtain ⟨old, hr, hp, _⟩ := h
    refine ⟨?_, hm.fresh _ _ ht, ?_⟩
    · show m.view calls t.id = none
      rw [hv, hr, hp]
      rfl
    · intro op hop
      have started := mem_errands.mpr (List.mem_filter.mp hop).1
      have role := he.role _ _ _ started (roles_of ht)
      cases hr.symm.trans role

theorem Host.live_probe {host : Host} (h : host.Live m) : (m.ledger tr).Live host.probe := by
  cases host with
  | operation op => trivial
  | heartbeat g k =>
    show g ∉ m.cancelled
    simpa [Host.Live, Machine.isCancelled] using h

theorem Exchanging.ledger (hm : Fit m) (he : Errands tr m) (ht : m.task? t.id = some t)
    (h : Exchanging m t os n) : Ledger.Step (m.ledger tr) (n.ledger (tr ++ os)) := by
  have hf := hm.fits _ _ ht
  have at_position : ∀ {host : Host} {x : Exchange} {stage : ExchangeStage},
      t.role = host.role → t.position = host.position x stage →
      m.view calls t.id = x.ticket.map
        (fun k => .waiting k.cid (decide (stage = .awaiting)) host.probe) := by
    intro host x stage hr hp
    have hv : m.view calls t.id = calls t.role t.position := view_of ht
    rw [hv, hr, hp, host.calls_position]
  cases h with
  | sending op message hr hp hq hs =>
    refine Ledger.still rfl (view_placed_same ht ?_) rfl (fun _ h => h) (Nat.le_refl _)
    rw [hr, hp, calls, calls, hq]
    rfl
  | requesting host x hh hx hs =>
    have hv : view calls (placed t.id (host.position x .queued) m.tasks) =
        update (m.view calls) t.id (some (.waiting m.registry.nextCid false host.probe)) := by
      rw [calls_placed ht, hh.role_eq, host.calls_position, hx]
      rfl
    exact Ledger.goes rfl hv (deals_append _ _)
      (.issued (c := m.ledger tr) t.id host.probe m.now (hh.issuer hm he ht))
  | refused host hh hs =>
    have hd : deals (tr ++ ([.issued t.id m.registry.nextCid,
        .answered t.id m.registry.nextCid (.error .notConnected)] ++
          host.farewell t.id (.error .notConnected))) =
        deals tr ++ [.issued t.id m.registry.nextCid,
          .answered t.id m.registry.nextCid (.error .notConnected)] := by
      rw [deals_append, deals_append, host.deals_farewell]
      rfl
    exact Ledger.goes rfl (Host.calls_released ht hh.role_eq) hd
      (.refused (c := m.ledger tr) t.id host.probe m.now (hh.issuer hm he ht))
  | stalled host x l link hr hv hp hl hw hk hf =>
    refine Ledger.still rfl (view_placed_same ht ?_) rfl (fun _ h => h) (Nat.le_refl _)
    rw [hr, hp, host.calls_position, host.calls_position]
    rfl
  | written host x l link link' hr hv hp hl hw hk hf =>
    cases hx : x.ticket with
    | none =>
      refine Ledger.still rfl (view_placed_same ht ?_) ?_ (fun _ h => h) (Nat.le_refl _)
      · rw [hr, hp, host.calls_position, host.calls_position, hx]
        rfl
      · rw [deals, List.filter_cons_of_neg (by simp [Observation.isDeal, Machine.frameOf, hx])]
        rfl
    | some k =>
      have hc : (Machine.frameOf x).cid = some k.cid := by rw [Machine.frameOf, hx]; rfl
      have hv' : view calls (placed t.id (host.position x .awaiting) m.tasks) =
          update (m.view calls) t.id (some (.waiting k.cid true host.probe)) := by
        rw [calls_placed ht, hr, host.calls_position, hx]
        rfl
      have hd : deals (tr ++ [.wrote t.id l (Machine.frameOf x)]) =
          deals tr ++ [.wrote t.id l (Machine.frameOf x)] := by
        rw [deals_append]
        congr 1
        rw [deals, List.filter_cons_of_pos (by simp [Observation.isDeal, hc])]
        rfl
      have hi := at_position hr hp
      rw [hx] at hi
      exact Ledger.goes rfl hv' hd
        (.wrote (c := m.ledger tr) t.id k.cid host.probe l (Machine.frameOf x) hi hc)
  | sent op x hr hp hx =>
    refine Ledger.still rfl (view_without_same ht ?_) rfl (fun _ h => h) (Nat.le_refl _)
    rw [hr, hp, calls, hx]
    rfl
  | notSent op x stage f hr hp hx hn =>
    refine Ledger.still rfl (view_without_same ht ?_) rfl (fun _ h => h) (Nat.le_refl _)
    rw [hr, hp, calls, hx]
    rfl
  | unsent host x stage k f hr hv hp hx hn =>
    obtain ⟨hstage, hfail⟩ := hn.failure
    have hi := at_position hr hp
    rw [hx, decide_eq_false hstage] at hi
    exact Ledger.goes rfl (Host.calls_released ht hr) (deals_answered host t.id k.cid _)
      (.unsent (c := m.ledger tr) t.id k.cid host.probe f hi (Host.live_probe hv) hfail)
  | replied host x k outcome hr hv hp hx hw =>
    have hi := at_position hr hp
    rw [hx] at hi
    exact Ledger.goes rfl (Host.calls_released ht hr) (deals_answered host t.id k.cid _)
      (.replied (c := m.ledger tr) t.id k.cid host.probe outcome hi (Host.live_probe hv)
        (Registry.wait_eq_some hw))
  | givenUp host x stage hr hp hv =>
    have hi := at_position hr hp
    cases hx : x.ticket with
    | none =>
      rw [hx] at hi
      have hn : calls t.role t.position = none := (view_of ht).symm.trans hi
      exact Ledger.still rfl (view_without_same ht hn) rfl (fun _ h => h) (Nat.le_refl _)
    | some k =>
      rw [hx] at hi
      exact Ledger.goes rfl (view_without _) (congrArg deals (List.append_nil tr))
        (.dropped (c := m.ledger tr) t.id k.cid _ host.probe hi)

theorem Background.ledger (ht : m.task? t.id = some t) (h : Background m t os n) :
    Ledger.Step (m.ledger tr) (n.ledger (tr ++ os)) := by
  cases h with
  | readerStarted g link hr hp =>
    exact Ledger.still rfl (view_placed_none ht (by rw [hr, hp]; rfl) (by rw [hr]; rfl)) rfl
      (fun _ h => h) (Nat.le_refl _)
  | heartbeatStarted g hr hp =>
    exact Ledger.still rfl (view_placed_none ht (by rw [hr, hp]; rfl) (by rw [hr]; rfl)) rfl
      (fun _ h => h) (Nat.le_refl _)
  | dispatched g link l l' frame hr hp hc hl hf =>
    have hd : deals (tr ++ .dispatched link frame :: heard m frame) =
        deals tr ++ [.dispatched link frame] := by
      rw [deals_append]
      congr 1
      unfold heard
      cases eventIn frame <;> rfl
    exact Ledger.goes rfl rfl hd (.heard (c := m.ledger tr) link frame)
  | readerLeft g link hr hp ho =>
    exact Ledger.still rfl (view_without_same ht (by rw [hr, hp]; rfl)) rfl (fun _ h => h)
      (Nat.le_refl _)
  | heartbeatLeft g k hr hp ho =>
    exact Ledger.still rfl (view_without_same ht (by rw [hr, hp]; rfl)) rfl (fun _ h => h)
      (Nat.le_refl _)

/-- While a link is torn down every probe of an opened link is cancelled. -/
theorem cancelled_of_probing (hs : (m.life tr).Sound) (hn : m.state ≠ .open) {i : TaskId}
    {cid : String} {sent : Bool} {g : Generation}
    (hi : m.view calls i = some (.waiting cid sent (some g))) : g ∈ m.cancelled := by
  obtain ⟨t, ht, hw⟩ := view_eq_some.mp hi
  have probing : t.role = .heartbeat g := by
    obtain ⟨host, x, stage, k, hr, _, _, _, hprobe⟩ := exists_host_of_calls hw
    cases host with
    | operation op => cases hprobe
    | heartbeat g' ticker =>
      cases hprobe
      exact hr
  have serving : m.view serves i = some (g, none) := view_eq_some.mpr ⟨t, ht, by rw [probing]; rfl⟩
  obtain ⟨link, hl, _⟩ := hs.service.serving i g none serving
  rcases hs.tokens.accounted g link hl with hc | hc
  · cases (hs.tokens.cancel_none hn).symm.trans hc
  · exact hc

theorem Tearing.ledger (hs : (m.life tr).Sound) (ht : m.task? t.id = some t)
    (h : Tearing m t os n) : Ledger.Step (m.ledger tr) (n.ledger (tr ++ os)) := by
  cases h with
  | begun td links hb hg hstate =>
    have hold : calls t.role t.position = none := by
      cases hb with
      | close n hr hp => rw [hr, hp]; rfl
      | remote g link l l' hr hp => rw [hr, hp]; rfl
      | failed g link l l' f hr hp => rw [hr, hp]; rfl
      | silent g k hr hp => rw [hr, hp]; rfl
    have hnew : calls t.role (.tearing td .queued) = none := by cases t.role <;> rfl
    refine Ledger.still rfl (view_placed_none ht hold hnew) ?_
      (List.subset_append_right _ _) (Nat.le_refl _)
    split <;> rfl
  | taken td link hp hl hw =>
    have none : ∀ stage, calls t.role (.tearing td stage) = none := by
      intro stage
      cases t.role <;> rfl
    exact Ledger.still rfl (view_placed_none ht (hp ▸ none _) (none _)) rfl
      (fun _ h => h) (Nat.le_refl _)
  | ended td stage links queue hf hp hv =>
    have none : calls t.role t.position = none := by
      rw [hp]
      cases t.role <;> rfl
    have tearing : m.view tears t.id = some (td, stage) := (view_of ht).trans (by rw [hp]; rfl)
    have closing : m.state ≠ .open := by
      rw [show m.state = .closing from (hs.posts.tearing t.id td stage tearing).1]
      decide
    have reason : ∀ f, td.cause = .error f → ∃ reason, f = .transport reason := by
      intro f hc
      rw [hp] at hf
      generalize t.role = r at hf
      cases hf with
      | failed =>
        cases hc
        exact ⟨_, rfl⟩
      | _ => cases hc
    have hd : deals (tr ++ (.closed td.generation td.cause ::
        ((if td.notify then [.shown .idle 0, .event (.disconnected td.cause)] else []) ++
          (if td.cause = .user then [] else [.disconnect td.cause]) ++
          (if t.isOperation then [.finished t.id (.ok .nothing)] else [])))) =
        deals tr ++ [.closed td.generation td.cause] := by
      rw [deals_append]
      congr 1
      split <;> split <;> split <;> rfl
    exact Ledger.goes rfl (view_without_same ht none) hd
      (.drained (c := m.ledger tr) td.generation td.cause reason
        fun i cid sent g hi => cancelled_of_probing hs closing hi)

theorem Leaving.ledger (ht : m.task? t.id = some t) (h : Leaving m t os n) :
    Ledger.Step (m.ledger tr) (n.ledger (tr ++ os)) := by
  have hi : m.view calls t.id = calls t.role t.position := view_of ht
  cases h with
  | finished op r hr hp =>
    refine Ledger.still rfl (view_without_same ht ?_) rfl (fun _ h => h) (Nat.le_refl _)
    rcases hp with ⟨hp, hq⟩ | ⟨_, _, _, _, hp⟩
    · rw [hr, hp, calls, hq]
      rfl
    · rw [hr, hp]
      rfl
  | dropped links queue ha hd =>
    -- what is dropped here is no exchange, and so it has not yet made its request
    cases hc : calls t.role t.position with
    | none => exact Ledger.still rfl (view_without_same ht hc) rfl (fun _ h => h) (Nat.le_refl _)
    | some s =>
      have ready : s = .ready := by
        cases s with
        | ready => rfl
        | waiting cid sent probe =>
          obtain ⟨host, x, stage, _, _, hp, _⟩ := exists_host_of_calls hc
          rw [hp] at hd
          cases host <;> cases hd
      rw [hc, ready] at hi
      exact Ledger.goes rfl (view_without _) (congrArg deals (List.append_nil tr))
        (.withdrawn (c := m.ledger tr) t.id hi)

/-- A change of a client is a step of its ledger. -/
theorem Change.ledger (hm : Fit m) (hs : (m.life tr).Sound) (he : Errands tr m)
    (h : Change m os n) : Ledger.Step (m.ledger tr) (n.ledger (tr ++ os)) := by
  cases h with
  | outside h => exact h.ledger hm
  | released h => exact h.ledger
  | connecting ht h => exact h.ledger ht
  | exchanging ht h => exact h.ledger hm he ht
  | background ht h => exact h.ledger ht
  | tearing ht h => exact h.ledger hs ht
  | leaving ht h => exact h.ledger ht

end

/-- A ledger before its first step. -/
structure Ledger.New (c : Ledger) : Prop where
  registry : c.registry = {}
  calls : c.calls = fun _ => none
  deals : c.deals = []

/-- What the steps of a ledger keep holds of the ledger of every client that a run leads to. -/
theorem Ledger.invariant {I : Ledger → Prop} (initial : ∀ c : Ledger, c.New → I c)
    (keep : ∀ c d, Ledger.Step c d → I c → I d) :
    Invariant (fun tr m =>
      ((Fit m ∧ (m.life tr).Sound) ∧ (Fit m ∧ Errands tr m)) ∧ I (m.ledger tr)) := by
  refine (Life.sound_invariant.both errands_invariant).and ?_ ?_ (fun _ _ _ _ h => h)
  · intro m h
    obtain ⟨_, _, _, _, rfl⟩ := h.fields
    exact initial _ ⟨rfl, rfl, rfl⟩
  · intro m os n tr h hm hi
    exact keep _ _ (h.ledger hm.1.1 hm.1.2 hm.2.2) hi

theorem Machine.Reachable.ledger {I : Ledger → Prop} (initial : ∀ c : Ledger, c.New → I c)
    (keep : ∀ c d, Ledger.Step c d → I c → I d) {may : Move → Prop} {m : Machine}
    (hm : m.Reachable may) : I (m.ledger m.trace) :=
  ((Ledger.invariant initial keep).reached hm).2

end GameLink.Client

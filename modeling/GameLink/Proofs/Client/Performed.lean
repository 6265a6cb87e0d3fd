import GameLink.Proofs.Client.Custody
import GameLink.Proofs.Client.Replay
import GameLink.Proofs.Client.Severed
import GameLink.Proofs.Client.Signature
import GameLink.Proofs.Client.Unawaited

/-! # What the typed operations send and return

A typed operation writes one frame, which carries its own key and body. If it
awaits a reply and one arrives in time (`Receives`), the reply decides what it
returns, and otherwise it fails because it was not sent, its time was up or its link
went away (`Fails`). Nothing of it is left when it is over (`calls_performed`).
-/
namespace GameLink.Client

/-! ## Replies in time -/

/-- A frame that comes after `a` is the reply to a request: its id has been given out, and nothing
has settled or answered the request so far. -/
structure Arrives (a : List Observation) (frame : Bytes) (i : TaskId) (cid : String)
    (e : Envelope) : Prop where
  reads : Envelope.decode frame = .ok e
  own : e.cid = some cid
  issued : .issued i cid ∈ a
  unsettled : settlement cid a = none
  unanswered : ∀ o, .answered i cid o ∉ a

/-- The task has written its message under the id, and got the envelope in reply. -/
def Receives (tr : List Observation) (i : TaskId) (cid : String) (e : Envelope) : Prop :=
  Written tr i cid ∧
    ∃ a link frame b, tr = a ++ .dispatched link frame :: b ∧ Arrives a frame i cid e

/-- Why a request ends without a reply. -/
inductive Fails (tr : List Observation) (i : TaskId) (cid : String) : Failure → Prop
  | unsent (f : Failure) (hf : f = .notConnected ∨ ∃ reason, f = .transport reason)
      (hw : ¬ Written tr i cid) : Fails tr i cid f
  | overdue (ms : Nat) : Fails tr i cid (.timeout cid ms)
  | severed (g : Generation) (cause : Cause) (h : .closed g cause ∈ tr)
      (hf : cause.failure = .heartbeatTimeout ∨ cause.failure = .notConnected ∨
        ∃ reason, cause.failure = .transport reason) : Fails tr i cid cause.failure

/-- Only a reply makes an operation that awaits one return this. -/
def Result.fromReply : Result → Bool
  | .ok _ | .failed (.decode _) | .failed (.errorReply _) => true
  | _ => false

theorem Fails.not_fromReply {tr : List Observation} {i : TaskId} {cid : String} {f : Failure}
    (h : Fails tr i cid f) : (Result.failed f).fromReply = false := by
  cases h with
  | unsent f hf hw => rcases hf with rfl | ⟨_, rfl⟩ <;> rfl
  | overdue ms => rfl
  | severed g cause h hf => rcases hf with hf | hf | ⟨_, hf⟩ <;> rw [hf] <;> rfl

theorem Receives.issued {tr : List Observation} {i : TaskId} {cid : String} {e : Envelope}
    (h : Receives tr i cid e) : .issued i cid ∈ tr := by
  obtain ⟨_, a, link, frame, b, rfl, arrives⟩ := h
  exact List.mem_append_left _ arrives.issued

section
variable {a b : List Observation} {frame : Bytes} {i : TaskId} {cid : String} {e : Envelope}

theorem Arrives.settles (h : Arrives a frame i cid e) (link : LinkId) :
    settlement cid (a ++ .dispatched link frame :: b) =
      some (.reply link frame (Machine.replyOutcome e)) := by
  have tells : replyIn frame = some (cid, Machine.replyOutcome e) := by
    rw [replyIn, h.reads]
    dsimp only
    rw [h.own]
    rfl
  rw [settlement_append h.issued, h.unsettled, Option.none_or, List.findSome?_cons,
    settles_dispatched tells]

/-- The reply is what has settled the request when it is answered. -/
theorem Arrives.settled_before {link : LinkId} (h : Arrives a frame i cid e)
    {a' b' : List Observation} {o : Except Failure Answer}
    (hsplit : a ++ .dispatched link frame :: b = a' ++ .answered i cid o :: b') :
    settlement cid a' = some (.reply link frame (Machine.replyOutcome e)) := by
  rcases List.append_eq_append_iff.mp hsplit with ⟨c, rfl, hc⟩ | ⟨c, rfl, hc⟩
  · cases c with
    | nil => cases hc
    | cons o' c =>
      obtain ⟨rfl, _⟩ := List.cons.inj hc
      exact h.settles link
  · cases c with
    | nil => cases hc
    | cons o' c =>
      obtain ⟨rfl, _⟩ := List.cons.inj hc
      exact absurd (List.mem_append_right _ (.head _)) (h.unanswered o)

end

/-! ## Calls as operations -/

namespace Call

variable {call : Call}

theorem message_eq_ok_iff {message : Outbound} :
    (Operation.perform call).message? = some message ↔ call.message = .ok message := by
  show call.message.toOption = some message ↔ _
  cases call.message <;> simp [Except.toOption]

theorem requests_iff :
    (Operation.perform call).requests = true ↔ call.Proper ∧ call.signature.expected ≠ .nothing := by
  show (call.message.isOk && call.awaitsReply) = true ↔ _
  rw [Bool.and_eq_true, awaitsReply_iff, proper_iff]
  cases call.message <;> simp [Except.isOk, Except.toBool]

theorem proper_of_nothing (h : call.signature.expected = .nothing) : call.Proper := by
  cases call with
  | writeChatMessage channelId content => cases h
  | _ => trivial

theorem message?_of_not_proper (h : ¬ call.Proper) : (Operation.perform call).message? = none := by
  show call.message.toOption = none
  rw [message_of_not_proper h]
  rfl

end Call

namespace Machine

section
variable {may : Move → Prop} {m : Machine} {i : TaskId} {t : Task} {call : Call} {cid : String}
  {e : Envelope} {r : Result}

section
variable (hm : m.Reachable may)
include hm

/-! ## With a reply -/

theorem Reachable.answer_of_receives (h : Receives m.trace i cid e) {o : Except Failure Answer}
    (ha : .answered i cid o ∈ m.trace) : o = (replyOutcome e).map .envelope := by
  obtain ⟨written, a, link, frame, b, hsplit, arrives⟩ := h
  obtain ⟨a', b', hanswer⟩ := List.append_of_mem ha
  have settled := arrives.settled_before (hsplit.symm.trans hanswer)
  cases (hm.reason hanswer).1 with
  | settled s hs hw =>
    cases settled.symm.trans hs
    rfl
  | overdue ms hs hw => cases settled.symm.trans hs
  | unsent f hw hf => exact absurd (hm.written_before hanswer written) hw

theorem Reachable.returns (hs : .started i (.perform call) ∈ m.trace)
    (h : Receives m.trace i cid e) (hr : .finished i r ∈ m.trace) :
    call.signature.expected.Returns e r := by
  have requests := hm.requests_of_issued hs h.issued
  obtain ⟨cid', o, answered, rfl⟩ := hm.concluded.finished i _ r hs requests hr
  obtain rfl := hm.single_cid hs (hm.issued_of_answered answered) h.issued
  obtain rfl := hm.answer_of_receives h answered
  exact Call.returns_iff.mpr rfl

/-- An operation that has written its request waits for the reply. -/
theorem Reachable.awaiting_of_written {op : Operation} (hs : .started i op ∈ m.trace)
    (hi : .issued i cid ∈ m.trace) (hw : Written m.trace i cid) (ht : m.task? i = some t) :
    ∃ x k, t.position = .exchanging x .awaiting ∧ x.ticket = some k ∧ k.cid = cid := by
  have requests := hm.requests_of_issued hs hi
  have role := hm.role_of_started ht hs
  have view : m.view calls i = calls t.role t.position := by
    obtain rfl := findTask_id ht
    exact view_of ht
  have fits := hm.fit.fits i t ht
  rw [role] at fits view
  generalize hp : t.position = p at fits view
  cases fits with
  | start =>
    have ready : (m.ledger m.trace).calls i = some .ready := by
      refine view.trans ?_
      rw [calls, requests]
      rfl
    have issued : (i, cid) ∈ issues (deals m.trace) := mem_issues_deals.mpr hi
    exact absurd issued ((hm.accounts.asked.ready i ready).2 cid)
  | @exchanging _ x stage h =>
    obtain ⟨k, hk⟩ := Option.isSome_iff_exists.mp (h.trans requests)
    have waiting : (m.ledger m.trace).calls i =
        some (.waiting k.cid (decide (stage = .awaiting)) none) := by
      refine view.trans ?_
      rw [calls, hk]
      rfl
    have ticket : t.ticket? = some k := by
      rw [Task.ticket?, hp]
      exact hk
    have given : .issued i k.cid ∈ m.trace := mem_issues_deals.mp
      (hm.accounts.held.issuer i k.cid (waits_of_ticket hm.fit ht ticket))
    obtain rfl := hm.single_cid hs given hi
    have sent := (hm.accounts.marked.sent i k.cid _ none waiting).mpr (written_deals.mpr hw)
    obtain rfl := of_decide_eq_true sent
    exact ⟨x, k, rfl, hk, rfl⟩
  | dialing h => cases requests.symm.trans (Operation.requests_eq_false h)
  | installing h => cases requests.symm.trans (Operation.requests_eq_false h)
  | discarding h => cases requests.symm.trans (Operation.requests_eq_false h)
  | closing => cases requests

/-- A call that has got its reply returns with its next step. -/
theorem Reachable.due (hs : .started i (.perform call) ∈ m.trace) (h : Receives m.trace i cid e)
    (ht : m.task? i = some t) (ha : t.aborted = false) :
    m.taskEnabled t = true ∧ ∃ r, .finished i r ∈ (m.run (.task i)).trace ∧
      call.signature.expected.Returns e r := by
  have role := hm.role_of_started ht hs
  obtain ⟨x, k, hp, hk, rfl⟩ := hm.awaiting_of_written hs h.issued h.1 ht
  have ticket : t.ticket? = some k := by
    rw [Task.ticket?, hp]
    exact hk
  obtain ⟨_, a, link, frame, b, hsplit, arrives⟩ := h
  have settled : settlement k.cid m.trace = some (.reply link frame (replyOutcome e)) :=
    hsplit ▸ arrives.settles link
  have waited : m.registry.wait k x.timeout m.now = some (replyOutcome e) := by
    rw [Registry.wait, Registry.poll_of_delivered (hm.settled_lookup ht ticket settled)]
    rfl
  have ended : (m.runExchange t.id x .awaiting).2 =
      .ended ((replyOutcome e).map .envelope) := by
    simp only [runExchange, hk, takeReply, waited]
  refine ⟨?_, conclude (.perform call) ((replyOutcome e).map .envelope), ?_,
    Call.returns_iff.mpr rfl⟩
  · rw [taskEnabled, ha, role, hp]
    simp [exchangeReady, hk, waited]
  · obtain rfl := findTask_id ht
    have run : m.run (.task t.id) =
        settleExchange t (.perform call) x (m.runExchange t.id x .awaiting) := by
      simp only [Machine.run, ht]
      rw [runTask, ha, role, hp]
      rfl
    rw [run, settleExchange, ended]
    dsimp only
    rw [finish_trace]
    exact List.mem_append_right _ (.head _)

/-! ## Without a reply -/

/-- A link that went away under a request did so for one of these causes. -/
theorem Reachable.severed_by {a b : List Observation} (h : m.trace = a ++ b) {g : Generation}
    {cause : Cause} (hs : settlement cid a = some (.drain g cause)) : .closed g cause ∈ m.trace ∧
      (cause.failure = .heartbeatTimeout ∨ cause.failure = .notConnected ∨
        ∃ reason, cause.failure = .transport reason) := by
  obtain ⟨a', o, b', j, rfl, _, _, settles⟩ := exists_of_settlement hs
  obtain rfl := settles_eq_drain settles
  have closed : .closed g cause ∈ m.trace := by
    rw [h]
    exact List.mem_append_left _ (List.mem_append_right _ (.head _))
  refine ⟨closed, ?_⟩
  cases cause with
  | error f => exact .inr (.inr (hm.accounts.plain g f ((mem_deals rfl).mpr closed)))
  | heartbeat => exact .inl rfl
  | user | remote => exact .inr (.inl rfl)

/-- Nobody is answered twice. -/
theorem Reachable.answered_once {a b : List Observation} {o o' : Except Failure Answer}
    (h : m.trace = a ++ .answered i cid o :: b) : .answered i cid o' ∉ a := by
  intro ha
  have once := hm.accounts.replied.once
  rw [show (m.ledger m.trace).deals = deals m.trace from rfl, replies_deals, h, replies_append,
    List.map_append, List.nodup_append] at once
  have before := List.mem_map_of_mem (f := fun r => r.2.1) (mem_replies.mpr ha)
  exact once.2.2 _ before _ (.head _) rfl

theorem Reachable.receives_of_settled {a b : List Observation} {o : Except Failure Answer}
    (h : m.trace = a ++ .answered i cid o :: b) {link : LinkId} {frame : Bytes}
    {outcome : Outcome} (hs : settlement cid a = some (.reply link frame outcome))
    (hw : Written a i cid) : ∃ e, Receives m.trace i cid e := by
  obtain ⟨a', o', b', j, rfl, issued, unsettled, settles⟩ := exists_of_settlement hs
  obtain ⟨rfl, tells⟩ := settles_eq_reply settles
  obtain ⟨e, reads, own, _⟩ := replyIn_eq_some tells
  have given : .issued j cid ∈ m.trace := by
    rw [h]
    exact List.mem_append_left _ (List.mem_append_left _ issued)
  have answered : .answered i cid o ∈ m.trace := h ▸ List.mem_append_right _ (.head _)
  obtain rfl := hm.issuer_eq given (hm.issued_of_answered answered)
  refine ⟨e, h ▸ written_append.mpr (.inl hw), a', link, frame,
    b' ++ .answered j cid o :: b, by rw [h, List.append_assoc]; rfl, reads, own, issued,
    unsettled, fun o' ho => ?_⟩
  exact hm.answered_once h (List.mem_append_left _ ho)

/-- A call that finishes without a reply has failed for another reason. -/
theorem Reachable.fails (hs : .started i (.perform call) ∈ m.trace) (hp : call.Proper)
    (hx : call.signature.expected ≠ .nothing) (hr : .finished i r ∈ m.trace)
    (hn : ∀ cid e, ¬ Receives m.trace i cid e) :
    ∃ cid f, .issued i cid ∈ m.trace ∧ r = .failed f ∧ Fails m.trace i cid f := by
  have requests := Call.requests_iff.mpr ⟨hp, hx⟩
  obtain ⟨cid, o, answered, rfl⟩ := hm.concluded.finished i _ r hs requests hr
  obtain ⟨a, b, h⟩ := List.append_of_mem answered
  refine ⟨cid, ?_⟩
  cases (hm.reason h).1 with
  | overdue ms hs hw => exact ⟨_, hm.issued_of_answered answered, rfl, .overdue ms⟩
  | unsent f hw hf =>
    exact ⟨f, hm.issued_of_answered answered, rfl,
      .unsent f hf fun written => hw (hm.written_before h written)⟩
  | settled s hs hw =>
    cases s with
    | reply link frame outcome =>
      obtain ⟨e, received⟩ := hm.receives_of_settled h hs hw
      exact absurd received (hn cid e)
    | drain g cause =>
      obtain ⟨closed, lost⟩ := hm.severed_by h hs
      exact ⟨_, hm.issued_of_answered answered, rfl, .severed g cause closed lost⟩

/-- Nothing is left of a request whose task is gone. -/
theorem Reachable.cleared (hg : m.task? i = none) (hi : .issued i cid ∈ m.trace) :
    cid ∉ m.registry.slots ∧ ∀ d ∈ m.registry.delivered, d.1 ≠ cid := by
  have nobody : ∀ j, ¬ (m.ledger m.trace).Waits j cid := by
    intro j hw
    have issued : .issued j cid ∈ m.trace :=
      mem_issues_deals.mp (hm.accounts.held.issuer j cid hw)
    obtain rfl := hm.issuer_eq hi issued
    obtain ⟨t, _, ht, _⟩ := ticket_of_waits hw
    cases hg.symm.trans ht
  constructor
  · intro hs
    obtain ⟨j, hw⟩ := hm.accounts.held.slots cid hs
    exact nobody j hw
  · rintro d hd rfl
    obtain ⟨j, hw⟩ := hm.accounts.held.delivered d hd
    exact nobody j hw

/-! ## Frames -/

/-- What a call writes is its own key and body, with its id where it awaits a reply. -/
theorem Reachable.framed (hs : .started i (.perform call) ∈ m.trace) {link : LinkId}
    {frame : Envelope.Outgoing} (hw : .wrote i link frame ∈ m.trace) :
    frame.toJson = .object ((frame.cid.map fun c => ("cid", Json.string c)).toList ++
        [(call.signature.key, .object (present call.signature.fields))]) ∧
      (frame.cid = none ↔ call.signature.expected = .nothing) ∧
      ∀ cid, frame.cid = some cid → .issued i cid ∈ m.trace := by
  obtain ⟨said, asks⟩ := hm.utters_own hs hw
  have message := Call.message_eq_ok_iff.mp said
  obtain ⟨kind, members⟩ := Call.message_eq_ok message
  refine ⟨?_, ?_, fun cid hc => hm.issued_of_wrote hw hc⟩
  · rw [Envelope.Outgoing.toJson, Outbound.body, kind, members]
  · rw [← Option.not_isSome_iff_eq_none, asks, Call.requests_iff,
      and_iff_right (Call.proper_iff.mpr ⟨_, message⟩), not_not]

/-- Chat content comes back from the text that is written for it. -/
theorem Reachable.legible {channelId : String} {content : Json}
    (hs : .started i (.perform (.writeChatMessage channelId content)) ∈ m.trace) {link : LinkId}
    {frame : Envelope.Outgoing} (hw : .wrote i link frame ∈ m.trace) (canonical : content.Canonical)
    (integral : content.Integral) (depth : content.depth ≤ Json.Document.maxDepth) :
    ∃ text, (frame.toJson.get? "channel_message_send").bind (·.get? "content") =
        some (.string text) ∧ Json.ofText? text = some content := by
  refine ⟨content.render, ?_, Json.ofText?_render canonical integral depth⟩
  rw [(hm.framed hs hw).1]
  cases frame.cid <;> rfl

/-! ## Calls that await no reply -/

theorem Reachable.ungiven_of_nothing (hs : .started i (.perform call) ∈ m.trace)
    (hx : call.signature.expected = .nothing) : .issued i cid ∉ m.trace := fun hi =>
  (Call.requests_iff.mp (hm.requests_of_issued hs hi)).2 hx

/-- A call that awaits no reply is over when it has written, and failed where it has not. -/
theorem Reachable.told (hs : .started i (.perform call) ∈ m.trace)
    (hx : call.signature.expected = .nothing) (hr : .finished i r ∈ m.trace) :
    (r = .ok .nothing ∧ ∃ link frame, .wrote i link frame ∈ m.trace) ∨
      (∃ f, r = .failed f ∧ (f = .notConnected ∨ ∃ reason, f = .transport reason)) ∧
        ∀ link frame, .wrote i link frame ∉ m.trace := by
  obtain ⟨message, said⟩ := Call.proper_iff.mp (Call.proper_of_nothing hx)
  have quiet : (Operation.perform call).requests = false := by
    rw [Bool.eq_false_iff, ne_eq, Call.requests_iff]
    exact fun h => h.2 hx
  cases hm.speech.told i _ message r hs quiet (Call.message_eq_ok_iff.mpr said) hr with
  | sent link hw => exact .inl ⟨rfl, link, _, hw⟩
  | unsent f hf hw => exact .inr ⟨⟨f, rfl, hf⟩, hw⟩

/-! ## Calls that are refused -/

theorem Reachable.ungiven_of_not_proper (hs : .started i (.perform call) ∈ m.trace)
    (hc : ¬ call.Proper) : .issued i cid ∉ m.trace := fun hi =>
  hc (Call.requests_iff.mp (hm.requests_of_issued hs hi)).1

theorem Reachable.unwritten_of_not_proper (hs : .started i (.perform call) ∈ m.trace)
    (hc : ¬ call.Proper) (link : LinkId) (frame : Envelope.Outgoing) :
    .wrote i link frame ∉ m.trace := by
  intro hw
  cases (Call.message?_of_not_proper hc).symm.trans (hm.utters_own hs hw).1

end

/-- The first step of a call without a message is its last. -/
theorem run_improper (ht : m.task? i = some t) (ha : t.aborted = false)
    (hr : t.role = .operation (.perform call)) (hp : t.position = .start) (hc : ¬ call.Proper) :
    m.run (.task i) = m.finish i (.failed (.decode .chatContent)) := by
  obtain rfl := findTask_id ht
  simp only [Machine.run, ht]
  rw [runTask, ha, hp]
  simp [runStart, hr, beginCall, Call.message_of_not_proper hc]

/-- A call without a message goes nowhere from where it started. -/
theorem not_onward_of_not_proper {os : List Observation} {p : Position} (h : Onward m t os p)
    (hr : t.role = .operation (.perform call)) (hp : t.position = .start) (hc : ¬ call.Proper) :
    ¬ Fits t.role p := by
  have mute := Call.message?_of_not_proper hc
  have apart : ∀ {q : Position}, t.position = q → q = .start := fun hq => hq.symm.trans hp
  intro fits
  rw [hr] at fits
  cases h with
  | dials op url stage hr' hconn =>
    cases hr.symm.trans hr'
    cases hconn
  | sends op message => cases fits with | exchanging hx hm => cases mute.symm.trans hm
  | asks host x hh =>
    cases host with
    | operation op => cases fits with | exchanging hx hm => cases mute.symm.trans hm
    | heartbeat g k => cases hr.symm.trans hh.role_eq
  | hangs g url deadline wake hq => cases apart hq
  | links g url deadline stage hq => cases apart hq
  | discards g link hq => cases apart hq
  | stalls host x hr' hq => exact host.position_ne_start (apart hq)
  | writes host x link hr' hq => exact host.position_ne_start (apart hq)
  | rests g k os hr' => cases hr.symm.trans hr'
  | _ => cases fits

/-- A call without a message is where it started as long as it is there. -/
theorem Reachable.idle_of_not_proper (hm : m.Reachable may) (ht : m.task? i = some t)
    (hr : t.role = .operation (.perform call)) (hc : ¬ call.Proper) : t.position = .start := by
  have inv := fit_invariant.and (I := fun _ m => ∀ i t, m.task? i = some t →
    t.role = .operation (.perform call) → t.position = .start) ?_ ?_ (fun _ _ _ _ h => h)
  · exact (inv.reached hm).2 i t ht hr
  · intro m h i t ht
    obtain ⟨_, _, _, _, rfl⟩ := h.fields
    cases ht
  · intro m os n tr h hf ih i u hu hr
    rcases h.origin hu with ⟨t, ht, hrole, hpos | hon⟩ | ⟨_, hpos, _⟩
    · exact hpos ▸ ih i t ht (hrole ▸ hr)
    · have role := hrole.symm.trans hr
      have fits := (fit_invariant.keep m os n tr h hf).fits i u hu
      exact absurd (hrole ▸ fits) (not_onward_of_not_proper hon role (ih i t ht role) hc)
    · exact hpos

/-- A call without a message ends with its first step, which leaves the table alone. -/
theorem Reachable.ends_of_not_proper (hm : m.Reachable may) (hs : .started i (.perform call) ∈ m.trace)
    (hc : ¬ call.Proper) (ht : m.task? i = some t) (ha : t.aborted = false) :
    m.taskEnabled t = true ∧
      .finished i (.failed (.decode .chatContent)) ∈ (m.run (.task i)).trace ∧
      (m.run (.task i)).registry = m.registry := by
  have role := hm.role_of_started ht hs
  have start := hm.idle_of_not_proper ht role hc
  rw [run_improper ht ha role start hc]
  refine ⟨?_, ?_, ?_⟩
  · rw [taskEnabled, start]
    exact Bool.or_true _
  · rw [finish_trace]
    exact List.mem_append_right _ (.head _)
  · obtain ⟨_, _, _, _, he⟩ :=
      removeTask_eq (i := i) (m.record (.finished i (.failed (.decode .chatContent))))
    rw [finish, he]
    rfl

theorem Reachable.result_of_not_proper (hm : m.Reachable may) (hs : .started i (.perform call) ∈ m.trace)
    (hc : ¬ call.Proper) (hr : .finished i r ∈ m.trace) : r = .failed (.decode .chatContent) := by
  obtain ⟨a, t, acted⟩ := hm.acted hr rfl
  have made := acted.made
  cases ha : t.aborted with
  | true => exact absurd (trace_dropped acted.there ha ▸ made) acted.new
  | false =>
    have role := acted.role hs
    have start := acted.reached.idle_of_not_proper acted.there role hc
    rw [run_improper acted.there ha role start hc, finish_trace] at made
    cases List.mem_singleton.mp ((List.mem_append.mp made).resolve_left acted.new)
    rfl

end

/-! ## All of it -/

structure Performed (m : Machine) : Prop where
  /-- A call writes one frame at most, and that is its own: its key over a body of its fields, under
  an id that it was given if it awaits a reply. -/
  single : ∀ i call, .started i (.perform call) ∈ m.trace →
    ((utterances m.trace).filter (fun u => u.task == i)).length ≤ 1
  framed : ∀ i call link frame, .started i (.perform call) ∈ m.trace →
    .wrote i link frame ∈ m.trace →
      frame.toJson = .object ((frame.cid.map fun c => ("cid", Json.string c)).toList ++
          [(call.signature.key, .object (present call.signature.fields))]) ∧
        (frame.cid = none ↔ call.signature.expected = .nothing) ∧
        ∀ cid, frame.cid = some cid → .issued i cid ∈ m.trace
  /-- A call that awaits nothing is given no id, is over as soon as it has written, and fails only
  where it has not. -/
  unawaited : ∀ i call, .started i (.perform call) ∈ m.trace →
    call.signature.expected = .nothing →
      (∀ cid, .issued i cid ∉ m.trace) ∧
      (∀ link frame, .wrote i link frame ∈ m.trace → .finished i (.ok .nothing) ∈ m.trace) ∧
      ∀ r, .finished i r ∈ m.trace →
        (r = .ok .nothing ∧ ∃ link frame, .wrote i link frame ∈ m.trace) ∨
          (∃ f, r = .failed f ∧ (f = .notConnected ∨ ∃ reason, f = .transport reason)) ∧
            ∀ link frame, .wrote i link frame ∉ m.trace
  /-- Of every other call the reply decides what it returns. -/
  returns : ∀ i call cid e r, .started i (.perform call) ∈ m.trace → Receives m.trace i cid e →
    .finished i r ∈ m.trace → call.signature.expected.Returns e r
  /-- With a reply it does return, in its next step. -/
  due : ∀ i call cid e t, .started i (.perform call) ∈ m.trace → Receives m.trace i cid e →
    m.task? i = some t → t.aborted = false →
      m.taskEnabled t = true ∧ ∃ r, .finished i r ∈ (m.run (.task i)).trace ∧
        call.signature.expected.Returns e r
  /-- Without one it fails for another reason. -/
  fails : ∀ i call r, .started i (.perform call) ∈ m.trace → call.Proper →
    call.signature.expected ≠ .nothing → .finished i r ∈ m.trace →
      (∀ cid e, ¬ Receives m.trace i cid e) →
        ∃ cid f, .issued i cid ∈ m.trace ∧ r = .failed f ∧ Fails m.trace i cid f
  /-- So it succeeds, cannot decode or is refused by the server just where the reply says so. -/
  iff_reply : ∀ i call r r', .started i (.perform call) ∈ m.trace → call.Proper →
    call.signature.expected ≠ .nothing → .finished i r ∈ m.trace → r'.fromReply = true →
      (r = r' ↔ ∃ cid e, Receives m.trace i cid e ∧ call.signature.expected.Returns e r')
  /-- When it is over nothing is left of it in the table. -/
  cleared : ∀ i r, .finished i r ∈ m.trace → m.task? i = none ∧
    ∀ cid, .issued i cid ∈ m.trace →
      cid ∉ m.registry.slots ∧ ∀ d ∈ m.registry.delivered, d.1 ≠ cid
  /-- Chat content that is no object is refused in the first step, without an id and a frame. -/
  refused : ∀ i call, .started i (.perform call) ∈ m.trace → ¬ call.Proper →
    (∀ cid, .issued i cid ∉ m.trace) ∧ (∀ link frame, .wrote i link frame ∉ m.trace) ∧
    (∀ r, .finished i r ∈ m.trace → r = .failed (.decode .chatContent)) ∧
    ∀ t, m.task? i = some t → t.aborted = false → m.taskEnabled t = true ∧
      .finished i (.failed (.decode .chatContent)) ∈ (m.run (.task i)).trace ∧
      (m.run (.task i)).registry = m.registry
  /-- Chat content without floating point that is not too deep comes back from its text; the keys of
  its objects are in order, as those of every value are. -/
  legible : ∀ i channelId content link frame,
    .started i (.perform (.writeChatMessage channelId content)) ∈ m.trace →
      .wrote i link frame ∈ m.trace → content.Canonical → content.Integral →
      content.depth ≤ Json.Document.maxDepth →
        ∃ text, (frame.toJson.get? "channel_message_send").bind (·.get? "content") =
            some (.string text) ∧ Json.ofText? text = some content

theorem calls_performed {may : Move → Prop} {m : Machine} (hm : m.Reachable may) :
    Performed m where
  single _ _ hs := hm.single hs
  framed _ _ _ _ hs hw := hm.framed hs hw
  unawaited i call hs hx := by
    refine ⟨fun _ => hm.ungiven_of_nothing hs hx, fun link frame hw => ?_,
      fun _ hr => hm.told hs hx hr⟩
    exact hm.ended_of_wrote hw ((hm.framed hs hw).2.1.mpr hx)
  returns _ _ _ _ _ hs h hr := hm.returns hs h hr
  due _ _ _ _ _ hs h ht ha := hm.due hs h ht ha
  fails _ _ _ hs hp hx hr hn := hm.fails hs hp hx hr hn
  iff_reply i call r r' hs hp hx hr hr' := by
    constructor
    · rintro rfl
      by_contra hn
      have lost : ∀ cid e, ¬ Receives m.trace i cid e := fun cid e h =>
        hn ⟨cid, e, h, hm.returns hs h hr⟩
      obtain ⟨_, f, _, rfl, fails⟩ := hm.fails hs hp hx hr lost
      cases fails.not_fromReply.symm.trans hr'
    · rintro ⟨cid, e, h, returns⟩
      rw [Call.returns_iff.mp returns, Call.returns_iff.mp (hm.returns hs h hr)]
  cleared i r hr := by
    have gone := (hm.finished_gone hr).2
    exact ⟨gone, fun _ hi => hm.cleared gone hi⟩
  refused _ _ hs hc :=
    ⟨fun _ => hm.ungiven_of_not_proper hs hc, hm.unwritten_of_not_proper hs hc,
      fun _ hr => hm.result_of_not_proper hs hc hr, fun _ ht ha => hm.ends_of_not_proper hs hc ht ha⟩
  legible _ _ _ _ _ hs hw canonical integral depth := hm.legible hs hw canonical integral depth

/-- A frame that brings the request with id `cid` a value under a key. -/
def bringing (cid key : String) (v : Json) : Bytes :=
  Bytes.ofText (Json.object [("cid", .string cid), (key, v)]).render

/-- A match is created and its reply comes, a chat message that is no object is refused, and data
is sent to a party. -/
def performing : List Move :=
  opening 0 ++ [.work (.task 1), .work (.task 2)] ++ steps 3 2 (.perform (.createMatch none)) ++
    [.act (.serverPush 0 (.data (bringing "1" "match" (.object [("match_id", .string "m")])))),
      .work (.task 1), .work (.task 3)] ++
    steps 4 1 (.perform (.writeChatMessage "c" (.array []))) ++
    steps 5 2 (.perform (.sendPartyData "p" 1 []))

/-- The match comes from the reply, and the party data has no id. -/
theorem performed_match :
    (results (fresh.replay performing).trace).filterMap (fun r =>
        match r.2 with
        | .ok (.joinedMatch joined) => some (r.1, joined.matchId)
        | _ => none) = [(3, "m")] ∧
      (writes 0 (fresh.replay performing).trace).map Envelope.Outgoing.cid = [some "1", none] ∧
      Performed (fresh.replay performing) :=
  ⟨by decide +kernel, by decide +kernel, calls_performed (reachable_replay (by decide +kernel))⟩

end Machine

end GameLink.Client

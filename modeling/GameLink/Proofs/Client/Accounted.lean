import GameLink.Proofs.Client.Conclusions
import GameLink.Proofs.Client.Replay

/-! # Every request is accounted for

What the accounts of a ledger say about the client itself: each request and each
probe has an id of its own, is answered at most once, by what belongs to its id,
and leaves nothing behind (`requests_accounted`).
-/
namespace GameLink.Client

/-- The ticket of the reply that a task waits for. -/
def Task.ticket? (t : Task) : Option Ticket :=
  match t.position with
  | .exchanging x _ | .probing _ x _ => x.ticket
  | _ => none

/-- The task has made a request or a probe and waits for its end. -/
def Task.awaits (t : Task) : Bool :=
  match t.role, t.position with
  | .operation op, .exchanging _ _ => op.requests
  | .heartbeat _, .probing _ _ _ => true
  | _, _ => false

/-- The frame between `a` and `b` is the outcome of request `cid` of task `i`: nothing had settled
it before. -/
structure Decides (a : List Observation) (frame : Bytes) (b : List Observation) (i : TaskId)
    (cid : String) (outcome : Outcome) : Prop where
  issued : .issued i cid ∈ a
  unsettled : settlement cid a = none
  tells : replyIn frame = some (cid, outcome)
  answered : .answered i cid (outcome.map .envelope) ∈ b

namespace Machine

section
variable {m : Machine} {tr : List Observation} {i : TaskId} {t : Task} {k : Ticket} {cid : String}

theorem ticket_of_waits (h : (m.ledger tr).Waits i cid) :
    ∃ t k, m.task? i = some t ∧ t.ticket? = some k ∧ k.cid = cid := by
  obtain ⟨sent, probe, h⟩ := h
  obtain ⟨t, ht, hc⟩ := view_eq_some.mp h
  obtain ⟨host, x, stage, k, _, hp, hx, hk, _⟩ := exists_host_of_calls hc
  refine ⟨t, k, ht, ?_, hk⟩
  rw [Task.ticket?, hp]
  cases host <;> exact hx

theorem waits_of_ticket (hm : Fit m) (ht : m.task? i = some t) (hk : t.ticket? = some k) :
    (m.ledger tr).Waits i k.cid := by
  have hf := hm.fits i t ht
  have found : ∃ sent probe, calls t.role t.position = some (.waiting k.cid sent probe) := by
    unfold Task.ticket? at hk
    generalize t.role = r at hf
    generalize t.position = p at hf hk
    cases hf with
    | exchanging h => exact ⟨_, _, congrArg (Option.map _) hk⟩
    | probing h => exact ⟨_, _, congrArg (Option.map _) hk⟩
    | _ => cases hk
  obtain ⟨sent, probe, hc⟩ := found
  exact ⟨sent, probe, view_eq_some.mpr ⟨t, ht, hc⟩⟩

theorem written_deals : Written (deals tr) i cid ↔ Written tr i cid := by
  constructor
  · rintro ⟨link, frame, hm, hf⟩
    exact ⟨link, frame, (List.mem_filter.mp hm).1, hf⟩
  · rintro ⟨link, frame, hm, hf⟩
    refine ⟨link, frame, (mem_deals ?_).mpr hm, hf⟩
    show frame.cid.isSome = true
    rw [hf]
    rfl

end

/-! ## What the accounts say of the history -/

section
variable {may : Move → Prop} {m : Machine} (hm : m.Reachable may)
include hm

theorem Reachable.issued_of_answered {i : TaskId} {cid : String} {o : Except Failure Answer}
    (h : .answered i cid o ∈ m.trace) : .issued i cid ∈ m.trace := by
  have answered : (i, cid, o) ∈ replies (deals m.trace) := by
    rw [replies_deals, mem_replies]
    exact h
  have issued : (i, cid) ∈ issues (deals m.trace) := hm.accounts.replied.issued i cid o answered
  rwa [issues_deals, mem_issues] at issued

theorem Reachable.issuer_eq {i j : TaskId} {cid : String} (hi : .issued i cid ∈ m.trace)
    (hj : .issued j cid ∈ m.trace) : i = j := by
  rw [← mem_issues, ← issues_deals] at hi hj
  exact hm.accounts.numbered.issuer_eq hi hj

/-- Each answer of the history has its reason before it. -/
theorem Reachable.reason {a b : List Observation} {i : TaskId} {cid : String}
    {o : Except Failure Answer} (h : m.trace = a ++ .answered i cid o :: b) :
    Reason a i cid o ∧
      ∀ g cause, settlement cid a = some (.drain g cause) → ∃ op, .started i op ∈ a := by
  have split : (m.ledger m.trace).deals = deals a ++ .answered i cid o :: deals b := by
    show deals m.trace = _
    rw [h, deals_append]
    rfl
  obtain ⟨reason, operation⟩ := hm.accounts.explained _ _ _ _ _ split
  constructor
  · cases reason with
    | settled s hs hw => exact .settled s (settlement_deals a ▸ hs) (written_deals.mp hw)
    | overdue ms hs hw => exact .overdue ms (settlement_deals a ▸ hs) (written_deals.mp hw)
    | unsent f hw hf => exact .unsent f (fun h => hw (written_deals.mpr h)) hf
  · intro g cause hs
    obtain ⟨op, hop⟩ := operation g cause ((settlement_deals a).trans hs)
    exact ⟨op, (List.mem_filter.mp hop).1⟩

/-- The failure of a cause is never one that only a reply or a clock makes. -/
theorem Reachable.drained_failure {a b : List Observation} (h : m.trace = a ++ b) {cid : String}
    {g : Generation} {cause : Cause} (hs : settlement cid a = some (.drain g cause)) :
    (∀ error, cause.failure ≠ .errorReply error) ∧ ∀ c ms, cause.failure ≠ .timeout c ms := by
  obtain ⟨a', o, b', i, rfl, _, _, ho⟩ := exists_of_settlement hs
  obtain rfl := settles_eq_drain ho
  cases cause with
  | error f =>
    have closed : .closed g (.error f) ∈ deals m.trace := by
      rw [mem_deals rfl, h]
      exact List.mem_append_left _ (List.mem_append_right _ (.head _))
    obtain ⟨reason, rfl⟩ := hm.accounts.plain g f closed
    exact ⟨fun _ h => (nomatch h), fun _ _ h => (nomatch h)⟩
  | _ => exact ⟨fun _ h => (nomatch h), fun _ _ h => (nomatch h)⟩

/-- An answer that only a reply can give is that of a frame, which is the outcome of the request. -/
theorem Reachable.decided {i : TaskId} {cid : String} {o : Except Failure Answer}
    (h : .answered i cid o ∈ m.trace)
    (ho : (∃ x, o = .ok x) ∨ ∃ error, o = .error (.errorReply error)) :
    ∃ a link frame b outcome, m.trace = a ++ .dispatched link frame :: b ∧
      o = outcome.map .envelope ∧ Decides a frame b i cid outcome := by
  obtain ⟨a, b, hsplit⟩ := List.append_of_mem h
  obtain ⟨reason, _⟩ := hm.reason hsplit
  obtain ⟨s, hs, rfl⟩ : ∃ s, settlement cid a = some s ∧ o = s.outcome.map .envelope := by
    cases reason with
    | settled s hs hw => exact ⟨s, hs, rfl⟩
    | overdue ms hs hw => rcases ho with ⟨_, ho⟩ | ⟨_, ho⟩ <;> cases ho
    | unsent f hw hf =>
      rcases ho with ⟨_, ho⟩ | ⟨_, ho⟩
      · cases ho
      · cases ho
        rcases hf with hf | ⟨_, hf⟩ <;> cases hf
  cases s with
  | reply link frame outcome =>
    obtain ⟨a', o', b', j, rfl, hj, hnone, hset⟩ := exists_of_settlement hs
    obtain ⟨rfl, hframe⟩ := settles_eq_reply hset
    have issued : .issued j cid ∈ m.trace := by
      rw [hsplit]
      exact List.mem_append_left _ (List.mem_append_left _ hj)
    obtain rfl := hm.issuer_eq issued (hm.issued_of_answered h)
    refine ⟨a', link, frame, b' ++ .answered j cid (outcome.map .envelope) :: b, outcome, ?_, rfl,
      hj, hnone, hframe, ?_⟩
    · rw [hsplit, List.append_assoc]
      rfl
    · exact List.mem_append_right _ (.head _)
  | drain g cause =>
    obtain ⟨hne, _⟩ := hm.drained_failure hsplit hs
    rcases ho with ⟨x, ho⟩ | ⟨error, ho⟩
    · cases ho
    · exact absurd (Except.error.inj ho) (hne error)

end

/-! ## The whole account -/

theorem replyIn_eq_some {frame : Bytes} {cid : String} {outcome : Outcome}
    (h : replyIn frame = some (cid, outcome)) :
    ∃ e, Envelope.decode frame = .ok e ∧ e.cid = some cid ∧ outcome = replyOutcome e := by
  unfold replyIn at h
  split at h
  · rename_i e he
    obtain ⟨c, hc, hp⟩ := Option.map_eq_some_iff.mp h
    cases hp
    exact ⟨e, he, hc, rfl⟩
  · cases h

theorem replyOutcome_eq_ok {e e' : Envelope} (h : replyOutcome e = .ok e') :
    e = e' ∧ e.error = none := by
  unfold replyOutcome at h
  split at h
  · cases h
  · rename_i he
    cases h
    exact ⟨rfl, he⟩

theorem replyOutcome_eq_error {e : Envelope} {f : Failure} (h : replyOutcome e = .error f) :
    ∃ error, e.error = some error ∧ f = .errorReply error := by
  unfold replyOutcome at h
  split at h
  · rename_i error he
    cases h
    exact ⟨error, he, rfl⟩
  · cases h

/-- A reply to a request that is not in the table is only logged. -/
theorem dispatch_stray {m : Machine} {frame : Bytes} {cid : String} {outcome : Outcome}
    (h : replyIn frame = some (cid, outcome)) (hs : cid ∉ m.registry.slots) :
    ∃ entry, m.dispatch frame = m.log entry := by
  obtain ⟨e, he, hc, rfl⟩ := replyIn_eq_some h
  unfold dispatch
  rw [he]
  dsimp only
  rw [hc]
  dsimp only
  unfold dispatchReply
  rw [Registry.resolve_of_not_mem hs]
  exact ⟨_, rfl⟩

structure Accounted (m : Machine) : Prop where
  /-- No id is given out twice. -/
  distinct : ((issues m.trace).map Prod.snd).Nodup
  /-- Whoever has made a request has an id that was given to it, and an operation gets one only. -/
  given : ∀ i t, m.task? i = some t → t.awaits = true →
    ∃ k, t.ticket? = some k ∧ .issued i k.cid ∈ m.trace
  single : ∀ i op cid cid', .started i op ∈ m.trace → op.requests = true →
    .issued i cid ∈ m.trace → .issued i cid' ∈ m.trace → cid = cid'
  /-- What is in the table belongs to a task that waits for it. -/
  held : ∀ cid, (cid ∈ m.registry.slots ∨ ∃ d ∈ m.registry.delivered, d.1 = cid) →
    ∃ i t k, m.task? i = some t ∧ t.ticket? = some k ∧ k.cid = cid
  /-- An id is answered once, to whom it was given. -/
  once : ((replies m.trace).map (fun r => r.2.1)).Nodup
  issued : ∀ i cid o, .answered i cid o ∈ m.trace → .issued i cid ∈ m.trace
  /-- After that nothing of it is left in the table. -/
  gone : ∀ i cid o, .answered i cid o ∈ m.trace →
    cid ∉ m.registry.slots ∧ ∀ d ∈ m.registry.delivered, d.1 ≠ cid
  /-- An operation that makes a request finishes with its answer, and once. -/
  finished : ∀ i op r, .started i op ∈ m.trace → op.requests = true →
    (.finished i r ∈ m.trace ↔ ∃ cid o, .answered i cid o ∈ m.trace ∧ r = conclude op o)
  result : ((results m.trace).map Prod.fst).Nodup
  /-- Success is an envelope with the id and without an error, that a frame brought. -/
  reply : ∀ i cid x, .answered i cid (.ok x) ∈ m.trace →
    ∃ e, x = .envelope e ∧ e.cid = some cid ∧ e.error = none ∧
      ∃ a link frame b, m.trace = a ++ .dispatched link frame :: b ∧
        Envelope.decode frame = .ok e ∧ Decides a frame b i cid (.ok e)
  /-- The error of a reply is that of a frame with the id. -/
  refusal : ∀ i cid error, .answered i cid (.error (.errorReply error)) ∈ m.trace →
    ∃ a link frame e b, m.trace = a ++ .dispatched link frame :: b ∧
      Envelope.decode frame = .ok e ∧ e.cid = some cid ∧ e.error = some error ∧
      Decides a frame b i cid (.error (.errorReply error))
  overdue : ∀ i cid c ms, .answered i cid (.error (.timeout c ms)) ∈ m.trace → c = cid
  /-- No frame is the outcome of two requests. -/
  alone : ∀ a link frame b i j cid cid' o o', m.trace = a ++ .dispatched link frame :: b →
    Decides a frame b i cid o → Decides a frame b j cid' o' → i = j ∧ cid = cid' ∧ o = o'
  /-- A frame that comes after the answer is logged and changes nothing. -/
  late : ∀ i cid o frame outcome, .answered i cid o ∈ m.trace →
    replyIn frame = some (cid, outcome) → ∃ entry, m.dispatch frame = m.log entry

section
variable {may : Move → Prop} {m : Machine} (hm : m.Reachable may)
include hm

theorem Reachable.gone {i : TaskId} {cid : String} {o : Except Failure Answer}
    (h : .answered i cid o ∈ m.trace) :
    cid ∉ m.registry.slots ∧ ∀ d ∈ m.registry.delivered, d.1 ≠ cid := by
  have acc := hm.accounts
  have answered : (i, cid, o) ∈ replies (deals m.trace) := by
    rw [replies_deals, mem_replies]
    exact h
  constructor
  · intro hs
    obtain ⟨k, hk⟩ := acc.held.slots cid hs
    exact acc.replied.waiting k cid hk i o answered
  · rintro d hd rfl
    obtain ⟨k, hk⟩ := acc.held.delivered d hd
    exact acc.replied.waiting k d.1 hk i o answered

theorem Reachable.ticket_given {i : TaskId} {t : Task} (ht : m.task? i = some t)
    (ha : t.awaits = true) : ∃ k, t.ticket? = some k ∧ .issued i k.cid ∈ m.trace := by
  have some_ticket : ∃ k, t.ticket? = some k := by
    have hf := hm.fit.fits i t ht
    rw [← Option.isSome_iff_exists]
    unfold Task.awaits at ha
    unfold Task.ticket?
    generalize t.role = r at hf ha
    generalize t.position = p at hf ha
    cases hf with
    | @start r => cases r <;> cases ha
    | exchanging h => exact h.trans ha
    | probing h => exact h
    | _ => cases ha
  obtain ⟨k, hk⟩ := some_ticket
  refine ⟨k, hk, ?_⟩
  have issued : (i, k.cid) ∈ issues (deals m.trace) :=
    hm.accounts.held.issuer i k.cid (waits_of_ticket hm.fit ht hk)
  rwa [issues_deals, mem_issues] at issued

theorem Reachable.brought_reply {i : TaskId} {cid : String} {x : Answer}
    (h : .answered i cid (.ok x) ∈ m.trace) :
    ∃ e, x = .envelope e ∧ e.cid = some cid ∧ e.error = none ∧
      ∃ a link frame b, m.trace = a ++ .dispatched link frame :: b ∧
        Envelope.decode frame = .ok e ∧ Decides a frame b i cid (.ok e) := by
  obtain ⟨a, link, frame, b, outcome, hsplit, ho, hd⟩ := hm.decided h (.inl ⟨x, rfl⟩)
  obtain ⟨e, he, hc, rfl⟩ := replyIn_eq_some hd.tells
  cases hout : replyOutcome e with
  | error f =>
    rw [hout] at ho
    cases ho
  | ok e' =>
    rw [hout] at ho hd
    obtain ⟨rfl, hnone⟩ := replyOutcome_eq_ok hout
    cases ho
    exact ⟨e, rfl, hc, hnone, a, link, frame, b, hsplit, he, hd⟩

theorem Reachable.brought_refusal {i : TaskId} {cid : String} {error : ServerError}
    (h : .answered i cid (.error (.errorReply error)) ∈ m.trace) :
    ∃ a link frame e b, m.trace = a ++ .dispatched link frame :: b ∧
      Envelope.decode frame = .ok e ∧ e.cid = some cid ∧ e.error = some error ∧
      Decides a frame b i cid (.error (.errorReply error)) := by
  obtain ⟨a, link, frame, b, outcome, hsplit, ho, hd⟩ := hm.decided h (.inr ⟨error, rfl⟩)
  obtain ⟨e, he, hc, rfl⟩ := replyIn_eq_some hd.tells
  cases hout : replyOutcome e with
  | error f =>
    rw [hout] at ho hd
    obtain ⟨error', herror, rfl⟩ := replyOutcome_eq_error hout
    cases ho
    exact ⟨a, link, frame, e, b, hsplit, he, hc, herror, hd⟩
  | ok e' =>
    rw [hout] at ho
    cases ho

/-- Only the clock makes a timeout, and it names the request. -/
theorem Reachable.overdue_own {i : TaskId} {cid c : String} {ms : Nat}
    (h : .answered i cid (.error (.timeout c ms)) ∈ m.trace) : c = cid := by
  obtain ⟨a, b, hsplit⟩ := List.append_of_mem h
  generalize ho : (Except.error (.timeout c ms) : Except Failure Answer) = o at hsplit
  cases (hm.reason hsplit).1 with
  | overdue ms' hs hw =>
    cases ho
    rfl
  | unsent f hw hf =>
    cases ho
    rcases hf with hf | ⟨_, hf⟩ <;> cases hf
  | settled s hs hw =>
    cases s with
    | drain g cause =>
      have failure : cause.failure = .timeout c ms := (Except.error.inj ho).symm
      exact absurd failure ((hm.drained_failure hsplit hs).2 c ms)
    | reply link frame outcome =>
      obtain ⟨a', o', b', j, _, _, _, hset⟩ := exists_of_settlement hs
      obtain ⟨e, _, _, rfl⟩ := replyIn_eq_some (settles_eq_reply hset).2
      cases hout : replyOutcome e with
      | ok e' =>
        rw [Settlement.outcome, hout] at ho
        cases ho
      | error f =>
        rw [Settlement.outcome, hout] at ho
        obtain ⟨error, _, rfl⟩ := replyOutcome_eq_error hout
        cases ho

theorem requests_accounted : Accounted m where
  distinct := issues_deals m.trace ▸ hm.accounts.numbered.distinct
  given _ _ ht ha := hm.ticket_given ht ha
  single i op cid cid' hs hq hi hi' := by
    have started : .started i op ∈ deals m.trace := (mem_deals (o := .started i op) hq).mpr hs
    rw [← mem_issues, ← issues_deals] at hi hi'
    exact hm.accounts.asked.single i op cid cid' started hi hi'
  held cid h := by
    have waits : ∃ i, (m.ledger m.trace).Waits i cid := by
      rcases h with h | ⟨d, hd, rfl⟩
      · exact hm.accounts.held.slots cid h
      · exact hm.accounts.held.delivered d hd
    obtain ⟨i, h⟩ := waits
    obtain ⟨t, k, ht, hk, he⟩ := ticket_of_waits h
    exact ⟨i, t, k, ht, hk, he⟩
  once := replies_deals m.trace ▸ hm.accounts.replied.once
  issued _ _ _ h := hm.issued_of_answered h
  gone _ _ _ h := hm.gone h
  finished i op r hs hq := by
    have concluded := hm.concluded
    constructor
    · exact concluded.finished i op r hs hq
    · rintro ⟨cid, o, ha, rfl⟩
      exact concluded.reported i op cid o hs ha
  result := (errands_invariant.reached hm).2.once
  reply _ _ _ h := hm.brought_reply h
  refusal _ _ _ h := hm.brought_refusal h
  overdue _ _ _ _ h := hm.overdue_own h
  alone a link frame b i j cid cid' o o' hsplit hd hd' := by
    have same := hd.tells.symm.trans hd'.tells
    obtain ⟨rfl, rfl⟩ := Prod.mk.inj (Option.some.inj same)
    have before : ∀ {o}, o ∈ a → o ∈ m.trace := fun h => hsplit ▸ List.mem_append_left _ h
    exact ⟨hm.issuer_eq (before hd.issued) (before hd'.issued), rfl, rfl⟩
  late i cid o frame outcome h hr := dispatch_stray hr (hm.gone h).1

end

/-- Two requests: the first one is answered, twice, and the time of the second one is up. -/
def conversed : List Move :=
  opening 0 ++ [.work (.task 1), .work (.task 2)] ++ steps 3 2 (.request .ping .standard) ++
    [.act (.serverPush 0 (.data (answerTo "1"))), .work (.task 1), .work (.task 3),
      .act (.serverPush 0 (.data (answerTo "1"))), .work (.task 1)] ++
    steps 4 2 (.request .ping (.within 5)) ++ [.act (.elapse 5), .work (.task 4)]

theorem accounted_conversed :
    (replies (fresh.replay conversed).trace).map (fun r => (r.1, r.2.1)) = [(3, "1"), (4, "2")] ∧
      Accounted (fresh.replay conversed) :=
  ⟨by decide +kernel, requests_accounted (reachable_replay (by decide +kernel))⟩

end Machine

end GameLink.Client

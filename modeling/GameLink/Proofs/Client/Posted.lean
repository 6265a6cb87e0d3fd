import GameLink.Proofs.Client.Sending
import GameLink.Proofs.Client.Stream

/-! # Every message is posted once or not at all

What the server receives on a link is what was written on it, in order. Every
write is that of one call, a call is written on one link at most, and one whose
sending has failed is written on none, whatever the links do later
(`messages_posted`).
-/
namespace GameLink.Client

/-! ## One link -/

theorem cids_writes_sublist (link : LinkId) (tr : List Observation) :
    ((writes link tr).filterMap Envelope.Outgoing.cid).Sublist (Line.cidsOf (utterances tr)) := by
  induction tr with
  | nil => exact .refl _
  | cons o tr ih =>
    cases o with
    | wrote i l frame =>
      have all : Line.cidsOf (utterances (.wrote i l frame :: tr)) =
          frame.cid.toList ++ Line.cidsOf (utterances tr) := by
        cases hc : frame.cid <;> simp [Line.cidsOf, utterances, Observation.utterance, hc]
      rw [all]
      by_cases hl : l = link
      · have here : (writes link (.wrote i l frame :: tr)).filterMap Envelope.Outgoing.cid =
            frame.cid.toList ++ (writes link tr).filterMap Envelope.Outgoing.cid := by
          cases hc : frame.cid <;> simp [writes, Observation.written?, hl, hc]
        rw [here]
        exact (List.Sublist.refl _).append ih
      · have there : writes link (.wrote i l frame :: tr) = writes link tr := by
          simp [writes, Observation.written?, hl]
        rw [there]
        exact ih.trans (List.sublist_append_right _ _)
    | _ => exact ih

theorem length_le_one_of_nodup_map {α β : Type} {f : α → β} {l : List α} (h : (l.map f).Nodup)
    (he : ∀ a ∈ l, ∀ b ∈ l, f a = f b) : l.length ≤ 1 := by
  match l with
  | [] => exact Nat.zero_le _
  | [_] => exact Nat.le_refl _
  | a :: b :: _ =>
    have same := he a (.head _) b (.tail _ (.head _))
    simp [same] at h

/-- Under what id somebody waits for its turn to write, a reply is waited for. -/
theorem ticket_of_stance {t : Task} {frame : Envelope.Outgoing} {cid : String}
    (hs : stances t.role t.position = some (.line (some frame))) (hc : frame.cid = some cid) :
    ∃ k, t.ticket? = some k ∧ k.cid = cid := by
  have found : ∀ {x : Exchange} {stage : ExchangeStage},
      some (x.stance stage) = some (.line (some frame)) → ∃ k, x.ticket = some k ∧ k.cid = cid := by
    intro x stage h
    obtain rfl : Machine.frameOf x = frame := by
      cases stage <;> cases h <;> rfl
    exact Option.map_eq_some_iff.mp hc
  unfold Task.ticket?
  unfold stances at hs
  generalize t.position = p at hs
  cases p with
  | exchanging x stage => exact found hs
  | probing k x stage => exact found hs
  | start => cases hr : t.role <;> rw [hr] at hs <;> cases hs
  | tearing td stage => cases stage <;> cases hs
  | _ => cases hs

namespace Machine

/-- What becomes of the messages that are to be sent. -/
structure Posted (m : Machine) : Prop where
  /-- The server end receives what is written on its link, in order. -/
  arrived : ∀ link k, m.links[link]? = some k → k.serverOpen = true →
    (writes link m.trace).map Envelope.Outgoing.toText = receipts link m.trace ++ k.toServer
  received : ∀ link, receipts link m.trace <+: (writes link m.trace).map Envelope.Outgoing.toText
  /-- When the server end is gone nothing is written any more. -/
  deserted : ∀ link k, m.links[link]? = some k → k.serverOpen = false →
    ∀ n, Reaches (fun _ => True) m n → writes link n.trace = writes link m.trace
  /-- A write is that of a send, a request or a probe, and has an id that its task was given. -/
  spoken : ∀ i link frame, .wrote i link frame ∈ m.trace →
    Utters m.trace i frame ∧ ∀ cid, frame.cid = some cid → .issued i cid ∈ m.trace
  /-- On all links together a call is written at most once, and an operation makes one call. -/
  once : ((utterances m.trace).map Utterance.call).Nodup
  single : ∀ i op, .started i op ∈ m.trace →
    ((utterances m.trace).filter (fun u => u.task == i)).length ≤ 1
  /-- A message that awaits no reply is written without an id if it ends well, and not otherwise. -/
  told : ∀ i op message r, .started i op ∈ m.trace → op.requests = false →
    op.message? = some message → .finished i r ∈ m.trace → Told m.trace i message r
  /-- Where the sending of a call succeeds, the link takes its frame. -/
  sent : ∀ (t : Task) (host : Host) (x : Exchange) (stage : ExchangeStage),
    m.task? t.id = some t → t.aborted = false → t.role = host.role → host.Live m →
    t.position = host.position x stage → stage ≠ .awaiting →
    ((m.runExchange t.id x stage).2 = .waiting .awaiting ∨
      ∃ a, (m.runExchange t.id x stage).2 = .ended (.ok a)) →
    ∃ link k, m.writer = some link ∧ m.links[link]? = some k ∧
      (k.write (frameOf x).toText).2 = .sent ∧
      .wrote t.id link (frameOf x) ∈ (m.after (.work (.task t.id))).trace
  /-- Where it fails, it fails as not connected or in the transport, and whatever happens then, the
  call is written on no link. -/
  unsent : ∀ t cid f, m.task? t.id = some t → m.taskEnabled t = true → t.aborted = false →
    SendFails m t cid f → (f = .notConnected ∨ ∃ reason, f = .transport reason) ∧
      ∀ n, Reaches (fun _ => True) (m.after (.work (.task t.id))) n →
        ∀ link frame, .wrote t.id link frame ∈ n.trace → frame.cid ≠ cid
  /-- So does a request or a probe that was answered before it was written. -/
  answered : ∀ i cid o, .answered i cid o ∈ m.trace → ¬ Written m.trace i cid →
    (∃ f, o = .error f ∧ (f = .notConnected ∨ ∃ reason, f = .transport reason)) ∧
      ∀ n, Reaches (fun _ => True) m n → ¬ Written n.trace i cid
  /-- The ids on a link increase as numbers. -/
  increasing : ∀ link, ∃ ns : List Nat,
    (writes link m.trace).filterMap Envelope.Outgoing.cid = ns.map toString ∧
      ns.Pairwise (· < ·)

section
variable {may : Move → Prop} {m n : Machine} {link : LinkId} {i : TaskId} {cid : String}

/-- What was observed stays observed. -/
theorem mem_trace_of_course {R : Machine → List Observation → Machine → Prop} {k : Nat}
    {o : Observation} (ho : o ∈ m.trace) (h : Course R m k n) : o ∈ n.trace :=
  h.invariant (I := fun tr _ => o ∈ tr) ho (fun _ _ _ _ _ ho => List.mem_append_left _ ho)
    (fun _ _ _ _ ho => ho)

theorem Reaches.deserted {k : Link} (hm : Fit m) (hk : m.links[link]? = some k)
    (hs : k.serverOpen = false) (h : Reaches may m n) :
    writes link n.trace = writes link m.trace := by
  let Gone : List Observation → Machine → Prop := fun tr n => Fit n ∧
    (∃ k, n.links[link]? = some k ∧ k.serverOpen = false) ∧ writes link tr = writes link m.trace
  have keep : ∀ a os b tr, Change a os b → Gone tr a → Gone (tr ++ os) b := by
    rintro a os b tr h ⟨hf, ⟨k, hk, hs⟩, hw⟩
    obtain ⟨_, none, gone⟩ := h.serverless hk hs
    exact ⟨hf.keep h, gone, by rw [writes_append, none, List.append_nil, hw]⟩
  have gone : Gone n.trace n := by
    refine h.invariant (I := fun n => Gone n.trace n) ⟨hm, ⟨k, hk, hs⟩, rfl⟩ ?_
    intro a v ha hv _
    refine (course_after ha.1 hv).invariant ha keep ?_
    exact fun tr n handler history h => ⟨fit_invariant.quiet tr n handler history h.1, h.2⟩
  exact gone.2.2

theorem wrote_of_sent {t : Task} {host : Host} {x : Exchange} {stage : ExchangeStage}
    (ht : m.task? t.id = some t) (ha : t.aborted = false) (hr : t.role = host.role)
    (hv : host.Live m) (hp : t.position = host.position x stage) (hs : stage ≠ .awaiting)
    (h : (m.runExchange t.id x stage).2 = .waiting .awaiting ∨
      ∃ a, (m.runExchange t.id x stage).2 = .ended (.ok a)) :
    ∃ link k, m.writer = some link ∧ m.links[link]? = some k ∧
      (k.write (frameOf x).toText).2 = .sent ∧
      .wrote t.id link (frameOf x) ∈ (m.after (.work (.task t.id))).trace := by
  obtain ⟨link, k, k', hw, hk, hf, hrun⟩ := runExchange_sent hs h
  refine ⟨link, k, hw, hk, by rw [hf], ?_⟩
  have settled := course_hosted ht ha hr hv hp
  rw [hrun] at settled
  have after : m.after (.work (.task t.id)) = m.runTask t := by simp only [after, run, ht]
  rw [after]
  refine mem_trace_of_course ?_ settled
  cases hx : x.ticket with
  | none =>
    simp only [proceed, wasSent, hx, noteAnswer]
    rw [trace_leave]
    exact List.mem_append_left _ (by simp [trace])
  | some k => simp [proceed, wasSent, hx, trace]

section
variable (hm : m.Reachable may)
include hm

theorem Reachable.arrived {k : Link} (hk : m.links[link]? = some k) (hs : k.serverOpen = true) :
    (writes link m.trace).map Envelope.Outgoing.toText = receipts link m.trace ++ k.toServer := by
  obtain ⟨rest, hwrites, hout⟩ := hm.outward hk
  rw [hout, hs, if_pos rfl, hwrites]

theorem Reachable.received (link : LinkId) :
    receipts link m.trace <+: (writes link m.trace).map Envelope.Outgoing.toText := by
  cases hk : m.links[link]? with
  | some k =>
    obtain ⟨rest, hwrites, _⟩ := hm.outward hk
    rw [hwrites]
    exact List.prefix_append _ _
  | none =>
    rw [← receipts_mail, hm.mail_absent hk]
    exact List.nil_prefix

theorem Reachable.issued_of_wrote {frame : Envelope.Outgoing} (h : .wrote i link frame ∈ m.trace)
    (hc : frame.cid = some cid) : .issued i cid ∈ m.trace := by
  have written : Written (deals m.trace) i cid := written_deals.mpr ⟨link, frame, h, hc⟩
  have issued : (i, cid) ∈ issues (deals m.trace) := hm.accounts.marked.issued i cid written
  rwa [issues_deals, mem_issues] at issued

theorem Reachable.single {op : Operation} (hs : .started i op ∈ m.trace) :
    ((utterances m.trace).filter (fun u => u.task == i)).length ≤ 1 := by
  have calls := hm.voiced.once.sublist
    ((List.filter_sublist (p := fun u => u.task == i)).map Utterance.call)
  -- what the operation writes has an id if it makes a request, and it gets one only
  have said : ∀ u ∈ (utterances m.trace).filter (fun u => u.task == i),
      .wrote i u.link u.frame ∈ m.trace ∧ u.frame.cid.isSome = op.requests ∧ u.task = i := by
    intro u hu
    obtain ⟨written, htask⟩ := List.mem_filter.mp hu
    obtain rfl : u.task = i := eq_of_beq htask
    have wrote := mem_utterances.mp written
    refine ⟨wrote, ?_, rfl⟩
    rcases hm.speech.utters _ _ _ wrote with ⟨op', hs', _, hcid⟩ | ⟨hnone, _⟩
    · have unique := (errands_invariant.reached hm).2.unique
      have same := List.inj_on_of_nodup_map unique (mem_errands.mpr hs) (mem_errands.mpr hs') rfl
      cases same
      exact hcid
    · exact absurd hs (hnone op)
  refine length_le_one_of_nodup_map calls fun u hu v hv => ?_
  obtain ⟨hwu, hcu, rfl⟩ := said u hu
  obtain ⟨hwv, hcv, htask⟩ := said v hv
  refine Prod.ext htask.symm ?_
  show u.frame.cid = v.frame.cid
  cases hu' : u.frame.cid with
  | none =>
    rw [← hcu, hu'] at hcv
    exact (Option.isNone_iff_eq_none.mp (by simpa using hcv)).symm
  | some c =>
    rw [← hcu, hu'] at hcv
    obtain ⟨d, hv'⟩ := Option.isSome_iff_exists.mp hcv
    have issued := hm.issued_of_wrote hwu hu'
    have issued' := hm.issued_of_wrote hwv hv'
    have requests : op.requests = true := by rw [← hcu, hu']; rfl
    have deal : (Observation.started u.task op).isDeal = true := requests
    have started : .started u.task op ∈ (m.ledger m.trace).deals := (mem_deals deal).mpr hs
    rw [← mem_issues, ← issues_deals] at issued issued'
    rw [hv', hm.accounts.asked.single _ op c d started issued issued']

/-- A request that has been answered and was not written is spent. -/
theorem Reachable.spent_of_answered {o : Except Failure Answer} (h : .answered i cid o ∈ m.trace)
    (hw : ¬ Written m.trace i cid) : (m.line m.trace).Spent i (some cid) := by
  have accounts := hm.accounts
  have issued : (i, cid) ∈ issues (deals m.trace) := by
    rw [issues_deals, mem_issues]
    exact hm.issued_of_answered h
  have answered : (i, cid, o) ∈ replies (deals m.trace) := by
    rw [replies_deals, mem_replies]
    exact h
  refine ⟨?_, accounts.asked.known.2 i cid issued, ?_, (fun hn => nomatch hn), ?_⟩
  · intro u hu he
    obtain ⟨rfl, hcid⟩ := Prod.mk.inj he
    exact hw ⟨u.link, u.frame, mem_utterances.mp hu, hcid⟩
  · intro s hs
    cases hs
    exact accounts.numbered ▸ List.mem_map_of_mem (f := Prod.snd) issued
  · intro frame hst hcid
    obtain ⟨t, ht, hst⟩ := view_eq_some.mp hst
    obtain ⟨k, hk, rfl⟩ := ticket_of_stance hst hcid
    exact accounts.replied.waiting i k.cid (waits_of_ticket hm.fit ht hk) i o answered

theorem Reachable.increasing (link : LinkId) : ∃ ns : List Nat,
    (writes link m.trace).filterMap Envelope.Outgoing.cid = ns.map toString ∧
      ns.Pairwise (· < ·) :=
  Registry.increasing_of_sublist ((cids_writes_sublist link m.trace).trans
    ((List.sublist_append_left _ _).trans hm.ranked.ordered))

end

end

theorem messages_posted {may : Move → Prop} {m : Machine} (hm : m.Reachable may) : Posted m where
  arrived _ _ hk hs := hm.arrived hk hs
  received := hm.received
  deserted _ _ hk hs _ hn := hn.deserted hm.fit hk hs
  spoken i link frame h := ⟨hm.speech.utters i link frame h, fun _ hc => hm.issued_of_wrote h hc⟩
  once := hm.voiced.once
  single _ _ hs := hm.single hs
  told := hm.speech.told
  sent _ _ _ _ ht ha hr hv hp hs h := wrote_of_sent ht ha hr hv hp hs h
  unsent := by
    intro t cid f ht he ha h
    obtain ⟨hf, spent⟩ := h.unsent hm ht he ha
    have after : m.after (.work (.task t.id)) = m.runTask t := by simp only [after, run, ht]
    have fit : Fit (m.after (.work (.task t.id))) := by
      have allowed : m.allows (.work (.task t.id)) = true := by
        simp only [allows, enabled, ht]
        exact he
      exact fit_invariant.after hm.fit allowed hm.fit
    refine ⟨hf, fun n hn link frame hw hc => ?_⟩
    rw [after] at fit hn
    exact (spent_of_reaches fit spent hn).unwritten _ (mem_utterances.mpr hw) (by rw [← hc]; rfl)
  answered := by
    intro i cid o h hw
    obtain ⟨a, b, hsplit⟩ := List.append_of_mem h
    have before : ¬ Written a i cid := fun ha => hw (hsplit ▸ written_append.mpr (.inl ha))
    refine ⟨?_, ?_⟩
    · cases (hm.reason hsplit).1 with
      | settled s hs ha => exact absurd ha before
      | overdue ms hs ha => exact absurd ha before
      | unsent f _ hf => exact ⟨f, rfl, hf⟩
    · rintro n hn ⟨link, frame, hm', hc⟩
      have spent := spent_of_reaches hm.fit (hm.spent_of_answered h hw) hn
      exact spent.unwritten _ (mem_utterances.mpr hm') (Prod.ext rfl hc)
  increasing := hm.increasing

/-- The server lets the writer stall and then refuses, so that a request and a message that waits
behind it fail; after that it takes what is sent. -/
def hindered : List Move :=
  opening 0 ++ [.work (.task 1), .work (.task 2), .act (.serverMode 0 .stall)] ++
    steps 3 2 (.request .ping .standard) ++ steps 4 1 (.send .ping) ++
    [.act (.elapse 10000), .work (.task 3), .act (.serverMode 0 (.reject "busy")), .work (.task 4),
      .act (.serverMode 0 .deliver)] ++
    steps 5 2 (.send .ping) ++ steps 6 2 (.request .ping .standard) ++ [.act (.serverTake 0)]

/-- A request whose write stalls and a message that is refused are not posted; what is sent when the
server takes it again is. -/
theorem posted_hindered :
    (writes 0 (fresh.replay hindered).trace).map Envelope.Outgoing.cid = [none, some "2"] ∧
      issues (fresh.replay hindered).trace = [(3, "1"), (6, "2")] ∧
      Posted (fresh.replay hindered) :=
  ⟨rfl, rfl, messages_posted (reachable_replay rfl)⟩

end Machine

end GameLink.Client

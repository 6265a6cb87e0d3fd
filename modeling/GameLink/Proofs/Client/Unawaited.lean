import GameLink.Proofs.Client.Attempt
import GameLink.Proofs.Client.Posted
import GameLink.Proofs.Client.Scribe

/-! # Who awaits a reply

An operation that is given an id is one that makes a request
(`Machine.Reachable.requests_of_issued`), and what it writes under that id it writes
before it is answered (`Machine.Reachable.written_before`). A message that awaits no
reply is written in the step in which its operation ends well
(`Machine.Reachable.ended_of_wrote`).
-/
namespace GameLink.Client

section
variable {m n : Machine} {tr ds os : List Observation} {i : TaskId} {cid : String}

/-! ## Who is given an id -/

/-- An operation is given an id only for the request that it makes. -/
theorem Change.asks (h : Change m os n) (hi : .issued i cid ∈ os) :
    ∃ role, m.view roles i = some role ∧ ∀ op, role = .operation op → op.requests = true := by
  have farewell : ∀ (host : Host) (id : TaskId) (outcome : Except Failure Answer),
      .issued i cid ∉ host.farewell id outcome := by
    intro host id outcome
    cases host <;> simp [Host.farewell]
  have ready : ∀ {t : Task} {host : Host}, m.task? t.id = some t → host.Ready m t →
      ∃ role, m.view roles t.id = some role ∧ ∀ op, role = .operation op → op.requests = true := by
    intro t host ht hh
    refine ⟨host.role, (roles_of ht).trans (congrArg some hh.role_eq), fun op hop => ?_⟩
    cases host with
    | operation op' =>
      cases hop
      exact hh.2.2
    | heartbeat g k => cases hop
  cases h with
  | outside h => cases h <;> simp at hi
  | released h => cases h <;> cases hi
  | connecting ht h => cases h <;> simp at hi
  | exchanging ht h =>
    cases h with
    | requesting host x hh hx hs =>
      cases List.mem_singleton.mp hi
      exact ready ht hh
    | refused host hh hs =>
      simp only [List.mem_append, List.mem_cons, farewell, List.not_mem_nil, or_false] at hi
      rcases hi with hi | hi
      · cases hi
        exact ready ht hh
      · cases hi
    | unsent host x stage k f hr hv hp hx hn => simp [farewell] at hi
    | replied host x k outcome hr hv hp hx hw => simp [farewell] at hi
    | _ => simp at hi
  | background ht h =>
    cases h with
    | dispatched g link l l' frame hr hp hc hl hf =>
      unfold heard at hi
      split at hi <;> simp at hi
    | _ => cases hi
  | tearing ht h =>
    cases h with
    | begun td links hb hg hs => split at hi <;> simp at hi
    | taken td link hp hl hw => cases hi
    | ended td stage links queue hf hp hv =>
      split at hi <;> split at hi <;> split at hi <;> simp at hi
  | leaving ht h => cases h <;> simp at hi

def Asking (tr : List Observation) : Prop :=
  ∀ i op cid, .started i op ∈ tr → .issued i cid ∈ tr → op.requests = true

theorem Asking.keep (hc : Asking tr) (hm : Fit m) (he : Errands tr m)
    (ha : (m.ledger tr).Accounts) (h : Change m os n) : Asking (tr ++ os) := by
  intro i op cid hs hi
  -- who is given an id was there before, and so was started before
  have known : i < m.nextTask → .started i op ∈ tr := fun lt =>
    (List.mem_append.mp hs).resolve_right (h.not_started hm lt op)
  rcases List.mem_append.mp hi with hi | hi
  · have issued : (i, cid) ∈ issues (deals tr) := mem_issues_deals.mpr hi
    exact hc i op cid (known (ha.asked.known.2 i cid issued)) hi
  · obtain ⟨role, hrole, requests⟩ := h.asks hi
    obtain ⟨t, ht, _⟩ := view_eq_some.mp hrole
    have started := known (hm.fresh i t ht)
    exact requests op (he.role i op role (mem_errands.mpr started) hrole)

/-! ## Who has been answered -/

/-- Under an id that has been answered nothing is written any more. -/
def Mute (tr : List Observation) : Prop :=
  ∀ a i cid o b, tr = a ++ .answered i cid o :: b → ¬ Written b i cid

theorem not_written (h : os.all (fun o => !o.isWrote) = true) : ¬ Written os i cid := by
  intro hw
  have none : Written ([] ++ os) i cid := hw
  obtain ⟨_, _, hm, _⟩ := (written_append_quiet h).mp none
  cases hm

theorem Mute.append (hc : Mute ds)
    (hnew : ∀ i cid, Written os i cid → ∀ o, .answered i cid o ∉ ds ++ os) : Mute (ds ++ os) := by
  intro a i cid o b h hw
  have answered : .answered i cid o ∈ ds ++ os := h ▸ List.mem_append_right _ (.head _)
  rcases split_append h with ⟨b', hds⟩ | ⟨a', _, hos⟩
  · obtain rfl : b = b' ++ os := by
      rw [hds, List.append_assoc, List.cons_append] at h
      exact (List.cons.inj (List.append_cancel_left h)).2.symm
    rcases written_append.mp hw with hw | hw
    · exact hc a i cid o b' hds hw
    · exact hnew i cid hw o answered
  · obtain ⟨link, frame, hm, hf⟩ := hw
    have later : Written os i cid := ⟨link, frame, hos ▸ List.mem_append_right _ (.tail _ hm), hf⟩
    exact hnew i cid later o answered

theorem Ledger.mute_keep {c d : Ledger} (hc : Mute c.deals) (hr : c.Replied)
    (h : Ledger.Step c d) : Mute d.deals := by
  have quiet : ∀ {os}, os.all (fun o => !o.isWrote) = true → Mute (c.deals ++ os) := fun ho =>
    hc.append fun _ _ hw => absurd hw (not_written ho)
  cases h with
  | wrote i cid probe link frame hi hf =>
    refine hc.append ?_
    rintro k c' ⟨l, fr, hm, hfr⟩ o ho
    cases List.mem_singleton.mp hm
    cases hfr.symm.trans hf
    rcases List.mem_append.mp ho with ho | ho
    · exact hr.waiting i cid ⟨_, _, hi⟩ i o (mem_replies.mpr ho)
    · cases List.mem_singleton.mp ho
  | asked op hq hi => exact quiet rfl
  | issued i probe now hi => exact quiet rfl
  | refused i probe now hi => exact quiet rfl
  | unsent i cid probe f hi hl hf => exact quiet rfl
  | replied i cid probe outcome hi hl ho => exact quiet rfl
  | heard link frame => exact quiet rfl
  | drained g cause hcause hp => exact quiet rfl
  | _ => exact hc

end

namespace Machine

/-! ## Messages without an id -/

section
variable {m : Machine} {t : Task} {x : Exchange}

theorem beginExchange_bare (i : TaskId) (hx : x.ticket = none) :
    (m.beginExchange i x).1.trace = m.trace := by
  unfold beginExchange notSent
  rw [hx]
  split <;> rfl

/-- Without an id nothing is recorded of an exchange but that it was sent, which ends it. -/
theorem runExchange_bare (i : TaskId) (stage : ExchangeStage) (hx : x.ticket = none) :
    (m.runExchange i x stage).1.trace = m.trace ∨
      (m.runExchange i x stage).2 = .ended (.ok .nothing) := by
  cases stage with
  | queued =>
    simp only [runExchange, writeFrame, notSent, wasSent, hx]
    split
    · exact .inl rfl
    · split
      · exact .inl rfl
      · exact .inl rfl
      · exact .inr rfl
  | stalled deadline =>
    simp only [runExchange, notSent, hx]
    exact .inl rfl
  | awaiting =>
    rw [runExchange, hx]
    exact .inr rfl

theorem settleExchange_bare {op : Operation} {tr : List Observation} {r : Machine × Exchanged}
    (hx : x.ticket = none) (h : r.1.trace = tr ∨ r.2 = .ended (.ok .nothing)) {i : TaskId}
    {link : LinkId} {frame : Envelope.Outgoing}
    (hw : .wrote i link frame ∈ (settleExchange t op x r).trace) :
    .wrote i link frame ∈ tr ∨ .finished t.id (.ok .nothing) ∈ (settleExchange t op x r).trace := by
  obtain ⟨n, after⟩ := r
  rcases h with h | h
  · obtain rfl : n.trace = tr := h
    cases after with
    | waiting stage => exact .inl hw
    | ended outcome =>
      rw [settleExchange, finish_trace, noteAnswer, hx] at hw
      exact .inl ((List.mem_append.mp hw).resolve_right (by simp))
  · obtain rfl : after = .ended (.ok .nothing) := h
    rw [settleExchange, finish_trace]
    exact .inr (List.mem_append_right _ (.head _))

theorem trace_dropped {i : TaskId} (ht : m.task? i = some t) (ha : t.aborted = true) :
    (m.run (.task i)).trace = m.trace :=
  congrArg (fun h => (observed h).map Record.what) (run_dropTask ht ha)

/-- In the step in which a message without an id is written its operation ends well. -/
theorem run_bare (hm : Fit m) {i : TaskId} (ht : m.task? i = some t) {op : Operation}
    {message : Outbound} (hr : t.role = .operation op) (hq : op.requests = false)
    (hmsg : op.message? = some message) {link : LinkId} {frame : Envelope.Outgoing}
    (hw : .wrote i link frame ∈ (m.run (.task i)).trace) :
    .wrote i link frame ∈ m.trace ∨ .finished i (.ok .nothing) ∈ (m.run (.task i)).trace := by
  cases ha : t.aborted with
  | true => exact .inl (trace_dropped ht ha ▸ hw)
  | false =>
    obtain rfl : t.id = i := findTask_id ht
    have run : m.run (.task t.id) = m.runTask t := by simp only [Machine.run, ht]
    have fits := hm.fits t.id t ht
    rw [hr] at fits
    rw [run] at hw ⊢
    generalize hp : t.position = p at fits
    cases fits with
    | start =>
      have begun : m.runTask t = m.runStart t := by rw [runTask, ha, hp]; rfl
      rw [begun, runStart_message hr hq hmsg] at hw ⊢
      exact settleExchange_bare rfl (.inl (beginExchange_bare t.id rfl)) hw
    | @exchanging _ x stage h =>
      have bare : x.ticket = none := by
        rw [hq] at h
        exact Option.isNone_iff_eq_none.mp (by simpa using h)
      have goes : m.runTask t = settleExchange t op x (m.runExchange t.id x stage) := by
        rw [runTask, ha, hr, hp]
        rfl
      rw [goes] at hw ⊢
      exact settleExchange_bare bare (runExchange_bare t.id stage bare) hw
    | dialing h => cases h.symm.trans hmsg
    | installing h => cases h.symm.trans hmsg
    | discarding h => cases h.symm.trans hmsg
    | closing => cases hmsg

end

/-! ## On all runs -/

/-- On the way to `m`, task `i` took a step from `a` in which something was first observed. -/
structure Acted (may : Move → Prop) (m : Machine) (i : TaskId) (o : Observation) (a : Machine)
    (t : Task) : Prop where
  reached : a.Reachable may
  there : a.task? i = some t
  step : Reaches may a (a.run (.task i))
  rest : Reaches may (a.run (.task i)) m
  new : o ∉ a.trace
  made : o ∈ (a.run (.task i)).trace

section
variable {may : Move → Prop} {m n : Machine} {i : TaskId} {cid : String} {op : Operation}

section
variable (hm : m.Reachable may)
include hm

theorem Reachable.requests_of_issued (hs : .started i op ∈ m.trace)
    (hi : .issued i cid ∈ m.trace) : op.requests = true := by
  have base := Ledger.invariant (fun _ h => h.accounts) (fun _ _ h hc => hc.keep h)
  have inv := base.and (I := fun tr _ => Asking tr) ?_ ?_ (fun _ _ _ _ h => h)
  · exact (inv.reached hm).2 i op cid hs hi
  · exact fun _ _ _ _ _ h => nomatch h
  · intro m os n tr h hm hc
    exact hc.keep hm.1.1.1 hm.1.2.2 hm.2 h

/-- What is written under an id is written before it is answered. -/
theorem Reachable.written_before {a b : List Observation} {o : Except Failure Answer}
    (h : m.trace = a ++ .answered i cid o :: b) (hw : Written m.trace i cid) : Written a i cid := by
  have mute := (hm.ledger (I := fun c => c.Accounts ∧ Mute c.deals) ?_ ?_).2
  · have split : deals m.trace = deals a ++ .answered i cid o :: deals b := by
      rw [h, deals_append]
      rfl
    rw [h, written_append, ← List.singleton_append, written_append] at hw
    rcases hw with hw | hw | hw
    · exact hw
    · exact absurd hw (not_written rfl)
    · exact absurd (written_deals.mpr hw) (mute _ _ _ _ _ split)
  · intro c h
    refine ⟨h.accounts, fun a i cid o b he => ?_⟩
    have answered : .answered i cid o ∈ c.deals := he ▸ List.mem_append_right _ (.head _)
    exact absurd answered h.nothing
  · exact fun c d h hc => ⟨hc.1.keep h, Ledger.mute_keep hc.2 hc.1.replied h⟩

theorem Reachable.started_once {op' : Operation} (h : .started i op ∈ m.trace)
    (h' : .started i op' ∈ m.trace) : op = op' := by
  have unique := (errands_invariant.reached hm).2.unique
  exact (Prod.mk.inj (List.inj_on_of_nodup_map unique (mem_errands.mpr h) (mem_errands.mpr h')
    rfl)).2

theorem Reachable.single_cid {cid' : String} (hs : .started i op ∈ m.trace)
    (hi : .issued i cid ∈ m.trace) (hi' : .issued i cid' ∈ m.trace) : cid = cid' := by
  have started : .started i op ∈ deals m.trace :=
    (mem_deals (o := .started i op) (hm.requests_of_issued hs hi)).mpr hs
  exact hm.accounts.asked.single i op cid cid' started (mem_issues_deals.mpr hi)
    (mem_issues_deals.mpr hi')

/-- What an operation writes is its message, with an id where it makes a request. -/
theorem Reachable.utters_own (hs : .started i op ∈ m.trace) {link : LinkId}
    {frame : Envelope.Outgoing} (hw : .wrote i link frame ∈ m.trace) :
    op.message? = some frame.message ∧ frame.cid.isSome = op.requests := by
  rcases hm.speech.utters i link frame hw with ⟨op', hs', said⟩ | ⟨hnone, _⟩
  · exact hm.started_once hs' hs ▸ said
  · exact absurd hs (hnone op)

/-- An operation whose id has been given out was started before. -/
theorem Reachable.started_before (h : Reaches may m n) (hi : i < m.nextTask)
    (hs : .started i op ∈ n.trace) : .started i op ∈ m.trace := by
  by_cases hu : Unasked m.trace i
  · exact absurd hs (h.unasked hm hi hu op)
  · obtain ⟨op', hs'⟩ : ∃ op', .started i op' ∈ m.trace := by
      by_contra none
      exact hu fun op' hs' => none ⟨op', hs'⟩
    exact (hm.reaches h).started_once (h.mem_trace hm hs') hs ▸ hs'

theorem Reachable.role_of_started {t : Task} (ht : m.task? i = some t)
    (hs : .started i op ∈ m.trace) : t.role = .operation op :=
  (errands_invariant.reached hm).2.role i op _ (mem_errands.mpr hs)
    (view_eq_some.mpr ⟨t, ht, rfl⟩)

end

/-- What a task is on record for it did in a step of its own. -/
theorem Reachable.acted (hm : m.Reachable may) {o : Observation} (ho : o ∈ m.trace)
    (hi : o.actor? = some i) : ∃ a t, Acted may m i o a t := by
  obtain ⟨start, hstart, hr⟩ := hm
  have kept : m.Reachable may ∧ (o ∈ m.trace → ∃ a t, Acted may m i o a t) := by
    refine hr.invariant (I := fun m => m.Reachable may ∧ (o ∈ m.trace → ∃ a t,
      Acted may m i o a t)) ⟨⟨start, hstart, .refl may start⟩, ?_⟩ ?_
    · obtain ⟨_, _, _, _, rfl⟩ := hstart.fields
      exact fun h => nomatch h
    · rintro m v ⟨hm, ih⟩ hv hmay
      have next : Reaches may m (m.after v) := (Reaches.refl may m).step hv hmay
      refine ⟨hm.reaches next, fun ho => ?_⟩
      by_cases old : o ∈ m.trace
      · obtain ⟨a, t, acted⟩ := ih old
        exact ⟨a, t, { acted with rest := acted.rest.step hv hmay }⟩
      · by_cases own : v = .work (.task i)
        · subst own
          obtain ⟨t, ht⟩ := task?_of_enabled hv
          exact ⟨m, t, hm, ht, next, .refl may _, old, ho⟩
        · obtain ⟨os, hos, silent⟩ := others_trace (bystander hm.fit hv own)
          rw [hos] at ho
          exact absurd hi (silent o ((List.mem_append.mp ho).resolve_left old))
  exact kept.2 ho

/-- Whose operation was started has had its role when it acted. -/
theorem Acted.role {o : Observation} {a : Machine} {t : Task} (h : Acted may m i o a t)
    (hs : .started i op ∈ m.trace) : t.role = .operation op :=
  h.reached.role_of_started h.there
    (h.reached.started_before (h.step.trans h.rest) (h.reached.fit.fresh i t h.there) hs)

/-- A message without an id that is written has ended its operation well. -/
theorem Reachable.ended_of_wrote (hm : m.Reachable may) {link : LinkId}
    {frame : Envelope.Outgoing} (hw : .wrote i link frame ∈ m.trace) (hf : frame.cid = none) :
    .finished i (.ok .nothing) ∈ m.trace := by
  obtain ⟨a, t, acted⟩ := hm.acted hw rfl
  rcases hm.speech.utters i link frame hw with ⟨op, hs, hmsg, hcid⟩ | ⟨_, _, hcid⟩
  · rw [hf] at hcid
    rcases run_bare acted.reached.fit acted.there (acted.role hs) hcid.symm hmsg acted.made with
      old | ended
    · exact absurd old acted.new
    · exact acted.rest.mem_trace (acted.reached.reaches acted.step) ended
  · rw [hf] at hcid
    cases hcid

end

end Machine

end GameLink.Client

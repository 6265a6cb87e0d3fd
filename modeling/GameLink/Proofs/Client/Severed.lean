import GameLink.Proofs.Client.Accounted
import GameLink.Proofs.Client.Mail

/-! # No request outlives its link

When a teardown drains the table, every request that nothing has settled ends
with the failure of the cause, unless its message is never written; so no frame
of a later link answers it (`requests_severed`).
-/
namespace GameLink.Client

/-! ## Without a link the table is empty -/

def Lifecycle.rests (s : Lifecycle) : Prop := s = .idle ∨ s = .connecting

def Vacant (m : Machine) : Prop := m.state.rests → m.registry.slots = []

theorem hear_slots {r : Registry} {frame : Bytes} (h : r.slots = []) :
    (hear frame r).slots = [] := by
  unfold hear
  split
  · rename_i cid outcome _
    rw [Registry.resolve_of_not_mem (by rw [h]; exact List.not_mem_nil)]
    exact h
  · exact h

theorem Vacant.keep {m n : Machine} {os : List Observation} (hm : Vacant m) (h : Change m os n) :
    Vacant n := by
  cases h with
  | outside h => cases h <;> exact hm
  | released h => cases h <;> exact hm
  | connecting ht h =>
    cases h with
    | begun op url deadline stage hr hp _ hs => exact fun _ => hm (.inl hs)
    | backedOut n hr hp hs => exact fun _ => hm (.inr hs)
    | abandoned g url deadline stage hp hg hs => exact fun _ => hm (.inr hs)
    | installed op g link hr hp hl hg hs => rintro (h | h) <;> cases h
    | _ => exact hm
  | exchanging ht h =>
    cases h with
    | requesting host x hh hx hs =>
      rintro (h | h)
      · cases hs.symm.trans h
      · cases hs.symm.trans h
    | refused host hh hs =>
      intro h
      show (m.registry.slots ++ [m.registry.nextCid]).erase m.registry.nextCid = []
      rw [hm h, List.nil_append, List.erase_cons_head]
    | unsent host x stage k f hr hv hp hx hn => exact fun h => Registry.release_slots (hm h)
    | replied host x k outcome hr hv hp hx hw => exact fun h => Registry.release_slots (hm h)
    | givenUp host x stage hr hp hv =>
      intro h
      dsimp only
      split
      · exact Registry.release_slots (hm h)
      · exact hm h
    | _ => exact hm
  | background ht h =>
    cases h with
    | dispatched g link l l' frame hr hp hc hl hf => exact fun h => hear_slots (hm h)
    | _ => exact hm
  | tearing ht h =>
    cases h with
    | begun td links hb hg hs => rintro (h | h) <;> cases h
    | taken td link hp hl hw => exact hm
    | ended td stage links queue hf hp hv => exact fun _ => rfl
  | leaving ht h => cases h <;> exact hm

theorem vacant_invariant : Invariant (fun _ m => Vacant m) where
  initial m h := by
    obtain ⟨_, _, _, _, rfl⟩ := h.fields
    exact fun _ => rfl
  keep _ _ _ _ h hm := hm.keep h
  quiet _ _ _ _ h := h

/-! ## What a drain settles -/

section
variable {a b : List Observation} {cid : String} {i : TaskId} {g : Generation} {c : Cause}

/-- A teardown settles what nothing has settled before. -/
theorem settlement_drained (hi : .issued i cid ∈ a) (hn : settlement cid a = none) :
    settlement cid (a ++ .closed g c :: b) = some (.drain g c) := by
  rw [settlement_append hi, hn]
  rfl

/-- A settlement before a teardown stays, and otherwise the teardown is it. -/
theorem settled_of_closed (hi : .issued i cid ∈ a) :
    settlement cid (a ++ .closed g c :: b) ≠ none := by
  rw [settlement_append hi]
  cases settlement cid a with
  | none => exact fun h => (nomatch h)
  | some s => exact fun h => (nomatch h)

end

namespace Machine

structure Severed (m : Machine) : Prop where
  /-- A request that a teardown finds unsettled and unanswered is one of an operation, if it is
  answered at all, and ends with the failure of the cause, or is never written. -/
  drained : ∀ a g c b i cid o rest,
    m.trace = (a ++ .closed g c :: b) ++ .answered i cid o :: rest →
    .issued i cid ∈ a → settlement cid a = none →
      (∃ op, .started i op ∈ m.trace) ∧
        ((o = .error c.failure ∧ Written (a ++ .closed g c :: b) i cid) ∨
          (¬ Written (a ++ .closed g c :: b) i cid ∧
            (o = .error .notConnected ∨ ∃ reason, o = .error (.transport reason))))
  /-- As long as its task is there, that outcome is what it waits for, and a probe is cancelled. -/
  waiting : ∀ a g c b i t k, m.trace = a ++ .closed g c :: b → .issued i k.cid ∈ a →
    settlement k.cid a = none → m.task? i = some t → t.ticket? = some k →
      m.registry.poll k.cid = some (.error c.failure) ∧
        ∀ g', t.role = .heartbeat g' → m.isCancelled g' = true
  /-- The failure of a link that failed is what the server end of the link failed with. -/
  failed : ∀ g f, .closed g (.error f) ∈ m.trace → ∃ link reason, f = .transport reason ∧
    .opened g link ∈ m.trace ∧ .pushed link (.fail reason) ∈ m.trace
  /-- Without a link, no slot is open and whoever waits has its outcome. -/
  resting : m.state = .idle ∨ m.state = .connecting → m.registry.slots = [] ∧
    ∀ i t k, m.task? i = some t → t.ticket? = some k →
      ∃ outcome, m.registry.delivered.lookup k.cid = some outcome ∧
        m.registry.poll k.cid = some outcome
  /-- A frame that is the outcome of a request comes before every teardown after the request, and
  from a link that was opened before. -/
  earlier : ∀ a g c b i cid a' link frame b' outcome, m.trace = a ++ .closed g c :: b →
    .issued i cid ∈ a → m.trace = a' ++ .dispatched link frame :: b' →
    Decides a' frame b' i cid outcome →
      .dispatched link frame ∈ a ∧ (∃ g', .opened g' link ∈ a) ∧ ∀ g', .opened g' link ∉ b

section
variable {may : Move → Prop} {m : Machine} (hm : m.Reachable may)
include hm

theorem Reachable.settled_lookup {i : TaskId} {t : Task} {k : Ticket} {s : Settlement}
    (ht : m.task? i = some t) (hk : t.ticket? = some k) (hs : settlement k.cid m.trace = some s) :
    m.registry.delivered.lookup k.cid = some s.outcome := by
  have settled : settlement k.cid (deals m.trace) = some s := (settlement_deals _).trans hs
  cases hm.accounts.held.settled i k.cid (waits_of_ticket hm.fit ht hk) with
  | pending hslot hdeliv hst => cases settled.symm.trans hst
  | settled s' hslot hdeliv hst =>
    cases settled.symm.trans hst
    exact hdeliv

/-- A probe that a teardown has settled is cancelled. -/
theorem Reachable.probe_cancelled {i : TaskId} {t : Task} {k : Ticket} {g g' : Generation}
    {c : Cause} (ht : m.task? i = some t) (hk : t.ticket? = some k) (hr : t.role = .heartbeat g')
    (hs : settlement k.cid m.trace = some (.drain g c)) : m.isCancelled g' = true := by
  have settled : settlement k.cid (deals m.trace) = some (.drain g c) :=
    (settlement_deals _).trans hs
  have probing : ∃ sent, calls t.role t.position = some (.waiting k.cid sent (some g')) := by
    have hf := hm.fit.fits i t ht
    rw [hr] at hf ⊢
    unfold Task.ticket? at hk
    generalize t.position = p at hf hk
    cases hf with
    | probing h => exact ⟨_, congrArg (Option.map _) hk⟩
    | _ => cases hk
  obtain ⟨sent, hc⟩ := probing
  have waits : m.view calls i = some (.waiting k.cid sent (some g')) :=
    view_eq_some.mpr ⟨t, ht, hc⟩
  rw [isCancelled_eq]
  exact hm.accounts.shielded i k.cid sent g' g c waits settled

theorem requests_severed : Severed m where
  drained a g c b i cid o rest h hi hn := by
    have drain : settlement cid (a ++ .closed g c :: b) = some (.drain g c) :=
      settlement_drained hi hn
    obtain ⟨reason, operation⟩ := hm.reason h
    obtain ⟨op, hop⟩ := operation g c drain
    refine ⟨⟨op, h ▸ List.mem_append_left _ hop⟩, ?_⟩
    cases reason with
    | settled s hs hw =>
      cases drain.symm.trans hs
      exact .inl ⟨rfl, hw⟩
    | overdue ms hs hw => cases drain.symm.trans hs
    | unsent f hw hf =>
      refine .inr ⟨hw, ?_⟩
      rcases hf with rfl | ⟨reason, rfl⟩
      · exact .inl rfl
      · exact .inr ⟨reason, rfl⟩
  waiting a g c b i t k h hi hn ht hk := by
    have drain : settlement k.cid m.trace = some (.drain g c) := h ▸ settlement_drained hi hn
    exact ⟨Registry.poll_of_delivered (hm.settled_lookup ht hk drain),
      fun g' hr => hm.probe_cancelled ht hk hr drain⟩
  failed g f h := by
    obtain ⟨i, td, hi, rfl, hcause⟩ := hm.closing_of_closed h
    exact hm.brought_blamed.2 i td f hi hcause
  resting hr := by
    have slots : m.registry.slots = [] := vacant_invariant.reached hm hr
    refine ⟨slots, ?_⟩
    intro i t k ht hk
    cases hm.accounts.held.settled i k.cid (waits_of_ticket hm.fit ht hk) with
    | pending hslot hdeliv hst =>
      have hslot : k.cid ∈ m.registry.slots := hslot
      rw [slots] at hslot
      cases hslot
    | settled s hslot hdeliv hst => exact ⟨s.outcome, hdeliv, Registry.poll_of_delivered hdeliv⟩
  earlier a g c b i cid a' link frame b' outcome h hi h' hd := by
    -- the frame comes before the teardown, since after it the request is settled
    have before : ∃ b'', a = a' ++ .dispatched link frame :: b'' := by
      rcases split_append (h.symm.trans h') with found | ⟨a'', ha', ht⟩
      · exact found
      · cases a'' with
        | nil => cases (List.cons.inj ht).1
        | cons x a'' =>
          obtain ⟨rfl, _⟩ := List.cons.inj ht
          exact absurd (ha' ▸ hd.unsettled) (settled_of_closed hi)
    obtain ⟨b'', rfl⟩ := before
    obtain ⟨⟨g', ho⟩, _⟩ := hm.brought_blamed.1 a' link frame b' h'
    have opened : .opened g' link ∈ a' ++ .dispatched link frame :: b'' :=
      List.mem_append_left _ ho
    exact ⟨List.mem_append_right _ (.head _), ⟨g', opened⟩,
      fun _ => hm.not_reopened h opened⟩

end

/-- A close finds two requests, of which the second one is written while it waits for the writer;
after the next connect the first one ends, and a frame that answers the second one arrives. -/
def interrupted : List Move :=
  opening 0 ++ [.work (.task 1), .work (.task 2)] ++ steps 3 2 (.request .ping .standard) ++
    steps 4 1 (.request .ping .standard) ++ steps 5 1 (.close true) ++
    [.work (.task 4), .work (.task 5)] ++ opening 6 ++
    [.work (.task 3), .work (.task 7), .act (.serverPush 1 (.data (answerTo "2"))), .work (.task 7)]

theorem severed_interrupted :
    (fresh.replay interrupted).state = .open ∧
      (issues (fresh.replay interrupted).trace) = [(3, "1"), (4, "2")] ∧
      (replies (fresh.replay interrupted).trace).map (fun r => (r.1, r.2.1)) = [(3, "1")] ∧
      Severed (fresh.replay interrupted) :=
  ⟨by decide +kernel, by decide +kernel, by decide +kernel,
    requests_severed (reachable_replay (by decide +kernel))⟩

end Machine

end GameLink.Client

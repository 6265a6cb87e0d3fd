import GameLink.Proofs.Client.Accounts

/-! # Why requests are answered

Nobody who waits has been answered (`Replied`), a task knows whether its message
was written (`Marked`), an operation gets one id (`Asked`), and a probe whose
request a teardown has settled is cancelled (`Shielded`). So every answer has its
reason in what was observed before it (`Reason`): what has settled the request, or
that its time was up, or that its message was never written.
-/
namespace GameLink.Client

open Function (update)

/-- A message with this id was written for the task. -/
def Written (tr : List Observation) (i : TaskId) (cid : String) : Prop :=
  ∃ link frame, .wrote i link frame ∈ tr ∧ frame.cid = some cid

/-- Why a request ended as it did, given what was observed before. -/
inductive Reason (tr : List Observation) (i : TaskId) (cid : String) :
    Except Failure Answer → Prop
  | settled (s : Settlement) (h : settlement cid tr = some s) (hw : Written tr i cid) :
      Reason tr i cid (s.outcome.map .envelope)
  | overdue (ms : Nat) (h : settlement cid tr = none) (hw : Written tr i cid) :
      Reason tr i cid (.error (.timeout cid ms))
  | unsent (f : Failure) (hw : ¬ Written tr i cid)
      (hf : f = .notConnected ∨ ∃ reason, f = .transport reason) : Reason tr i cid (.error f)

/-! ## What is observed besides -/

section
variable {ds os : List Observation} {i : TaskId} {cid : String}

theorem replies_quiet (h : replies os = []) : replies (ds ++ os) = replies ds := by
  rw [replies_append, h, List.append_nil]

theorem written_append : Written (ds ++ os) i cid ↔ Written ds i cid ∨ Written os i cid := by
  constructor
  · rintro ⟨link, frame, hm, hf⟩
    rcases List.mem_append.mp hm with hm | hm
    · exact .inl ⟨link, frame, hm, hf⟩
    · exact .inr ⟨link, frame, hm, hf⟩
  · rintro (⟨link, frame, hm, hf⟩ | ⟨link, frame, hm, hf⟩)
    · exact ⟨link, frame, List.mem_append_left _ hm, hf⟩
    · exact ⟨link, frame, List.mem_append_right _ hm, hf⟩

def Observation.isWrote : Observation → Bool
  | .wrote _ _ _ => true
  | _ => false

theorem written_append_quiet (h : os.all (fun o => !o.isWrote) = true) :
    Written (ds ++ os) i cid ↔ Written ds i cid := by
  rw [written_append]
  refine or_iff_left ?_
  rintro ⟨link, frame, hm, _⟩
  have none := List.all_eq_true.mp h _ hm
  cases none

theorem started_append_quiet (h : errands os = []) (i : TaskId) (op : Operation) :
    .started i op ∈ ds ++ os ↔ .started i op ∈ ds := by
  rw [List.mem_append]
  refine or_iff_left ?_
  intro hm
  have found := mem_errands.mpr hm
  rw [h] at found
  cases found

end

namespace Ledger

/-! ## Who waits has not been answered -/

structure Replied (c : Ledger) : Prop where
  waiting : ∀ i cid, c.Waits i cid → ∀ j o, (j, cid, o) ∉ replies c.deals
  issued : ∀ i cid o, (i, cid, o) ∈ replies c.deals → (i, cid) ∈ issues c.deals
  once : ((replies c.deals).map (fun r => r.2.1)).Nodup

section
variable {c d : Ledger}

/-- A step without an answer, after which nobody waits under an id given out before who did not. -/
theorem Replied.quiet (hc : c.Replied) (ha : replies d.deals = replies c.deals)
    (hi : ∀ p ∈ issues c.deals, p ∈ issues d.deals)
    (hw : ∀ i cid, d.Waits i cid → c.Waits i cid ∨ ∀ j, (j, cid) ∉ issues c.deals) :
    d.Replied := by
  refine ⟨?_, ?_, ha ▸ hc.once⟩
  · intro i cid h j o
    rw [ha]
    rcases hw i cid h with h | h
    · exact hc.waiting i cid h j o
    · exact fun hm => h j (hc.issued j cid o hm)
  · intro i cid o h
    exact hi _ (hc.issued i cid o (ha ▸ h))

/-- A step that answers a request, under whose id nobody waits any more. -/
theorem Replied.answer (hc : c.Replied) {i : TaskId} {cid : String} {o : Except Failure Answer}
    (ha : replies d.deals = replies c.deals ++ [(i, cid, o)])
    (hi : ∀ p ∈ issues c.deals, p ∈ issues d.deals) (hm : (i, cid) ∈ issues d.deals)
    (hnew : ∀ j o, (j, cid, o) ∉ replies c.deals)
    (hw : ∀ k c', d.Waits k c' → c.Waits k c' ∧ c' ≠ cid) : d.Replied := by
  refine ⟨?_, ?_, ?_⟩
  · intro k c' h j o' hr
    obtain ⟨h, hne⟩ := hw k c' h
    rw [ha, List.mem_append, List.mem_singleton] at hr
    rcases hr with hr | hr
    · exact hc.waiting k c' h j o' hr
    · cases hr
      exact hne rfl
  · intro j c' o' hr
    rw [ha, List.mem_append, List.mem_singleton] at hr
    rcases hr with hr | hr
    · exact hi _ (hc.issued j c' o' hr)
    · cases hr
      exact hm
  · rw [ha, List.map_append]
    refine nodup_append_one hc.once ?_
    intro h
    obtain ⟨⟨j, c', o'⟩, hr, he⟩ := List.mem_map.mp h
    obtain rfl : c' = cid := he
    exact hnew j o' hr

/-- After a task has left, nobody waits under its id. -/
theorem Held.apart (hh : c.Held) (hn : c.Numbered) {i : TaskId} {cid : String} (hi : c.Waits i cid)
    {k : TaskId} {c' : String} (h : ∃ s p, update c.calls i none k = some (.waiting c' s p)) :
    c.Waits k c' ∧ c' ≠ cid := by
  obtain ⟨hk, h⟩ := Waits.of_update_none h
  refine ⟨h, ?_⟩
  rintro rfl
  exact hk (hn.issuer_eq (hh.issuer k _ h) (hh.issuer i _ hi))

theorem Replied.keep (hc : c.Replied) (hh : c.Held) (hn : c.Numbered) (h : Step c d) :
    d.Replied := by
  have more := h.issues_subset
  cases h with
  | stay cancelled next hg hnext => exact hc.quiet rfl more (fun _ _ h => .inl h)
  | asked op hq hi =>
    exact hc.quiet (replies_quiet rfl) more (fun _ _ h => .inl (Waits.of_update_ready h).2)
  | issued i probe now hi =>
    refine hc.quiet (replies_quiet rfl) more ?_
    intro k cid h
    rcases Waits.of_update_waiting h with ⟨_, rfl⟩ | ⟨_, h⟩
    · exact .inr fun j hj => hn.fresh hj
    · exact .inl h
  | refused i probe now hi =>
    refine hc.answer (replies_append _ _) more ?_ ?_ ?_
    · rw [issues_append]
      exact List.mem_append_right _ (.head _)
    · intro j o hr
      exact hn.fresh (hc.issued j _ o hr)
    · intro k cid h
      have waits := (Waits.of_update_none h).2
      refine ⟨waits, ?_⟩
      rintro rfl
      exact hn.fresh (hh.issuer k _ waits)
  | wrote i cid probe link frame hi hf =>
    refine hc.quiet (replies_quiet rfl) more ?_
    intro k c' h
    rcases Waits.of_update_waiting h with ⟨rfl, rfl⟩ | ⟨_, h⟩
    · exact .inl ⟨_, _, hi⟩
    · exact .inl h
  | unsent i cid probe f hi hl hf =>
    have waits : c.Waits i cid := ⟨_, _, hi⟩
    exact hc.answer (replies_append _ _) more (more _ (hh.issuer i cid waits))
      (hc.waiting i cid waits) (fun _ _ h => hh.apart hn waits h)
  | replied i cid probe outcome hi hl ho =>
    have waits : c.Waits i cid := ⟨_, _, hi⟩
    exact hc.answer (replies_append _ _) more (more _ (hh.issuer i cid waits))
      (hc.waiting i cid waits) (fun _ _ h => hh.apart hn waits h)
  | withdrawn i hi => exact hc.quiet rfl more (fun _ _ h => .inl (Waits.of_update_none h).2)
  | dropped i cid sent probe hi =>
    exact hc.quiet rfl more (fun _ _ h => .inl (Waits.of_update_none h).2)
  | heard link frame => exact hc.quiet (replies_quiet rfl) more (fun _ _ h => .inl h)
  | drained g cause hcause hp => exact hc.quiet (replies_quiet rfl) more (fun _ _ h => .inl h)

/-! ## What was written -/

structure Marked (c : Ledger) : Prop where
  issued : ∀ i cid, Written c.deals i cid → (i, cid) ∈ issues c.deals
  sent : ∀ i cid sent probe, c.calls i = some (.waiting cid sent probe) →
    (sent = true ↔ Written c.deals i cid)

theorem Marked.quiet (hc : c.Marked) (hw : ∀ i cid, Written d.deals i cid ↔ Written c.deals i cid)
    (hi : ∀ p ∈ issues c.deals, p ∈ issues d.deals)
    (hcalls : ∀ i cid sent probe, d.calls i = some (.waiting cid sent probe) →
      c.calls i = some (.waiting cid sent probe) ∨
        (sent = false ∧ ∀ j, (j, cid) ∉ issues c.deals)) : d.Marked := by
  refine ⟨fun i cid h => hi _ (hc.issued i cid ((hw i cid).mp h)), ?_⟩
  intro i cid sent probe h
  rw [hw]
  rcases hcalls i cid sent probe h with h | ⟨rfl, hnew⟩
  · exact hc.sent i cid sent probe h
  · exact iff_of_false (by simp) fun hw => hnew i (hc.issued i cid hw)

theorem Marked.keep (hc : c.Marked) (hh : c.Held) (hn : c.Numbered) (h : Step c d) : d.Marked := by
  have more := h.issues_subset
  cases h with
  | stay cancelled next hg hnext =>
    exact hc.quiet (fun _ _ => Iff.rfl) more (fun _ _ _ _ h => .inl h)
  | asked op hq hi =>
    refine hc.quiet (fun _ _ => written_append_quiet rfl) more ?_
    intro k cid sent probe h
    rcases of_update_some h with ⟨_, h⟩ | ⟨_, h⟩
    · cases h
    · exact .inl h
  | issued i probe now hi =>
    refine hc.quiet (fun _ _ => written_append_quiet rfl) more ?_
    intro k cid sent probe' h
    rcases of_update_some h with ⟨_, h⟩ | ⟨_, h⟩
    · cases h
      exact .inr ⟨rfl, fun j hj => hn.fresh hj⟩
    · exact .inl h
  | refused i probe now hi =>
    exact hc.quiet (fun _ _ => written_append_quiet rfl) more
      (fun _ _ _ _ h => .inl (of_update_none h).2)
  | wrote i cid probe link frame hi hf =>
    have waits : c.Waits i cid := ⟨_, _, hi⟩
    have one : ∀ k c', Written [.wrote i link frame] k c' ↔ k = i ∧ c' = cid := by
      intro k c'
      constructor
      · rintro ⟨l, fr, hm, hfr⟩
        cases List.mem_singleton.mp hm
        exact ⟨rfl, Option.some.inj (hfr.symm.trans hf)⟩
      · rintro ⟨rfl, rfl⟩
        exact ⟨link, frame, .head _, hf⟩
    refine ⟨?_, ?_⟩
    · intro k c' h
      rcases written_append.mp h with h | h
      · exact more _ (hc.issued k c' h)
      · obtain ⟨rfl, rfl⟩ := (one k c').mp h
        exact more _ (hh.issuer _ _ waits)
    · intro k c' sent probe' h
      show sent = true ↔ Written (c.deals ++ [.wrote i link frame]) k c'
      rw [written_append, one]
      rcases of_update_some h with ⟨rfl, he⟩ | ⟨hk, h⟩
      · cases he
        exact iff_of_true rfl (.inr ⟨rfl, rfl⟩)
      · rw [hc.sent k c' sent probe' h]
        exact (or_iff_left fun hki => hk hki.1).symm
  | unsent i cid probe f hi hl hf =>
    exact hc.quiet (fun _ _ => written_append_quiet rfl) more
      (fun _ _ _ _ h => .inl (of_update_none h).2)
  | replied i cid probe outcome hi hl ho =>
    exact hc.quiet (fun _ _ => written_append_quiet rfl) more
      (fun _ _ _ _ h => .inl (of_update_none h).2)
  | withdrawn i hi =>
    exact hc.quiet (fun _ _ => Iff.rfl) more (fun _ _ _ _ h => .inl (of_update_none h).2)
  | dropped i cid sent probe hi =>
    exact hc.quiet (fun _ _ => Iff.rfl) more (fun _ _ _ _ h => .inl (of_update_none h).2)
  | heard link frame =>
    exact hc.quiet (fun _ _ => written_append_quiet rfl) more (fun _ _ _ _ h => .inl h)
  | drained g cause hcause hp =>
    exact hc.quiet (fun _ _ => written_append_quiet rfl) more (fun _ _ _ _ h => .inl h)

/-! ## Operations get one id -/

/-- Tasks are known, an operation that is to make a request has made none, and one that has made a
request makes no other; probes are not of operations. -/
structure Asked (c : Ledger) : Prop where
  known : (∀ i op, .started i op ∈ c.deals → i < c.next) ∧
    ∀ i cid, (i, cid) ∈ issues c.deals → i < c.next
  ready : ∀ i, c.calls i = some .ready →
    (∃ op, .started i op ∈ c.deals) ∧ ∀ cid, (i, cid) ∉ issues c.deals
  asked : ∀ i cid sent probe, c.calls i = some (.waiting cid sent probe) →
    (probe = none ↔ ∃ op, .started i op ∈ c.deals)
  single : ∀ i op cid cid', .started i op ∈ c.deals → (i, cid) ∈ issues c.deals →
    (i, cid') ∈ issues c.deals → cid = cid'

/-- A step that asks for nothing and gives no id out. -/
theorem Asked.quiet (hc : c.Asked) (hi : issues d.deals = issues c.deals) (hnext : c.next ≤ d.next)
    (hs : ∀ i op, .started i op ∈ d.deals ↔ .started i op ∈ c.deals)
    (hr : ∀ i, d.calls i = some .ready → c.calls i = some .ready)
    (hw : ∀ i cid sent probe, d.calls i = some (.waiting cid sent probe) →
      ∃ sent', c.calls i = some (.waiting cid sent' probe)) : d.Asked := by
  have started : ∀ i, (∃ op, .started i op ∈ d.deals) ↔ ∃ op, .started i op ∈ c.deals :=
    fun i => exists_congr (hs i)
  refine ⟨⟨?_, ?_⟩, ?_, ?_, ?_⟩
  · intro i op h
    exact Nat.lt_of_lt_of_le (hc.known.1 i op ((hs i op).mp h)) hnext
  · intro i cid h
    exact Nat.lt_of_lt_of_le (hc.known.2 i cid (hi ▸ h)) hnext
  · intro i h
    rw [started, hi]
    exact hc.ready i (hr i h)
  · intro i cid sent probe h
    obtain ⟨sent', h⟩ := hw i cid sent probe h
    rw [started]
    exact hc.asked i cid sent' probe h
  · intro i op cid cid' h
    rw [hi]
    exact hc.single i op cid cid' ((hs i op).mp h)

/-- Whoever may make a request gets an id that is its first one, if it is an operation. -/
theorem Asked.issue (hc : c.Asked) {i : TaskId} {probe : Option Generation} (hi : c.Issuer i probe)
    {ds : List Observation} (hissues : issues ds = issues c.deals ++ [(i, c.registry.nextCid)])
    (hs : ∀ j op, .started j op ∈ ds ↔ .started j op ∈ c.deals)
    {calls : TaskId → Option Standing}
    (hr : ∀ k, calls k = some .ready → k ≠ i ∧ c.calls k = some .ready)
    (hw : ∀ k cid sent p, calls k = some (.waiting cid sent p) →
      (k = i ∧ p = probe) ∨ c.calls k = some (.waiting cid sent p)) (registry : Registry) :
    Asked { c with registry := registry, calls := calls, deals := ds } := by
  have started : ∀ k, (∃ op, .started k op ∈ ds) ↔ ∃ op, .started k op ∈ c.deals :=
    fun k => exists_congr (hs k)
  have kind : probe = none ↔ ∃ op, .started i op ∈ c.deals := by
    cases probe with
    | none => exact iff_of_true rfl (hc.ready i hi).1
    | some g => exact iff_of_false (by simp) fun ⟨op, h⟩ => hi.2.2 op h
  have lt : i < c.next := by
    cases probe with
    | none =>
      obtain ⟨op, h⟩ := (hc.ready i hi).1
      exact hc.known.1 i op h
    | some g => exact hi.2.1
  have first : ∀ op, .started i op ∈ c.deals → ∀ cid, (i, cid) ∉ issues c.deals := by
    intro op h
    cases probe with
    | none => exact (hc.ready i hi).2
    | some g => exact absurd h (hi.2.2 op)
  refine ⟨⟨?_, ?_⟩, ?_, ?_, ?_⟩
  · intro k op h
    exact hc.known.1 k op ((hs k op).mp h)
  · intro k cid h
    have h : (k, cid) ∈ issues ds := h
    rw [hissues, List.mem_append, List.mem_singleton] at h
    rcases h with h | h
    · exact hc.known.2 k cid h
    · cases h
      exact lt
  · intro k h
    obtain ⟨hk, h⟩ := hr k h
    refine ⟨(started k).mpr (hc.ready k h).1, ?_⟩
    intro cid hm
    have hm : (k, cid) ∈ issues ds := hm
    rw [hissues, List.mem_append, List.mem_singleton] at hm
    rcases hm with hm | hm
    · exact (hc.ready k h).2 cid hm
    · cases hm
      exact hk rfl
  · intro k cid sent p h
    show p = none ↔ ∃ op, .started k op ∈ ds
    rw [started]
    rcases hw k cid sent p h with ⟨rfl, rfl⟩ | h
    · exact kind
    · exact hc.asked k cid sent p h
  · intro k op cid cid' h hm hm'
    have h := (hs k op).mp h
    have hm : (k, cid) ∈ issues ds := hm
    have hm' : (k, cid') ∈ issues ds := hm'
    rw [hissues, List.mem_append, List.mem_singleton] at hm hm'
    rcases hm with hm | hm
    · rcases hm' with hm' | hm'
      · exact hc.single k op cid cid' h hm hm'
      · cases hm'
        exact absurd hm (first op h cid)
    · cases hm
      rcases hm' with hm' | hm'
      · exact absurd hm' (first op h cid')
      · cases hm'
        rfl

/-- An operation that is new has no id. -/
theorem Asked.ask (hc : c.Asked) (op : Operation) :
    Asked { c with
      calls := update c.calls c.next (some .ready)
      next := c.next + 1
      deals := c.deals ++ [.started c.next op] } := by
  have same : issues (c.deals ++ [.started c.next op]) = issues c.deals := by
    rw [issues_append]
    exact List.append_nil _
  have old : ∀ {k op'}, .started k op' ∈ c.deals ++ [.started c.next op] →
      .started k op' ∈ c.deals ∨ k = c.next := by
    intro k op' h
    rcases List.mem_append.mp h with h | h
    · exact .inl h
    · cases List.mem_singleton.mp h
      exact .inr rfl
  refine ⟨⟨?_, ?_⟩, ?_, ?_, ?_⟩
  · intro k op' h
    rcases old h with h | rfl
    · exact Nat.lt_succ_of_lt (hc.known.1 k op' h)
    · exact Nat.lt_succ_self _
  · intro k cid h
    exact Nat.lt_succ_of_lt (hc.known.2 k cid (same ▸ h))
  · intro k h
    rw [same]
    rcases of_update_some h with ⟨rfl, _⟩ | ⟨_, h⟩
    · refine ⟨⟨op, List.mem_append_right _ (.head _)⟩, ?_⟩
      intro cid hm
      exact Nat.lt_irrefl _ (hc.known.2 _ cid hm)
    · obtain ⟨⟨op', hop⟩, hnone⟩ := hc.ready k h
      exact ⟨⟨op', List.mem_append_left _ hop⟩, hnone⟩
  · intro k cid sent probe h
    rcases of_update_some h with ⟨_, h⟩ | ⟨hk, h⟩
    · cases h
    · rw [hc.asked k cid sent probe h]
      constructor
      · rintro ⟨op', h⟩
        exact ⟨op', List.mem_append_left _ h⟩
      · rintro ⟨op', h⟩
        exact ⟨op', (old h).resolve_right hk⟩
  · intro k op' cid cid' h
    rw [same]
    intro hm hm'
    rcases old h with h | rfl
    · exact hc.single k op' cid cid' h hm hm'
    · exact absurd (hc.known.2 _ cid hm) (Nat.lt_irrefl _)

theorem Asked.keep (hc : c.Asked) (h : Step c d) : d.Asked := by
  have same : ∀ {os : List Observation}, Client.issues os = [] →
      Client.issues (c.deals ++ os) = Client.issues c.deals := by
    intro os ho
    rw [issues_append, ho, List.append_nil]
  have left : ∀ {i : TaskId} {a : Standing} {k : TaskId}, update c.calls i none k = some a →
      c.calls k = some a := fun h => (of_update_none h).2
  cases h with
  | stay cancelled next hg hnext =>
    exact hc.quiet rfl hnext (fun _ _ => Iff.rfl) (fun _ h => h) (fun _ _ s _ h => ⟨s, h⟩)
  | asked op hq hi => exact hc.ask op
  | issued i probe now hi =>
    refine hc.issue hi (issues_append _ _) (started_append_quiet rfl) ?_ ?_ _
    · intro k h
      rcases of_update_some h with ⟨_, h⟩ | h
      · cases h
      · exact h
    · intro k cid sent p h
      rcases of_update_some h with ⟨rfl, he⟩ | ⟨_, h⟩
      · cases he
        exact .inl ⟨rfl, rfl⟩
      · exact .inr h
  | refused i probe now hi =>
    exact hc.issue hi (issues_append _ _) (started_append_quiet rfl) (fun _ h => of_update_none h)
      (fun _ _ _ _ h => .inr (left h)) _
  | wrote i cid probe link frame hi hf =>
    refine hc.quiet (same rfl) (Nat.le_refl _) (started_append_quiet rfl) ?_ ?_
    · intro k h
      rcases of_update_some h with ⟨_, h⟩ | ⟨_, h⟩
      · cases h
      · exact h
    · intro k c' sent p h
      rcases of_update_some h with ⟨rfl, he⟩ | ⟨_, h⟩
      · cases he
        exact ⟨false, hi⟩
      · exact ⟨sent, h⟩
  | unsent i cid probe f hi hl hf =>
    exact hc.quiet (same rfl) (Nat.le_refl _) (started_append_quiet rfl) (fun _ h => left h)
      (fun _ _ s _ h => ⟨s, left h⟩)
  | replied i cid probe outcome hi hl ho =>
    exact hc.quiet (same rfl) (Nat.le_refl _) (started_append_quiet rfl) (fun _ h => left h)
      (fun _ _ s _ h => ⟨s, left h⟩)
  | withdrawn i hi =>
    exact hc.quiet rfl (Nat.le_refl _) (fun _ _ => Iff.rfl) (fun _ h => left h)
      (fun _ _ s _ h => ⟨s, left h⟩)
  | dropped i cid sent probe hi =>
    exact hc.quiet rfl (Nat.le_refl _) (fun _ _ => Iff.rfl) (fun _ h => left h)
      (fun _ _ s _ h => ⟨s, left h⟩)
  | heard link frame =>
    exact hc.quiet (same rfl) (Nat.le_refl _) (started_append_quiet rfl) (fun _ h => h)
      (fun _ _ s _ h => ⟨s, h⟩)
  | drained g cause hcause hp =>
    exact hc.quiet (same rfl) (Nat.le_refl _) (started_append_quiet rfl) (fun _ h => h)
      (fun _ _ s _ h => ⟨s, h⟩)

end

end Ledger

end GameLink.Client

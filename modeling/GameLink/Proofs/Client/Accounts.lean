import GameLink.Proofs.Client.Ledger

/-! # The accounts of requests

Ids are given out in order and never again (`Numbered`). A slot in the table and
an outcome that waits to be picked up belong to a task that waits under that id,
and such a task has a slot as long as nothing has settled its request, and the
outcome of the settlement from then on (`Held`). Whoever is answered waits no
more (`Replied`).
-/
namespace GameLink.Client.Ledger

open Function (update)

def Waits (c : Ledger) (i : TaskId) (cid : String) : Prop :=
  ∃ sent probe, c.calls i = some (.waiting cid sent probe)

/-! ## Who waits after a step -/

section
variable {c : Ledger} {i k : TaskId} {cid c' : String} {sent : Bool} {probe : Option Generation}

theorem Waits.of_update_none {calls : TaskId → Option Standing}
    (h : ∃ s p, update calls i none k = some (.waiting cid s p)) :
    k ≠ i ∧ ∃ s p, calls k = some (.waiting cid s p) := by
  obtain ⟨s, p, h⟩ := h
  obtain ⟨hk, h⟩ := Client.of_update_none h
  exact ⟨hk, s, p, h⟩

theorem Waits.of_update_ready {calls : TaskId → Option Standing}
    (h : ∃ s p, update calls i (some .ready) k = some (.waiting cid s p)) :
    k ≠ i ∧ ∃ s p, calls k = some (.waiting cid s p) := by
  obtain ⟨s, p, h⟩ := h
  rcases Client.of_update_some h with ⟨_, h⟩ | ⟨hk, h⟩
  · cases h
  · exact ⟨hk, s, p, h⟩

theorem Waits.of_update_waiting {calls : TaskId → Option Standing}
    (h : ∃ s p, update calls i (some (.waiting c' sent probe)) k = some (.waiting cid s p)) :
    (k = i ∧ cid = c') ∨ (k ≠ i ∧ ∃ s p, calls k = some (.waiting cid s p)) := by
  obtain ⟨s, p, h⟩ := h
  rcases Client.of_update_some h with ⟨hk, h⟩ | ⟨hk, h⟩
  · cases h
    exact .inl ⟨hk, rfl⟩
  · exact .inr ⟨hk, s, p, h⟩

/-- Nobody who waits stands otherwise. -/
theorem Waits.eq_of_calls (h : c.Waits i c') (hi : c.calls i = some (.waiting cid sent probe)) :
    c' = cid := by
  obtain ⟨s, p, h⟩ := h
  cases h.symm.trans hi
  rfl

theorem Waits.keep_update {calls : TaskId → Option Standing} {a : Option Standing} (hk : k ≠ i)
    (h : ∃ s p, calls k = some (.waiting cid s p)) :
    ∃ s p, update calls i a k = some (.waiting cid s p) := by
  obtain ⟨s, p, h⟩ := h
  exact ⟨s, p, (Function.update_of_ne hk _ _).trans h⟩

theorem Issuer.not_waits (h : c.Issuer i probe) : ¬ c.Waits i cid := by
  rintro ⟨s, p, hw⟩
  cases probe with
  | none => cases (show c.calls i = some .ready from h).symm.trans hw
  | some g => cases h.1.symm.trans hw

end

/-! ## Ids -/

def Numbered (c : Ledger) : Prop := (issues c.deals).map Prod.snd = Registry.cids c.registry.issued

theorem Step.issues {c d : Ledger} (h : Step c d) :
    (d.registry.issued = c.registry.issued ∧ issues d.deals = issues c.deals) ∨
      ∃ i, d.registry.issued = c.registry.issued + 1 ∧
        issues d.deals = issues c.deals ++ [(i, c.registry.nextCid)] := by
  have quiet : ∀ {os : List Observation}, Client.issues os = [] →
      Client.issues (c.deals ++ os) = Client.issues c.deals := by
    intro os ho
    rw [issues_append, ho, List.append_nil]
  cases h with
  | issued i probe now hi => exact .inr ⟨i, rfl, issues_append _ _⟩
  | refused i probe now hi => exact .inr ⟨i, rfl, issues_append _ _⟩
  | heard link frame => exact .inl ⟨hear_issued frame c.registry, quiet rfl⟩
  | asked op hq hi => exact .inl ⟨rfl, quiet rfl⟩
  | wrote i cid probe link frame hi hf => exact .inl ⟨rfl, quiet rfl⟩
  | unsent i cid probe f hi hl hf => exact .inl ⟨rfl, quiet rfl⟩
  | replied i cid probe outcome hi hl ho => exact .inl ⟨rfl, quiet rfl⟩
  | drained g cause hc hp => exact .inl ⟨rfl, quiet rfl⟩
  | _ => exact .inl ⟨rfl, rfl⟩

theorem Step.issues_subset {c d : Ledger} (h : Step c d) :
    ∀ p ∈ Client.issues c.deals, p ∈ Client.issues d.deals := by
  intro p hp
  rcases h.issues with ⟨_, hi⟩ | ⟨i, _, hi⟩
  · exact hi ▸ hp
  · rw [hi]
    exact List.mem_append_left _ hp

theorem Numbered.keep {c d : Ledger} (hc : c.Numbered) (h : Step c d) : d.Numbered := by
  unfold Numbered at hc ⊢
  rcases h.issues with ⟨hn, hi⟩ | ⟨i, hn, hi⟩
  · rw [hn, hi, hc]
  · rw [hn, hi, List.map_append, hc, Registry.cids_succ]
    rfl

section
variable {c : Ledger} {i j : TaskId} {cid : String}

theorem Numbered.distinct (hc : c.Numbered) : ((issues c.deals).map Prod.snd).Nodup := by
  rw [hc]
  exact Registry.cids_nodup _

theorem Numbered.issuer_eq (hc : c.Numbered) (hi : (i, cid) ∈ issues c.deals)
    (hj : (j, cid) ∈ issues c.deals) : i = j :=
  (Prod.mk.inj (List.inj_on_of_nodup_map hc.distinct hi hj rfl)).1

theorem Numbered.fresh (hc : c.Numbered) : (i, c.registry.nextCid) ∉ issues c.deals := by
  intro h
  have given := List.mem_map_of_mem (f := Prod.snd) h
  rw [hc] at given
  exact c.registry.nextCid_not_mem given

end

/-- Nothing settles a request before anything is observed after its id is given out. -/
theorem Numbered.unsettled {c : Ledger} (hc : c.Numbered) (i : TaskId) :
    settlement c.registry.nextCid (c.deals ++ [.issued i c.registry.nextCid]) = none := by
  rw [settlement_append_of_not_mem fun j hj => hc.fresh (mem_issues.mpr hj), settlement]
  exact if_pos (Observation.issues_iff.mpr ⟨i, rfl⟩)

/-! ## What a step settles -/

section
variable {ds os : List Observation} {i : TaskId} {cid : String} (h : (i, cid) ∈ issues ds)
include h

/-- What settles nothing leaves the settlement of a request that was made as it is. -/
theorem settlement_append_quiet (ho : os.findSome? (Observation.settles cid) = none) :
    settlement cid (ds ++ os) = settlement cid ds := by
  rw [settlement_append (mem_issues.mp h), ho, Option.or_none]

theorem settlement_append_some {s : Settlement} (hs : settlement cid ds = some s) :
    settlement cid (ds ++ os) = some s := by
  rw [settlement_append (mem_issues.mp h), hs, Option.some_or]

theorem settlement_append_one {o : Observation} :
    settlement cid (ds ++ [o]) = (settlement cid ds).or (o.settles cid) := by
  rw [settlement_append (mem_issues.mp h), List.findSome?_singleton]

/-- A frame settles no request but the one that it answers. -/
theorem settlement_append_frame {link : LinkId} {frame : Bytes}
    (hr : ∀ outcome, replyIn frame ≠ some (cid, outcome)) :
    settlement cid (ds ++ [.dispatched link frame]) = settlement cid ds := by
  rw [settlement_append_one h, settles_dispatched_of_ne hr, Option.or_none]

end

theorem replyIn_ne {frame : Bytes} {cid cid' : String} {outcome : Outcome}
    (hr : replyIn frame = some (cid, outcome)) (hne : cid' ≠ cid) (o : Outcome) :
    replyIn frame ≠ some (cid', o) := by
  intro h
  rw [hr] at h
  exact hne (Prod.mk.inj (Option.some.inj h)).1.symm

/-! ## The table and who waits -/

inductive Settled (c : Ledger) (cid : String) : Prop
  | pending (hs : cid ∈ c.registry.slots) (hd : c.registry.delivered.lookup cid = none)
      (hn : settlement cid c.deals = none) : Settled c cid
  | settled (s : Settlement) (hs : cid ∉ c.registry.slots)
      (hd : c.registry.delivered.lookup cid = some s.outcome)
      (hn : settlement cid c.deals = some s) : Settled c cid

structure Held (c : Ledger) : Prop where
  issuer : ∀ i cid, c.Waits i cid → (i, cid) ∈ issues c.deals
  slots : ∀ cid ∈ c.registry.slots, ∃ i, c.Waits i cid
  delivered : ∀ d ∈ c.registry.delivered, ∃ i, c.Waits i d.1
  ordered : c.registry.slots.Nodup
  settled : ∀ i cid, c.Waits i cid → c.Settled cid

section
variable {c d : Ledger}

theorem Settled.same {cid : String} (h : c.Settled cid)
    (hs : d.registry.slots = c.registry.slots)
    (hd : d.registry.delivered = c.registry.delivered)
    (hn : settlement cid d.deals = settlement cid c.deals) : d.Settled cid := by
  cases h with
  | pending hs' hd' hn' => exact .pending (hs ▸ hs') (hd ▸ hd') (hn.trans hn')
  | settled s hs' hd' hn' => exact .settled s (hs ▸ hs') (hd ▸ hd') (hn.trans hn')

/-- The next id is nobody's. -/
theorem Held.nextCid (hc : c.Held) (hn : c.Numbered) :
    c.registry.nextCid ∉ c.registry.slots ∧
      ∀ d ∈ c.registry.delivered, d.1 ≠ c.registry.nextCid := by
  constructor
  · intro h
    obtain ⟨i, hw⟩ := hc.slots _ h
    exact hn.fresh (hc.issuer i _ hw)
  · intro d hd he
    obtain ⟨i, hw⟩ := hc.delivered d hd
    exact hn.fresh (he ▸ hc.issuer i _ hw)

/-- A step after which the same tasks wait and the table is the same but for its counter. -/
theorem Held.still (hc : c.Held) (hs : d.registry.slots = c.registry.slots)
    (hd : d.registry.delivered = c.registry.delivered)
    (hw : ∀ i cid, d.Waits i cid ↔ c.Waits i cid)
    (hi : ∀ p ∈ issues c.deals, p ∈ issues d.deals)
    (hn : ∀ i cid, (i, cid) ∈ issues c.deals → settlement cid d.deals = settlement cid c.deals) :
    d.Held := by
  refine ⟨?_, ?_, ?_, hs ▸ hc.ordered, ?_⟩
  · intro i cid h
    exact hi _ (hc.issuer i cid ((hw i cid).mp h))
  · intro cid h
    obtain ⟨i, h⟩ := hc.slots cid (hs ▸ h)
    exact ⟨i, (hw i cid).mpr h⟩
  · intro p h
    obtain ⟨i, h⟩ := hc.delivered p (hd ▸ h)
    exact ⟨i, (hw i _).mpr h⟩
  · intro i cid h
    have waits := (hw i cid).mp h
    exact (hc.settled i cid waits).same hs hd (hn i cid (hc.issuer i cid waits))

/-- A step after which one task waits no more and its id is released. -/
theorem Held.release (hc : c.Held) (hn : c.Numbered) {i : TaskId} {cid : String}
    (hi : c.Waits i cid) {os : List Observation} (hos : Client.issues os = [])
    (hq : ∀ cid, os.findSome? (Observation.settles cid) = none) :
    Held { c with
      registry := c.registry.release cid
      calls := update c.calls i none
      deals := c.deals ++ os } := by
  have issuer := hc.issuer i cid hi
  -- nobody else waits under this id
  have other : ∀ {k c'}, c.Waits k c' → c' ≠ cid → k ≠ i := by
    rintro k c' hk hne rfl
    obtain ⟨s, p, hi⟩ := hi
    exact hne (hk.eq_of_calls hi)
  have apart : ∀ {k c'}, k ≠ i → c.Waits k c' → c' ≠ cid := by
    rintro k c' hk hw rfl
    exact hk (hn.issuer_eq (hc.issuer k c' hw) issuer)
  refine ⟨?_, ?_, ?_, hc.ordered.erase _, ?_⟩
  · intro k c' h
    rw [show issues (c.deals ++ os) = issues c.deals by rw [issues_append, hos, List.append_nil]]
    exact hc.issuer k c' (Waits.of_update_none h).2
  · intro c' h
    obtain ⟨hne, h⟩ := (Registry.mem_slots_release hc.ordered).mp h
    obtain ⟨k, hk⟩ := hc.slots c' h
    exact ⟨k, Waits.keep_update (other hk hne) hk⟩
  · intro p h
    obtain ⟨h, hne⟩ := Registry.mem_delivered_release.mp h
    obtain ⟨k, hk⟩ := hc.delivered p h
    exact ⟨k, Waits.keep_update (other hk hne) hk⟩
  · intro k c' h
    obtain ⟨hk, h⟩ := Waits.of_update_none h
    have hne := apart hk h
    have same := settlement_append_quiet (hc.issuer k c' h) (hq c')
    cases hc.settled k c' h with
    | pending hs hd hst =>
      exact .pending ((Registry.mem_slots_release hc.ordered).mpr ⟨hne, hs⟩)
        ((Registry.lookup_release hne).trans hd) (same.trans hst)
    | settled s hs hd hst =>
      refine .settled s ?_ ((Registry.lookup_release hne).trans hd) (same.trans hst)
      exact fun h => hs ((Registry.mem_slots_release hc.ordered).mp h).2

/-- A request that is made gets the next id and a slot of its own. -/
theorem Held.issue (hc : c.Held) (hn : c.Numbered) {i : TaskId} {probe : Option Generation}
    (hi : c.Issuer i probe) (now : Nat) :
    Held { c with
      registry := (c.registry.register now).1
      calls := update c.calls i (some (.waiting c.registry.nextCid false probe))
      deals := c.deals ++ [.issued i c.registry.nextCid] } := by
  obtain ⟨hslot, hdeliv⟩ := hc.nextCid hn
  have hwi : ∃ s p, update c.calls i (some (.waiting c.registry.nextCid false probe)) i =
      some (.waiting c.registry.nextCid s p) := ⟨false, probe, Function.update_self ..⟩
  have old : ∀ {k cid}, c.Waits k cid → k ≠ i := by
    rintro k cid h rfl
    exact hi.not_waits h
  refine ⟨?_, ?_, ?_, ?_, ?_⟩
  · intro k cid h
    rw [issues_append]
    rcases Waits.of_update_waiting h with ⟨rfl, rfl⟩ | ⟨_, h⟩
    · exact List.mem_append_right _ (.head _)
    · exact List.mem_append_left _ (hc.issuer k cid h)
  · intro cid h
    rcases List.mem_append.mp h with h | h
    · obtain ⟨k, hk⟩ := hc.slots cid h
      exact ⟨k, Waits.keep_update (old hk) hk⟩
    · obtain rfl := List.mem_singleton.mp h
      exact ⟨i, hwi⟩
  · intro p h
    obtain ⟨k, hk⟩ := hc.delivered p h
    exact ⟨k, Waits.keep_update (old hk) hk⟩
  · exact nodup_append_one hc.ordered hslot
  · intro k cid h
    rcases Waits.of_update_waiting h with ⟨rfl, rfl⟩ | ⟨_, h⟩
    · exact .pending (List.mem_append_right _ (.head _)) (Registry.lookup_eq_none hdeliv)
        (hn.unsettled k)
    · have same : settlement cid (c.deals ++ [.issued i c.registry.nextCid]) =
          settlement cid c.deals := settlement_append_quiet (hc.issuer k cid h) rfl
      cases hc.settled k cid h with
      | pending hs hd hst => exact .pending (List.mem_append_left _ hs) hd (same.trans hst)
      | settled s hs hd hst =>
        refine .settled s ?_ hd (same.trans hst)
        intro hm
        rcases List.mem_append.mp hm with hm | hm
        · exact hs hm
        · obtain rfl := List.mem_singleton.mp hm
          exact hn.fresh (hc.issuer k _ h)

/-- A frame settles the request that it answers where its slot is open. -/
theorem Held.answer (hc : c.Held) (link : LinkId) {frame : Bytes} {cid : String} {outcome : Outcome}
    (hr : replyIn frame = some (cid, outcome)) (hm : cid ∈ c.registry.slots) :
    Held { c with
      registry :=
        { c.registry with
          slots := c.registry.slots.erase cid
          delivered := c.registry.delivered ++ [(cid, outcome)] }
      deals := c.deals ++ [.dispatched link frame] } := by
  refine ⟨?_, ?_, ?_, hc.ordered.erase _, ?_⟩
  · intro k c' h
    rw [issues_append]
    exact List.mem_append_left _ (hc.issuer k c' h)
  · intro c' h
    exact hc.slots c' (List.mem_of_mem_erase h)
  · intro p h
    rcases List.mem_append.mp h with h | h
    · exact hc.delivered p h
    · rw [List.mem_singleton.mp h]
      exact hc.slots cid hm
  · intro k c' h
    have issuer := hc.issuer k c' h
    by_cases he : c' = cid
    · subst he
      cases hc.settled k c' h with
      | pending hs hd hst =>
        refine .settled (.reply link frame outcome) hc.ordered.not_mem_erase ?_ ?_
        · rw [List.lookup_append, hd, List.lookup_cons_self]
          rfl
        · rw [settlement_append_one issuer, hst, settles_dispatched hr]
          rfl
      | settled s hs hd hst => exact absurd hm hs
    · have same : settlement c' (c.deals ++ [.dispatched link frame]) = settlement c' c.deals :=
        settlement_append_frame issuer (replyIn_ne hr he)
      have look : (c.registry.delivered ++ [(cid, outcome)]).lookup c' =
          c.registry.delivered.lookup c' := by
        have absent : [(cid, outcome)].lookup c' = none :=
          Registry.lookup_eq_none (by simp [Ne.symm he])
        rw [List.lookup_append, absent, Option.or_none]
      cases hc.settled k c' h with
      | pending hs hd hst =>
        exact .pending ((List.mem_erase_of_ne he).mpr hs) (look.trans hd) (same.trans hst)
      | settled s hs hd hst =>
        exact .settled s (fun h => hs (List.mem_of_mem_erase h)) (look.trans hd) (same.trans hst)

/-- A frame settles the request that it answers, if its slot is open, and no other one. -/
theorem Held.hear (hc : c.Held) (link : LinkId) (frame : Bytes) :
    Held { c with
      registry := Client.hear frame c.registry
      deals := c.deals ++ [.dispatched link frame] } := by
  have more : ∀ p ∈ issues c.deals, p ∈ issues (c.deals ++ [.dispatched link frame]) := by
    intro p hp
    rw [issues_append]
    exact List.mem_append_left _ hp
  unfold Client.hear
  cases hr : replyIn frame with
  | none =>
    refine hc.still rfl rfl (fun _ _ => Iff.rfl) more ?_
    intro k cid hk
    exact settlement_append_frame hk (by rw [hr]; simp)
  | some reply =>
    obtain ⟨cid, outcome⟩ := reply
    dsimp only
    by_cases hm : cid ∈ c.registry.slots
    · rw [Registry.resolve_of_mem hm]
      exact hc.answer link hr hm
    · rw [Registry.resolve_of_not_mem hm]
      refine ⟨fun k c' h => more _ (hc.issuer k c' h), hc.slots, hc.delivered, hc.ordered, ?_⟩
      intro k c' h
      have issuer := hc.issuer k c' h
      cases hc.settled k c' h with
      | pending hs hd hst =>
        -- the slot of the answered id is not open, so it is another one
        have hne : c' ≠ cid := by
          rintro rfl
          exact hm hs
        exact .pending hs hd ((settlement_append_frame issuer (replyIn_ne hr hne)).trans hst)
      | settled s hs hd hst => exact .settled s hs hd (settlement_append_some issuer hst)

/-- A teardown settles every request whose slot is open. -/
theorem Held.drain (hc : c.Held) (g : Generation) (cause : Cause) :
    Held { c with
      registry := (c.registry.drain cause.failure).1
      deals := c.deals ++ [.closed g cause] } := by
  refine ⟨?_, fun _ h => (nomatch h), ?_, List.nodup_nil, ?_⟩
  · intro k cid h
    rw [issues_append]
    exact List.mem_append_left _ (hc.issuer k cid h)
  · intro p h
    rcases List.mem_append.mp h with h | h
    · exact hc.delivered p h
    · obtain ⟨cid, hs, rfl⟩ := List.mem_map.mp h
      exact hc.slots cid hs
  · intro k cid h
    have issuer := hc.issuer k cid h
    cases hc.settled k cid h with
    | pending hs hd hst =>
      refine .settled (.drain g cause) (fun h => (nomatch h))
        (Registry.lookup_drain_of_mem hs hd) ?_
      rw [settlement_append_one issuer, hst]
      rfl
    | settled s hs hd hst =>
      exact .settled s (fun h => (nomatch h)) (Registry.lookup_drain_of_some hd)
        (settlement_append_some issuer hst)

theorem Held.keep (hc : c.Held) (hn : c.Numbered) (h : Step c d) : d.Held := by
  have more := h.issues_subset
  cases h with
  | stay cancelled next hg hnext =>
    exact hc.still rfl rfl (fun _ _ => Iff.rfl) more (fun _ _ _ => rfl)
  | asked op hq hi =>
    refine hc.still rfl rfl ?_ more (fun _ _ h => settlement_append_quiet h rfl)
    intro k cid
    refine ⟨fun h => (Waits.of_update_ready h).2, ?_⟩
    rintro ⟨s, p, h⟩
    refine Waits.keep_update ?_ ⟨s, p, h⟩
    rintro rfl
    cases hi.symm.trans h
  | issued i probe now hi => exact hc.issue hn hi now
  | refused i probe now hi =>
    obtain ⟨hslot, hdeliv⟩ := hc.nextCid hn
    have table := Registry.release_register now hslot hdeliv
    refine hc.still (by rw [table]) (by rw [table]) ?_ more
      (fun _ _ h => settlement_append_quiet h rfl)
    intro k cid
    refine ⟨fun h => (Waits.of_update_none h).2, fun h => Waits.keep_update ?_ h⟩
    rintro rfl
    exact hi.not_waits h
  | wrote i cid probe link frame hi hf =>
    refine hc.still rfl rfl ?_ more (fun _ _ h => settlement_append_quiet h rfl)
    intro k c'
    constructor
    · intro h
      rcases Waits.of_update_waiting h with ⟨rfl, rfl⟩ | ⟨_, h⟩
      · exact ⟨false, probe, hi⟩
      · exact h
    · intro h
      by_cases hk : k = i
      · subst hk
        obtain rfl := h.eq_of_calls hi
        exact ⟨true, probe, Function.update_self ..⟩
      · exact Waits.keep_update hk h
  | unsent i cid probe f hi hl hf => exact hc.release hn ⟨false, probe, hi⟩ rfl (fun _ => rfl)
  | replied i cid probe outcome hi hl ho =>
    exact hc.release hn ⟨true, probe, hi⟩ rfl (fun _ => rfl)
  | withdrawn i hi =>
    refine hc.still rfl rfl ?_ more (fun _ _ _ => rfl)
    intro k cid
    refine ⟨fun h => (Waits.of_update_none h).2, fun h => Waits.keep_update ?_ h⟩
    rintro rfl
    obtain ⟨s, p, h⟩ := h
    cases hi.symm.trans h
  | dropped i cid sent probe hi =>
    have released := hc.release hn ⟨sent, probe, hi⟩ (show Client.issues [] = [] from rfl)
      (fun _ => rfl)
    rwa [List.append_nil] at released
  | heard link frame => exact hc.hear link frame
  | drained g cause hcause hp => exact hc.drain g cause

end

end GameLink.Client.Ledger

import GameLink.Proofs.Client.Line

/-! # Turns at the writer

Nobody stands in the queue twice, and the ids come to the writer in the order in
which they were given out (`Line.Ranked`). Whoever has a frame to write has not
written under its id before, so that each call is written at most once
(`Line.Voiced`). A call that has not been written and that its task can write no
more stays unwritten (`Line.Spent`).
-/
namespace GameLink

namespace Registry

theorem cids_sublist {a b : Nat} (h : a ≤ b) : (cids a).Sublist (cids b) :=
  (List.range_sublist.mpr h).map _

/-- Ids in the order in which they were given out increase as numbers. -/
theorem increasing_of_sublist {cs : List String} {n : Nat} (h : cs.Sublist (cids n)) :
    ∃ ns : List Nat, cs = ns.map toString ∧ ns.Pairwise (· < ·) := by
  obtain ⟨ks, hks, rfl⟩ := List.sublist_map_iff.mp h
  refine ⟨ks.map (· + 1), by rw [List.map_map]; rfl, ?_⟩
  rw [List.pairwise_map]
  exact (List.pairwise_lt_range.sublist hks).imp fun h => Nat.succ_lt_succ h

end Registry

namespace Client

open Function (update)

namespace Line

/-! ## The queue -/

/-- The id under which a task in the queue is to write. -/
def waitingCid (c : Line) (i : TaskId) : Option String :=
  match c.stances i with
  | some (.line (some frame)) => frame.cid
  | _ => none

def cidsOf (us : List Utterance) : List String := us.filterMap (fun u => u.frame.cid)

structure Ranked (c : Line) : Prop where
  nodup : c.queue.Nodup
  queued : ∀ i ∈ c.queue, c.InLine i
  /-- The ids written, and behind them those in the queue, in the order in which they were given. -/
  ordered : (cidsOf c.written ++ c.queue.filterMap c.waitingCid).Sublist (Registry.cids c.issued)

section
variable {c d : Line} {i : TaskId}

/-- Who stands in line stands there still when the stance of somebody else changes. -/
theorem Ranked.queued_update (hc : c.Ranked) {queue : List TaskId} (hq : queue ⊆ c.queue)
    (hi : i ∉ queue) (s : Option Stance) :
    ∀ k ∈ queue, ∃ draft, update c.stances i s k = some (.line draft) := by
  intro k hk
  obtain ⟨draft, h⟩ := hc.queued k (hq hk)
  exact ⟨draft, (Function.update_of_ne (ne_of_mem_of_not_mem hk hi) _ _).trans h⟩

/-- A queue is as it was to whom a task that is not in it changes its stance. -/
theorem waitingCid_update {queue : List TaskId} {s : Option Stance} (hi : i ∉ queue)
    (hs : d.stances = update c.stances i s) :
    queue.filterMap d.waitingCid = queue.filterMap c.waitingCid := by
  refine List.filterMap_congr fun k hk => ?_
  rw [waitingCid, waitingCid, hs, Function.update_of_ne (ne_of_mem_of_not_mem hk hi)]

theorem Ranked.not_mem (hc : c.Ranked) (hi : ¬ c.InLine i) : i ∉ c.queue :=
  fun h => hi (hc.queued i h)

/-- Nobody joins the queue twice, and the last one in it has the last id. -/
theorem Ranked.join (hc : c.Ranked) {draft : Option Envelope.Outgoing} {issued : Nat}
    (hi : ¬ c.InLine i) (hd : c.Brings i draft issued) :
    Ranked { c with
      queue := c.queue ++ [i]
      stances := update c.stances i (some (.line draft))
      issued := issued } := by
  have apart := hc.not_mem hi
  refine ⟨nodup_append_one hc.nodup apart, ?_, ?_⟩
  · intro k hk
    rcases List.mem_append.mp hk with hk | hk
    · exact hc.queued_update (List.Subset.refl _) apart _ k hk
    · obtain rfl := List.mem_singleton.mp hk
      exact ⟨draft, Function.update_self ..⟩
  · rw [List.filterMap_append, waitingCid_update apart rfl, ← List.append_assoc]
    cases hd with
    | nothing => simpa [waitingCid] using hc.ordered
    | message frame _ hf => simpa [waitingCid, hf] using hc.ordered
    | request frame hf =>
      rw [Registry.cids_succ]
      refine hc.ordered.append ?_
      simp [waitingCid, hf]

/-- The id of the head moves from the queue to what was written. -/
theorem Ranked.write (hc : c.Ranked) {link : LinkId} {frame : Envelope.Outgoing}
    (hi : c.stances i = some (.line (some frame))) (hh : c.queue.head? = some i) :
    Ranked { c with
      queue := c.queue.erase i
      stances := update c.stances i (some (.said frame))
      written := c.written ++ [⟨i, link, frame⟩] } := by
  obtain ⟨rest, hq⟩ := List.head?_eq_some_iff.mp hh
  have hrest : c.queue.erase i = rest := by rw [hq, List.erase_cons_head]
  obtain ⟨apart, nodup⟩ := List.nodup_cons.mp (hq ▸ hc.nodup)
  have moved : cidsOf c.written ++ c.queue.filterMap c.waitingCid =
      cidsOf (c.written ++ [⟨i, link, frame⟩]) ++ rest.filterMap c.waitingCid := by
    have head : c.waitingCid i = frame.cid := by rw [waitingCid, hi]
    rw [hq, List.filterMap_cons, head, cidsOf, cidsOf, List.filterMap_append, List.append_assoc]
    cases hf : frame.cid <;> simp [hf]
  rw [hrest]
  refine ⟨nodup, ?_, ?_⟩
  · exact hc.queued_update (hq ▸ List.subset_cons_self _ _) apart _
  · rw [waitingCid_update apart rfl]
    exact moved ▸ hc.ordered

theorem Ranked.leave (hc : c.Ranked) {queue : List TaskId} {issued : Nat} (next : TaskId)
    (hq : queue = c.queue.erase i ∨ queue = c.queue ∧ ¬ c.InLine i) (hi : c.issued ≤ issued) :
    Ranked { c with
      queue := queue
      stances := update c.stances i none
      issued := issued
      next := next } := by
  obtain ⟨apart, sub⟩ : i ∉ queue ∧ queue.Sublist c.queue := by
    rcases hq with rfl | ⟨rfl, haside⟩
    · exact ⟨hc.nodup.not_mem_erase, List.erase_sublist⟩
    · exact ⟨hc.not_mem haside, .refl _⟩
  refine ⟨hc.nodup.sublist sub, hc.queued_update sub.subset apart _, ?_⟩
  rw [waitingCid_update apart rfl]
  exact ((List.Sublist.refl _).append (sub.filterMap _)).trans
    (hc.ordered.trans (Registry.cids_sublist hi))

theorem Ranked.keep (hc : c.Ranked) (hnew : c.stances c.next = none) (h : Step c d) : d.Ranked := by
  cases h with
  | stay next hn => exact ⟨hc.nodup, hc.queued, hc.ordered⟩
  | came =>
    have apart : c.next ∉ c.queue := hc.not_mem fun ⟨_, h⟩ => nomatch hnew.symm.trans h
    refine ⟨hc.nodup, hc.queued_update (List.Subset.refl _) apart _, ?_⟩
    rw [waitingCid_update apart rfl]
    exact hc.ordered
  | joined i draft issued hi hd => exact hc.join hi hd
  | wrote i link frame hi hh hlt => exact hc.write hi hh
  | left i queue issued next hq hi hn => exact hc.leave next hq hi

/-- An id that was written has been given out. -/
theorem Ranked.given (hc : c.Ranked) {u : Utterance} (hu : u ∈ c.written) {cid : String}
    (h : u.frame.cid = some cid) : cid ∈ Registry.cids c.issued :=
  hc.ordered.subset (List.mem_append_left _ (List.mem_filterMap.mpr ⟨u, hu, h⟩))

/-! ## Who has written what -/

structure Voiced (c : Line) : Prop where
  known : ∀ u ∈ c.written, u.task < c.next
  new : ∀ i, c.stances i = some .new → ∀ u ∈ c.written, u.task ≠ i
  unwritten : ∀ i frame, c.stances i = some (.line (some frame)) →
    ∀ u ∈ c.written, u.call ≠ (i, frame.cid)
  said : ∀ i frame, c.stances i = some (.said frame) → ∃ link, ⟨i, link, frame⟩ ∈ c.written
  once : (c.written.map Utterance.call).Nodup

/-- What a task brings along, it has not written. -/
theorem Voiced.brought (hc : c.Voiced) (hr : c.Ranked) {frame : Envelope.Outgoing} {issued : Nat}
    (hd : c.Brings i (some frame) issued) : ∀ u ∈ c.written, u.call ≠ (i, frame.cid) := by
  intro u hu he
  obtain ⟨htask, hcid⟩ := Prod.mk.inj he
  cases hd with
  | message _ hi hf => exact hc.new i hi u hu htask
  | request _ hf => exact Registry.succ_not_mem_cids _ (hr.given hu (hcid.trans hf))

theorem Voiced.write (hc : c.Voiced) {link : LinkId} {frame : Envelope.Outgoing}
    (hi : c.stances i = some (.line (some frame))) (hlt : i < c.next) (queue : List TaskId) :
    Voiced { c with
      queue := queue
      stances := update c.stances i (some (.said frame))
      written := c.written ++ [⟨i, link, frame⟩] } := by
  have old : ∀ {u}, u ∈ c.written ++ [⟨i, link, frame⟩] → u ∈ c.written ∨ u = ⟨i, link, frame⟩ :=
    fun h => (List.mem_append.mp h).imp_right List.mem_singleton.mp
  refine ⟨?_, ?_, ?_, ?_, ?_⟩
  · intro u hu
    rcases old hu with hu | rfl
    · exact hc.known u hu
    · exact hlt
  · intro k hk u hu
    rcases of_update_some hk with ⟨_, he⟩ | ⟨hki, hk⟩
    · cases he
    · rcases old hu with hu | rfl
      · exact hc.new k hk u hu
      · exact Ne.symm hki
  · intro k other hk u hu
    rcases of_update_some hk with ⟨_, he⟩ | ⟨hki, hk⟩
    · cases he
    · rcases old hu with hu | rfl
      · exact hc.unwritten k other hk u hu
      · exact fun he => hki (Prod.mk.inj he).1.symm
  · intro k other hk
    rcases of_update_some hk with ⟨rfl, he⟩ | ⟨_, hk⟩
    · cases he
      exact ⟨link, List.mem_append_right _ (.head _)⟩
    · obtain ⟨l, h⟩ := hc.said k other hk
      exact ⟨l, List.mem_append_left _ h⟩
  · rw [List.map_append]
    refine nodup_append_one hc.once ?_
    intro h
    obtain ⟨u, hu, he⟩ := List.mem_map.mp h
    exact hc.unwritten i frame hi u hu he

theorem Voiced.keep (hc : c.Voiced) (hr : c.Ranked) (h : Step c d) : d.Voiced := by
  cases h with
  | stay next hn =>
    exact ⟨fun u hu => Nat.lt_of_lt_of_le (hc.known u hu) hn, hc.new, hc.unwritten, hc.said,
      hc.once⟩
  | came =>
    refine ⟨fun u hu => Nat.lt_succ_of_lt (hc.known u hu), ?_,
      fun k frame hk => hc.unwritten k frame (of_update_other hk Stance.noConfusion),
      fun k frame hk => hc.said k frame (of_update_other hk Stance.noConfusion), hc.once⟩
    intro k hk u hu
    rcases of_update_some hk with ⟨rfl, _⟩ | ⟨_, hk⟩
    · exact Nat.ne_of_lt (hc.known u hu)
    · exact hc.new k hk u hu
  | joined i draft issued hi hd =>
    refine ⟨hc.known, fun k hk => hc.new k (of_update_other hk Stance.noConfusion), ?_,
      fun k frame hk => hc.said k frame (of_update_other hk Stance.noConfusion), hc.once⟩
    intro k frame hk
    rcases of_update_some hk with ⟨rfl, he⟩ | ⟨_, hk⟩
    · cases he
      exact hc.brought hr hd
    · exact hc.unwritten k frame hk
  | wrote i link frame hi hh hlt => exact hc.write hi hlt _
  | left i queue issued next hq hi hn =>
    exact ⟨fun u hu => Nat.lt_of_lt_of_le (hc.known u hu) hn,
      fun k hk => hc.new k (of_update_none hk).2,
      fun k frame hk => hc.unwritten k frame (of_update_none hk).2,
      fun k frame hk => hc.said k frame (of_update_none hk).2, hc.once⟩

/-! ## Calls that are not written any more -/

/-- The call of a task under an id, or of an operation that has none, has not been written, and the
task can write it no more. -/
structure Spent (c : Line) (i : TaskId) (cid : Option String) : Prop where
  unwritten : ∀ u ∈ c.written, u.call ≠ (i, cid)
  old : i < c.next
  given : ∀ s, cid = some s → s ∈ Registry.cids c.issued
  begun : cid = none → c.stances i ≠ some .new
  aside : ∀ frame, c.stances i = some (.line (some frame)) → frame.cid ≠ cid

theorem Spent.keep {cid : Option String} (hc : c.Spent i cid) (h : Step c d) : d.Spent i cid := by
  cases h with
  | stay next hn => exact ⟨hc.unwritten, Nat.lt_of_lt_of_le hc.old hn, hc.given, hc.begun, hc.aside⟩
  | came =>
    refine ⟨hc.unwritten, Nat.lt_succ_of_lt hc.old, hc.given, ?_,
      fun frame hk => hc.aside frame (of_update_other hk Stance.noConfusion)⟩
    intro hn hk
    rcases of_update_some hk with ⟨he, _⟩ | ⟨_, hk⟩
    · exact absurd he (Nat.ne_of_lt hc.old)
    · exact hc.begun hn hk
  | joined k draft issued hi hd =>
    have more : c.issued ≤ issued := by cases hd <;> omega
    refine ⟨hc.unwritten, hc.old, fun s hs => (Registry.cids_sublist more).subset (hc.given s hs),
      fun hn hk => hc.begun hn (of_update_other hk Stance.noConfusion), ?_⟩
    intro frame hk
    rcases of_update_some hk with ⟨rfl, he⟩ | ⟨_, hk⟩
    · cases he
      cases hd with
      | message _ hnew hf => exact fun hs => hc.begun (hs.symm.trans hf) hnew
      | request _ hf =>
        -- an id that was given out is not given out again
        exact fun hs => Registry.succ_not_mem_cids _ (hc.given _ (hs.symm.trans hf))
    · exact hc.aside frame hk
  | wrote k link frame hi hh hlt =>
    refine ⟨?_, hc.old, hc.given,
      fun hn hk => hc.begun hn (of_update_other hk Stance.noConfusion),
      fun other hk => hc.aside other (of_update_other hk Stance.noConfusion)⟩
    intro u hu
    rcases List.mem_append.mp hu with hu | hu
    · exact hc.unwritten u hu
    · obtain rfl := List.mem_singleton.mp hu
      intro he
      obtain ⟨rfl, hs⟩ := Prod.mk.inj he
      exact hc.aside frame hi hs
  | left k queue issued next hq hi hn =>
    exact ⟨hc.unwritten, Nat.lt_of_lt_of_le hc.old hn,
      fun s hs => (Registry.cids_sublist hi).subset (hc.given s hs),
      fun hn hk => hc.begun hn (of_update_none hk).2,
      fun frame hk => hc.aside frame (of_update_none hk).2⟩

/-- Only the task with a frame to write writes it, and then it has said it. -/
theorem Step.spoke (h : Step c d) {u : Utterance} (hu : u ∈ d.written) :
    u ∈ c.written ∨ c.stances u.task = some (.line (some u.frame)) ∧
      d.stances u.task = some (.said u.frame) := by
  cases h with
  | wrote i link frame hi hh hlt =>
    rcases List.mem_append.mp hu with hu | hu
    · exact .inl hu
    · obtain rfl := List.mem_singleton.mp hu
      exact .inr ⟨hi, Function.update_self ..⟩
  | _ => exact .inl hu

end

end Line

/-! ## The client -/

section
variable {m n : Machine} {os tr : List Observation} {i : TaskId}

theorem Change.spoke (hm : Fit m) (h : Change m os n) {link : LinkId} {frame : Envelope.Outgoing}
    (hw : .wrote i link frame ∈ os) :
    m.view stances i = some (.line (some frame)) ∧ n.view stances i = some (.said frame) := by
  have step : Line.Step (m.line []) (n.line ([] ++ os)) := h.line hm
  have written : ⟨i, link, frame⟩ ∈ (n.line ([] ++ os)).written := mem_utterances.mpr hw
  exact (step.spoke written).resolve_left fun h => nomatch h

theorem Fit.stances_next (hm : Fit m) : (m.line tr).stances (m.line tr).next = none :=
  hm.view_absent (Nat.le_refl _)

end

theorem turns_invariant :
    Invariant (fun tr m => Fit m ∧ (m.line tr).Ranked ∧ (m.line tr).Voiced) := by
  refine fit_invariant.and ?_ ?_ (fun _ _ _ _ h => h)
  · intro m h
    obtain ⟨_, _, _, _, rfl⟩ := h.fields
    exact ⟨⟨List.nodup_nil, fun _ h => (nomatch h), List.nil_sublist _⟩,
      ⟨fun _ h => (nomatch h), fun _ h => (nomatch h), fun _ _ h => (nomatch h),
        fun _ _ h => (nomatch h), List.nodup_nil⟩⟩
  · intro m os n tr h hf hc
    have step : Line.Step (m.line tr) (n.line (tr ++ os)) := h.line hf
    exact ⟨hc.1.keep hf.stances_next step, hc.2.keep hc.1 step⟩

namespace Machine

variable {may : Move → Prop} {m n : Machine} {i : TaskId} {cid : Option String}

theorem Reachable.ranked (hm : m.Reachable may) : (m.line m.trace).Ranked :=
  (turns_invariant.reached hm).2.1

theorem Reachable.voiced (hm : m.Reachable may) : (m.line m.trace).Voiced :=
  (turns_invariant.reached hm).2.2

/-- A call that is spent stays so. -/
theorem spent_of_course {k : Nat} (hf : Fit m) (hs : (m.line m.trace).Spent i cid)
    (h : Course Change m k n) : (n.line n.trace).Spent i cid := by
  have both : Fit n ∧ (n.line n.trace).Spent i cid := by
    refine h.invariant (I := fun tr m => Fit m ∧ (m.line tr).Spent i cid) ⟨hf, hs⟩ ?_ ?_
    · exact fun m os n tr h hm => ⟨hm.1.keep h, hm.2.keep (h.line hm.1)⟩
    · exact fun tr n handler history h => ⟨fit_invariant.quiet tr n handler history h.1, h.2⟩
  exact both.2

theorem spent_of_reaches (hf : Fit m) (hs : (m.line m.trace).Spent i cid) (h : Reaches may m n) :
    (n.line n.trace).Spent i cid := by
  have both : Fit n ∧ (n.line n.trace).Spent i cid := by
    refine h.invariant (I := fun m => Fit m ∧ (m.line m.trace).Spent i cid) ⟨hf, hs⟩ ?_
    intro m v hm hv _
    exact ⟨fit_invariant.after hm.1 hv hm.1, spent_of_course hm.1 hm.2 (course_after hm.1 hv)⟩
  exact both.2

end Machine

end Client

end GameLink

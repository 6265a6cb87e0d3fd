import GameLink.Proofs.Client.Apart
import GameLink.Proofs.Client.Onward
import GameLink.Proofs.Client.Relayed

/-! # Probes on record

What is on record of a heartbeat: when its probes were given their ids, when their
pings were written, and when and how each was first answered. As long as the link is
open nothing but an answer settles a probe (`Reachable.unclosed`), so what the
registry has for it is its first answer (`Reachable.poll_first`).
-/
namespace GameLink.Client

/-! ## Readings of a record -/

/-- An id that task `i` is given, and when. -/
def Record.probe? (i : TaskId) (r : Record) : Option (Nat × String) :=
  match r.what with
  | .issued j cid => if j = i then some (r.moment, cid) else none
  | _ => none

def probes (i : TaskId) (rs : List Record) : List (Nat × String) := rs.filterMap (Record.probe? i)

/-- What task `i` writes, on which link and when. -/
def Record.ping? (i : TaskId) (r : Record) : Option (Nat × LinkId × Envelope.Outgoing) :=
  match r.what with
  | .wrote j link frame => if j = i then some (r.moment, link, frame) else none
  | _ => none

def pings (i : TaskId) (rs : List Record) : List (Nat × LinkId × Envelope.Outgoing) :=
  rs.filterMap (Record.ping? i)

/-- What a frame answers to `cid`, and when it is taken from its link. -/
def Record.reply? (cid : String) (r : Record) : Option (Nat × Outcome) :=
  match r.what with
  | .dispatched _ frame =>
    match replyIn frame with
    | some (c, outcome) => if c = cid then some (r.moment, outcome) else none
    | none => none
  | _ => none

/-- When and how the first frame answers `cid` once it is given out. -/
def firstReply (cid : String) : List Record → Option (Nat × Outcome)
  | [] => none
  | r :: rs =>
    if r.what.issues cid then rs.findSome? (Record.reply? cid) else firstReply cid rs

@[simp] theorem probes_append (i : TaskId) (a b : List Record) :
    probes i (a ++ b) = probes i a ++ probes i b := List.filterMap_append

@[simp] theorem pings_append (i : TaskId) (a b : List Record) :
    pings i (a ++ b) = pings i a ++ pings i b := List.filterMap_append

section
variable {i : TaskId} {cid : String} {a b rs : List Record}

theorem mem_probes {μ : Nat} : (μ, cid) ∈ probes i rs ↔ ⟨μ, .issued i cid⟩ ∈ rs := by
  refine mem_picked fun ⟨s, o⟩ => ?_
  cases o with
  | issued j c => by_cases hj : j = i <;> simp [Record.probe?, hj]
  | _ => simp [Record.probe?]

theorem mem_pings {μ : Nat} {l : LinkId} {f : Envelope.Outgoing} :
    (μ, l, f) ∈ pings i rs ↔ ⟨μ, .wrote i l f⟩ ∈ rs := by
  refine mem_picked fun ⟨s, o⟩ => ?_
  cases o with
  | wrote j link frame => by_cases hj : j = i <;> simp [Record.ping?, hj]
  | _ => simp [Record.ping?]

/-- Others are given no ids and write nothing in the name of a task. -/
theorem silent_of_others (h : ∀ r ∈ rs, r.what.actor? ≠ some i) :
    probes i rs = [] ∧ pings i rs = [] :=
  ⟨List.eq_nil_iff_forall_not_mem.mpr fun _ hp => h _ (mem_probes.mp hp) rfl,
    List.eq_nil_iff_forall_not_mem.mpr fun _ hp => h _ (mem_pings.mp hp) rfl⟩

theorem firstReply_append_of_not_mem (h : ∀ r ∈ a, ∀ j, r.what ≠ .issued j cid) :
    firstReply cid (a ++ b) = firstReply cid b := by
  induction a with
  | nil => rfl
  | cons r a ih =>
    have hi : r.what.issues cid = false := by
      rw [Bool.eq_false_iff, ne_eq, Observation.issues_iff]
      rintro ⟨j, hj⟩
      exact h r (.head _) j hj
    rw [List.cons_append, firstReply, hi]
    exact ih fun r hr => h r (.tail _ hr)

theorem moment_of_firstReply {s : Nat} {outcome : Outcome}
    (h : firstReply cid rs = some (s, outcome)) : ∃ r ∈ rs, r.moment = s := by
  induction rs with
  | nil => cases h
  | cons r rs ih =>
    rw [firstReply] at h
    split at h
    · obtain ⟨r', hr', hs⟩ := List.exists_of_findSome?_eq_some h
      refine ⟨r', .tail _ hr', ?_⟩
      unfold Record.reply? at hs
      split at hs
      · split at hs
        · split at hs
          · cases hs
            rfl
          · cases hs
        · cases hs
      · cases hs
    · obtain ⟨r', hr', hs⟩ := ih h
      exact ⟨r', .tail _ hr', hs⟩

/-- Where no teardown drains the table, what settles is the first answer. -/
theorem settlement_eq_firstReply (h : ∀ r ∈ rs, ∀ g c, r.what ≠ .closed g c) :
    (settlement cid (rs.map Record.what)).map Settlement.outcome =
      (firstReply cid rs).map Prod.snd := by
  have settles : ∀ {rs : List Record}, (∀ r ∈ rs, ∀ g c, r.what ≠ .closed g c) →
      ((rs.map Record.what).findSome? (Observation.settles cid)).map Settlement.outcome =
        (rs.findSome? (Record.reply? cid)).map Prod.snd := by
    intro rs h
    induction rs with
    | nil => rfl
    | cons r rs ih =>
      have same : (r.what.settles cid).map Settlement.outcome =
          (r.reply? cid).map Prod.snd := by
        have apart := h r (.head _)
        unfold Record.reply? Observation.settles
        generalize r.what = o at apart
        cases o with
        | dispatched link frame =>
          dsimp only
          cases replyIn frame with
          | none => rfl
          | some p => dsimp only; split <;> rfl
        | closed g c => exact absurd rfl (apart g c)
        | _ => rfl
      rw [List.map_cons, List.findSome?_cons, List.findSome?_cons]
      cases hs : r.what.settles cid with
      | some s =>
        rw [hs] at same
        cases hr : r.reply? cid with
        | some p => rw [hr] at same; exact same
        | none => rw [hr] at same; cases same
      | none =>
        rw [hs] at same
        cases hr : r.reply? cid with
        | some p => rw [hr] at same; cases same
        | none => exact ih fun r hr => h r (.tail _ hr)
  induction rs with
  | nil => rfl
  | cons r rs ih =>
    have later := fun r' (hr : r' ∈ rs) => h r' (.tail _ hr)
    rw [List.map_cons, settlement, firstReply]
    split
    · exact settles later
    · exact ih later

end

namespace Machine

variable {may may' : Move → Prop} {a m n : Machine} {i : TaskId} {t : Task} {v : Move}

/-! ## Moments -/

/-- Nothing is on record before it happens. -/
theorem Reachable.moment_le (hm : m.Reachable may) {r : Record} (hr : r ∈ observed m.history) :
    r.moment ≤ m.now := by
  refine hm.kept (I := fun rs m => ∀ r ∈ rs, r.moment ≤ m.now) fit_invariant
    (fun _ _ _ h => nomatch h) ?_ (fun _ _ _ _ h => h) r hr
  intro b os c rs hc _ hb r hr
  rcases List.mem_append.mp hr with hr | hr
  · exact Nat.le_trans (hb r hr) hc.now_le
  · obtain ⟨o, _, rfl⟩ := List.mem_map.mp hr
    exact hc.now_le

/-- Time passes in a move of its own. -/
theorem after_now (hm : Fit m) (h : m.allows v = true) :
    (m.after v).now = m.now ∨
      ∃ ms, m.mayElapse ms = true ∧ m.after v = { m with now := m.now + ms } := by
  cases v with
  | work w =>
    obtain ⟨i, course⟩ := exists_course_run hm h
    obtain ⟨_, hapart, _⟩ := course.untouched
    exact .inl hapart.now
  | act a =>
    cases a with
    | elapse ms => exact .inr ⟨ms, h, rfl⟩
    | dropHandle =>
      obtain ⟨_, _, _, _, heq⟩ := release_eq { m with held := false }
      left
      show ({ m with held := false } : Machine).release.now = m.now
      rw [heq]
    | serverPush link frame =>
      left
      show (m.serverPush link frame).now = m.now
      unfold serverPush
      split
      · rfl
      · split <;> rfl
    | serverTake link =>
      left
      show (m.serverTake link).now = m.now
      unfold serverTake
      split
      · rfl
      · split <;> rfl
    | receive =>
      left
      show m.receive.1.now = m.now
      unfold receive
      split <;> rfl
    | _ => exact .inl rfl

/-! ## Answers while the link is open -/

theorem observed_append {rs : List Record} (h : observed m.history = observed a.history ++ rs) :
    m.trace = a.trace ++ rs.map Record.what := by
  rw [trace, trace, h, List.map_append]

/-- As long as a link is open, no teardown has drained the table since. -/
theorem Reachable.unclosed (hm : m.Reachable may) (ho : m.state = .open) {l : LinkId}
    (hl : .opened m.generation l ∈ a.trace) {rs : List Record}
    (hrs : observed m.history = observed a.history ++ rs) :
    ∀ r ∈ rs, ∀ g c, r.what ≠ .closed g c := by
  intro r hr g c hclosed
  obtain ⟨past, now, hch⟩ := hm.chronicle
  obtain ⟨e, rfl, hgen, hstage⟩ := hch.current_open ho
  obtain ⟨x, y, hxy⟩ := List.append_of_mem hl
  have closed : Observation.closed g c ∈ affairs (y ++ rs.map Record.what) := by
    refine List.mem_filter.mpr ⟨List.mem_append_right _ ?_, rfl⟩
    exact hclosed ▸ List.mem_map_of_mem hr
  have split : (past ++ [e]).flatMap Era.observations =
      affairs x ++ .opened m.generation l :: affairs (y ++ rs.map Record.what) := by
    refine hch.affairs.symm.trans ?_
    show affairs m.trace = _
    rw [observed_append hrs, hxy, List.append_assoc, affairs_append]
    rfl
  obtain ⟨before, e', after, u, w, heras, he', hw⟩ := exists_of_flatMap_eq split
  -- generations grow from era to era, so the link is that of the last one
  have grows : ((past ++ [e]).map Era.generation).Pairwise (· < ·) := by
    have increasing := hm.sound.tokens.increasing
    rw [hch.openings_eq, List.pairwise_map] at increasing
    rw [List.pairwise_map]
    exact increasing
  have generation : e'.generation = m.generation := by
    have opened : Observation.opened m.generation l ∈ e'.observations :=
      he' ▸ List.mem_append_right _ (.head _)
    exact (Era.of_opened opened).1
  have last : after = [] ∧ e' = e := by
    rcases List.eq_nil_or_concat after with rfl | ⟨after, z, rfl⟩
    · obtain ⟨_, he⟩ := List.append_inj' heras rfl
      cases he
      exact ⟨rfl, rfl⟩
    · exfalso
      rw [List.concat_eq_append, ← List.cons_append, ← List.append_assoc] at heras
      obtain ⟨hpast, hz⟩ := List.append_inj' heras rfl
      cases hz
      rw [hpast, List.map_append, List.pairwise_append] at grows
      have lt := grows.2.2 e'.generation
        (List.mem_map_of_mem (List.mem_append_right _ (.head _))) e.generation (.head _)
      exact Nat.lt_irrefl _ (Nat.lt_of_lt_of_eq lt (hgen.trans generation.symm))
  obtain ⟨rfl, rfl⟩ := last
  rw [hw, List.flatMap_nil, List.append_nil] at closed
  obtain ⟨j, td, hended, _, _⟩ := Era.of_closed (e := e') (g := g) (c := c)
    (he' ▸ List.mem_append_right _ (.tail _ closed))
  cases hended.symm.trans hstage

/-- While a link is open, the registry has for a probe of its heartbeat what first answered it. -/
theorem Reachable.poll_first (hm : m.Reachable may) (ho : m.state = .open) {l : LinkId}
    (hl : .opened m.generation l ∈ a.trace) {rs : List Record}
    (hrs : observed m.history = observed a.history ++ rs) (ht : m.task? i = some t) {k : Ticket}
    (hk : t.ticket? = some k) (hnew : ∀ j, .issued j k.cid ∉ a.trace) :
    m.registry.poll k.cid = (firstReply k.cid (observed m.history)).map Prod.snd := by
  have fresh : ∀ r ∈ observed a.history, ∀ j, r.what ≠ .issued j k.cid := fun r hr j hj =>
    hnew j (hj ▸ List.mem_map_of_mem hr)
  rw [hm.poll_eq ht hk, observed_append hrs, settlement_append_of_not_mem hnew, hrs,
    firstReply_append_of_not_mem fresh]
  exact settlement_eq_firstReply (hm.unclosed ho hl hrs)

end Machine

end GameLink.Client

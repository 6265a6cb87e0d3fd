import GameLink.Proofs.Client.Closing
import GameLink.Proofs.Client.Order

/-! # Eras

What is observed of a link from its installation to the end of its teardown is
an era. The affairs of a client are its eras one after the other, all over but
the last one, whose stage fits the state (`Chronicle`).
-/
namespace GameLink.Client

open Function (update)

inductive Era.Stage
  | open
  | closing (i : TaskId) (td : Teardown)
  | ended (i : TaskId) (td : Teardown)

/-- What is known of an opened link: the frames read from it and how its teardown stands. -/
structure Era where
  generation : Generation
  link : LinkId
  frames : List Bytes := []
  stage : Era.Stage := .open

namespace Era

def Stage.observations : Stage → List Observation
  | .open => []
  | .closing i td => td.opening i
  | .ended i td => td.opening i ++ td.ending

/-- The link opens, its frames arrive, and then it is torn down. -/
def observations (e : Era) : List Observation :=
  [.opened e.generation e.link, .event .connected] ++ e.frames.flatMap (tidings e.link) ++
    e.stage.observations

/-- The teardown has finished. -/
def Over (e : Era) : Prop := ∃ i td, e.stage = .ended i td ∧ td.generation = e.generation

end Era

/-! ## The chronicle of a life -/

namespace Life

/-- The era that is not over, as the state has it. -/
inductive Current (c : Life) : Option Era → Prop
  | none (hs : c.state = .idle ∨ c.state = .connecting) : Current c none
  | open (e : Era) (hs : c.state = .open) (hg : e.generation = c.generation)
      (he : e.stage = .open) : Current c (some e)
  | closing (e : Era) (i : TaskId) (td : Teardown) (hs : c.state = .closing)
      (hg : e.generation = c.generation) (he : e.stage = .closing i td)
      (htd : td.generation = e.generation)
      (ht : ∀ j td' stage, c.tears j = some (td', stage) → j = i ∧ td' = td) : Current c (some e)

structure Chronicle (c : Life) (past : List Era) (now : Option Era) : Prop where
  affairs : c.affairs = (past ++ now.toList).flatMap Era.observations
  ended : ∀ e ∈ past, e.Over
  current : c.Current now

section
variable {c d : Life} {past : List Era} {now : Option Era}

theorem Chronicle.openings_eq (h : c.Chronicle past now) :
    openings c.affairs = (past ++ now.toList).map (fun e => (e.generation, e.link)) := by
  have one : ∀ e : Era, openings e.observations = [(e.generation, e.link)] := by
    intro e
    have frames : openings (e.frames.flatMap (tidings e.link)) = [] := by
      induction e.frames with
      | nil => rfl
      | cons f fs ih =>
        rw [List.flatMap_cons, openings_append, openings_tidings, ih, List.nil_append]
    have stage : openings e.stage.observations = [] := by
      cases e.stage with
      | «open» => rfl
      | closing i td => exact openings_opening i td
      | ended i td =>
        rw [Era.Stage.observations, openings_append, openings_opening, openings_ending]
        rfl
    rw [Era.observations, openings_append, openings_append, frames, stage]
    rfl
  rw [h.affairs]
  induction past ++ now.toList with
  | nil => rfl
  | cons e es ih => rw [List.flatMap_cons, openings_append, one, ih]; rfl

/-- Nobody is torn down in a state other than `closing`, so nothing there can contradict the era. -/
theorem Chronicle.same (h : c.Chronicle past now) (ha : d.affairs = c.affairs)
    (hs : d.state = c.state) (hg : d.generation = c.generation)
    (ht : ∀ j td stage, d.tears j = some (td, stage) → ∃ stage', c.tears j = some (td, stage')) :
    d.Chronicle past now := by
  refine ⟨ha ▸ h.affairs, h.ended, ?_⟩
  cases h.current with
  | none hs' => exact .none (hs ▸ hs')
  | «open» e hs' hg' he => exact .open e (hs.trans hs') (hg'.trans hg.symm) he
  | closing e i td hs' hg' he htd ht' =>
    refine .closing e i td (hs.trans hs') (hg'.trans hg.symm) he htd ?_
    intro j td' stage hj
    obtain ⟨stage', hj⟩ := ht j td' stage hj
    exact ht' j td' stage' hj

/-- Where no link is open or closing, every era is over. -/
theorem Chronicle.no_current (h : c.Chronicle past now)
    (hs : c.state = .idle ∨ c.state = .connecting) : now = Option.none := by
  cases h.current with
  | none => rfl
  | «open» e ho => rw [ho] at hs; rcases hs with hs | hs <;> cases hs
  | closing e i td hc => rw [hc] at hs; rcases hs with hs | hs <;> cases hs

theorem Chronicle.current_open (h : c.Chronicle past now) (hs : c.state = .open) :
    ∃ e, now = some e ∧ e.generation = c.generation ∧ e.stage = .open := by
  cases h.current with
  | none hr => rw [hs] at hr; rcases hr with hr | hr <;> cases hr
  | «open» e _ hg he => exact ⟨e, rfl, hg, he⟩
  | closing e i td hc => cases hs.symm.trans hc

theorem Chronicle.current_closing (h : c.Chronicle past now) (hs : c.state = .closing) :
    ∃ e i td, now = some e ∧ e.generation = c.generation ∧ e.stage = .closing i td ∧
      td.generation = e.generation ∧
      ∀ j td' stage, c.tears j = some (td', stage) → j = i ∧ td' = td := by
  cases h.current with
  | none hr => rw [hs] at hr; rcases hr with hr | hr <;> cases hr
  | «open» e ho => cases hs.symm.trans ho
  | closing e i td _ hg he htd ht => exact ⟨e, i, td, rfl, hg, he, htd, ht⟩

/-- The current era goes on, or becomes another one that extends it. -/
theorem Chronicle.extend {e : Era} (h : c.Chronicle past (some e)) {stage : Era.Stage}
    {frames : List Bytes} {os : List Observation}
    (ho : ({ e with frames := frames, stage := stage } : Era).observations = e.observations ++ os) :
    c.affairs ++ os =
      (past ++ [({ e with frames := frames, stage := stage } : Era)]).flatMap Era.observations := by
  rw [h.affairs, List.flatMap_append, List.flatMap_append, Option.toList_some,
    List.flatMap_singleton, List.flatMap_singleton, ho, List.append_assoc]

theorem Chronicle.keep (h : c.Chronicle past now) (hc : c.Sound) (step : Step c d) :
    ∃ past now, d.Chronicle past now := by
  cases step with
  | stay => exact ⟨past, now, h⟩
  | unheld => exact ⟨past, now, h.same rfl rfl rfl (fun _ _ stage hj => ⟨stage, hj⟩)⟩
  | begun hs =>
    obtain rfl := h.no_current (.inl hs)
    exact ⟨past, none, h.affairs, h.ended, .none (.inr rfl)⟩
  | backedOut hs =>
    obtain rfl := h.no_current (.inr hs)
    exact ⟨past, none, h.affairs, h.ended, .none (.inl rfl)⟩
  | abandoned hs =>
    obtain rfl := h.no_current (.inr hs)
    exact ⟨past, none, h.affairs, h.ended, .none (.inl rfl)⟩
  | installed link i j hs hi hj hij =>
    obtain rfl := h.no_current (.inr hs)
    let e : Era := { generation := c.generation, link := link }
    refine ⟨past, some e, ?_, h.ended, .open e rfl rfl rfl⟩
    have hpast : c.affairs = past.flatMap Era.observations := by
      rw [h.affairs, Option.toList_none, List.append_nil]
    rw [List.flatMap_append, ← hpast]
    rfl
  | heard i g link frame hi hg =>
    -- a reader that is not cancelled reads the link of the current era
    obtain ⟨k, hk, hkind⟩ := hc.service.serving i g _ hi
    obtain rfl : link = k := by
      rcases hkind with h | h
      · cases h
      · exact Option.some.inj h
    have hcancel : c.cancel = some g := (hc.tokens.accounted g link hk).resolve_right hg
    obtain ⟨hs, hgen, _⟩ := hc.tokens.stored g hcancel
    obtain ⟨e, rfl, heg, he⟩ := h.current_open hs
    have hlink : link = e.link := by
      refine hc.tokens.link_eq hk ?_
      rw [h.openings_eq]
      refine List.mem_map.mpr ⟨e, List.mem_append_right _ (.head _), ?_⟩
      rw [heg, hgen]
    refine ⟨past, some { e with frames := e.frames ++ [frame] }, h.extend ?_, h.ended,
      .open _ hs heg he⟩
    simp only [Era.observations, he, Era.Stage.observations, List.flatMap_append,
      List.flatMap_singleton, List.append_nil, hlink, List.append_assoc]
  | began i td hs hg hi =>
    obtain ⟨e, rfl, heg, he⟩ := h.current_open hs
    have untorn := hc.posts.untorn (by rw [hs]; decide)
    refine ⟨past, some { e with stage := .closing i td }, h.extend ?_, h.ended,
      .closing _ i td rfl heg rfl (hg.symm.trans heg.symm) ?_⟩
    · simp only [Era.observations, he, Era.Stage.observations, List.append_nil]
    · intro j td' stage hj
      rcases of_update_some hj with ⟨hji, ha⟩ | ⟨_, hj⟩
      · cases ha
        exact ⟨hji, rfl⟩
      · cases (untorn j).symm.trans hj
  | taken i td stage hi =>
    refine ⟨past, now, h.same rfl rfl rfl ?_⟩
    intro j td' stage' hj
    rcases of_update_some hj with ⟨hji, ha⟩ | ⟨_, hj⟩
    · cases ha
      exact ⟨.queued, hji ▸ hi⟩
    · exact ⟨stage', hj⟩
  | ended i td stage hi hw =>
    obtain ⟨e, i', td', rfl, heg, he, htd, ht⟩ :=
      h.current_closing (hc.posts.tearing_state i td stage hi)
    obtain ⟨rfl, rfl⟩ := ht i td stage hi
    let e' : Era := { e with stage := .ended i td }
    have gone : ∀ e ∈ past ++ [e'], e.Over := by
      intro a ha
      rcases List.mem_append.mp ha with ha | ha
      · exact h.ended a ha
      · rw [List.mem_singleton.mp ha]
        exact ⟨i, td, rfl, htd⟩
    refine ⟨past ++ [e'], none, ?_, gone, .none (.inl rfl)⟩
    rw [Option.toList_none, List.append_nil]
    refine h.extend ?_
    simp only [Era.observations, he, Era.Stage.observations, List.append_assoc]
  | left i g l hi hg => exact ⟨past, now, h.same rfl rfl rfl (fun _ _ stage hj => ⟨stage, hj⟩)⟩
  | dropped i =>
    exact ⟨past, now, h.same rfl rfl rfl (fun _ _ stage hj => ⟨stage, (of_update_none hj).2⟩)⟩
  | cancelled g hh hn => exact ⟨past, now, h.same rfl rfl rfl (fun _ _ stage hj => ⟨stage, hj⟩)⟩
  | emptied hh hn => exact ⟨past, now, h.same rfl rfl rfl (fun _ _ stage hj => ⟨stage, hj⟩)⟩

end

end Life

theorem Machine.Reachable.chronicle {may : Move → Prop} {m : Machine} (hm : m.Reachable may) :
    ∃ past now, (m.life m.trace).Chronicle past now := by
  have inv : Invariant (fun tr m => Fit m ∧ (m.life tr).Sound ∧
      ∃ past now, (m.life tr).Chronicle past now) := by
    refine Life.invariant (I := fun c => c.Sound ∧ ∃ past now, c.Chronicle past now) ?_ ?_
    · intro c h
      exact ⟨h.sound, [], none, h.affairs, fun _ h => (nomatch h), .none (.inl h.state)⟩
    · rintro c d step ⟨hc, past, now, h⟩
      exact ⟨hc.keep step, h.keep hc step⟩
  exact (inv.reached hm).2.2

/-! ## What an era holds -/

namespace Era

/-- The teardown of an era is of its generation. -/
def Staged (e : Era) : Prop := ∀ i td, e.stage = .closing i td ∨ e.stage = .ended i td →
  td.generation = e.generation

variable {e : Era}

theorem Over.staged (h : e.Over) : e.Staged := by
  obtain ⟨i, td, hs, hg⟩ := h
  intro i' td' h
  rcases h with h | h
  · cases hs.symm.trans h
  · cases hs.symm.trans h
    exact hg

theorem mem_tidings {link : LinkId} {frame : Bytes} {o : Observation} (h : o ∈ tidings link frame) :
    o = .dispatched link frame ∨ ∃ event, eventIn frame = some event ∧ o = .event event := by
  unfold tidings at h
  rcases List.mem_cons.mp h with h | h
  · exact .inl h
  · cases he : eventIn frame with
    | none =>
      rw [he] at h
      cases h
    | some event =>
      rw [he] at h
      exact .inr ⟨event, rfl, List.mem_singleton.mp h⟩

theorem mem_opening {i : TaskId} {td : Teardown} {o : Observation} (h : o ∈ td.opening i) :
    o = .closing i td ∨ o = .event .heartbeatTimeout := by
  unfold Teardown.opening at h
  rcases List.mem_cons.mp h with h | h
  · exact .inl h
  · split at h
    · exact .inr (List.mem_singleton.mp h)
    · cases h

theorem mem_ending {td : Teardown} {o : Observation} (h : o ∈ td.ending) :
    o = .closed td.generation td.cause ∨ o = .event (.disconnected td.cause) ∨
      o = .disconnect td.cause := by
  unfold Teardown.ending at h
  rcases List.mem_cons.mp h with h | h
  · exact .inl h
  · rcases List.mem_append.mp h with h | h
    · split at h
      · exact .inr (.inl (List.mem_singleton.mp h))
      · cases h
    · split at h
      · cases h
      · exact .inr (.inr (List.mem_singleton.mp h))

/-- Where an observation of an era comes from. -/
theorem mem_observations {o : Observation} (h : o ∈ e.observations) :
    o = .opened e.generation e.link ∨ o = .event .connected ∨
      (∃ f ∈ e.frames, o ∈ tidings e.link f) ∨ o ∈ e.stage.observations := by
  unfold observations at h
  rcases List.mem_append.mp h with h | h
  · rcases List.mem_append.mp h with h | h
    · rcases List.mem_cons.mp h with h | h
      · exact .inl h
      · exact .inr (.inl (List.mem_singleton.mp h))
    · exact .inr (.inr (.inl (List.mem_flatMap.mp h)))
  · exact .inr (.inr (.inr h))

theorem mem_stage {stage : Stage} {o : Observation} (h : o ∈ stage.observations) :
    (∃ i td, (stage = .closing i td ∨ stage = .ended i td) ∧ o ∈ td.opening i) ∨
      ∃ i td, stage = .ended i td ∧ o ∈ td.ending := by
  cases stage with
  | «open» => cases h
  | closing i td => exact .inl ⟨i, td, .inl rfl, h⟩
  | ended i td =>
    rcases List.mem_append.mp h with h | h
    · exact .inl ⟨i, td, .inr rfl, h⟩
    · exact .inr ⟨i, td, rfl, h⟩

/-- How an observation of an era comes about. -/
inductive Source (e : Era) : Observation → Prop
  | opened : Source e (.opened e.generation e.link)
  | connected : Source e (.event .connected)
  | dispatched (f : Bytes) (hf : f ∈ e.frames) : Source e (.dispatched e.link f)
  | news (f : Bytes) (event : Event) (hf : f ∈ e.frames) (he : eventIn f = some event) :
      Source e (.event event)
  | closing (i : TaskId) (td : Teardown) (hs : e.stage = .closing i td ∨ e.stage = .ended i td) :
      Source e (.closing i td)
  | silence (i : TaskId) (td : Teardown) (hs : e.stage = .closing i td ∨ e.stage = .ended i td) :
      Source e (.event .heartbeatTimeout)
  | closed (i : TaskId) (td : Teardown) (hs : e.stage = .ended i td) :
      Source e (.closed td.generation td.cause)
  | told (i : TaskId) (td : Teardown) (hs : e.stage = .ended i td) :
      Source e (.event (.disconnected td.cause))
  | disconnect (i : TaskId) (td : Teardown) (hs : e.stage = .ended i td) :
      Source e (.disconnect td.cause)

theorem source {o : Observation} (h : o ∈ e.observations) : Source e o := by
  rcases mem_observations h with rfl | rfl | ⟨f, hf, h⟩ | h
  · exact .opened
  · exact .connected
  · rcases mem_tidings h with rfl | ⟨event, he, rfl⟩
    · exact .dispatched f hf
    · exact .news f event hf he
  · rcases mem_stage h with ⟨i, td, hs, h⟩ | ⟨i, td, hs, h⟩
    · rcases mem_opening h with rfl | rfl
      · exact .closing i td hs
      · exact .silence i td hs
    · rcases mem_ending h with rfl | rfl | rfl
      · exact .closed i td hs
      · exact .told i td hs
      · exact .disconnect i td hs

/-- The teardown of an era took effect in it. -/
theorem closing_mem {i : TaskId} {td : Teardown}
    (h : e.stage = .closing i td ∨ e.stage = .ended i td) : .closing i td ∈ e.observations := by
  refine List.mem_append_right _ ?_
  rcases h with h | h
  · rw [h]
    exact .head _
  · rw [h]
    exact .head _

theorem of_opened {g : Generation} {link : LinkId} (h : .opened g link ∈ e.observations) :
    e.generation = g ∧ e.link = link := by
  cases source h with
  | opened => exact ⟨rfl, rfl⟩

theorem of_closing {i : TaskId} {td : Teardown} (h : .closing i td ∈ e.observations) :
    e.stage = .closing i td ∨ e.stage = .ended i td := by
  cases source h with
  | closing _ _ hs => exact hs

theorem of_closed {g : Generation} {c : Cause} (h : .closed g c ∈ e.observations) :
    ∃ i td, e.stage = .ended i td ∧ td.generation = g ∧ td.cause = c := by
  cases source h with
  | closed i td hs => exact ⟨i, td, hs, rfl, rfl⟩

theorem of_dispatched {link : LinkId} {f : Bytes} (h : .dispatched link f ∈ e.observations) :
    e.link = link ∧ f ∈ e.frames := by
  cases source h with
  | dispatched _ hf => exact ⟨rfl, hf⟩

section
variable {tr : List Observation} {es : List Era} (h : affairs tr = es.flatMap Era.observations)
  {o : Observation}
include h

/-- What is observed of links is observed in an era. -/
theorem exists_of_mem (ho : o ∈ tr) (ha : o.isAffair = true) : ∃ e ∈ es, o ∈ e.observations := by
  have affair : o ∈ affairs tr := List.mem_filter.mpr ⟨ho, ha⟩
  rw [h] at affair
  exact List.mem_flatMap.mp affair

theorem mem_of_mem (he : e ∈ es) (ho : o ∈ e.observations) : o ∈ tr := by
  have affair : o ∈ affairs tr := by
    rw [h]
    exact List.mem_flatMap.mpr ⟨e, he, ho⟩
  exact (List.mem_filter.mp affair).1

end

end Era

/-- What is not caused by a frame. -/
def Observation.isTurn : Observation → Bool
  | .opened _ _ | .closing _ _ | .closed _ _ | .disconnect _ => true
  | .event .connected | .event .heartbeatTimeout | .event (.disconnected _) => true
  | _ => false

theorem tidings_turns (link : LinkId) (frame : Bytes) :
    (tidings link frame).filter Observation.isTurn = [] := by
  unfold tidings eventIn
  split
  · rfl
  · split <;> rfl

theorem opening_turns (i : TaskId) (td : Teardown) :
    (td.opening i).filter Observation.isTurn = td.opening i := by
  unfold Teardown.opening
  split <;> rfl

theorem ending_turns (td : Teardown) : td.ending.filter Observation.isTurn = td.ending := by
  unfold Teardown.ending
  split <;> split <;> rfl

/-- Apart from its frames, an era opens, connects, and is torn down as its stage says. -/
theorem Era.turns (e : Era) : e.observations.filter Observation.isTurn =
    [.opened e.generation e.link, .event .connected] ++ e.stage.observations := by
  have frames : (e.frames.flatMap (tidings e.link)).filter Observation.isTurn = [] := by
    induction e.frames with
    | nil => rfl
    | cons f fs ih => rw [List.flatMap_cons, List.filter_append, tidings_turns, ih, List.nil_append]
  have stage : e.stage.observations.filter Observation.isTurn = e.stage.observations := by
    cases e.stage with
    | «open» => rfl
    | closing i td => exact opening_turns i td
    | ended i td =>
      rw [Era.Stage.observations, List.filter_append, opening_turns, ending_turns]
  rw [observations, List.filter_append, List.filter_append, frames, stage, List.append_nil]
  rfl

end GameLink.Client

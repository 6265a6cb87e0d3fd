import GameLink.Proofs.Client.Prompting
import GameLink.Proofs.Client.Severed

/-! # Every frame is relayed

The frames of a link are dispatched in the order in which the server sent them,
none before its turn and none after the teardown of the link has taken effect,
and each one is heard of or settles a request (`frames_relayed`).
-/
namespace GameLink.Client

/-! ## The frames of an era -/

/-- An event that a frame causes. -/
def Observation.news? : Observation → Option Event
  | .event (.push e) => some (.push e)
  | .event (.undecodable frame) => some (.undecodable frame)
  | .event (.serverError f) => some (.serverError f)
  | _ => none

def news (tr : List Observation) : List Event := tr.filterMap Observation.news?

@[simp] theorem news_append (a b : List Observation) : news (a ++ b) = news a ++ news b :=
  List.filterMap_append

theorem news_of_eventIn {frame : Bytes} {e : Event} (h : eventIn frame = some e) :
    (Observation.event e).news? = some e := by
  unfold eventIn at h
  split at h
  · cases h
    rfl
  · split at h
    · cases h
    · cases h
      rfl
    · cases h
      rfl

theorem news_tidings (link : LinkId) (frame : Bytes) :
    news (tidings link frame) = (eventIn frame).toList := by
  unfold tidings
  cases h : eventIn frame with
  | none => rfl
  | some e =>
    show [Observation.event e].filterMap Observation.news? = [e]
    rw [List.filterMap_cons, news_of_eventIn h]
    rfl

theorem news_flatMap_tidings (link : LinkId) (fs : List Bytes) :
    news (fs.flatMap (tidings link)) = fs.filterMap eventIn := by
  induction fs with
  | nil => rfl
  | cons f fs ih =>
    rw [List.flatMap_cons, news_append, news_tidings, ih, List.filterMap_cons]
    cases eventIn f <;> rfl

theorem dispatches_tidings (link l : LinkId) (frame : Bytes) :
    dispatches link (tidings l frame) = if l = link then [frame] else [] := by
  unfold tidings
  cases eventIn frame <;> by_cases h : l = link <;> simp [dispatches, Observation.frame?, h]

theorem dispatches_flatMap_tidings (link l : LinkId) (fs : List Bytes) :
    dispatches link (fs.flatMap (tidings l)) = if l = link then fs else [] := by
  induction fs with
  | nil => simp [dispatches]
  | cons f fs ih =>
    rw [List.flatMap_cons, dispatches_append, dispatches_tidings, ih]
    split <;> rfl

theorem dispatches_affairs (link : LinkId) (tr : List Observation) :
    dispatches link (affairs tr) = dispatches link tr := by
  rw [dispatches, dispatches, affairs, List.filterMap_filter]
  congr 1
  funext o
  cases o <;> rfl

/-- A teardown is not caused by a frame, and does not dispatch any. -/
theorem Era.quiet_stage (s : Era.Stage) (link : LinkId) :
    dispatches link s.observations = [] ∧ news s.observations = [] := by
  have opening : ∀ i (td : Teardown), dispatches link (td.opening i) = [] ∧
      news (td.opening i) = [] := by
    intro i td
    unfold Teardown.opening
    split <;> exact ⟨rfl, rfl⟩
  have ending : ∀ td : Teardown, dispatches link td.ending = [] ∧ news td.ending = [] := by
    intro td
    unfold Teardown.ending
    split <;> split <;> exact ⟨rfl, rfl⟩
  cases s with
  | «open» => exact ⟨rfl, rfl⟩
  | closing i td => exact opening i td
  | ended i td =>
    rw [Era.Stage.observations, dispatches_append, news_append, (opening i td).1, (opening i td).2,
      (ending td).1, (ending td).2]
    exact ⟨rfl, rfl⟩

theorem Era.dispatches_observations (e : Era) (link : LinkId) :
    dispatches link e.observations = if e.link = link then e.frames else [] := by
  rw [Era.observations, dispatches_append, dispatches_append, dispatches_flatMap_tidings,
    (Era.quiet_stage e.stage link).1, List.append_nil]
  rfl

theorem Era.dispatches_other {es : List Era} {link : LinkId} (h : ∀ p ∈ es, p.link ≠ link) :
    dispatches link (es.flatMap Era.observations) = [] := by
  induction es with
  | nil => rfl
  | cons e es ih =>
    rw [List.flatMap_cons, dispatches_append, e.dispatches_observations, if_neg (h e (.head _)),
      ih fun p hp => h p (.tail _ hp)]
    rfl

theorem Era.news_observations (e : Era) : news e.observations = e.frames.filterMap eventIn := by
  rw [Era.observations, news_append, news_append, news_flatMap_tidings,
    (Era.quiet_stage e.stage e.link).2, List.append_nil]
  rfl

/-! ## After a teardown has taken effect -/

/-- Where an element of a concatenation stands. -/
theorem exists_of_flatMap_eq {α β : Type} {f : α → List β} {xs : List α} {a b : List β} {y : β}
    (h : xs.flatMap f = a ++ y :: b) : ∃ before x after a' b',
      xs = before ++ x :: after ∧ f x = a' ++ y :: b' ∧ b = b' ++ after.flatMap f := by
  induction xs generalizing a with
  | nil => simp at h
  | cons x xs ih =>
    rw [List.flatMap_cons] at h
    rcases split_append h with ⟨b', hx⟩ | ⟨a', _, hxs⟩
    · refine ⟨[], x, xs, a, b', rfl, hx, ?_⟩
      rw [hx, List.append_assoc] at h
      exact (List.cons.inj (List.append_cancel_left h)).2.symm
    · obtain ⟨before, x', after, a'', b', rfl, hx, hb⟩ := ih hxs
      exact ⟨x :: before, x', after, a'', b', rfl, hx, hb⟩

/-- In an era nothing is dispatched after its teardown has taken effect. -/
theorem Era.silent_after {e : Era} {a b : List Observation} {i : TaskId} {td : Teardown}
    (h : e.observations = a ++ .closing i td :: b) (link : LinkId) : dispatches link b = [] := by
  -- the frames come first, and the teardown is observed once
  have first : ∀ {i td}, .closing i td ∉ [.opened e.generation e.link, .event .connected] ++
      e.frames.flatMap (tidings e.link) := by
    intro i td hm
    rcases List.mem_append.mp hm with hm | hm
    · simp at hm
    · obtain ⟨f, _, hm⟩ := List.mem_flatMap.mp hm
      rcases Era.mem_tidings hm with h | ⟨_, _, h⟩ <;> cases h
  unfold Era.observations at h
  rcases split_append h with ⟨b', hx⟩ | ⟨a', _, hstage⟩
  · exact absurd (hx ▸ List.mem_append_right _ (.head _)) first
  · have quiet := (Era.quiet_stage e.stage link).1
    rw [hstage, dispatches_append] at quiet
    exact (List.append_eq_nil_iff.mp quiet).2

namespace Machine

/-- What becomes of the frames that the server sends. -/
structure Relayed (m : Machine) : Prop where
  /-- The frames that were dispatched are the first that were sent, in order. -/
  inOrder : ∀ link, dispatches link m.trace <+: sends link m.trace
  /-- The events that frames cause are those of the frames of the era of their link, in order. -/
  heard : ∀ g link, .opened g link ∈ m.trace → ∃ past e later,
    affairs m.trace = (past ++ e :: later).flatMap Era.observations ∧
      e.generation = g ∧ e.link = link ∧ e.frames = dispatches link m.trace ∧
      news e.observations = (dispatches link m.trace).filterMap eventIn ∧
      ∀ p ∈ past ++ later, dispatches link p.observations = []
  unopened : ∀ link, (∀ g, .opened g link ∉ m.trace) → dispatches link m.trace = []
  /-- A frame that answers a request which nothing has settled settles it then. -/
  settled : ∀ a link frame b i cid outcome, m.trace = a ++ .dispatched link frame :: b →
    .issued i cid ∈ a → settlement cid a = none → replyIn frame = some (cid, outcome) →
    settlement cid m.trace = some (.reply link frame outcome)
  /-- What a request finds in its slot is what settled it. -/
  slots : ∀ i t k, m.task? i = some t → t.ticket? = some k →
    m.registry.poll k.cid = (settlement k.cid m.trace).map Settlement.outcome
  /-- Once the teardown of a link has taken effect, none of its frames is dispatched. -/
  silenced : ∀ a i td b link, m.trace = a ++ .closing i td :: b →
    .opened td.generation link ∈ m.trace → dispatches link b = []
  /-- A reader that can read a frame reads it and goes on, whatever is in it. -/
  passed : ∀ i t g link k frame rest, m.task? i = some t → t.role = .reader g link →
    t.position = .reading → m.isCancelled g = false → m.links[link]? = some k →
    k.toClient = .data frame :: rest →
    m.Shows (.dispatched link frame :: Client.heard m frame)
      { m with
        links := m.links.modify link (fun _ => { k with toClient := rest })
        registry := hear frame m.registry }
      (m.after (.work (.task i)))
  /-- A link that failed is torn down when every frame sent before has been dispatched. -/
  failed : ∀ a i td b link f, m.trace = a ++ .closing i td :: b → td.cause = .error f →
    .opened td.generation link ∈ m.trace → ∃ reason sent rest, f = .transport reason ∧
      pushes link a = sent ++ .fail reason :: rest ∧
      dispatches link a = sent.filterMap ServerFrame.data?
  /-- A link that was closed is torn down when every frame that was ever sent has been. -/
  closed : ∀ a i td b link, m.trace = a ++ .closing i td :: b → td.cause = .remote →
    .opened td.generation link ∈ m.trace → dispatches link a = sends link m.trace ∧
      ∃ k, m.links[link]? = some k ∧ k.serverOpen = false
  /-- An open link on which no task can go on has nothing left to dispatch. -/
  caughtUp : m.state = .open → m.held = true →
    (∀ i t, m.task? i = some t → m.taskEnabled t = false) →
    ∀ link, .opened m.generation link ∈ m.trace → dispatches link m.trace = sends link m.trace

section
variable {may : Move → Prop} {m : Machine} (hm : m.Reachable may)
include hm

theorem Reachable.link_eq {g : Generation} {k l : LinkId} (hk : .opened g k ∈ m.trace)
    (hl : .opened g l ∈ m.trace) : k = l := by
  have tokens := hm.sound.tokens
  refine tokens.link_eq (g := g) ?_ ?_
  · rw [m.openings_life]; exact mem_openings.mpr hk
  · rw [m.openings_life]; exact mem_openings.mpr hl

theorem Reachable.inOrder (link : LinkId) : dispatches link m.trace <+: sends link m.trace := by
  cases hk : m.links[link]? with
  | some k =>
    obtain ⟨past, rest, hpush, hread, _⟩ := hm.inward hk
    rw [sends, hpush, hread, List.filterMap_append]
    exact List.prefix_append _ _
  | none =>
    rw [← dispatches_mail, hm.mail_absent hk]
    exact List.nil_prefix

theorem Reachable.silenced {a b : List Observation} {i : TaskId} {td : Teardown} {link : LinkId}
    (h : m.trace = a ++ .closing i td :: b) (ho : .opened td.generation link ∈ m.trace) :
    dispatches link b = [] := by
  obtain ⟨es, haffairs, hopenings, hstaged, _⟩ := hm.eras
  have hsplit : es.flatMap Era.observations = affairs a ++ .closing i td :: affairs b := by
    rw [← haffairs, h, affairs_append]
    rfl
  obtain ⟨before, e, after, a', b', rfl, he, hb⟩ := exists_of_flatMap_eq hsplit
  have hgen : td.generation = e.generation :=
    hstaged e (List.mem_append_right _ (.head _)) i td
      (Era.of_closing (he ▸ List.mem_append_right _ (.head _)))
  have hopened : .opened e.generation e.link ∈ m.trace := by
    refine mem_openings.mp (hopenings ▸ List.mem_map.mpr ⟨e, ?_, rfl⟩)
    exact List.mem_append_right _ (.head _)
  obtain rfl : link = e.link := hm.link_eq ho (hgen ▸ hopened)
  have links := hm.links_nodup hopenings
  rw [List.map_append, List.nodup_append, List.map_cons, List.nodup_cons] at links
  have later : ∀ p ∈ after, p.link ≠ e.link := fun p hp hl =>
    links.2.1.1 (hl ▸ List.mem_map_of_mem hp)
  rw [← dispatches_affairs, hb, dispatches_append, e.silent_after he, Era.dispatches_other later]
  rfl

theorem Reachable.heard {g : Generation} {link : LinkId} (h : .opened g link ∈ m.trace) :
    ∃ past e later, affairs m.trace = (past ++ e :: later).flatMap Era.observations ∧
      e.generation = g ∧ e.link = link ∧ e.frames = dispatches link m.trace ∧
      news e.observations = (dispatches link m.trace).filterMap eventIn ∧
      ∀ p ∈ past ++ later, dispatches link p.observations = [] := by
  obtain ⟨past, e, later, haffairs, rfl, rfl, hpast, hlater, _, _⟩ := hm.exists_era h
  have before := Era.dispatches_other fun p hp => (hpast p hp).2
  have after := Era.dispatches_other fun p hp => (hlater p hp).2
  have frames : dispatches e.link m.trace = e.frames := by
    rw [← dispatches_affairs, haffairs, List.flatMap_append, List.flatMap_cons, dispatches_append,
      dispatches_append, before, after, e.dispatches_observations, if_pos rfl, List.append_nil,
      List.nil_append]
  refine ⟨past, e, later, haffairs, rfl, rfl, frames.symm, frames ▸ e.news_observations, ?_⟩
  intro p hp
  rw [p.dispatches_observations, if_neg]
  rcases List.mem_append.mp hp with hp | hp
  · exact (hpast p hp).2
  · exact (hlater p hp).2

theorem Reachable.unopened {link : LinkId} (h : ∀ g, .opened g link ∉ m.trace) :
    dispatches link m.trace = [] := by
  obtain ⟨es, haffairs, hopenings, _, _⟩ := hm.eras
  rw [← dispatches_affairs, haffairs]
  refine Era.dispatches_other fun p hp hl => h p.generation ?_
  exact mem_openings.mp (hopenings ▸ List.mem_map.mpr ⟨p, hp, by rw [hl]⟩)

theorem Reachable.poll_eq {i : TaskId} {t : Task} {k : Ticket} (ht : m.task? i = some t)
    (hk : t.ticket? = some k) :
    m.registry.poll k.cid = (settlement k.cid m.trace).map Settlement.outcome := by
  rw [← settlement_deals]
  cases hm.accounts.held.settled i k.cid (waits_of_ticket hm.fit ht hk) with
  | pending hslot hdeliv hst =>
    have unsettled : settlement k.cid (deals m.trace) = none := hst
    rw [unsettled]
    exact Registry.poll_of_slot hslot hdeliv
  | settled s hslot hdeliv hst =>
    have settled : settlement k.cid (deals m.trace) = some s := hst
    rw [settled]
    exact Registry.poll_of_delivered hdeliv

theorem Reachable.passed {t : Task} {g : Generation} {link : LinkId} {k : Link} {frame : Bytes}
    {rest : List ServerFrame} (ht : m.task? t.id = some t) (hr : t.role = .reader g link)
    (hp : t.position = .reading) (hc : m.isCancelled g = false) (hk : m.links[link]? = some k)
    (hq : k.toClient = .data frame :: rest) :
    m.Shows (.dispatched link frame :: Client.heard m frame)
      { m with
        links := m.links.modify link (fun _ => { k with toClient := rest })
        registry := hear frame m.registry }
      (m.after (.work (.task t.id))) := by
  have ha := hm.fit.not_aborted ht (by rw [Task.isOperation, hr])
  have hrun : m.after (.work (.task t.id)) = m.runReading t g link := by
    simp only [after, run, ht, runTask, ha, hr, hp]
    rfl
  have hreceive : k.receive = ({ k with toClient := rest }, .frame frame) := by
    rw [Link.receive, hq]
  obtain ⟨handler, history, heq, ho⟩ := dispatch_eq frame
    ((m.updateLink link (fun _ => { k with toClient := rest })).record (.dispatched link frame))
  rw [hrun, runReading, hc, hk]
  simp only [Bool.false_eq_true, ↓reduceIte, hreceive]
  rw [heq]
  refine ⟨⟨handler, history, rfl⟩, ?_⟩
  have same : Client.heard ((m.updateLink link (fun _ => { k with toClient := rest })).record
      (.dispatched link frame)) frame = Client.heard m frame := rfl
  rw [ho, same]
  simp

/-- The one reader of an open link reads: nothing is torn down. -/
theorem Reachable.reading (ho : m.state = .open) (hh : m.held = true) {link : LinkId}
    (hl : .opened m.generation link ∈ m.trace) : ∃ t, m.task? t.id = some t ∧
      t.role = .reader m.generation link ∧ (t.position = .start ∨ t.position = .reading) := by
  obtain ⟨_, hcancelled, link', reader, _, _, hopened, hserves⟩ := hm.serving ho hh
  obtain rfl := hm.link_eq hopened hl
  have hrole := (((hserves reader m.generation).1 link').mpr ⟨rfl, rfl, rfl⟩).1
  obtain ⟨t, ht, hr⟩ := Option.map_eq_some_iff.mp hrole
  obtain rfl := findTask_id ht
  refine ⟨t, ht, hr, ?_⟩
  have still : (m.life m.trace).state ≠ .closing := by
    show m.state ≠ .closing
    rw [ho]
    decide
  have untorn : m.view tears t.id = none := hm.sound.posts.untorn still t.id
  have torn : m.view tears t.id = tears t.role t.position := view_of ht
  have hf := hm.fit.fits _ _ ht
  rw [hr] at hf
  generalize t.position = p at hf torn
  cases hf with
  | start => exact .inl rfl
  | reading => exact .inr rfl
  | remote => cases untorn.symm.trans torn
  | failed => cases untorn.symm.trans torn

theorem Reachable.caughtUp (ho : m.state = .open) (hh : m.held = true)
    (hq : ∀ i t, m.task? i = some t → m.taskEnabled t = false) {link : LinkId}
    (hl : .opened m.generation link ∈ m.trace) :
    dispatches link m.trace = sends link m.trace := by
  obtain ⟨t, ht, hr, hp⟩ := hm.reading ho hh hl
  have stuck := hq _ _ ht
  rcases hp with hp | hp
  · simp [taskEnabled, hr, hp] at stuck
  · obtain ⟨k, hk⟩ : ∃ k, m.links[link]? = some k :=
      ⟨_, List.getElem?_eq_getElem (hm.fit.linked _ _ _ _ ht hr)⟩
    have empty : k.toClient = [] := by
      simp only [taskEnabled, hr, hp, readable, hk, Bool.or_eq_false_iff] at stuck
      simpa using stuck.2.2.1
    exact (hm.inward hk).exhausted (hm.listening t.id link k (attends_of_task ht (.inr ⟨_, hr⟩)) hk)
      empty

end

theorem frames_relayed {may : Move → Prop} {m : Machine} (hm : m.Reachable may) : Relayed m where
  inOrder := hm.inOrder
  heard _ _ h := hm.heard h
  unopened _ h := hm.unopened h
  settled := by
    intro a link frame b i cid outcome h hi hn hr
    rw [h, settlement_append hi, hn, List.findSome?_cons, settles_dispatched hr]
    rfl
  slots _ _ _ ht hk := hm.poll_eq ht hk
  silenced _ _ _ _ _ h ho := hm.silenced h ho
  passed := by
    intro i t g link k frame rest ht hr hp hc hk hq
    obtain rfl := findTask_id ht
    exact hm.passed ht hr hp hc hk hq
  failed := by
    intro a i td b link f h hc ho
    obtain ⟨link', reason, sent, rest, hopened, hf, hpush, hread⟩ :=
      (hm.prompting a i td b h).1 f hc
    obtain rfl := hm.link_eq ho (h ▸ List.mem_append_left _ hopened)
    exact ⟨reason, sent, rest, hf, hpush, hread⟩
  closed := by
    intro a i td b link h hc ho
    obtain ⟨link', k, hopened, hread, hrest, hk, hs⟩ := (hm.prompting a i td b h).2 hc
    obtain rfl := hm.link_eq ho (h ▸ List.mem_append_left _ hopened)
    refine ⟨?_, k, hk, hs⟩
    have none : sends link (.closing i td :: b) = [] := by
      show (pushes link b).filterMap ServerFrame.data? = []
      rw [hrest]
      rfl
    rw [h, sends_append, none, List.append_nil, hread]
  caughtUp ho hh hq _ hl := hm.caughtUp ho hh hq hl

theorem relayed_reopened :
    openings (fresh.replay reopened).trace = [(1, 0), (2, 1)] ∧
      dispatches 0 (fresh.replay reopened).trace = [[]] ∧ Relayed (fresh.replay reopened) :=
  ⟨rfl, rfl, frames_relayed (reachable_replay rfl)⟩

end Machine

end GameLink.Client

import GameLink.Proofs.Client.Lodging
import GameLink.Proofs.Client.Replay

/-! # The order of the lifecycle

State, generation, cancellation, writer, background tasks and teardowns of a
client in any state that a run leads to, and what one more move can do to the
state (`lifecycle_orderly`).
-/
namespace GameLink.Client

/-! ## What a move does to the state -/

/-- The moves of the lifecycle, with the generation before and after. -/
inductive Advance : Lifecycle → Generation → Lifecycle → Generation → Prop
  | stay (s : Lifecycle) (g : Generation) : Advance s g s g
  | connect (g : Generation) : Advance .idle g .connecting (g + 1)
  | install (g : Generation) : Advance .connecting g .open g
  | abandon (g : Generation) : Advance .connecting g .idle g
  | backOut (g : Generation) : Advance .connecting g .idle (g + 1)
  | close (g : Generation) : Advance .open g .closing g
  | rest (g : Generation) : Advance .closing g .idle g

namespace Life

structure Sound (c : Life) : Prop where
  tokens : c.Tokens
  posts : c.Posts
  service : c.Service

theorem Sound.keep {c d : Life} (hc : c.Sound) (h : Step c d) : d.Sound :=
  ⟨hc.tokens.keep hc.posts.tearing_state h, hc.posts.keep h,
    hc.service.keep hc.tokens hc.posts.tearing_state h⟩

section
variable {c : Life} (h : c.New)
include h

theorem New.unopened {g : Generation} {link : LinkId} : (g, link) ∉ openings c.affairs := by
  rw [h.affairs]
  exact List.not_mem_nil

theorem New.not_open : c.state ≠ .open := by
  rw [h.state]
  decide

theorem New.tokens : c.Tokens where
  stored g hg := by cases h.cancel.symm.trans hg
  kept ho := absurd ho h.not_open
  past _ _ hm := absurd hm h.unopened
  accounted _ _ hm := absurd hm h.unopened
  spent g hg := by
    rw [h.cancelled] at hg
    cases hg
  increasing := by
    rw [h.affairs]
    exact .nil

theorem New.posts : c.Posts where
  vacant _ := h.writer
  written l hl := by cases h.writer.symm.trans hl
  equipped ho := absurd ho h.not_open
  tearing i td stage hi := by
    rw [h.tears] at hi
    cases hi
  alone i j a b hi := by
    rw [h.tears] at hi
    cases hi

theorem New.service : c.Service where
  serving i g l hi := by
    rw [h.serves] at hi
    cases hi
  one i j g a b hi := by
    rw [h.serves] at hi
    cases hi
  alive g hg := by cases h.cancel.symm.trans hg

theorem New.sound : c.Sound := ⟨h.tokens, h.posts, h.service⟩

end

theorem sound_invariant : Invariant (fun tr m => Fit m ∧ (m.life tr).Sound) :=
  Life.invariant (fun _ h => h.sound) (fun _ _ h hc => hc.keep h)

theorem Step.advance {c d : Life} (ht : c.Tearing) (h : Step c d) :
    Advance c.state c.generation d.state d.generation := by
  cases h with
  | begun hs =>
    rw [hs]
    exact .connect _
  | backedOut hs =>
    rw [hs]
    exact .backOut _
  | abandoned hs =>
    rw [hs]
    exact .abandon _
  | installed link i j hs hi hj hij =>
    rw [hs]
    exact .install _
  | began i td hs hg hi =>
    rw [hs]
    exact .close _
  | ended i td stage hi hw =>
    rw [ht i td stage hi]
    exact .rest _
  | _ => exact .stay _ _

end Life

/-- A course with at most one move of the lifecycle makes one at most. -/
theorem Course.advance {a b : Machine} {k : Nat} (h : Course Change a k b)
    (ha : Fit a ∧ (a.life a.trace).Sound) :
    (Fit b ∧ (b.life b.trace).Sound) ∧
      (k = 0 → b.state = a.state ∧ b.generation = a.generation) ∧
      (k = 1 → Advance a.state a.generation b.state b.generation) := by
  have inv := Life.sound_invariant
  induction h with
  | refl => exact ⟨ha, fun _ => ⟨rfl, rfl⟩, fun _ => .stay _ _⟩
  | calm _ h hs hg ih =>
    obtain ⟨hb, still, one⟩ := ih
    refine ⟨h.keeps inv.keep inv.quiet hb, ?_, ?_⟩
    · intro hk
      obtain ⟨hs', hg'⟩ := still hk
      exact ⟨hs.trans hs', hg.trans hg'⟩
    · intro hk
      rw [hs, hg]
      exact one hk
  | @leap _ b _ _ h ih =>
    obtain ⟨hb, still, _⟩ := ih
    refine ⟨h.keeps inv.keep inv.quiet hb, fun hk => by omega, ?_⟩
    intro hk
    obtain ⟨hs, hg⟩ := still (by omega)
    obtain ⟨os, n, change, shows⟩ := h
    have step : Life.Step (b.life b.trace) _ := change.life hb.1
    have advance := step.advance hb.2.posts.tearing_state
    obtain ⟨handler, history, rfl⟩ := shows.same
    rw [← hs, ← hg]
    exact advance

namespace Machine

variable {may : Move → Prop} {m : Machine}

theorem Reachable.any (hm : m.Reachable may) : m.Reachable (fun _ => True) := by
  obtain ⟨start, initial, moves, run, _⟩ := hm
  exact ⟨start, initial, moves, run, fun _ _ => trivial⟩

theorem Reachable.fit (hm : m.Reachable may) : Fit m := fit_invariant.reached hm

theorem Reachable.sound (hm : m.Reachable may) : (m.life m.trace).Sound :=
  (Life.sound_invariant.reached hm).2

theorem Reachable.advance (hm : m.Reachable may) {v : Move} (h : m.allows v = true) :
    Advance m.state m.generation (m.after v).state (m.after v).generation :=
  ((course_after hm.fit h).advance ⟨hm.fit, hm.sound⟩).2.2 rfl

/-! ## Where everything is -/

def role? (m : Machine) (i : TaskId) : Option Role := (m.task? i).map Task.role

theorem serves_of_role {i : TaskId} {r : Role} (h : m.role? i = some r) :
    m.view serves i = serves r .start := by
  obtain ⟨t, ht, rfl⟩ := Option.map_eq_some_iff.mp h
  have ht : findTask m.tasks i = some t := ht
  rw [view, Client.view, ht]
  exact serves_position _ _ _

theorem role_of_serves {i : TaskId} {g : Generation} {l : Option LinkId}
    (h : m.view serves i = some (g, l)) :
    (l = none ∧ m.role? i = some (.heartbeat g)) ∨
      ∃ link, l = some link ∧ m.role? i = some (.reader g link) := by
  obtain ⟨t, ht, hs⟩ := view_eq_some.mp h
  have hrole : m.role? i = some t.role := congrArg (Option.map Task.role) ht
  cases hr : t.role with
  | operation op =>
    rw [hr] at hs
    cases hs
  | reader g' link =>
    rw [hr] at hs hrole
    cases hs
    exact .inr ⟨link, rfl, hrole⟩
  | heartbeat g' =>
    rw [hr] at hs hrole
    cases hs
    exact .inl ⟨rfl, hrole⟩

/-- What holds of state, generation, cancellation, writer and links, and what a move can change. -/
structure Orderly (m : Machine) : Prop where
  advance : ∀ v, m.allows v = true →
    Advance m.state m.generation (m.after v).state (m.after v).generation
  /-- No two links that were opened share a generation, and generations grow. -/
  increasing : (openings m.trace).Pairwise (fun p q => p.1 < q.1)
  /-- Without a link there is no writer and no stored cancellation, and every background task that
  is left is cancelled. -/
  resting : m.state = .idle ∨ m.state = .connecting →
    m.writer = none ∧ m.cancel = none ∧
      ∀ i g, (m.role? i = some (.heartbeat g) ∨ ∃ link, m.role? i = some (.reader g link)) →
        m.isCancelled g = true
  /-- An open client that the application holds writes to the link of its generation, and of its
  background tasks one reader of that link and one heartbeat are not cancelled. -/
  serving : m.state = .open → m.held = true →
    m.cancel = some m.generation ∧ m.isCancelled m.generation = false ∧
      ∃ link reader heartbeat, m.writer = some link ∧ .opened m.generation link ∈ m.trace ∧
        ∀ i g,
          (∀ l, m.role? i = some (.reader g l) ∧ m.isCancelled g = false ↔
            i = reader ∧ g = m.generation ∧ l = link) ∧
          (m.role? i = some (.heartbeat g) ∧ m.isCancelled g = false ↔
            i = heartbeat ∧ g = m.generation)
  /-- At most one task is tearing a link down. -/
  alone : ∀ i j t u td td' stage stage', m.task? i = some t → m.task? j = some u →
    t.position = .tearing td stage → u.position = .tearing td' stage' → i = j
  /-- An operation that has returned is gone. -/
  returned : ∀ i r, .finished i r ∈ m.trace → m.task? i = none
  /-- A link that was dialed and never installed has its writer closed once its task is gone. -/
  discarded : ∀ i link url, .dialed i link url ∈ m.trace → m.task? i = none →
    (∀ g, .opened g link ∉ m.trace) → ∃ l, m.links[link]? = some l ∧ l.writerOpen = false

theorem isCancelled_eq (m : Machine) (g : Generation) :
    m.isCancelled g = true ↔ g ∈ m.cancelled := by
  rw [isCancelled, List.contains_iff_mem]

theorem openings_life (m : Machine) (tr : List Observation) :
    openings (m.life tr).affairs = openings tr := openings_affairs _

theorem Reachable.cancelled_of_serves (hm : m.Reachable may) {i : TaskId} {g : Generation}
    {l : Option LinkId} (h : m.view serves i = some (g, l)) :
    m.cancel = some g ∨ m.isCancelled g = true := by
  have hs := hm.sound
  obtain ⟨link, hl, _⟩ := hs.service.serving i g l h
  rcases hs.tokens.accounted g link hl with hc | hc
  · exact .inl hc
  · exact .inr ((m.isCancelled_eq g).mpr hc)

theorem Reachable.resting (hm : m.Reachable may) (hr : m.state = .idle ∨ m.state = .connecting) :
    m.writer = none ∧ m.cancel = none ∧
      ∀ i g, (m.role? i = some (.heartbeat g) ∨ ∃ link, m.role? i = some (.reader g link)) →
        m.isCancelled g = true := by
  have hs := hm.sound
  have closed : m.state ≠ .open := by
    rcases hr with h | h
    · rw [h]
      decide
    · rw [h]
      decide
  have hcancel : m.cancel = none := hs.tokens.cancel_none closed
  refine ⟨hs.posts.vacant hr, hcancel, ?_⟩
  intro i g h
  have serving : ∃ l, m.view serves i = some (g, l) := by
    rcases h with h | ⟨link, h⟩
    · exact ⟨none, serves_of_role h⟩
    · exact ⟨some link, serves_of_role h⟩
  obtain ⟨l, hl⟩ := serving
  rcases hm.cancelled_of_serves hl with hc | hc
  · cases hcancel.symm.trans hc
  · exact hc

theorem Reachable.serving (hm : m.Reachable may) (ho : m.state = .open) (hh : m.held = true) :
    m.cancel = some m.generation ∧ m.isCancelled m.generation = false ∧
      ∃ link reader heartbeat, m.writer = some link ∧ .opened m.generation link ∈ m.trace ∧
        ∀ i g,
          (∀ l, m.role? i = some (.reader g l) ∧ m.isCancelled g = false ↔
            i = reader ∧ g = m.generation ∧ l = link) ∧
          (m.role? i = some (.heartbeat g) ∧ m.isCancelled g = false ↔
            i = heartbeat ∧ g = m.generation) := by
  have hs := hm.sound
  have hcancel : m.cancel = some m.generation := hs.tokens.kept ho hh
  have hnot : m.isCancelled m.generation = false := by
    rw [Bool.eq_false_iff, ne_eq, isCancelled_eq]
    exact (hs.tokens.stored _ hcancel).2.2.1
  obtain ⟨link, hw⟩ := hs.posts.equipped ho hh
  have hopened := hs.posts.written link hw
  obtain ⟨reader, heartbeat, link', hreader, hheartbeat⟩ := hs.service.alive _ hcancel
  -- the reader reads the link that is written to, since a generation has one link
  obtain ⟨k, hk, hkind⟩ := hs.service.serving _ _ _ hreader
  obtain rfl : link' = link := by
    rcases hkind with h | h
    · cases h
    · cases h
      exact hs.tokens.link_eq hk hopened
  -- a task that is not cancelled belongs to the stored generation
  have current : ∀ {i g l}, m.view serves i = some (g, l) → m.isCancelled g = false →
      g = m.generation := by
    intro i g l h hc
    rcases hm.cancelled_of_serves h with h | h
    · exact Option.some.inj (h.symm.trans hcancel)
    · rw [hc] at h
      cases h
  have reads : m.role? reader = some (.reader m.generation link') := by
    rcases role_of_serves hreader with ⟨h, _⟩ | ⟨_, h, hr⟩
    · cases h
    · cases h
      exact hr
  have beats : m.role? heartbeat = some (.heartbeat m.generation) := by
    rcases role_of_serves hheartbeat with ⟨_, hr⟩ | ⟨_, h, _⟩
    · exact hr
    · cases h
  refine ⟨hcancel, hnot, link', reader, heartbeat, hw, ?_, ?_⟩
  · exact mem_openings.mp (m.openings_life m.trace ▸ hopened)
  · intro i g
    refine ⟨?_, ?_, ?_⟩
    · intro l
      constructor
      · rintro ⟨hr, hc⟩
        have hi := serves_of_role hr
        obtain rfl := current hi hc
        obtain rfl := hs.service.one i reader _ _ _ hi hreader rfl
        cases hr.symm.trans reads
        exact ⟨rfl, rfl, rfl⟩
      · rintro ⟨rfl, rfl, rfl⟩
        exact ⟨reads, hnot⟩
    · rintro ⟨hr, hc⟩
      have hi := serves_of_role hr
      obtain rfl := current hi hc
      exact ⟨hs.service.one i heartbeat _ _ _ hi hheartbeat rfl, rfl⟩
    · rintro ⟨rfl, rfl⟩
      exact ⟨beats, hnot⟩

theorem Reachable.discarded (hm : m.Reachable may) {i : TaskId} {link : LinkId} {url : String}
    (hd : .dialed i link url ∈ m.trace) (hi : m.task? i = none)
    (hn : ∀ g, .opened g link ∉ m.trace) : ∃ l, m.links[link]? = some l ∧ l.writerOpen = false := by
  have lodging := (lodging_invariant.reached hm).2
  rcases lodging.kept i link (mem_dialings hd) with ⟨g, hg⟩ | hl | hs
  · exact absurd (mem_openings.mp hg) (hn g)
  · obtain ⟨t, ht, _⟩ := view_eq_some.mp hl
    cases hi.symm.trans ht
  · exact hs

theorem lifecycle_orderly (hm : m.Reachable may) : Orderly m where
  advance _ h := hm.advance h
  increasing := m.openings_life m.trace ▸ hm.sound.tokens.increasing
  resting := hm.resting
  serving := hm.serving
  alone := by
    intro i j t u td td' stage stage' ht hu hp hq
    have hi : m.view tears i = some (td, stage) := view_eq_some.mpr ⟨t, ht, by rw [hp]; rfl⟩
    have hj : m.view tears j = some (td', stage') := view_eq_some.mpr ⟨u, hu, by rw [hq]; rfl⟩
    exact hm.sound.posts.alone i j _ _ hi hj
  returned := by
    intro i r h
    have gone := ((errands_invariant.reached hm).2.ended i r (mem_results.mpr h)).2
    cases ht : m.task? i with
    | none => rfl
    | some t =>
      have hr : m.view roles i = some t.role := view_eq_some.mpr ⟨t, ht, rfl⟩
      cases gone.symm.trans hr
  discarded _ _ _ hd hi hn := hm.discarded hd hi hn

theorem orderly_overtaken :
    (fresh.replay overtaken).state = .open ∧ (fresh.replay overtaken).generation = 3 ∧
      dialings (fresh.replay overtaken).trace = [(0, 0), (2, 1)] ∧
      openings (fresh.replay overtaken).trace = [(3, 1)] ∧ Orderly (fresh.replay overtaken) :=
  ⟨rfl, rfl, rfl, rfl, lifecycle_orderly (reachable_replay rfl)⟩

end Machine

end GameLink.Client

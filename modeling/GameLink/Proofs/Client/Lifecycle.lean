import GameLink.Proofs.Client.Life
import Mathlib.Data.List.Nodup

/-! # State, generation, cancellation and writer

The joint invariant of a life: what is stored, who serves and who tears down fit
the state. Cancellation and generations come first (`Tokens`), then the writer
and the teardowns (`Posts`), then the background tasks (`Service`).
-/
namespace GameLink.Client

open Function (update)

def Observation.opening : Observation → Option (Generation × LinkId)
  | .opened g link => some (g, link)
  | _ => none

/-- The links that were opened, each with its generation, oldest first. -/
def openings (tr : List Observation) : List (Generation × LinkId) :=
  tr.filterMap Observation.opening

@[simp] theorem openings_append (a b : List Observation) :
    openings (a ++ b) = openings a ++ openings b := List.filterMap_append

theorem openings_affairs (tr : List Observation) : openings (affairs tr) = openings tr := by
  rw [openings, openings, affairs, List.filterMap_filter]
  congr 1
  funext o
  cases o <;> rfl

theorem mem_openings {tr : List Observation} {g : Generation} {link : LinkId} :
    (g, link) ∈ openings tr ↔ .opened g link ∈ tr :=
  mem_picked fun o => by cases o <;> simp [Observation.opening]

theorem openings_tidings (link : LinkId) (frame : Bytes) : openings (tidings link frame) = [] := by
  unfold tidings
  cases eventIn frame <;> rfl

theorem openings_opening (i : TaskId) (td : Teardown) : openings (td.opening i) = [] := by
  unfold Teardown.opening
  split <;> rfl

theorem openings_ending (td : Teardown) : openings td.ending = [] := by
  unfold Teardown.ending
  split <;> split <;> rfl

namespace Life

/-! ## Generations and cancellation -/

structure Tokens (c : Life) : Prop where
  stored : ∀ g, c.cancel = some g → c.state = .open ∧ c.generation = g ∧ g ∉ c.cancelled ∧
    ∃ link, (g, link) ∈ openings c.affairs
  kept : c.state = .open → c.held = true → c.cancel = some c.generation
  past : ∀ g link, (g, link) ∈ openings c.affairs →
    g ≤ c.generation ∧ (c.state = .connecting → g < c.generation)
  accounted : ∀ g link, (g, link) ∈ openings c.affairs → c.cancel = some g ∨ g ∈ c.cancelled
  spent : ∀ g ∈ c.cancelled, ∃ link, (g, link) ∈ openings c.affairs
  increasing : (openings c.affairs).Pairwise (fun p q => p.1 < q.1)

/-- Only a client that closes is torn down. -/
def Tearing (c : Life) : Prop := ∀ i td stage, c.tears i = some (td, stage) → c.state = .closing

/-- Where the state is not `open` any more, no cancellation is stored. -/
theorem Tokens.cancel_none {c : Life} (hc : c.Tokens) (hs : c.state ≠ .open) : c.cancel = none := by
  cases h : c.cancel with
  | none => rfl
  | some g => exact absurd (hc.stored g h).1 hs

section
variable {c d : Life}

/-- A client that is neither open nor about to be has no cancellation to store. -/
theorem Tokens.without_link (hc : c.Tokens) (hs : c.state ≠ .open) {s : Lifecycle} (ho : s ≠ .open)
    (hn : s ≠ .connecting) {k : Generation} (hk : c.generation ≤ k)
    {tears : TaskId → Option (Teardown × TeardownStage)}
    {serves : TaskId → Option (Generation × Option LinkId)} {affairs : List Observation}
    (ha : openings affairs = openings c.affairs) :
    Tokens { c with
      state := s
      generation := k
      tears := tears
      serves := serves
      affairs := affairs } := by
  refine ⟨?_, fun h => absurd h ho, ?_, ?_, ?_, ha ▸ hc.increasing⟩
  · intro g hg
    exact absurd (hc.stored g hg).1 hs
  · intro g link hg
    exact ⟨Nat.le_trans (hc.past g link (ha ▸ hg)).1 hk, fun h => absurd h hn⟩
  · intro g link hg
    exact hc.accounted g link (ha ▸ hg)
  · intro g hg
    exact ha ▸ hc.spent g hg

/-- A link that is installed is the first one of its generation. -/
theorem Tokens.install (hc : c.Tokens) (hs : c.state = .connecting) (link : LinkId)
    (writer : Option LinkId) (serves : TaskId → Option (Generation × Option LinkId)) :
    Tokens { c with
      state := .open
      cancel := some c.generation
      writer := writer
      serves := serves
      affairs := c.affairs ++ [.opened c.generation link, .event .connected] } := by
  have ho : ∀ g l, (g, l) ∈ openings (c.affairs ++ [.opened c.generation link, .event .connected]) ↔
      (g, l) ∈ openings c.affairs ∨ (g = c.generation ∧ l = link) := by
    intro g l
    rw [openings_append, List.mem_append]
    simp [openings, Observation.opening]
  have old : ∀ g l, (g, l) ∈ openings c.affairs → g < c.generation := fun g l hg =>
    (hc.past g l hg).2 hs
  refine ⟨?_, fun _ _ => rfl, ?_, ?_, ?_, ?_⟩
  · intro g hg
    cases hg
    refine ⟨rfl, rfl, ?_, link, (ho _ _).mpr (.inr ⟨rfl, rfl⟩)⟩
    intro hmem
    obtain ⟨l, hl⟩ := hc.spent _ hmem
    exact Nat.lt_irrefl _ (old _ _ hl)
  · intro g l hg
    rcases (ho g l).mp hg with hg | ⟨rfl, _⟩
    · exact ⟨Nat.le_of_lt (old g l hg), fun h => (nomatch h)⟩
    · exact ⟨Nat.le_refl _, fun h => (nomatch h)⟩
  · intro g l hg
    rcases (ho g l).mp hg with hg | ⟨rfl, _⟩
    · rcases hc.accounted g l hg with hk | hk
      · rw [hc.cancel_none (by rw [hs]; decide)] at hk
        cases hk
      · exact .inr hk
    · exact .inl rfl
  · intro g hg
    obtain ⟨l, hl⟩ := hc.spent g hg
    exact ⟨l, (ho g l).mpr (.inl hl)⟩
  · rw [openings_append, List.pairwise_append]
    refine ⟨hc.increasing, List.pairwise_singleton _ _, ?_⟩
    rintro ⟨g, l⟩ hg q hq
    have hq : q = (c.generation, link) := by simpa [openings, Observation.opening] using hq
    exact hq ▸ old g l hg

theorem Tokens.keep (hc : c.Tokens) (ht : c.Tearing) (h : Step c d) : d.Tokens := by
  cases h with
  | stay => exact hc
  | unheld => exact { hc with kept := fun _ h => (nomatch h) }
  | begun hs =>
    refine { hc with stored := ?_, kept := fun h => (nomatch h), past := ?_ }
    · intro g hg
      rw [hc.cancel_none (by rw [hs]; decide)] at hg
      cases hg
    · intro g link hg
      have hle := (hc.past g link hg).1
      exact ⟨Nat.le_succ_of_le hle, fun _ => Nat.lt_succ_of_le hle⟩
  | backedOut hs =>
    exact hc.without_link (by rw [hs]; decide) (by decide) (by decide) (Nat.le_succ _) rfl
  | abandoned hs =>
    exact hc.without_link (by rw [hs]; decide) (by decide) (by decide) (Nat.le_refl _) rfl
  | installed link i j hs hi hj hij => exact hc.install hs link _ _
  | heard i g link frame hi hg =>
    have ho : openings (c.affairs ++ tidings link frame) = openings c.affairs := by
      rw [openings_append, openings_tidings, List.append_nil]
    exact ⟨fun g => ho ▸ hc.stored g, hc.kept, ho ▸ hc.past, ho ▸ hc.accounted, ho ▸ hc.spent,
      ho ▸ hc.increasing⟩
  | began i td hs hg hi =>
    have ho : openings (c.affairs ++ td.opening i) = openings c.affairs := by
      rw [openings_append, openings_opening, List.append_nil]
    refine ⟨fun _ h => (nomatch h), fun h => (nomatch h), ?_, ?_, ?_, ho ▸ hc.increasing⟩
    · intro g l hg
      exact ⟨(hc.past g l (ho ▸ hg)).1, fun h => (nomatch h)⟩
    · intro g l hg
      refine .inr (List.mem_append.mpr ?_)
      rcases hc.accounted g l (ho ▸ hg) with hk | hk
      · exact .inl (Option.mem_toList.mpr hk)
      · exact .inr hk
    · intro g hg
      rw [ho]
      rcases List.mem_append.mp hg with hg | hg
      · exact (hc.stored g (Option.mem_toList.mp hg)).2.2.2
      · exact hc.spent g hg
  | taken i td stage hi => exact { hc with }
  | ended i td stage hi hw =>
    have ho : openings (c.affairs ++ td.ending) = openings c.affairs := by
      rw [openings_append, openings_ending, List.append_nil]
    exact hc.without_link (by rw [ht i td stage hi]; decide) (by decide) (by decide)
      (Nat.le_refl _) ho
  | left i g l hi hg => exact { hc with }
  | dropped i => exact { hc with }
  | cancelled g hh hg =>
    refine { hc with stored := fun _ h => (nomatch h), kept := ?_, accounted := ?_, spent := ?_ }
    · intro _ h
      exact absurd (hh.symm.trans h) (by decide)
    · intro g' l hm
      rcases hc.accounted g' l hm with hk | hk
      · cases hg.symm.trans hk
        exact .inr (.head _)
      · exact .inr (.tail _ hk)
    · intro g' hm
      rcases List.mem_cons.mp hm with rfl | hm
      · exact (hc.stored _ hg).2.2.2
      · exact hc.spent g' hm
  | emptied hh hn => exact { hc with }

/-- A generation has one link. -/
theorem Tokens.link_eq (hc : c.Tokens) {g : Generation} {k l : LinkId}
    (hk : (g, k) ∈ openings c.affairs) (hl : (g, l) ∈ openings c.affairs) : k = l := by
  have apart : ((openings c.affairs).map Prod.fst).Nodup :=
    List.pairwise_map.mpr (hc.increasing.imp fun h => Nat.ne_of_lt h)
  exact (Prod.mk.inj (List.inj_on_of_nodup_map apart hk hl rfl)).2

end

/-! ## The writer and the teardowns -/

structure Posts (c : Life) : Prop where
  vacant : c.state = .idle ∨ c.state = .connecting → c.writer = none
  written : ∀ link, c.writer = some link → (c.generation, link) ∈ openings c.affairs
  equipped : c.state = .open → c.held = true → ∃ link, c.writer = some link
  tearing : ∀ i td stage, c.tears i = some (td, stage) →
    c.state = .closing ∧ td.generation = c.generation ∧ (stage ≠ .queued → c.writer = none)
  alone : ∀ i j a b, c.tears i = some a → c.tears j = some b → i = j

section
variable {c d : Life}

theorem Posts.tearing_state (hc : c.Posts) : c.Tearing := fun i td stage h =>
  (hc.tearing i td stage h).1

theorem Posts.untorn (hc : c.Posts) (hs : c.state ≠ .closing) (i : TaskId) :
    c.tears i = none := by
  cases h : c.tears i with
  | none => rfl
  | some a => exact absurd (hc.tearing i a.1 a.2 h).1 hs

/-- A client without a link has no writer and nothing to tear down. -/
theorem Posts.without_link (hc : c.Posts) (hs : c.state = .idle ∨ c.state = .connecting)
    {s : Lifecycle} (hs' : s ≠ .open) (k : Generation) :
    Posts { c with state := s, generation := k } := by
  have hw := hc.vacant hs
  have free : c.state ≠ .closing := by
    rcases hs with hs | hs
    · rw [hs]
      decide
    · rw [hs]
      decide
  refine ⟨fun _ => hw, ?_, fun h => absurd h hs', ?_, hc.alone⟩
  · intro link hl
    cases hw.symm.trans hl
  · intro i td stage hi
    cases (hc.untorn free i).symm.trans hi

/-- Who begins to tear an open link down is the only one. -/
theorem Posts.begin (hc : c.Posts) (hs : c.state = .open) {i : TaskId} {td : Teardown}
    (hg : td.generation = c.generation) (cancel : Option Generation) (cancelled : List Generation)
    (os : List Observation) :
    Posts { c with
      state := .closing
      cancel := cancel
      cancelled := cancelled
      tears := update c.tears i (some (td, .queued))
      affairs := c.affairs ++ os } := by
  have free : c.state ≠ .closing := by rw [hs]; decide
  have only : ∀ {k a}, update c.tears i (some (td, .queued)) k = some a →
      k = i ∧ a = (td, .queued) := by
    intro k a h
    rcases of_update_some h with h | ⟨_, h⟩
    · exact h
    · cases (hc.untorn free k).symm.trans h
  refine ⟨fun h => h.elim (fun h => (nomatch h)) (fun h => nomatch h), ?_, fun h => (nomatch h),
    ?_, ?_⟩
  · intro l hl
    rw [openings_append]
    exact List.mem_append_left _ (hc.written l hl)
  · intro k td' stage h
    obtain ⟨_, ha⟩ := only h
    cases ha
    exact ⟨rfl, hg, fun h => absurd rfl h⟩
  · intro k l a b hk hl
    exact (only hk).1.trans (only hl).1.symm

/-- A teardown takes the writer and goes on. -/
theorem Posts.take (hc : c.Posts) {i : TaskId} {td : Teardown} {stage : TeardownStage}
    (hi : c.tears i = some (td, .queued)) :
    Posts { c with writer := none, tears := update c.tears i (some (td, stage)) } := by
  obtain ⟨hs, hg, _⟩ := hc.tearing i td .queued hi
  have still : ∀ {k a}, update c.tears i (some (td, stage)) k = some a →
      ∃ b, c.tears k = some b := by
    intro k a h
    rcases of_update_some h with ⟨hk, _⟩ | ⟨_, hold⟩
    · exact ⟨_, hk ▸ hi⟩
    · exact ⟨a, hold⟩
  refine ⟨fun _ => rfl, fun l h => (nomatch h), fun h => absurd (hs.symm.trans h) (by decide),
    ?_, ?_⟩
  · intro k td' stage' h
    rcases of_update_some h with ⟨_, ha⟩ | ⟨_, hold⟩
    · cases ha
      exact ⟨hs, hg, fun _ => rfl⟩
    · obtain ⟨hs', hg', _⟩ := hc.tearing k td' stage' hold
      exact ⟨hs', hg', fun _ => rfl⟩
  · intro k l a b hk hl
    obtain ⟨a', hk⟩ := still hk
    obtain ⟨b', hl⟩ := still hl
    exact hc.alone k l a' b' hk hl

theorem Posts.keep (hc : c.Posts) (h : Step c d) : d.Posts := by
  cases h with
  | stay => exact hc
  | unheld => exact { hc with equipped := fun _ h => nomatch h }
  | begun hs => exact hc.without_link (.inl hs) (by decide) _
  | backedOut hs => exact hc.without_link (.inr hs) (by decide) _
  | abandoned hs => exact hc.without_link (.inr hs) (by decide) _
  | installed link i j hs hi hj hij =>
    have free : c.state ≠ .closing := by rw [hs]; decide
    refine ⟨fun h => h.elim (fun h => (nomatch h)) (fun h => nomatch h), ?_, fun _ _ => ⟨link, rfl⟩,
      ?_, hc.alone⟩
    · intro l hl
      cases hl
      rw [openings_append]
      exact List.mem_append_right _ (.head _)
    · intro k td stage hk
      cases (hc.untorn free k).symm.trans hk
  | heard i g link frame hi hg =>
    refine { hc with written := ?_ }
    intro l hl
    rw [openings_append]
    exact List.mem_append_left _ (hc.written l hl)
  | began i td hs hg hi => exact hc.begin hs hg.symm _ _ _
  | taken i td stage hi => exact hc.take hi
  | ended i td stage hi hw =>
    obtain ⟨hs, hg, hclose⟩ := hc.tearing i td stage hi
    have hnone : c.writer = none := by
      by_cases h : stage = .queued
      · exact hw h
      · exact hclose h
    have none_left : ∀ {k a} {P : Prop}, update c.tears i none k = some a → P := by
      intro k a P h
      obtain ⟨hk, h⟩ := of_update_none h
      exact absurd (hc.alone k i _ _ h hi) hk
    refine ⟨fun _ => hnone, fun l h => absurd (hnone.symm.trans h) (by simp), fun h => (nomatch h),
      fun _ _ _ h => none_left h, fun _ _ _ _ h _ => none_left h⟩
  | left i g l hi hg => exact { hc with }
  | dropped i =>
    exact ⟨hc.vacant, hc.written, hc.equipped,
      fun k td stage h => hc.tearing k td stage (of_update_none h).2,
      fun k l a b hk hl => hc.alone k l a b (of_update_none hk).2 (of_update_none hl).2⟩
  | cancelled g hh hn => exact { hc with }
  | emptied hh hn =>
    refine ⟨fun _ => rfl, fun l h => (nomatch h),
      fun _ h => absurd (hh.symm.trans h) (by decide), ?_, hc.alone⟩
    intro k td stage h
    obtain ⟨hs, hg, _⟩ := hc.tearing k td stage h
    exact ⟨hs, hg, fun _ => rfl⟩

end

/-! ## The background tasks -/

structure Service (c : Life) : Prop where
  serving : ∀ i g l, c.serves i = some (g, l) →
    ∃ link, (g, link) ∈ openings c.affairs ∧ (l = none ∨ l = some link)
  one : ∀ i j g a b, c.serves i = some (g, a) → c.serves j = some (g, b) →
    a.isSome = b.isSome → i = j
  alive : ∀ g, c.cancel = some g →
    ∃ i j link, c.serves i = some (g, some link) ∧ c.serves j = some (g, none)

section
variable {c d : Life}

/-- Tasks that serve may go, as long as the two of a stored generation stay. -/
theorem Service.update_none (hc : c.Service) (i : TaskId)
    (hs : d.serves = update c.serves i none)
    (ho : ∀ g link, (g, link) ∈ openings c.affairs → (g, link) ∈ openings d.affairs)
    (ha : ∀ g, d.cancel = some g → c.cancel = some g ∧ ∀ l, c.serves i ≠ some (g, l)) :
    d.Service := by
  have still : ∀ {k a}, d.serves k = some a → c.serves k = some a := by
    intro k a h
    rw [hs] at h
    exact (of_update_none h).2
  refine ⟨?_, ?_, ?_⟩
  · intro k g l hk
    obtain ⟨link, hl, hkind⟩ := hc.serving k g l (still hk)
    exact ⟨link, ho g link hl, hkind⟩
  · intro j k g a b hj hk hab
    exact hc.one j k g a b (still hj) (still hk) hab
  · intro g hg
    obtain ⟨hg, hne⟩ := ha g hg
    obtain ⟨j, k, link, hj, hk⟩ := hc.alive g hg
    have hji : j ≠ i := fun h => hne _ (h ▸ hj)
    have hki : k ≠ i := fun h => hne _ (h ▸ hk)
    refine ⟨j, k, link, ?_, ?_⟩
    · rw [hs, Function.update_of_ne hji, hj]
    · rw [hs, Function.update_of_ne hki, hk]

/-- Nobody comes or goes. -/
theorem Service.same (hc : c.Service) (hs : d.serves = c.serves)
    (ho : ∀ g link, (g, link) ∈ openings c.affairs → (g, link) ∈ openings d.affairs)
    (ha : ∀ g, d.cancel = some g → c.cancel = some g) : d.Service := by
  refine ⟨?_, ?_, ?_⟩
  · intro k g l hk
    obtain ⟨link, hl, hkind⟩ := hc.serving k g l (hs ▸ hk)
    exact ⟨link, ho g link hl, hkind⟩
  · exact hs ▸ hc.one
  · intro g hg
    exact hs ▸ hc.alive g (ha g hg)

/-- A reader and a heartbeat come with a new link. -/
theorem Service.install (hc : c.Service) (hk : c.Tokens) (hs : c.state = .connecting) {i j : TaskId}
    (hij : i ≠ j) (link : LinkId) (writer : Option LinkId) :
    Service { c with
      state := .open
      cancel := some c.generation
      writer := writer
      serves := update (update c.serves i (some (c.generation, some link))) j
        (some (c.generation, none))
      affairs := c.affairs ++ [.opened c.generation link, .event .connected] } := by
  have old : ∀ {k a}, c.serves k = some (c.generation, a) → False := by
    intro k a h
    obtain ⟨l, hl, _⟩ := hc.serving _ _ _ h
    exact Nat.lt_irrefl _ ((hk.past _ _ hl).2 hs)
  have cases_of : ∀ {k a}, update (update c.serves i (some (c.generation, some link))) j
      (some (c.generation, none)) k = some a →
      (k = j ∧ a = (c.generation, none)) ∨ (k = i ∧ a = (c.generation, some link)) ∨
        c.serves k = some a := by
    intro k a h
    rcases of_update_some h with h | ⟨_, h⟩
    · exact .inl h
    · rcases of_update_some h with h | ⟨_, h⟩
      · exact .inr (.inl h)
      · exact .inr (.inr h)
  have new : (c.generation, link) ∈ openings (c.affairs ++
      [.opened c.generation link, .event .connected]) := by
    rw [openings_append]
    exact List.mem_append_right _ (.head _)
  refine ⟨?_, ?_, ?_⟩
  · intro k g l h
    rcases cases_of h with ⟨_, ha⟩ | ⟨_, ha⟩ | h
    · cases ha
      exact ⟨link, new, .inl rfl⟩
    · cases ha
      exact ⟨link, new, .inr rfl⟩
    · obtain ⟨l', hl, hkind⟩ := hc.serving k g l h
      refine ⟨l', ?_, hkind⟩
      rw [openings_append]
      exact List.mem_append_left _ hl
  · intro k k' g a b h h' hab
    rcases cases_of h with ⟨hkj, ha⟩ | ⟨hki, ha⟩ | h
    · cases ha
      rcases cases_of h' with ⟨hkj', _⟩ | ⟨_, hb⟩ | h'
      · exact hkj.trans hkj'.symm
      · cases hb
        cases hab
      · exact (old h').elim
    · cases ha
      rcases cases_of h' with ⟨_, hb⟩ | ⟨hki', _⟩ | h'
      · cases hb
        cases hab
      · exact hki.trans hki'.symm
      · exact (old h').elim
    · rcases cases_of h' with ⟨_, hb⟩ | ⟨_, hb⟩ | h'
      · cases hb
        exact (old h).elim
      · cases hb
        exact (old h).elim
      · exact hc.one k k' g a b h h' hab
  · intro g hg
    cases hg
    refine ⟨i, j, link, ?_, Function.update_self ..⟩
    exact (Function.update_of_ne hij _ _).trans (Function.update_self ..)

theorem Service.keep (hc : c.Service) (hk : c.Tokens) (ht : c.Tearing)
    (h : Step c d) : d.Service := by
  have more : ∀ {os : List Observation} {g : Generation} {link : LinkId},
      (g, link) ∈ openings c.affairs → (g, link) ∈ openings (c.affairs ++ os) := by
    intro os g link h
    rw [openings_append]
    exact List.mem_append_left _ h
  cases h with
  | stay => exact hc
  | unheld => exact { hc with }
  | begun hs => exact { hc with }
  | backedOut hs => exact { hc with }
  | abandoned hs => exact { hc with }
  | installed link i j hs hi hj hij => exact hc.install hk hs hij link _
  | heard i g link frame hi hg => exact hc.same rfl (fun _ _ => more) (fun _ h => h)
  | began i td hs hg hi => exact hc.same rfl (fun _ _ => more) (fun _ h => nomatch h)
  | taken i td stage hi => exact { hc with }
  | ended i td stage hi hw =>
    refine hc.update_none i rfl (fun _ _ => more) ?_
    intro g hg
    rw [show c.cancel = none from hk.cancel_none (by rw [ht i td stage hi]; decide)] at hg
    cases hg
  | left i g l hi hg =>
    refine hc.update_none i rfl (fun _ _ h => h) ?_
    intro g' hg'
    refine ⟨hg', ?_⟩
    intro l' hl'
    cases hi.symm.trans hl'
    obtain ⟨hs, hgen, hnot, _⟩ := hk.stored g hg'
    rcases hg with hg | hg
    · exact hnot hg
    · exact hg ⟨hgen, hs⟩
  | dropped i => exact { hc with }
  | cancelled g hh hn => exact hc.same rfl (fun _ _ h => h) (fun _ h => nomatch h)
  | emptied hh hn => exact { hc with }

end

end Life

end GameLink.Client

import GameLink.Proofs.Client.Lodging
import GameLink.Proofs.Client.Order
import GameLink.Proofs.Client.Onward
import GameLink.Proofs.Client.Apart
import GameLink.Proofs.Client.Watch

/-! # The link that is written to

The write half of the link that writes go to is open, and a client whose
cancellation is stored has such a link (`Equipped`). A write stalls only on a link
in that mode, so that nobody waits at the writer of a link that delivers
(`Reachable.fluent`).
-/
namespace GameLink.Client

open Function (update)

/-- The write half of a link is open. -/
def Writable (links : List Link) (l : LinkId) : Prop :=
  ∃ k, links[l]? = some k ∧ k.writerOpen = true

namespace Writable

variable {a : List Link} {l i : LinkId}

theorem append (h : Writable a l) (k : Link) : Writable (a ++ [k]) l := by
  obtain ⟨k', hk, ho⟩ := h
  exact ⟨k', by rw [List.getElem?_append_left (List.getElem?_eq_some_iff.mp hk).1, hk], ho⟩

theorem modify (h : Writable a l) {f : Link → Link}
    (hf : ∀ k, a[i]? = some k → (f k).writerOpen = k.writerOpen) : Writable (a.modify i f) l := by
  obtain ⟨k, hk, ho⟩ := h
  rw [Writable, List.getElem?_modify]
  by_cases hi : i = l
  · subst hi
    exact ⟨f k, by simp [hk], (hf k hk).trans ho⟩
  · exact ⟨k, by simp [hi, hk], ho⟩

theorem put (h : Writable a l) {k k' : Link} (hk : a[i]? = some k)
    (hw : k'.writerOpen = k.writerOpen) : Writable (a.modify i fun _ => k') l := by
  refine h.modify fun j hj => ?_
  cases hj.symm.trans hk
  exact hw

theorem received (h : Writable a l) {k k' : Link} {r : Link.Received} (hk : a[i]? = some k)
    (hf : k.receive = (k', r)) : Writable (a.modify i fun _ => k') l := by
  have same : k' = k.receive.1 := by rw [hf]
  refine h.put hk ?_
  rw [same]
  unfold Link.receive
  split <;> rfl

theorem closeReader (h : Writable a l) (i : LinkId) : Writable (a.modify i Link.closeReader) l :=
  h.modify fun _ _ => rfl

theorem closeWriter (h : Writable a l) (hi : i ≠ l) :
    Writable (a.modify i Link.closeWriter) l := by
  obtain ⟨k, hk, ho⟩ := h
  exact ⟨k, by rw [List.getElem?_modify_ne _ a hi, hk], ho⟩

theorem closeEnd (h : Writable a l) (t : Task) : Writable (Client.closeEnd t a) l := by
  unfold Client.closeEnd
  split
  · exact h.closeReader _
  · exact h

end Writable

/-! ## Whose write half is closed -/

/-- Why the write half of a link is closed in a change. -/
inductive Shuts (m n : Machine) (l : LinkId) : Prop
  | replaced (hw : m.writer = some l) (hs : m.state = .connecting)
  | emptied (hw : m.writer = some l) (hn : n.writer = none)
  | dropped (i : TaskId) (hi : m.view lodges i = some l) (hn : n.view lodges i = none)
  | torn (i : TaskId) (td : Teardown) (deadline : Nat)
      (hi : m.view tears i = some (td, .closing l deadline))

section
variable {m n : Machine} {t : Task} {os : List Observation} {l : LinkId}

theorem Drops.writable {links : List Link} {queue : List TaskId} (ht : m.task? t.id = some t)
    (h : Drops m t t.position links queue) (hl : Writable m.links l) :
    Writable links l ∨
      Shuts m { m with links := links, lockQueue := queue, tasks := without t.id m.tasks } l := by
  have lodging : m.view lodges t.id = t.position.held := view_of ht
  have torn : m.view tears t.id = tears t.role t.position := view_of ht
  have gone : view lodges (without t.id m.tasks) t.id = none := by
    rw [view_without, Function.update_self]
  generalize t.position = p at h lodging torn
  -- a write half that is closed is that of the link that the task holds or closes
  have closed : ∀ link, p.held = some link ∨ (∃ td d, p = .tearing td (.closing link d)) →
      Writable (m.links.modify link Link.closeWriter) l ∨
        Shuts m { m with links := links, lockQueue := queue, tasks := without t.id m.tasks } l := by
    intro link hp
    by_cases hlink : link = l
    · subst hlink
      rcases hp with hp | ⟨td, d, rfl⟩
      · exact .inr (.dropped t.id (lodging.trans hp) gone)
      · exact .inr (.torn t.id td d torn)
    · exact .inl (hl.closeWriter hlink)
  cases h with
  | installing g link => exact (closed link (.inl rfl)).imp (·.closeReader link) id
  | discarding link => exact (closed link (.inl rfl)).imp (·.closeReader link) id
  | closing td link deadline => exact closed link (.inr ⟨td, deadline, rfl⟩)
  | _ => exact .inl hl

/-- A write half stays open in a change, or is closed for one of a few reasons. -/
theorem Change.writable (h : Change m os n) (hl : Writable m.links l) :
    Writable n.links l ∨ Shuts m n l := by
  cases h with
  | outside h =>
    cases h with
    | pushed link k frame hk hs hr =>
      exact .inl (hl.put hk (by rw [Link.push_eq frame hr]))
    | serverMode link mode => exact .inl (hl.modify fun _ _ => rfl)
    | serverClosed link => exact .inl (hl.modify fun _ _ => rfl)
    | taken link k text hk ht =>
      obtain ⟨rest, _, hrest⟩ := Link.take_eq_frame ht
      exact .inl (hl.put hk (by rw [hrest]))
    | _ => exact .inl hl
  | released h =>
    cases h with
    | cancelled g hu hc => exact .inl hl
    | emptied link hh ht hc hw =>
      by_cases hlink : link = l
      · exact .inr (.emptied (hlink ▸ hw) rfl)
      · exact .inl (hl.closeWriter hlink)
  | connecting ht h =>
    cases h with
    | dialed op g url deadline stage hr hp => exact .inl (hl.append _)
    | installed op g link hr hp hlock hg hs =>
      cases hw : m.writer with
      | none => exact .inl hl
      | some old =>
        by_cases hold : old = l
        · exact .inr (.replaced (hold ▸ hw) hs)
        · exact .inl (hl.closeWriter hold)
    | @discarded op link f hr hp =>
      have lodging : m.view lodges _ = some link := (view_of ht).trans (by rw [hp]; rfl)
      by_cases hlink : link = l
      · refine .inr (.dropped _ (hlink ▸ lodging) ?_)
        rw [Machine.view, view_without, Function.update_self]
      · exact .inl ((hl.closeWriter hlink).closeReader link)
    | _ => exact .inl hl
  | exchanging ht h =>
    cases h with
    | written host x l link link' hr hv hp hlock hw hk hf =>
      obtain ⟨_, _, rfl⟩ := Link.write_eq_sent hf
      exact .inl (hl.put hk rfl)
    | _ => exact .inl hl
  | background ht h =>
    cases h with
    | dispatched g link k k' frame hr hp hc hk hf => exact .inl (hl.received hk hf)
    | readerLeft g link hr hp ho => exact .inl (hl.closeReader link)
    | _ => exact .inl hl
  | tearing ht h =>
    cases h with
    | begun td links hb hg hs =>
      cases hb with
      | failed g link k k' f hr hp hc hk hf => exact .inl (hl.received hk hf)
      | _ => exact .inl hl
    | taken td link hp hlock hw => exact .inl hl
    | ended td stage links queue hf hp hv =>
      cases hv with
      | empty hlock hw => exact .inl (hl.closeEnd _)
      | closed link deadline =>
        have torn : m.view tears _ = some (td, .closing link deadline) :=
          (view_of ht).trans (by rw [hp]; rfl)
        by_cases hlink : link = l
        · exact .inr (.torn _ td deadline (hlink ▸ torn))
        · exact .inl ((hl.closeWriter hlink).closeEnd _)
  | leaving ht h =>
    cases h with
    | finished op r hr hp => exact .inl hl
    | dropped links queue ha hd => exact hd.writable ht hl

/-- Writes go to the same link as before, or to the one that is just installed. -/
theorem Change.writer (h : Change m os n) (hn : n.writer = some l) :
    m.writer = some l ∨ ∃ i, m.view lodges i = some l ∧ m.state = .connecting ∧
      n.links = replaceWriter m.links m.writer := by
  cases h with
  | outside h => cases h <;> exact .inl hn
  | released h =>
    cases h with
    | cancelled g hu hc => exact .inl hn
    | emptied link hh ht hc hw => cases hn
  | connecting ht h =>
    cases h with
    | installed op g link hr hp hlock hg hs =>
      cases hn
      exact .inr ⟨_, (view_of ht).trans (by rw [hp]; rfl), hs, rfl⟩
    | _ => exact .inl hn
  | exchanging ht h => cases h <;> exact .inl hn
  | background ht h => cases h <;> exact .inl hn
  | tearing ht h =>
    cases h with
    | begun td links hb hg hs => exact .inl hn
    | taken td link hp hlock hw => cases hn
    | ended td stage links queue hf hp hv => exact .inl hn
  | leaving ht h => cases h <;> exact .inl hn

/-- The link that a teardown closes was the writer. -/
theorem Change.torn (h : Change m os n) {i : TaskId} {td : Teardown} {deadline : Nat}
    (hn : n.view tears i = some (td, .closing l deadline)) :
    m.view tears i = some (td, .closing l deadline) ∨ m.writer = some l := by
  obtain ⟨u, hu, hd⟩ := view_eq_some.mp hn
  have pos : u.position = .tearing td (.closing l deadline) := by
    unfold tears at hd
    split at hd
    · rename_i hp
      cases hd
      exact hp
    · cases hd
  rcases h.origin hu with ⟨t, ht, hr, hp | hon⟩ | ⟨_, hs, _⟩
  · refine .inl (view_eq_some.mpr ⟨t, ht, ?_⟩)
    rw [← hp, pos]
    rfl
  · generalize u.position = p at hon pos
    cases hon with
    | takes td link hp hlock hw =>
      cases pos
      exact .inr hw
    | asks host x | stalls host x | writes host x => cases host <;> cases pos
    | _ => cases pos
  · cases pos.symm.trans hs

end

/-! ## The invariant -/

/-- Links that are written to, or will be, have an open write half. -/
structure Equipped (tr : List Observation) (m : Machine) : Prop where
  stored : ∀ g, m.cancel = some g → ∃ l, m.writer = some l
  writer : ∀ l, m.writer = some l → Writable m.links l
  lodged : ∀ i l, m.view lodges i = some l → Writable m.links l
  torn : ∀ i td l deadline, m.view tears i = some (td, .closing l deadline) →
    ∃ g, (g, l) ∈ openings tr

/-- A cancellation is stored with a writer, and taken out before it. -/
theorem Life.Step.stored {c d : Life} (hc : c.Sound) (h : Life.Step c d)
    (hs : ∀ g, c.cancel = some g → ∃ l, c.writer = some l) :
    ∀ g, d.cancel = some g → ∃ l, d.writer = some l := by
  cases h with
  | installed link i j ho hi hj hij => exact fun _ _ => ⟨link, rfl⟩
  | began i td ho hg hi => exact fun _ h => nomatch h
  | cancelled g hh hg => exact fun _ h => nomatch h
  | taken i td stage hi =>
    intro g hg
    have closing := (hc.posts.tearing i td _ hi).1
    cases (hc.tokens.stored g hg).1.symm.trans closing
  | emptied hh hn =>
    intro g hg
    cases hn.symm.trans hg
  | _ => exact hs

section
variable {m n : Machine} {tr os : List Observation}

theorem Equipped.keep (he : Equipped tr m) (hf : Fit m) (hs : (m.life tr).Sound)
    (hl : Lodging tr m) (h : Change m os n) : Equipped (tr ++ os) n := by
  have opened : ∀ {l}, m.writer = some l → ∃ g, (g, l) ∈ openings tr := fun hw =>
    ⟨_, (m.openings_life tr) ▸ hs.posts.written _ hw⟩
  -- neither the writer nor a link that waits to be installed is closed
  have kept : ∀ {l}, Writable m.links l → (m.writer = some l ∧ n.writer = some l ∨
      ∃ i, m.view lodges i = some l ∧ n.view lodges i = some l) → Writable n.links l := by
    intro l hw hk
    rcases h.writable hw with hw | hshut
    · exact hw
    · exfalso
      rcases hk with ⟨hwriter, hn⟩ | ⟨i, hi, hn⟩
      · cases hshut with
        | replaced _ hc => cases (hs.posts.vacant (.inr hc)).symm.trans hwriter
        | emptied _ hnone => cases hnone.symm.trans hn
        | dropped j hj _ =>
          obtain ⟨g, hg⟩ := opened hwriter
          exact hl.apart g l j hg hj
        | torn j td deadline hj =>
          have none := (hs.posts.tearing j td _ hj).2.2 (fun hq => nomatch hq)
          cases none.symm.trans hwriter
      · cases hshut with
        | replaced hwriter _ =>
          obtain ⟨g, hg⟩ := opened hwriter
          exact hl.apart g l i hg hi
        | emptied hwriter _ =>
          obtain ⟨g, hg⟩ := opened hwriter
          exact hl.apart g l i hg hi
        | dropped j hj hnone =>
          obtain rfl := hl.one i j l hi hj
          cases hnone.symm.trans hn
        | torn j td deadline hj =>
          obtain ⟨g, hg⟩ := he.torn j td l deadline hj
          exact hl.apart g l i hg hi
  have step : Life.Step (m.life tr) (n.life (tr ++ os)) := h.life hf
  refine ⟨step.stored hs he.stored, ?_, ?_, ?_⟩
  · intro l hn
    rcases h.writer hn with hw | ⟨i, hi, hc, hlinks⟩
    · exact kept (he.writer l hw) (.inl ⟨hw, hn⟩)
    · have vacant : m.writer = none := hs.posts.vacant (.inr hc)
      rw [hlinks, vacant]
      exact he.lodged i l hi
  · intro i l hn
    have stays : m.view lodges i = some l → Writable n.links l := fun hi =>
      kept (he.lodged i l hi) (.inr ⟨i, hi, hn⟩)
    cases h.berth hf with
    | same hv ho hd => exact stays (hv ▸ hn)
    | dialed j hj hv ho hd hlinks =>
      rw [hv] at hn
      rcases of_update_some hn with ⟨_, rfl⟩ | ⟨_, hi⟩
      · obtain ⟨url, hlinks⟩ := hlinks
        rw [hlinks]
        exact ⟨{ url := url }, List.getElem?_concat_length .., rfl⟩
      · exact stays hi
    | installed j g link hj hv ho hd => exact stays (of_update_none (hv ▸ hn)).2
    | left j hv hsh ho hd => exact stays (of_update_none (hv ▸ hn)).2
  · intro i td l deadline hn
    rw [openings_append]
    rcases h.torn hn with hi | hw
    · obtain ⟨g, hg⟩ := he.torn i td l deadline hi
      exact ⟨g, List.mem_append_left _ hg⟩
    · obtain ⟨g, hg⟩ := opened hw
      exact ⟨g, List.mem_append_left _ hg⟩

end

theorem equipped_invariant : Invariant (fun tr m =>
    ((Fit m ∧ (m.life tr).Sound) ∧ Fit m ∧ Lodging tr m) ∧ Equipped tr m) := by
  refine (Life.sound_invariant.both lodging_invariant).and ?_ ?_ ?_
  · intro m h
    obtain ⟨_, _, _, _, rfl⟩ := h.fields
    exact ⟨fun _ h => (nomatch h), fun _ h => (nomatch h), fun _ _ h => (nomatch h),
      fun _ _ _ _ h => (nomatch h)⟩
  · intro m os n tr h hb he
    exact he.keep hb.1.1 hb.1.2 hb.2.2 h
  · intro tr n handler history h
    exact ⟨h.stored, h.writer, h.lodged, h.torn⟩

/-- While its cancellation is not used, the link of a generation can be written to. -/
theorem Equipped.writes {m : Machine} {tr : List Observation} (he : Equipped tr m)
    (hs : (m.life tr).Sound) {g : Generation} {l : LinkId} (hl : .opened g l ∈ tr)
    (hc : m.isCancelled g = false) : m.writer = some l ∧ Writable m.links l := by
  have opened : (g, l) ∈ openings (m.life tr).affairs := by
    rw [Machine.openings_life]
    exact mem_openings.mpr hl
  have stored : m.cancel = some g := by
    rcases hs.tokens.accounted g l opened with h | h
    · exact h
    · rw [Bool.eq_false_iff, ne_eq, Machine.isCancelled_eq] at hc
      exact absurd h hc
  obtain ⟨l', hw⟩ := he.stored g stored
  have current : m.generation = g := (hs.tokens.stored g stored).2.1
  have written : (g, l') ∈ openings (m.life tr).affairs := current ▸ hs.posts.written l' hw
  obtain rfl := hs.tokens.link_eq written opened
  exact ⟨hw, he.writer l' hw⟩

theorem Machine.Reachable.writes {may : Move → Prop} {m : Machine} (hm : m.Reachable may)
    {g : Generation} {l : LinkId} (hl : .opened g l ∈ m.trace) (hc : m.isCancelled g = false) :
    m.writer = some l ∧ Writable m.links l :=
  (equipped_invariant.reached hm).2.writes hm.sound hl hc

/-! ## Writes that do not stall -/

/-- No write stalls. -/
def Fluent (m : Machine) : Prop := ∀ i deadline, m.view holds i ≠ some (.write deadline)

section
variable {m n b c : Machine} {os : List Observation} {i : TaskId} {l : LinkId} {k : Nat}

/-- A write begins to stall only on a link in that mode. -/
theorem Change.fluent (h : Change m os n) (hf : Fluent m) :
    Fluent n ∨ ∃ l k, m.writer = some l ∧ m.links[l]? = some k ∧ k.mode = .stall := by
  by_cases hn : Fluent n
  · exact .inl hn
  · right
    simp only [Fluent, not_forall, not_not] at hn
    obtain ⟨i, deadline, hi⟩ := hn
    obtain ⟨u, hu, hd⟩ := view_eq_some.mp hi
    rcases h.origin hu with ⟨t, ht, hr, hp | hon⟩ | ⟨_, hs, _⟩
    · exact absurd (view_eq_some.mpr ⟨t, ht, hr ▸ hp ▸ hd⟩) (hf i deadline)
    · have position : ∀ (host : Host) (x : Exchange) (stage : ExchangeStage),
          holds u.role (host.position x stage) = some (.write deadline) →
            stage.hold = some (.write deadline) := fun host x stage h =>
        (host.holds_position x stage u.role).symm.trans h
      generalize u.position = p at hon hd
      cases hon with
      | stalls host x hr hp hl hw => exact hw
      | asks host x => cases position host x _ hd
      | writes host x => cases position host x _ hd
      | _ => cases hd
    · rw [hs] at hd
      cases hd

theorem Effect.fluent (h : Effect (Deed i) b c) (hf : Fluent b)
    (hw : ∀ l k, b.writer = some l → b.links[l]? = some k → k.mode ≠ .stall) : Fluent c := by
  obtain ⟨os, d, hd, hs⟩ := h
  obtain ⟨handler, history, rfl⟩ := hs.same
  rcases hd.change.fluent hf with hf | ⟨l, k, hl, hk, hm⟩
  · exact hf
  · exact absurd hm (hw l k hl hk)

/-- In a step of a task, a client with a link writes to it or not at all. -/
theorem Course.writer (h : Course (Deed i) m k b) (hk : k ≤ 1) (hm : Fit m)
    (hs : (m.life m.trace).Sound) (ho : m.state = .open ∨ m.state = .closing)
    (hl : .opened m.generation l ∈ b.trace) {l' : LinkId} (hw : b.writer = some l') : l' = l := by
  obtain ⟨⟨_, sound⟩, h0, h1⟩ := (h.imp fun _ _ _ h => h.change).advance ⟨hm, hs⟩
  have generation : b.generation = m.generation := by
    obtain rfl | rfl : k = 0 ∨ k = 1 := by omega
    · exact (h0 rfl).2
    · have advance := h1 rfl
      generalize m.state = s at ho advance
      generalize m.generation = g at advance
      generalize b.state = s' at advance
      generalize b.generation = g' at advance
      cases advance with
      | stay | close | rest | abandon | install => rfl
      | connect | backOut => rcases ho with ho | ho <;> cases ho
  have written := sound.posts.written l' hw
  rw [Machine.openings_life] at written
  refine sound.tokens.link_eq (g := m.generation) ?_ ?_
  · rw [Machine.openings_life, ← generation]
    exact written
  · rw [Machine.openings_life]
    exact mem_openings.mpr hl

/-- As long as the link of a client delivers, no write stalls in a step of a task. -/
theorem Course.fluent {link : Link} (h : Course (Deed i) m k b) (hk : k ≤ 1) (hm : Fit m)
    (hs : (m.life m.trace).Sound) (ho : m.state = .open ∨ m.state = .closing)
    (hl : .opened m.generation l ∈ m.trace)
    (hlink : m.links[l]? = some link) (hd : link.mode = .deliver) (hf : Fluent m) : Fluent b := by
  have delivers : ∀ {k b}, Course (Deed i) m k b → k ≤ 1 →
      ∀ l' link', b.writer = some l' → b.links[l']? = some link' → link'.mode ≠ .stall := by
    intro k b run hk l' link' hw hl'
    obtain ⟨os, hapart, hseen⟩ := run.untouched
    have opened : .opened m.generation l ∈ b.trace := by
      rw [Machine.trace, hseen, List.map_append]
      exact List.mem_append_left _ hl
    obtain rfl := run.writer hk hm hs ho opened hw
    obtain ⟨link'', hsame, hmode, _⟩ := hapart.links l' link hlink
    cases hsame.symm.trans hl'
    rw [hmode, hd]
    decide
  induction h with
  | refl => exact hf
  | calm run h _ _ ih => exact h.fluent (ih hk) (delivers run hk)
  | leap run h ih => exact h.fluent (ih (by omega)) (delivers run (by omega))

theorem Stir.holds_same (h : Stir m os n) : n.view holds = m.view holds := by
  cases h with
  | outside h => exact h.view_same fun _ => rfl
  | released h => cases h <;> rfl

theorem Machine.Reachable.fluent {may : Move → Prop} {link : Link} (hm : m.Reachable may)
    (ho : m.state = .open ∨ m.state = .closing) (hl : .opened m.generation l ∈ m.trace)
    (hlink : m.links[l]? = some link) (hd : link.mode = .deliver) (hf : Fluent m) {v : Move}
    (h : m.allows v = true) : Fluent (m.after v) := by
  cases v with
  | work w =>
    obtain ⟨i, course⟩ := Machine.exists_course_run hm.fit h
    exact course.fluent (Nat.le_refl 1) hm.fit hm.sound ho hl hlink hd hf
  | act a =>
    refine (Machine.course_act h).invariant (I := fun _ n => Fluent n) hf ?_ fun _ _ _ _ h => h
    intro b os c tr hc hb
    rw [Fluent, hc.holds_same]
    exact hb

end

end GameLink.Client

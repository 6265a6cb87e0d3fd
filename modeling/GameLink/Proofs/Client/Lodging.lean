import GameLink.Proofs.Client.Errand

/-! # Links that are dialed and not installed

A link that a connect has dialed is held by its task until it is installed or
its writer is closed; nobody else holds it, and it is installed at most once
(`Lodging`).
-/
namespace GameLink.Client

open Function (update)

def Observation.dialing : Observation → Option (TaskId × LinkId)
  | .dialed i link _ => some (i, link)
  | _ => none

/-- The links that were dialed, each with its task. -/
def dialings (tr : List Observation) : List (TaskId × LinkId) := tr.filterMap Observation.dialing

@[simp] theorem dialings_append (a b : List Observation) :
    dialings (a ++ b) = dialings a ++ dialings b := List.filterMap_append

theorem mem_dialings {tr : List Observation} {i : TaskId} {link : LinkId} {url : String}
    (h : .dialed i link url ∈ tr) : (i, link) ∈ dialings tr :=
  List.mem_filterMap.mpr ⟨_, h, rfl⟩

/-- The link that a task holds. -/
def lodges : Role → Position → Option LinkId := fun _ p => p.held

theorem lodges_plain (r : Role) (p : Position) (h : p.plain = true) : lodges r p = none := by
  cases p with
  | installing g link => cases h
  | discarding link => cases h
  | _ => rfl

/-! ## What a change does about links that are held -/

inductive Berth (m : Machine) : List Observation → Machine → Prop
  | same {os n} (hv : n.view lodges = m.view lodges) (ho : openings os = [])
      (hd : dialings os = []) : Berth m os n
  | dialed {os n} (i : TaskId) (hi : m.view lodges i = none)
      (hv : n.view lodges = update (m.view lodges) i (some m.links.length))
      (ho : openings os = []) (hd : dialings os = [(i, m.links.length)])
      (hl : ∃ url, n.links = m.links ++ [{ url := url }]) : Berth m os n
  | installed {os n} (i : TaskId) (g : Generation) (link : LinkId)
      (hi : m.view lodges i = some link) (hv : n.view lodges = update (m.view lodges) i none)
      (ho : openings os = [(g, link)]) (hd : dialings os = []) : Berth m os n
  | left {os n} (i : TaskId) (hv : n.view lodges = update (m.view lodges) i none)
      (hs : ∀ link, m.view lodges i = some link → ShutIn n.links link)
      (ho : openings os = []) (hd : dialings os = []) : Berth m os n

section
variable {m n : Machine} {t : Task} {os : List Observation}

theorem lodges_placed (ht : m.task? t.id = some t) {p : Position} (h : p.held = t.position.held) :
    view lodges (placed t.id p m.tasks) = m.view lodges := view_placed_same ht h

theorem shutIn_closed {links : List Link} {link : LinkId} (h : link < links.length) :
    ShutIn ((links.modify link Link.closeWriter).modify link Link.closeReader) link := by
  have tended := Wired.tended (@wired_closeReader (fun _ => True) link
    (links.modify link Link.closeWriter) trivial)
  exact tended.shut link (shutIn_closeWriter h)

theorem Connecting.berth (hm : Fit m) (ht : m.task? t.id = some t) (h : Connecting m t os n) :
    Berth m os n := by
  have held : m.view lodges t.id = t.position.held := view_of ht
  cases h with
  | begun op url deadline stage hr hp hm hs =>
    exact .same (lodges_placed ht (by rw [hp]; rfl)) rfl rfl
  | backedOut n hr hp hs => exact .same rfl rfl rfl
  | hung op g url deadline wake hr hp =>
    exact .same (lodges_placed ht (by rw [hp]; rfl)) rfl rfl
  | abandoned g url deadline stage hp hg hs => exact .same rfl rfl rfl
  | dialed op g url deadline stage hr hp =>
    exact .dialed t.id (by rw [held, hp]; rfl) (view_placed ht) rfl rfl ⟨url, rfl⟩
  | installed op g link hr hp hl hg hs =>
    refine .installed t.id g link (by rw [held, hp]; rfl) ?_ rfl rfl
    rw [Machine.view, view_without, view_append_same rfl, view_append_same rfl]
    rfl
  | outdated op g link hr hp hl hg => exact .same (lodges_placed ht (by rw [hp]; rfl)) rfl rfl
  | discarded op link f hr hp =>
    refine .left t.id (view_without _) ?_ rfl rfl
    intro l hl
    rw [held, hp] at hl
    cases hl
    exact shutIn_closed (hm.lodged _ _ link ht (by rw [hp]; rfl))

theorem Drops.berth (hm : Fit m) (ht : m.task? t.id = some t) {links : List Link}
    {queue : List TaskId} (h : Drops m t t.position links queue) :
    Berth m [] { m with links := links, lockQueue := queue, tasks := without t.id m.tasks } := by
  refine .left t.id (view_without _) ?_ rfl rfl
  intro l hl
  have hl : t.position.held = some l := (view_of (f := lodges) ht).symm.trans hl
  have hlt := hm.lodged _ _ l ht hl
  generalize t.position = p at h hl
  cases h with
  | installing g link =>
    cases hl
    exact shutIn_closed hlt
  | discarding link =>
    cases hl
    exact shutIn_closed hlt
  | _ => cases hl

theorem Change.berth (hm : Fit m) (h : Change m os n) : Berth m os n := by
  cases h with
  | outside h =>
    have hv := h.view_same (f := lodges) (fun _ => rfl)
    cases h <;> exact .same hv rfl rfl
  | released h => cases h <;> exact .same rfl rfl rfl
  | connecting ht h => exact h.berth hm ht
  | exchanging ht h =>
    have hv := h.view_same lodges_plain ht
    have silent : ∀ (host : Host) (i : TaskId) (outcome : Except Failure Answer),
        openings (host.farewell i outcome) = [] ∧ dialings (host.farewell i outcome) = [] := by
      intro host i outcome
      cases host <;> exact ⟨rfl, rfl⟩
    cases h with
    | refused host hh hs => exact .same hv (silent host _ _).1 (silent host _ _).2
    | unsent host x stage k f hr hl hp hx hn =>
      exact .same hv (silent host _ _).1 (silent host _ _).2
    | replied host x k outcome hr hl hp hx hw =>
      exact .same hv (silent host _ _).1 (silent host _ _).2
    | _ => exact .same hv rfl rfl
  | background ht h =>
    have hv := h.view_same lodges_plain ht
    cases h with
    | dispatched g link l l' frame hr hp hc hl hf =>
      unfold heard
      refine .same hv ?_ ?_
      · cases eventIn frame <;> rfl
      · cases eventIn frame <;> rfl
    | _ => exact .same hv rfl rfl
  | tearing ht h =>
    cases h with
    | begun td links hb hg hs =>
      have hv := view_placed_same (f := lodges) (p := .tearing td .queued) ht
        (lodges_plain _ _ hb.plain).symm
      refine .same hv ?_ ?_
      · split <;> rfl
      · split <;> rfl
    | taken td link hp hl hw => exact .same (lodges_placed ht (by rw [hp]; rfl)) rfl rfl
    | ended td stage links queue hf hp hv =>
      refine .same (view_without_same ht (by rw [hp]; rfl)) ?_ ?_
      · split <;> split <;> split <;> rfl
      · split <;> split <;> split <;> rfl
  | leaving ht h =>
    cases h with
    | finished op r hr hp =>
      refine .same (view_without_same ht ?_) rfl rfl
      rcases hp with ⟨hp, _⟩ | ⟨_, _, _, _, hp⟩
      · rw [hp]
        rfl
      · rw [hp]
        rfl
    | dropped links queue ha hd => exact hd.berth hm ht

end

/-! ## The invariant -/

structure Lodging (tr : List Observation) (m : Machine) : Prop where
  known : ∀ g link, (g, link) ∈ openings tr → link < m.links.length
  apart : ∀ g link i, (g, link) ∈ openings tr → m.view lodges i ≠ some link
  one : ∀ i j link, m.view lodges i = some link → m.view lodges j = some link → i = j
  once : ((openings tr).map Prod.snd).Nodup
  kept : ∀ i link, (i, link) ∈ dialings tr →
    (∃ g, (g, link) ∈ openings tr) ∨ m.view lodges i = some link ∨ ShutIn m.links link

section
variable {m n : Machine} {tr os : List Observation}

theorem Fit.lodges_lt (hf : Fit m) {i : TaskId} {link : LinkId} (h : m.view lodges i = some link) :
    link < m.links.length := by
  obtain ⟨t, ht, hl⟩ := view_eq_some.mp h
  exact hf.lodged i t link ht hl

/-- Links that were opened stay. -/
theorem Lodging.known_after (hm : Lodging tr m) (tended : Tended os m.links n.links) :
    ∀ g link, (g, link) ∈ openings tr → link < n.links.length := by
  intro g link h
  exact Nat.lt_of_lt_of_le (hm.known g link h) tended.length_le

/-- A task that dials holds a link that nobody had before. -/
theorem Lodging.dial (hm : Lodging tr m) (hf : Fit m) (tended : Tended os m.links n.links)
    {i : TaskId} (hi : m.view lodges i = none)
    (hv : n.view lodges = update (m.view lodges) i (some m.links.length))
    (ho : openings os = []) (hd : dialings os = [(i, m.links.length)]) : Lodging (tr ++ os) n := by
  have known := hm.known_after tended
  have hos : openings (tr ++ os) = openings tr := by rw [openings_append, ho, List.append_nil]
  refine ⟨hos ▸ known, ?_, ?_, hos ▸ hm.once, ?_⟩
  · intro g link j h hj
    rw [hv] at hj
    rcases of_update_some hj with ⟨_, hl⟩ | ⟨_, hj⟩
    · exact Nat.ne_of_lt (hm.known g link (hos ▸ h)) hl
    · exact hm.apart g link j (hos ▸ h) hj
  · intro j k link hj hk
    rw [hv] at hj hk
    rcases of_update_some hj with ⟨hj, hl⟩ | ⟨_, hj⟩
    · rcases of_update_some hk with ⟨hk, _⟩ | ⟨_, hk⟩
      · exact hj.trans hk.symm
      · exact absurd hl (Nat.ne_of_lt (hf.lodges_lt hk))
    · rcases of_update_some hk with ⟨_, hl⟩ | ⟨_, hk⟩
      · exact absurd hl (Nat.ne_of_lt (hf.lodges_lt hj))
      · exact hm.one j k link hj hk
  · intro j link h
    rw [dialings_append, hd, List.mem_append, List.mem_singleton] at h
    rcases h with h | h
    · rcases hm.kept j link h with hk | hk | hk
      · exact .inl (hos ▸ hk)
      · refine .inr (.inl ?_)
        have hne : j ≠ i := by
          rintro rfl
          cases hi.symm.trans hk
        rw [hv, Function.update_of_ne hne, hk]
      · exact .inr (.inr (tended.shut link hk))
    · cases h
      exact .inr (.inl (by rw [hv, Function.update_self]))

/-- A task that installs its link holds it no longer, and nobody else does. -/
theorem Lodging.install (hm : Lodging tr m) (hf : Fit m) (tended : Tended os m.links n.links)
    {i : TaskId} {g : Generation} {link : LinkId} (hi : m.view lodges i = some link)
    (hv : n.view lodges = update (m.view lodges) i none) (ho : openings os = [(g, link)])
    (hd : dialings os = []) : Lodging (tr ++ os) n := by
  have known := hm.known_after tended
  have hds : dialings (tr ++ os) = dialings tr := by rw [dialings_append, hd, List.append_nil]
  have hos : ∀ {p}, p ∈ openings (tr ++ os) ↔ p ∈ openings tr ∨ p = (g, link) := by
    intro p
    rw [openings_append, ho, List.mem_append, List.mem_singleton]
  refine ⟨?_, ?_, ?_, ?_, ?_⟩
  · intro g' l h
    rcases hos.mp h with h | h
    · exact known g' l h
    · cases h
      exact Nat.lt_of_lt_of_le (hf.lodges_lt hi) tended.length_le
  · intro g' l j h hj
    rw [hv] at hj
    obtain ⟨hne, hj⟩ := of_update_none hj
    rcases hos.mp h with h | h
    · exact hm.apart g' l j h hj
    · cases h
      exact hne (hm.one j i link hj hi)
  · intro j k l hj hk
    rw [hv] at hj hk
    exact hm.one j k l (of_update_none hj).2 (of_update_none hk).2
  · rw [openings_append, ho, List.map_append]
    refine nodup_append_one hm.once ?_
    intro h
    obtain ⟨⟨g', l⟩, hl, hlink⟩ := List.mem_map.mp h
    exact hm.apart g' l i hl (hi.trans (congrArg some hlink.symm))
  · intro j l h
    rcases hm.kept j l (hds ▸ h) with ⟨g', hk⟩ | hk | hk
    · exact .inl ⟨g', hos.mpr (.inl hk)⟩
    · by_cases hji : j = i
      · have hl : l = link := Option.some.inj (hk.symm.trans (hji ▸ hi))
        exact .inl ⟨g, hos.mpr (.inr (by rw [hl]))⟩
      · refine .inr (.inl ?_)
        rw [hv, Function.update_of_ne hji, hk]
    · exact .inr (.inr (tended.shut l hk))

theorem Lodging.keep (hm : Lodging tr m) (hf : Fit m) (h : Change m os n) :
    Lodging (tr ++ os) n := by
  have tended := h.tended
  have known := hm.known_after tended
  cases h.berth hf with
  | same hv ho hd =>
    have hos : openings (tr ++ os) = openings tr := by rw [openings_append, ho, List.append_nil]
    have hds : dialings (tr ++ os) = dialings tr := by rw [dialings_append, hd, List.append_nil]
    refine ⟨hos ▸ known, ?_, hv ▸ hm.one, hos ▸ hm.once, ?_⟩
    · intro g link i h
      rw [hv]
      exact hm.apart g link i (hos ▸ h)
    · intro i link h
      rcases hm.kept i link (hds ▸ h) with hk | hk | hk
      · exact .inl (hos ▸ hk)
      · exact .inr (.inl (hv ▸ hk))
      · exact .inr (.inr (tended.shut link hk))
  | dialed i hi hv ho hd => exact hm.dial hf tended hi hv ho hd
  | installed i g link hi hv ho hd => exact hm.install hf tended hi hv ho hd
  | left i hv hs ho hd =>
    have hos : openings (tr ++ os) = openings tr := by rw [openings_append, ho, List.append_nil]
    have hds : dialings (tr ++ os) = dialings tr := by rw [dialings_append, hd, List.append_nil]
    refine ⟨hos ▸ known, ?_, ?_, hos ▸ hm.once, ?_⟩
    · intro g link j h hj
      rw [hv] at hj
      exact hm.apart g link j (hos ▸ h) (of_update_none hj).2
    · intro j k link hj hk
      rw [hv] at hj hk
      exact hm.one j k link (of_update_none hj).2 (of_update_none hk).2
    · intro j link h
      rcases hm.kept j link (hds ▸ h) with hk | hk | hk
      · exact .inl (hos ▸ hk)
      · by_cases hji : j = i
        · exact .inr (.inr (hs link (hji ▸ hk)))
        · refine .inr (.inl ?_)
          rw [hv, Function.update_of_ne hji, hk]
      · exact .inr (.inr (tended.shut link hk))

end

theorem lodging_invariant : Invariant (fun tr m => Fit m ∧ Lodging tr m) := by
  refine fit_invariant.and ?_ (fun m os n tr h hf hm => hm.keep hf h) ?_
  · intro m h
    obtain ⟨_, _, _, _, rfl⟩ := h.fields
    exact ⟨fun _ _ h => (nomatch h), fun _ _ _ h => (nomatch h), fun _ _ _ h => (nomatch h),
      List.nodup_nil, fun _ _ h => (nomatch h)⟩
  · intro tr n handler history h
    exact ⟨h.known, h.apart, h.one, h.once, h.kept⟩

end GameLink.Client

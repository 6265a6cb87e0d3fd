import GameLink.Proofs.Client.Accounted
import GameLink.Proofs.Client.Onward

/-! # Who answers for the state

A client that connects has a task that brings its link up, and one that closes
has a task that tears its link down, unless that task was dropped (`Custody`).
Nobody takes the place of a task that was dropped: a teardown that was given up
leaves the client closing for good, and a connect that was given up leaves it
connecting until a close takes the next generation (`lifecycle_attended`).
Requests leave nothing behind.
-/
namespace GameLink.Client

/-- The generation that a task brings up. -/
def Position.brings : Position → Option Generation
  | .dialing g _ _ _ | .installing g _ => some g
  | _ => none

/-- The operation was given up before it returned. -/
structure Dropped (tr : List Observation) (m : Machine) (i : TaskId) (op : Operation) : Prop where
  started : .started i op ∈ tr
  gone : m.task? i = none
  silent : ∀ r, .finished i r ∉ tr

/-- Whoever connects or closes a client is there, or was dropped. -/
structure Custody (tr : List Observation) (m : Machine) : Prop where
  bringing : ∀ i t g, m.task? i = some t → t.position.brings = some g →
    ∃ op, t.role = .operation op ∧ op.connects = true
  tearing : ∀ i t td stage, m.task? i = some t → t.position = .tearing td stage →
    .closing i td ∈ tr
  connecting : m.state = .connecting →
    (∃ i t, m.task? i = some t ∧ t.position.brings = some m.generation) ∨
      ∃ i op, op.connects = true ∧ Dropped tr m i op
  closing : m.state = .closing →
    (∃ i t td stage, m.task? i = some t ∧ t.position = .tearing td stage) ∨
      ∃ i notify, .closing i ⟨m.generation, .user, notify⟩ ∈ tr ∧
        Dropped tr m i (.close notify)

section
variable {m n : Machine} {t u : Task} {os tr : List Observation} {i : TaskId} {op : Operation}

/-! ## Operations that are dropped -/

/-- Only a task that is there finishes. -/
theorem Change.finisher (hm : Fit m) (h : Change m os n) {r : Result}
    (hr : .finished i r ∈ os) : ∃ op, m.view roles i = some (.operation op) := by
  have hr := mem_results.mpr hr
  cases h.errand hm with
  | same hv he ho | asked op hv hn he ho | left j hv he ho =>
    rw [ho] at hr
    cases hr
  | installed j op g link hj hv he ho | finished j op r' hj hv he ho =>
    rw [ho] at hr
    cases List.mem_singleton.mp hr
    exact ⟨op, hj⟩

theorem Dropped.keep (hm : Fit m) (he : Errands tr m) (h : Change m os n)
    (hd : Dropped tr m i op) : Dropped (tr ++ os) n i op := by
  refine ⟨List.mem_append_left _ hd.started, ?_, ?_⟩
  · exact h.task?_eq_none (he.known i op (mem_errands.mpr hd.started)) hd.gone
  · intro r hr
    rcases List.mem_append.mp hr with hr | hr
    · exact hd.silent r hr
    · obtain ⟨op', hop⟩ := h.finisher hm hr
      obtain ⟨t, ht, _⟩ := view_eq_some.mp hop
      cases hd.gone.symm.trans ht

/-- Who goes without a word was dropped. -/
theorem Dropped.of_silent (he : Errands tr m) (ht : m.task? i = some t)
    (hr : t.role = .operation op) (hn : n.task? i = none) : Dropped (tr ++ []) n i op := by
  have role : m.view roles i = some (.operation op) := view_eq_some.mpr ⟨t, ht, congrArg some hr⟩
  rw [List.append_nil]
  refine ⟨mem_errands.mp (he.asked i op role), hn, fun r hr => ?_⟩
  cases role.symm.trans (he.ended i r (mem_results.mpr hr)).2

/-! ## Each change keeps the custody -/

/-- What a change makes of the state and the generation of a client, and whose doing it is. -/
inductive Turn (m n : Machine) : Prop
  | same (hs : n.state = m.state) (hg : n.generation = m.generation)
  | dials {i : TaskId} {t : Task} (ht : n.task? i = some t)
      (hb : t.position.brings = some n.generation) (hs : m.state = .idle)
      (hn : n.state = .connecting) (hg : n.generation = m.generation + 1)
  | backsOut (hs : m.state = .connecting) (hn : n.state = .idle)
      (hg : n.generation = m.generation + 1)
  | arrives {i : TaskId} {t : Task} (ht : m.task? i = some t)
      (hb : t.position.brings = some m.generation) (hs : m.state = .connecting)
      (hn : n.state = .idle ∨ n.state = .open) (hg : n.generation = m.generation)
  | tears {i : TaskId} {t : Task} {td : Teardown} (ht : n.task? i = some t)
      (hp : t.position = .tearing td .queued) (hs : m.state = .open) (hn : n.state = .closing)
      (hg : n.generation = m.generation)
  | torn {i : TaskId} {t : Task} {td : Teardown} {stage : TeardownStage}
      (ht : m.task? i = some t) (hp : t.position = .tearing td stage) (hn : n.state = .idle)
      (hg : n.generation = m.generation)

theorem Change.turn (h : Change m os n) : Turn m n := by
  cases h with
  | outside h => cases h <;> exact .same rfl rfl
  | released h => cases h <;> exact .same rfl rfl
  | connecting ht h =>
    cases h with
    | begun op url deadline stage hr hp hmsg hs hd hw hc =>
      exact .dials (Machine.task?_move_self ht (.dialing (m.generation + 1) url deadline stage))
        rfl hs rfl rfl
    | backedOut _ hr hp hs => exact .backsOut hs rfl rfl
    | abandoned g url deadline stage hp hg hs =>
      exact .arrives ht (by rw [hp, hg]; rfl) hs (.inl rfl) rfl
    | installed op g link hr hp hl hg hs =>
      exact .arrives ht (by rw [hp, hg]; rfl) hs (.inr rfl) rfl
    | _ => exact .same rfl rfl
  | exchanging _ h => cases h <;> exact .same rfl rfl
  | background _ h => cases h <;> exact .same rfl rfl
  | tearing ht h =>
    cases h with
    | begun td links hb hg hs =>
      exact .tears (Machine.task?_move_self ht (.tearing td .queued)) rfl hs rfl rfl
    | taken td link hp hl hw => exact .same rfl rfl
    | ended td stage links queue hf hp hv => exact .torn ht hp rfl rfl
  | leaving _ h => cases h <;> exact .same rfl rfl

/-- A client connects because it did before, or because a task has begun to. -/
theorem Change.connecting_of (h : Change m os n) (hs : n.state = .connecting) :
    (m.state = .connecting ∧ n.generation = m.generation) ∨
      ∃ i t, n.task? i = some t ∧ t.position.brings = some n.generation := by
  cases h.turn with
  | same hs' hg => exact .inl ⟨hs'.symm.trans hs, hg⟩
  | dials ht hb => exact .inr ⟨_, _, ht, hb⟩
  | backsOut _ hn => cases hs.symm.trans hn
  | arrives _ _ _ hn => rcases hn with hn | hn <;> cases hs.symm.trans hn
  | tears _ _ _ hn => cases hs.symm.trans hn
  | torn _ _ hn => cases hs.symm.trans hn

/-- A client closes because it did before, or because a task has begun to tear its link down. -/
theorem Change.closing_of (h : Change m os n) (hs : n.state = .closing) :
    (m.state = .closing ∧ n.generation = m.generation) ∨
      ∃ i t td stage, n.task? i = some t ∧ t.position = .tearing td stage := by
  cases h.turn with
  | same hs' hg => exact .inl ⟨hs'.symm.trans hs, hg⟩
  | dials _ _ _ hn => cases hs.symm.trans hn
  | backsOut _ hn => cases hs.symm.trans hn
  | arrives _ _ _ hn => rcases hn with hn | hn <;> cases hs.symm.trans hn
  | tears ht hp => exact .inr ⟨_, _, _, _, ht, hp⟩
  | torn _ _ hn => cases hs.symm.trans hn

theorem Host.brings_position (host : Host) (x : Exchange) (stage : ExchangeStage) :
    (host.position x stage).brings = none := by
  cases host <;> rfl

theorem Host.position_ne_tearing (host : Host) (x : Exchange) (stage : ExchangeStage)
    (td : Teardown) (stage' : TeardownStage) : host.position x stage ≠ .tearing td stage' := by
  cases host <;> exact fun h => nomatch h

theorem Position.brings_plain {p : Position} (h : p.plain = true) : p.brings = none := by
  cases p with
  | dialing g url deadline stage => cases h
  | installing g link => cases h
  | _ => rfl

/-- Whoever brings a generation up did so before the step, or begins to connect with it. -/
theorem Goes.of_brings {g : Generation} (h : Goes m os t u) (hb : u.position.brings = some g) :
    t.position.brings = some g ∨ t.position = .start ∧ m.state = .idle ∧
      ∃ op, t.role = .operation op ∧ op.connects = true := by
  obtain ⟨_, hpos | hon⟩ := h
  · exact .inl (hpos ▸ hb)
  · generalize u.position = p at hon hb
    cases hon with
    | dials op url stage hr hc hp hs hw => exact .inr ⟨hp, hs, op, hr, hc⟩
    | hangs g' url deadline wake hp => exact .inl (hp ▸ hb)
    | links g' url deadline stage hp => exact .inl (hp ▸ hb)
    | asks host x | stalls host x | writes host x =>
      cases (host.brings_position x _).symm.trans hb
    | _ => cases hb

/-- Whoever tears its link down did so before the step, or begins to with it. -/
theorem Goes.of_tearing (h : Goes m os t u) {td : Teardown} {stage : TeardownStage}
    (hp : u.position = .tearing td stage) :
    (∃ before, t.position = .tearing td before) ∨ .closing t.id td ∈ os := by
  obtain ⟨_, hpos | hon⟩ := h
  · exact .inl ⟨stage, hpos ▸ hp⟩
  · rw [hp] at hon
    generalize hq : Position.tearing td stage = q at hon
    cases hon with
    | tears td' links os hb hg hs ho =>
      cases hq
      exact .inr ho
    | takes td' link hp' hl hw =>
      cases hq
      exact .inl ⟨.queued, hp'⟩
    | asks host x | stalls host x | writes host x =>
      exact absurd hq.symm (host.position_ne_tearing _ _ _ _)
    | _ => cases hq

/-- A task goes on bringing its generation up as long as the client connects for it. -/
theorem Goes.brings (h : Goes m os t u) (hp : t.position.brings = some m.generation)
    (hs : m.state = .connecting) : u.position.brings = some m.generation := by
  obtain ⟨_, hpos | hon⟩ := h
  · exact hpos ▸ hp
  · have linked : t.position.plain = false := by
      rw [← Bool.not_eq_true]
      intro hplain
      cases hp.symm.trans (Position.brings_plain hplain)
    generalize u.position = p at hon
    cases hon.shifts linked with
    | hangs g url deadline wake hq => rwa [hq] at hp
    | links g url deadline stage hq => rwa [hq] at hp
    | discards g link hq hg =>
      rw [hq] at hp
      exact absurd ⟨(Option.some.inj hp).symm, hs⟩ hg
    | takes td link hq hw =>
      rw [hq] at hp
      cases hp

/-- It leaves a client that connects only where it is dropped. -/
theorem Departs.brings (h : Departs m t os n) (hp : t.position.brings = some n.generation)
    (hs : n.state = .connecting) : os = [] := by
  cases h with
  | opens op g link hr hq hn ho => cases hs.symm.trans hn
  | fails op g url deadline stage f hr hq hg ho =>
    rw [hq] at hp
    exact absurd ⟨(Option.some.inj hp).symm, hs⟩ hg
  | discards op link f hr hq ho => rw [hq] at hp; cases hp
  | settles op r hr hq ho => rw [hq] at hp; cases hp
  | answers op x stage r hr hq ho => rw [hq] at hp; cases hp
  | givesUp host x stage hr hq hv ho => exact ho
  | retires hr hq ho => exact ho
  | tears td stage hq hn ho hr => cases hs.symm.trans hn
  | dropped ha hs' hg ho => exact ho

theorem Goes.tearing (h : Goes m os t u) {td : Teardown} {stage : TeardownStage}
    (hp : t.position = .tearing td stage) : ∃ next, u.position = .tearing td next := by
  obtain ⟨_, hpos | hon⟩ := h
  · exact ⟨stage, hpos.trans hp⟩
  · generalize u.position = p at hon
    cases hon.shifts (by rw [hp]; rfl) with
    | hangs g url deadline wake hq => cases hq.symm.trans hp
    | links g url deadline stage' hq => cases hq.symm.trans hp
    | discards g link hq hg => cases hq.symm.trans hp
    | takes td' link hq hw =>
      cases hq.symm.trans hp
      exact ⟨_, rfl⟩

/-- A teardown leaves a client that closes only where its close is dropped. -/
theorem Departs.tearing (h : Departs m t os n) {td : Teardown} {stage : TeardownStage}
    (hp : t.position = .tearing td stage) (hs : n.state = .closing) :
    os = [] ∧ t.aborted = true := by
  cases h with
  | opens op g link hr hq hn ho => cases hq.symm.trans hp
  | fails op g url deadline stage' f hr hq hg ho => cases hq.symm.trans hp
  | discards op link f hr hq ho => cases hq.symm.trans hp
  | settles op r hr hq ho => cases hq.symm.trans hp
  | answers op x stage' r hr hq ho => cases hq.symm.trans hp
  | givesUp host x stage' hr hq hv ho =>
    exact absurd (hq.symm.trans hp) (host.position_ne_tearing x stage' td stage)
  | retires hr hq ho =>
    rcases hq with hq | ⟨k, hq⟩
    · cases hq.symm.trans hp
    · cases hq.symm.trans hp
  | tears td' stage' hq hn ho hr => cases hs.symm.trans hn
  | dropped ha hs' hg ho => exact ⟨ho, ha⟩

/-- A task that is told to stop carries out an operation, which for a teardown is a close. -/
theorem Fit.close_of_tearing (hm : Fit m) (ht : m.task? i = some t) (ha : t.aborted = true)
    {td : Teardown} {stage : TeardownStage} (hp : t.position = .tearing td stage) :
    ∃ g notify, t.role = .operation (.close notify) ∧ td = ⟨g, .user, notify⟩ := by
  have hop := hm.told i t ht ha
  have hf := hm.fits i t ht
  rw [Task.isOperation] at hop
  rw [hp] at hf
  generalize t.role = r at hf hop
  cases hf with
  | @closing notify g => exact ⟨g, notify, rfl, rfl⟩
  | remote => cases hop
  | failed => cases hop
  | silent => cases hop

theorem Custody.keep (hm : (Fit m ∧ (m.life tr).Sound) ∧ Fit m ∧ Errands tr m)
    (hc : Custody tr m) (h : Change m os n) : Custody (tr ++ os) n := by
  obtain ⟨⟨hf, sound⟩, _, he⟩ := hm
  refine ⟨?_, ?_, ?_, ?_⟩
  · intro i u g hu hg
    rcases h.origin hu with ⟨t, ht, hgoes⟩ | ⟨_, hp, _⟩
    · rw [hgoes.1]
      rcases hgoes.of_brings hg with hb | ⟨_, _, connects⟩
      · exact hc.bringing i t g ht hb
      · exact connects
    · rw [hp] at hg
      cases hg
  · intro i u td stage hu hp
    rcases h.origin hu with ⟨t, ht, hgoes⟩ | ⟨_, hp', _⟩
    · rcases hgoes.of_tearing hp with ⟨before, hq⟩ | ho
      · exact List.mem_append_left _ (hc.tearing i t td before ht hq)
      · exact List.mem_append_right _ (findTask_id ht ▸ ho)
    · cases hp'.symm.trans hp
  · intro hs
    rcases h.connecting_of hs with ⟨hms, hg⟩ | there
    · rcases hc.connecting hms with ⟨i, t, ht, hb⟩ | ⟨i, op, hop, hd⟩
      · rcases h.fate hf ht with ⟨u, hu, hgoes⟩ | ⟨hn, hdep⟩
        · exact .inl ⟨i, u, hu, hg ▸ hgoes.brings hb hms⟩
        · obtain ⟨op, hr, hop⟩ := hc.bringing i t _ ht hb
          obtain rfl := hdep.brings (hg ▸ hb) hs
          exact .inr ⟨i, op, hop, .of_silent he ht hr hn⟩
      · exact .inr ⟨i, op, hop, hd.keep hf he h⟩
    · exact .inl there
  · intro hs
    rcases h.closing_of hs with ⟨hms, hg⟩ | there
    · rcases hc.closing hms with ⟨i, t, td, stage, ht, hp⟩ | ⟨i, notify, hclosing, hd⟩
      · rcases h.fate hf ht with ⟨u, hu, hgoes⟩ | ⟨hn, hdep⟩
        · obtain ⟨next, hnext⟩ := hgoes.tearing hp
          exact .inl ⟨i, u, td, next, hu, hnext⟩
        · obtain ⟨rfl, ha⟩ := hdep.tearing hp hs
          obtain ⟨g, notify, hr, rfl⟩ := hf.close_of_tearing ht ha hp
          have tears : (m.life tr).tears i = some (⟨g, .user, notify⟩, stage) :=
            view_eq_some.mpr ⟨t, ht, by rw [hp]; rfl⟩
          have current : g = n.generation :=
            (sound.posts.tearing i _ _ tears).2.1.trans hg.symm
          refine .inr ⟨i, notify, ?_, .of_silent he ht hr hn⟩
          exact current ▸ List.mem_append_left _ (hc.tearing i t _ stage ht hp)
      · exact .inr ⟨i, notify, hg ▸ List.mem_append_left _ hclosing, hd.keep hf he h⟩
    · exact .inl there

theorem custody_invariant : Invariant (fun tr m =>
    ((Fit m ∧ (m.life tr).Sound) ∧ Fit m ∧ Errands tr m) ∧ Custody tr m) := by
  refine (Life.sound_invariant.both errands_invariant).and ?_ ?_ ?_
  · intro m h
    obtain ⟨_, _, _, _, rfl⟩ := h.fields
    exact ⟨fun _ _ _ h => (nomatch h), fun _ _ _ _ h => (nomatch h), fun h => (nomatch h),
      fun h => (nomatch h)⟩
  · exact fun m os n tr h hm hc => hc.keep hm h
  · intro tr n handler history h
    obtain ⟨bringing, tearing, connecting, closing⟩ := h
    refine ⟨bringing, tearing, fun hs => ?_, fun hs => ?_⟩
    · exact (connecting hs).imp_right fun ⟨i, op, hop, hd⟩ =>
        ⟨i, op, hop, hd.started, hd.gone, hd.silent⟩
    · exact (closing hs).imp_right fun ⟨i, notify, hcl, hd⟩ =>
        ⟨i, notify, hcl, hd.started, hd.gone, hd.silent⟩

/-! ## Where nobody is in charge -/

/-- A closing client without a teardown has nobody to end it. -/
def Life.Stranded (c : Life) : Prop := c.state = .closing ∧ ∀ i, c.tears i = none

theorem Life.Stranded.keep {c d : Life} (hc : c.Stranded) (h : Life.Step c d) : d.Stranded := by
  obtain ⟨hs, none⟩ := hc
  cases h with
  | stay => exact ⟨hs, none⟩
  | unheld => exact ⟨hs, none⟩
  | begun hs' => cases hs.symm.trans hs'
  | backedOut hs' => cases hs.symm.trans hs'
  | abandoned hs' => cases hs.symm.trans hs'
  | installed link i j hs' hi hj hij => cases hs.symm.trans hs'
  | heard i g link frame hi hg => exact ⟨hs, none⟩
  | began i td hs' hg hi => cases hs.symm.trans hs'
  | taken i td stage hi => cases (none i).symm.trans hi
  | ended i td stage hi hw => cases (none i).symm.trans hi
  | left i g l hi hg => exact ⟨hs, none⟩
  | dropped i =>
    refine ⟨hs, fun k => ?_⟩
    by_cases hk : k = i
    · exact hk ▸ Function.update_self ..
    · exact (Function.update_of_ne hk _ _).trans (none k)
  | cancelled g hh hg => exact ⟨hs, none⟩
  | emptied hh hc => exact ⟨hs, none⟩

theorem Change.generation_le (h : Change m os n) : m.generation ≤ n.generation := by
  cases h.turn with
  | dials _ _ _ _ hg => exact hg ▸ Nat.le_succ _
  | backsOut _ _ hg => exact hg ▸ Nat.le_succ _
  | same _ hg => exact Nat.le_of_eq hg.symm
  | arrives _ _ _ _ hg => exact Nat.le_of_eq hg.symm
  | tears _ _ _ _ hg => exact Nat.le_of_eq hg.symm
  | torn _ _ _ hg => exact Nat.le_of_eq hg.symm

/-- Only who brings the link of a client up, or a close, ends its connecting. -/
theorem Change.of_connecting (hm : (m.life tr).Sound) (h : Change m os n)
    (hs : m.state = .connecting) :
    (n.state = .connecting ∧ n.generation = m.generation) ∨ m.generation < n.generation ∨
      ∃ i t, m.task? i = some t ∧ t.position.brings = some m.generation := by
  cases h.turn with
  | same hs' hg => exact .inl ⟨hs'.trans hs, hg⟩
  | dials _ _ hs' => cases hs.symm.trans hs'
  | backsOut _ _ hg => exact .inr (.inl (hg ▸ Nat.lt_succ_self _))
  | arrives ht hb => exact .inr (.inr ⟨_, _, ht, hb⟩)
  | tears _ _ hs' => cases hs.symm.trans hs'
  | @torn i t td stage ht hp =>
    have tears : (m.life tr).tears i = some (td, stage) :=
      view_eq_some.mpr ⟨t, ht, by rw [hp]; rfl⟩
    cases hs.symm.trans (hm.posts.tearing _ _ _ tears).1

/-- A client that connects for a generation that nobody brings up does so until the next one. -/
def Adrift (g : Generation) (m : Machine) : Prop :=
  g < m.generation ∨ m.generation = g ∧ m.state = .connecting ∧
    ∀ i t, m.task? i = some t → t.position.brings ≠ some g

theorem Adrift.keep {g : Generation} (hm : (m.life tr).Sound) (ha : Adrift g m)
    (h : Change m os n) : Adrift g n := by
  rcases ha with hlt | ⟨rfl, hs, nobody⟩
  · exact .inl (Nat.lt_of_lt_of_le hlt h.generation_le)
  · rcases h.of_connecting hm hs with ⟨hs', hg⟩ | hlt | ⟨i, t, ht, hb⟩
    · refine .inr ⟨hg, hs', fun i u hu hb => ?_⟩
      rcases h.origin hu with ⟨t, ht, hgoes⟩ | ⟨_, hp, _⟩
      · rcases hgoes.of_brings hb with hb | ⟨_, hidle, _⟩
        · exact nobody i t ht hb
        · cases hs.symm.trans hidle
      · rw [hp] at hb
        cases hb
    · exact .inl hlt
    · exact absurd hb (nobody i t ht)

end

namespace Machine

variable {may : Move → Prop} {m n : Machine} {i : TaskId} {t : Task}

/-- Who answers for the state, and what comes of it where nobody does. -/
structure Attended (may : Move → Prop) (m : Machine) : Prop where
  connecting : m.state = .connecting →
    (∃ i t, m.task? i = some t ∧ t.position.brings = some m.generation) ∨
      ∃ i op, op.connects = true ∧ Dropped m.trace m i op
  closing : m.state = .closing →
    (∃ i t td stage, m.task? i = some t ∧ t.position = .tearing td stage) ∨
      ∃ i notify, .closing i ⟨m.generation, .user, notify⟩ ∈ m.trace ∧
        Dropped m.trace m i (.close notify)
  /-- Where no connect and no close was dropped, a client on which nobody works is idle or open. -/
  rests : (∀ i op, Dropped m.trace m i op → op.connects = false ∧ ∀ n, op ≠ .close n) →
    (∀ i t, m.task? i = some t → t.isOperation = false) →
    (∀ i t td stage, m.task? i = some t → t.position ≠ .tearing td stage) →
      m.state = .idle ∨ m.state = .open
  /-- From there a connect and a close go on. -/
  dials : m.state = .idle → ∀ i t session online, m.task? i = some t → t.aborted = false →
    t.role = .operation (.connect session online) → t.position = .start →
    session.token.isEmpty = false → session.accessExpired m.clock = .ok false →
      (m.run (.task i)).state = .connecting
  closes : m.state = .open → ∀ i t notify, m.task? i = some t → t.aborted = false →
    t.role = .operation (.close notify) → t.position = .start →
      (m.run (.task i)).state = .closing
  /-- A slot belongs to a request that is under way, and never to one that was dropped. -/
  slots : ∀ cid ∈ m.registry.slots, ∃ i t k, m.task? i = some t ∧ t.ticket? = some k ∧ k.cid = cid
  spared : ∀ i op cid, Dropped m.trace m i op → .issued i cid ∈ m.trace → cid ∉ m.registry.slots
  /-- Nobody ends a teardown that was given up. -/
  stranded : m.state = .closing →
    (∀ i t td stage, m.task? i = some t → t.position ≠ .tearing td stage) →
      ∀ n, Reaches may m n → n.state = .closing
  /-- Only the next generation ends a connect that was given up. -/
  adrift : m.state = .connecting →
    (∀ i t, m.task? i = some t → t.position.brings ≠ some m.generation) →
      ∀ n, Reaches may m n → n.generation = m.generation → n.state = .connecting

/-- A connect with a session that it accepts leaves an idle client connecting. -/
theorem run_connect (hs : m.state = .idle) (ht : m.task? i = some t) (ha : t.aborted = false)
    {session : Session} {online : Option Bool}
    (hr : t.role = .operation (.connect session online)) (hp : t.position = .start)
    (he : session.token.isEmpty = false) (hx : session.accessExpired m.clock = .ok false) :
    (m.run (.task i)).state = .connecting := by
  have run : m.run (.task i) =
      m.beginDial t session (online.getD m.settings.realtime.appearOnline) := by
    simp [Machine.run, ht, runTask, ha, hp, runStart, hr, beginConnect, he, hx, hs]
  rw [run]
  rfl

theorem run_close (hs : m.state = .open) (ht : m.task? i = some t) (ha : t.aborted = false)
    {notify : Bool} (hr : t.role = .operation (.close notify)) (hp : t.position = .start) :
    (m.run (.task i)).state = .closing := by
  have run : m.run (.task i) = m.beginTeardown t ⟨m.generation, .user, notify⟩ := by
    simp [Machine.run, ht, runTask, ha, hp, runStart, hr, beginClose, hs]
  obtain ⟨_, _, he, _⟩ := @beginTeardown_eq m t ⟨m.generation, .user, notify⟩ rfl hs
  rw [run, he]

section
variable (hm : m.Reachable may)
include hm

theorem Reachable.custody : Custody m.trace m := (custody_invariant.reached hm).2

theorem Reachable.rests
    (hd : ∀ i op, Dropped m.trace m i op → op.connects = false ∧ ∀ n, op ≠ .close n)
    (hi : ∀ i t, m.task? i = some t → t.isOperation = false)
    (ht : ∀ i t td stage, m.task? i = some t → t.position ≠ .tearing td stage) :
    m.state = .idle ∨ m.state = .open := by
  cases hs : m.state with
  | idle => exact .inl rfl
  | «open» => exact .inr rfl
  | connecting =>
    rcases hm.custody.connecting hs with ⟨i, t, h, hb⟩ | ⟨i, op, hop, h⟩
    · obtain ⟨op, hr, _⟩ := hm.custody.bringing i t _ h hb
      have busy := hi i t h
      rw [Task.isOperation, hr] at busy
      cases busy
    · cases hop.symm.trans (hd i op h).1
  | closing =>
    rcases hm.custody.closing hs with ⟨i, t, td, stage, h, hp⟩ | ⟨i, notify, _, h⟩
    · exact absurd hp (ht i t td stage h)
    · exact absurd rfl ((hd i _ h).2 notify)

theorem Reachable.slot_owner {cid : String} (h : cid ∈ m.registry.slots) :
    ∃ i t k, m.task? i = some t ∧ t.ticket? = some k ∧ k.cid = cid := by
  obtain ⟨i, hw⟩ := hm.accounts.held.slots cid h
  obtain ⟨t, k, ht, hk, he⟩ := ticket_of_waits hw
  exact ⟨i, t, k, ht, hk, he⟩

theorem Reachable.spared {op : Operation} {cid : String} (hd : Dropped m.trace m i op)
    (hi : .issued i cid ∈ m.trace) : cid ∉ m.registry.slots := by
  intro h
  obtain ⟨j, hw⟩ := hm.accounts.held.slots cid h
  have issued : (j, cid) ∈ issues (deals m.trace) := hm.accounts.held.issuer j cid hw
  rw [issues_deals, mem_issues] at issued
  obtain rfl := hm.issuer_eq hi issued
  obtain ⟨t, _, ht, _⟩ := ticket_of_waits hw
  cases hd.gone.symm.trans ht

theorem Reachable.stranded (hs : m.state = .closing)
    (ht : ∀ i t td stage, m.task? i = some t → t.position ≠ .tearing td stage)
    (hmn : Reaches may m n) : n.state = .closing := by
  have base : (m.life m.trace).Stranded := by
    refine ⟨hs, fun i => ?_⟩
    cases h : (m.life m.trace).tears i with
    | none => rfl
    | some a =>
      obtain ⟨t, hti, hp⟩ := view_eq_some.mp h
      unfold tears at hp
      split at hp
      · rename_i td stage hpos
        exact absurd hpos (ht i t td stage hti)
      · cases hp
  have kept := hmn.kept (I := fun rs m => (m.life (rs.map Record.what)).Stranded) hm
    fit_invariant ?_ (fun _ _ _ _ h => h) base
  · exact kept.1
  · intro m os n rs h hf hc
    have step : Life.Step (m.life (rs.map Record.what)) (n.life (rs.map Record.what ++ os)) :=
      h.life hf
    simpa [Function.comp_def] using hc.keep step

theorem Reachable.adrift (hs : m.state = .connecting)
    (ht : ∀ i t, m.task? i = some t → t.position.brings ≠ some m.generation)
    (hmn : Reaches may m n) (hg : n.generation = m.generation) : n.state = .connecting := by
  have kept := hmn.kept (I := fun _ k => Adrift m.generation k) hm Life.sound_invariant
    (fun _ _ _ _ h hf ha => ha.keep hf.2 h) (fun _ _ _ _ h => h) (.inr ⟨rfl, hs, ht⟩)
  rcases kept with hlt | ⟨_, hs', _⟩
  · exact absurd hg (Nat.ne_of_gt hlt)
  · exact hs'

theorem lifecycle_attended : Attended may m where
  connecting := hm.custody.connecting
  closing := hm.custody.closing
  rests := hm.rests
  dials hs _ _ _ _ ht ha hr hp he hx := run_connect hs ht ha hr hp he hx
  closes hs _ _ _ ht ha hr hp := run_close hs ht ha hr hp
  slots _ h := hm.slot_owner h
  spared _ _ _ hd hi := hm.spared hd hi
  stranded hs ht _ hmn := hm.stranded hs ht hmn
  adrift hs ht _ hmn hg := hm.adrift hs ht hmn hg

end

/-- A close is dropped while its link does not close. -/
def forsaken : List Move :=
  opening 0 ++ [.act (.setCloseMode .hang)] ++ steps 3 2 (.close true) ++
    [.act (.abort 3), .work (.task 3), .work (.task 1), .work (.task 1), .work (.task 2),
      .work (.task 2)]

theorem attended_forsaken : Attended (fun _ => True) (fresh.replay forsaken) :=
  lifecycle_attended (reachable_replay (by decide +kernel))

/-- A close is dropped while its link does not close: nobody is left, and the client closes for
good. -/
theorem closing_forsaken :
    (fresh.replay forsaken).Reachable (fun _ => True) ∧ (fresh.replay forsaken).tasks = [] ∧
      (fresh.replay forsaken).state = .closing ∧
      ∀ n, Reaches (fun _ => True) (fresh.replay forsaken) n → n.state = .closing := by
  have reached : (fresh.replay forsaken).Reachable (fun _ => True) :=
    reachable_replay (by decide +kernel)
  have nobody : (fresh.replay forsaken).tasks = [] := rfl
  refine ⟨reached, nobody, rfl, fun n hn => reached.stranded rfl ?_ hn⟩
  intro i t td stage ht
  rw [task?_eq, nobody] at ht
  cases ht

end Machine

end GameLink.Client

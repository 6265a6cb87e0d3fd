import GameLink.Proofs.Client.Line
import GameLink.Proofs.Client.Reasons

/-! # Operations that await a reply finish with its answer

An operation that makes a request finishes when it is answered, with what it
makes of the answer, and not otherwise (`Concluded`).
-/
namespace GameLink.Client

section
variable {m n : Machine} {t : Task} {os tr : List Observation} {i : TaskId}

/-! ## What a change finishes and answers -/

/-- Who is answered is there, and finishes with it if it is an operation. -/
def Reports (m : Machine) (os : List Observation) : Prop :=
  ∀ i cid o, .answered i cid o ∈ os → ∃ role, m.view roles i = some role ∧
    ∀ op, role = .operation op → .finished i (Machine.conclude op o) ∈ os

/-- How an operation ends that sends a message and awaits no reply. -/
inductive Delivers (m : Machine) (i : TaskId) : Result → Prop
  | sent (frame : Envelope.Outgoing) (h : m.view stances i = some (.said frame)) :
      Delivers m i (.ok .nothing)
  | unsent (f : Failure) (hf : f = .notConnected ∨ ∃ reason, f = .transport reason)
      (h : m.view stances i = some .new ∨
        ∃ frame, m.view stances i = some (.line (some frame))) : Delivers m i (.failed f)

/-- Who finishes is an operation; it has been answered if it makes a request, and has had its turn
at the writer if it sends a message. -/
def Concludes (m : Machine) (os : List Observation) : Prop :=
  ∀ i r, .finished i r ∈ os → ∃ op, m.view roles i = some (.operation op) ∧
    (op.requests = true → ∃ cid o, .answered i cid o ∈ os ∧ r = Machine.conclude op o) ∧
    (op.requests = false → op.message? = none ∨ Delivers m i r)

def Observation.isEnd : Observation → Bool
  | .answered _ _ _ | .finished _ _ => true
  | _ => false

theorem concludes_nothing (h : os.all (fun o => !o.isEnd) = true) :
    Reports m os ∧ Concludes m os := by
  have none := List.all_eq_true.mp h
  constructor
  · intro i cid o ho
    cases none _ ho
  · intro i r hr
    cases none _ hr

/-- An operation that makes no request finishes. -/
theorem concludes_finished {op : Operation} {r : Result} (ht : m.task? t.id = some t)
    (hr : t.role = .operation op) (hq : op.requests = false)
    (hd : op.message? = none ∨ Delivers m t.id r)
    (hos : ∀ o ∈ os, o.isEnd = true → o = .finished t.id r) : Reports m os ∧ Concludes m os := by
  constructor
  · intro i cid o ho
    cases hos _ ho rfl
  · intro i r' ho
    cases hos _ ho rfl
    refine ⟨op, (roles_of ht).trans (congrArg some hr), ?_, fun _ => hd⟩
    intro h
    rw [hq] at h
    cases h

theorem concludes_mute {op : Operation} {r : Result} (ht : m.task? t.id = some t)
    (hr : t.role = .operation op) (hm : op.message? = none)
    (hos : ∀ o ∈ os, o.isEnd = true → o = .finished t.id r) : Reports m os ∧ Concludes m os :=
  concludes_finished ht hr (Operation.requests_eq_false hm) (.inl hm) hos

/-- A host is answered, and takes its leave. -/
theorem Host.concludes {host : Host} {cid : String} {o : Except Failure Answer}
    (pre : List Observation) (ht : m.task? t.id = some t) (hr : t.role = host.role)
    (hq : ∀ op, host = .operation op → op.requests = true)
    (hpre : pre.all (fun o => !o.isEnd) = true) :
    Reports m (pre ++ .answered t.id cid o :: host.farewell t.id o) ∧
      Concludes m (pre ++ .answered t.id cid o :: host.farewell t.id o) := by
  have role : m.view roles t.id = some host.role := (roles_of ht).trans (congrArg some hr)
  have before := List.all_eq_true.mp hpre
  constructor
  · intro i cid' o' ho
    rcases List.mem_append.mp ho with ho | ho
    · cases before _ ho
    · rcases List.mem_cons.mp ho with ho | ho
      · cases ho
        refine ⟨host.role, role, ?_⟩
        intro op hop
        cases host with
        | operation op' =>
          cases hop
          exact List.mem_append_right _ (.tail _ (.head _))
        | heartbeat g k => cases hop
      · cases host with
        | operation op' => cases List.mem_singleton.mp ho
        | heartbeat g k => cases ho
  · intro i r ho
    rcases List.mem_append.mp ho with ho | ho
    · cases before _ ho
    · rcases List.mem_cons.mp ho with ho | ho
      · cases ho
      · cases host with
        | operation op' =>
          cases List.mem_singleton.mp ho
          refine ⟨op', role, fun _ => ⟨cid, o, List.mem_append_right _ (.head _), rfl⟩, ?_⟩
          rw [hq op' rfl]
          exact fun h => nomatch h
        | heartbeat g k => cases ho

theorem Exchanging.concludes (hm : Fit m) (ht : m.task? t.id = some t) (h : Exchanging m t os n) :
    Reports m os ∧ Concludes m os := by
  have asks : ∀ (host : Host) {x : Exchange} {stage : ExchangeStage}, t.role = host.role →
      t.position = host.position x stage →
        ∀ op, host = .operation op → op.requests = x.ticket.isSome := by
    rintro _ x stage hr hp op rfl
    have hf := hm.fits _ _ ht
    rw [hr, hp] at hf
    cases hf with
    | exchanging h => exact h.symm
  have stance : ∀ {x stage}, t.position = .exchanging x stage →
      m.view stances t.id = some (x.stance stage) := by
    intro x stage hp
    exact (view_of ht).trans (by rw [hp]; rfl)
  cases h with
  | sending op message hr hp hq hs => exact concludes_nothing rfl
  | requesting host x hh hx hs => exact concludes_nothing rfl
  | refused host hh hs =>
    refine Host.concludes [.issued t.id m.registry.nextCid] ht hh.role_eq ?_ rfl
    rintro op rfl
    exact hh.2.2
  | stalled host x l link hr hv hp hl hw hk hf => exact concludes_nothing rfl
  | written host x l link link' hr hv hp hl hw hk hf => exact concludes_nothing rfl
  | sent op x hr hp hx =>
    have plain := asks (.operation op) hr hp op rfl
    rw [hx] at plain
    exact concludes_finished ht hr plain (.inr (.sent _ (stance hp)))
      fun o ho _ => List.mem_singleton.mp ho
  | notSent op x stage f hr hp hx hn =>
    have plain := asks (.operation op) hr hp op rfl
    rw [hx] at plain
    obtain ⟨hstage, hf⟩ := hn.failure
    have drafted : x.stance stage = .line (some (Machine.frameOf x)) := by
      cases stage with
      | awaiting => exact absurd rfl hstage
      | queued => rfl
      | stalled deadline => rfl
    have unsent : Delivers m t.id (.failed f) :=
      .unsent f hf (.inr ⟨_, (stance hp).trans (congrArg some drafted)⟩)
    exact concludes_finished ht hr plain (.inr unsent) fun o ho _ => List.mem_singleton.mp ho
  | unsent host x stage k f hr hv hp hx hn =>
    exact Host.concludes [] ht hr (fun op h => (asks host hr hp op h).trans (by rw [hx]; rfl)) rfl
  | replied host x k outcome hr hv hp hx hw =>
    exact Host.concludes [] ht hr (fun op h => (asks host hr hp op h).trans (by rw [hx]; rfl)) rfl
  | givenUp host x stage hr hp hv => exact concludes_nothing rfl

theorem Connecting.concludes (hm : Fit m) (ht : m.task? t.id = some t) (h : Connecting m t os n) :
    Reports m os ∧ Concludes m os := by
  have mute : ∀ {op}, t.role = .operation op → t.position.held.isSome = true →
      op.message? = none := by
    intro op hr hp
    have hf := hm.fits _ _ ht
    rw [hr] at hf
    generalize t.position = p at hf hp
    cases hf with
    | installing h => exact h
    | discarding h => exact h
    | _ => cases hp
  cases h with
  | installed op g link hr hp hl hg hs =>
    refine concludes_mute (r := .ok .nothing) ht hr (mute hr (by rw [hp]; rfl)) ?_
    intro o ho he
    simp only [List.mem_cons, List.not_mem_nil, or_false] at ho
    rcases ho with rfl | rfl | rfl | rfl
    · cases he
    · cases he
    · cases he
    · rfl
  | discarded op link f hr hp =>
    exact concludes_mute ht hr (mute hr (by rw [hp]; rfl))
      fun o ho _ => List.mem_singleton.mp ho
  | _ => exact concludes_nothing rfl

theorem Tearing.concludes (ht : m.task? t.id = some t) (h : Tearing m t os n) :
    Reports m os ∧ Concludes m os := by
  cases h with
  | begun td links hb hg hs =>
    refine concludes_nothing ?_
    split <;> rfl
  | taken td link hp hl hw => exact concludes_nothing rfl
  | ended td stage links queue hf hp hv =>
    cases hr : t.role with
    | operation op =>
      have mute : op.message? = none := by
        rw [hr, hp] at hf
        cases hf
        rfl
      refine concludes_mute (r := .ok .nothing) ht hr mute ?_
      intro o ho he
      simp only [Task.isOperation, hr, List.mem_cons, List.mem_append] at ho
      rcases ho with rfl | (ho | ho) | ho
      · cases he
      · split at ho
        · simp only [List.mem_cons, List.not_mem_nil, or_false] at ho
          rcases ho with rfl | rfl <;> cases he
        · cases ho
      · split at ho
        · cases ho
        · obtain rfl := List.mem_singleton.mp ho
          cases he
      · exact List.mem_singleton.mp ho
    | reader g link =>
      refine concludes_nothing ?_
      simp only [Task.isOperation, hr]
      split <;> split <;> rfl
    | heartbeat g =>
      refine concludes_nothing ?_
      simp only [Task.isOperation, hr]
      split <;> split <;> rfl

theorem Leaving.concludes (hm : Fit m) (ht : m.task? t.id = some t) (h : Leaving m t os n) :
    Reports m os ∧ Concludes m os := by
  cases h with
  | finished op r hr hp hmsg =>
    rcases hp with ⟨hp, hq⟩ | ⟨_, _, _, _, hp⟩
    · refine concludes_finished ht hr hq ((hmsg hp).imp_right ?_)
        fun o ho _ => List.mem_singleton.mp ho
      rintro rfl
      exact .unsent .notConnected (.inl rfl) (.inl ((view_of ht).trans (by rw [hr, hp]; rfl)))
    · have hf := hm.fits _ _ ht
      rw [hr, hp] at hf
      cases hf with
      | dialing h => exact concludes_mute ht hr h fun o ho _ => List.mem_singleton.mp ho
  | dropped links queue ha hd => exact concludes_nothing rfl

theorem Change.concludes (hm : Fit m) (h : Change m os n) : Reports m os ∧ Concludes m os := by
  cases h with
  | outside h => cases h <;> exact concludes_nothing rfl
  | released h => cases h <;> exact concludes_nothing rfl
  | connecting ht h => exact h.concludes hm ht
  | exchanging ht h => exact h.concludes hm ht
  | background ht h =>
    cases h with
    | dispatched g link l l' frame hr hp hc hl hf =>
      refine concludes_nothing ?_
      unfold heard
      cases eventIn frame <;> rfl
    | _ => exact concludes_nothing rfl
  | tearing ht h => exact h.concludes ht
  | leaving ht h => exact h.concludes hm ht

/-! ## The invariant -/

structure Concluded (tr : List Observation) : Prop where
  finished : ∀ i op r, .started i op ∈ tr → op.requests = true → .finished i r ∈ tr →
    ∃ cid o, .answered i cid o ∈ tr ∧ r = Machine.conclude op o
  reported : ∀ i op cid o, .started i op ∈ tr → .answered i cid o ∈ tr →
    .finished i (Machine.conclude op o) ∈ tr

/-- Only a new task is started. -/
theorem Change.started (hm : Fit m) (h : Change m os n) {op : Operation} (hi : .started i op ∈ os) :
    i = m.nextTask := by
  have started := mem_errands.mpr hi
  cases h.errand hm with
  | asked op' hv hn he hr =>
    rw [he, List.mem_singleton] at started
    exact (Prod.mk.inj started).1
  | same hv he hr => rw [he] at started; cases started
  | installed k op' g link hk hv he hr => rw [he] at started; cases started
  | finished k op' r hk hv he hr => rw [he] at started; cases started
  | left k hv he hr => rw [he] at started; cases started

theorem Concluded.keep (hc : Concluded tr) (hm : Fit m) (he : Errands tr m)
    (ha : (m.ledger tr).Accounts) (h : Change m os n) : Concluded (tr ++ os) := by
  obtain ⟨reports, concludes⟩ := h.concludes hm
  have present : ∀ {i role}, m.view roles i = some role → ∀ {op}, .started i op ∉ os := by
    intro i role hi op hs
    rw [h.started hm hs, hm.view_absent (Nat.le_refl _)] at hi
    cases hi
  -- who has been answered or has finished is not new
  have known : ∀ {i op}, .started i op ∈ tr ++ os → i < m.nextTask → .started i op ∈ tr := by
    intro i op hs hi
    refine (List.mem_append.mp hs).resolve_right ?_
    intro hs
    exact Nat.ne_of_lt hi (h.started hm hs)
  constructor
  · intro i op r hs hq hr
    rcases List.mem_append.mp hr with hr | hr
    · have lt := (he.ended i r (mem_results.mpr hr)).1
      obtain ⟨cid, o, hm, ho⟩ := hc.finished i op r (known hs lt) hq hr
      exact ⟨cid, o, List.mem_append_left _ hm, ho⟩
    · obtain ⟨op', role, hop, _⟩ := concludes i r hr
      have hs := (List.mem_append.mp hs).resolve_right (present role)
      cases he.role i op _ (mem_errands.mpr hs) role
      obtain ⟨cid, o, hm, ho⟩ := hop hq
      exact ⟨cid, o, List.mem_append_right _ hm, ho⟩
  · intro i op cid o hs hi
    rcases List.mem_append.mp hi with hi | hi
    · have answered : (i, cid, o) ∈ replies (deals tr) := by
        rw [replies_deals, mem_replies]
        exact hi
      have lt := ha.asked.known.2 i cid (ha.replied.issued i cid o answered)
      exact List.mem_append_left _ (hc.reported i op cid o (known hs lt) hi)
    · obtain ⟨role, hrole, hop⟩ := reports i cid o hi
      have hs := (List.mem_append.mp hs).resolve_right (present hrole)
      exact List.mem_append_right _ (hop op (he.role i op _ (mem_errands.mpr hs) hrole))

end

theorem Machine.Reachable.concluded {may : Move → Prop} {m : Machine} (hm : m.Reachable may) :
    Concluded m.trace := by
  have base := Ledger.invariant (fun _ h => h.accounts) (fun _ _ h hc => hc.keep h)
  have inv := base.and (I := fun tr _ => Concluded tr) ?_ ?_ (fun _ _ _ _ h => h)
  · exact (inv.reached hm).2
  · intro _ _
    exact ⟨fun _ _ _ h => (nomatch h), fun _ _ _ _ h => (nomatch h)⟩
  · intro m os n tr h hm hc
    exact hc.keep hm.1.1.1 hm.1.2.2 hm.2 h

end GameLink.Client

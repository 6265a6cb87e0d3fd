import GameLink.Proofs.Client.Courses
import GameLink.Proofs.Client.Wire
import Mathlib.Logic.Function.Basic

/-! # Invariants of the client

What holds of a new client before anything is observed, and is kept by every
change, holds wherever a run leads (`Invariant.reached`). That tasks fit their
roles comes first, since a move is a course of changes only where they do.
-/
namespace GameLink.Client

/-! ## What becomes of the tasks -/

/-- What can become of the tasks and of the next id in one change. -/
inductive Regroup (m : Machine) (links : Nat) : List Task → TaskId → Prop
  | same : Regroup m links m.tasks m.nextTask
  | told (id : TaskId) (h : (m.task? id).any Task.isOperation = true) : Regroup m links
      (m.tasks.map (fun t => if t.id = id then { t with aborted := true } else t)) m.nextTask
  | moved {t : Task} {p : Position} (ht : m.task? t.id = some t) (hf : Fits t.role p)
      (hs : p ≠ .start) (hl : ∀ l, p.held = some l → l < links) :
      Regroup m links (placed t.id p m.tasks) m.nextTask
  | gone (id : TaskId) : Regroup m links (without id m.tasks) m.nextTask
  | joined (op : Operation) :
      Regroup m links (m.tasks ++ [⟨m.nextTask, .operation op, .start, false⟩]) (m.nextTask + 1)
  | installed (id : TaskId) (g : Generation) (link : LinkId) (hl : link < links) :
      Regroup m links
        (without id (m.tasks ++ [⟨m.nextTask, .reader g link, .start, false⟩] ++
          [⟨m.nextTask + 1, .heartbeat g, .start, false⟩])) (m.nextTask + 2)

section
open Machine (task?_eq)

variable {m : Machine} {t : Task} {links : Nat}

theorem Regroup.released {host : Host} (ht : m.task? t.id = some t) (hr : t.role = host.role) :
    Regroup m links (host.released t.id m.tasks) m.nextTask := by
  cases host with
  | operation op => exact .gone t.id
  | heartbeat g k =>
    have hf : Fits t.role (.ticking k) := hr ▸ .ticking
    exact .moved ht hf (by simp) (fun _ h => nomatch h)

theorem Host.Ready.role_eq {host : Host} (h : host.Ready m t) : t.role = host.role := by
  cases host with
  | operation op => exact h.1
  | heartbeat g k =>
    obtain ⟨_, hr, _⟩ := h
    exact hr

theorem Host.fits_position {host : Host} {x : Exchange} {stage stage' : ExchangeStage}
    (hf : Fits host.role (host.position x stage)) : Fits host.role (host.position x stage') := by
  cases host with
  | operation op =>
    cases hf with
    | exchanging h hm => exact .exchanging h hm
  | heartbeat g k =>
    cases hf with
    | probing h hm => exact .probing h hm

theorem Host.position_held {host : Host} {x : Exchange} {stage : ExchangeStage} :
    (host.position x stage).held = none := by
  cases host <;> rfl

theorem Host.position_ne_start (host : Host) {x : Exchange} {stage : ExchangeStage} :
    host.position x stage ≠ .start := by
  cases host <;> simp [Host.position]

theorem Host.Ready.fits {host : Host} {x : Exchange} {stage : ExchangeStage} (h : host.Ready m t)
    (hx : x.ticket.isSome = true) (hm : host.message? = some x.message) :
    Fits host.role (host.position x stage) := by
  cases host with
  | operation op => exact .exchanging (by rw [hx, h.2.2]) hm
  | heartbeat g k => exact .probing hx (Option.some.inj hm).symm

theorem Connecting.regroup {os : List Observation} {n : Machine} (hm : Fit m)
    (ht : m.task? t.id = some t) (h : Connecting m t os n) :
    Regroup m n.links.length n.tasks n.nextTask := by
  have hf := hm.fits _ _ ht
  cases h with
  | begun op url deadline stage hr hp hm hs =>
    exact .moved ht (hr ▸ .dialing hm) (by simp) (fun _ h => nomatch h)
  | backedOut n hr hp hs => exact .same
  | hung op g url deadline wake hr hp =>
    rw [hr, hp] at hf
    cases hf with
    | dialing hq => exact .moved ht (hr ▸ .dialing hq) (by simp) (fun _ h => nomatch h)
  | abandoned g url deadline stage hp hg hs => exact .same
  | dialed op g url deadline stage hr hp =>
    rw [hr, hp] at hf
    cases hf with
    | dialing hq =>
      refine .moved ht (hr ▸ .installing hq) (by simp) ?_
      intro l hl
      cases hl
      simp
  | installed op g link hr hp hl hg hs =>
    refine .installed t.id g link ?_
    have hlt := hm.lodged _ _ link ht (by rw [hp]; rfl)
    cases hw : m.writer <;> simpa [replaceWriter] using hlt
  | outdated op g link hr hp hl hg =>
    rw [hr, hp] at hf
    cases hf with
    | installing hq =>
      refine .moved ht (hr ▸ .discarding hq) (by simp) ?_
      intro l hl
      cases hl
      exact hm.lodged _ _ _ ht (by rw [hp]; rfl)
  | discarded op link f hr hp => exact .gone t.id

theorem Exchanging.regroup {os : List Observation} {n : Machine} (hm : Fit m)
    (ht : m.task? t.id = some t) (h : Exchanging m t os n) :
    Regroup m n.links.length n.tasks n.nextTask := by
  have moved : ∀ {host : Host} {x : Exchange} {stage stage' : ExchangeStage}, t.role = host.role →
      t.position = host.position x stage →
        Regroup m n.links.length (placed t.id (host.position x stage') m.tasks) m.nextTask := by
    intro host x stage stage' hr hp
    have hf := hm.fits _ _ ht
    rw [hr, hp] at hf
    exact .moved ht (hr ▸ Host.fits_position hf) host.position_ne_start
      (by simp [Host.position_held])
  cases h with
  | sending op message hr hp hq hs hm =>
    exact .moved ht (hr ▸ .exchanging (by rw [hq]; rfl) hm) (by simp) (fun _ h => nomatch h)
  | requesting host x hh hx hs hm =>
    exact .moved ht (hh.role_eq ▸ hh.fits (by rw [hx]; rfl) hm) host.position_ne_start
      (by simp [Host.position_held])
  | refused host hh hs => exact .released ht hh.role_eq
  | stalled host x l link hr hv hp hl hw hk hf => exact moved hr hp
  | written host x l link link' hr hv hp hl hw hk hf => exact moved hr hp
  | sent op x hr hp hx => exact .gone t.id
  | notSent op x stage f hr hp hx hn => exact .gone t.id
  | unsent host x stage k f hr hv hp hx hn => exact .released ht hr
  | replied host x k outcome hr hv hp hx hw => exact .released ht hr
  | givenUp host x stage hr hp hv => exact .gone t.id

theorem Background.regroup {os : List Observation} {n : Machine} (ht : m.task? t.id = some t)
    (h : Background m t os n) : Regroup m n.links.length n.tasks n.nextTask := by
  cases h with
  | readerStarted g link hr hp => exact .moved ht (hr ▸ .reading) (by simp) (fun _ h => nomatch h)
  | heartbeatStarted g hr hp => exact .moved ht (hr ▸ .ticking) (by simp) (fun _ h => nomatch h)
  | dispatched g link l l' frame hr hp hc hl hf => exact .same
  | readerLeft g link hr hp ho => exact .gone t.id
  | heartbeatLeft g k hr hp ho => exact .gone t.id

theorem Begins.fits {td : Teardown} {links : List Link} (h : Begins m t td links)
    (stage : TeardownStage) : Fits t.role (.tearing td stage) := by
  cases h with
  | close n hr hp => exact hr ▸ .closing
  | remote g link l l' hr hp hc hl hf => exact hr ▸ .remote
  | failed g link l l' f hr hp hc hl hf =>
    obtain ⟨reason, rfl, _⟩ := Link.receive_eq_failed hf
    exact hr ▸ .failed
  | silent g k hr hp hc => exact hr ▸ .silent

theorem Fits.tearing {r : Role} {td : Teardown} {stage : TeardownStage} (stage' : TeardownStage)
    (h : Fits r (.tearing td stage)) : Fits r (.tearing td stage') := by
  cases h with
  | closing => exact .closing
  | remote => exact .remote
  | failed => exact .failed
  | silent => exact .silent

theorem Tearing.regroup {os : List Observation} {n : Machine} (hm : Fit m)
    (ht : m.task? t.id = some t) (h : Tearing m t os n) :
    Regroup m n.links.length n.tasks n.nextTask := by
  cases h with
  | begun td links hb hg hs => exact .moved ht (hb.fits _) (by simp) (fun _ h => nomatch h)
  | taken td link hp hl hw =>
    have hf := hm.fits _ _ ht
    rw [hp] at hf
    exact .moved ht (hf.tearing _) (by simp) (fun _ h => nomatch h)
  | ended td stage links queue hf hp hv => exact .gone t.id

theorem Change.regroup {os : List Observation} {n : Machine} (hm : Fit m) (h : Change m os n) :
    Regroup m n.links.length n.tasks n.nextTask := by
  cases h with
  | outside h =>
    cases h with
    | started op policy h => exact .joined op
    | aborted id h => exact .told id h
    | _ => exact .same
  | released h => cases h <;> exact .same
  | connecting ht h => exact h.regroup hm ht
  | exchanging ht h => exact h.regroup hm ht
  | background ht h => exact h.regroup ht
  | tearing ht h => exact h.regroup hm ht
  | leaving ht h => cases h <;> exact .gone _

/-- Where a task comes from: it was there in the same role, or it is new and about to start. -/
theorem Regroup.origin {ts : List Task} {next : TaskId} (h : Regroup m links ts next) {i : TaskId}
    {u : Task} (hu : findTask ts i = some u) :
    (∃ t, m.task? i = some t ∧ u.role = t.role ∧
      (u.aborted = true → t.aborted = true ∨ t.isOperation = true) ∧
      (u.position = t.position ∨ (Fits t.role u.position ∧ u.position ≠ .start ∧
        ∀ l, u.position.held = some l → l < links))) ∨
    (m.nextTask ≤ i ∧ i < next ∧ u.position = .start ∧ u.aborted = false ∧
      ∀ g l, u.role = .reader g l → l < links) := by
  cases h with
  | same => exact .inl ⟨u, hu, rfl, .inl, .inl rfl⟩
  | told id h =>
    rw [findTask_map (fun t => by split <;> rfl)] at hu
    obtain ⟨t, ht, rfl⟩ := Option.map_eq_some_iff.mp hu
    refine .inl ⟨t, ht, ?_⟩
    by_cases hid : t.id = id
    · have hi : i = id := (findTask_id ht).symm.trans hid
      rw [← hi, task?_eq, ht] at h
      rw [if_pos hid]
      exact ⟨rfl, fun _ => .inr h, .inl rfl⟩
    · rw [if_neg hid]
      exact ⟨rfl, .inl, .inl rfl⟩
  | @moved t p ht hf hs hl =>
    rw [findTask_placed] at hu
    split at hu
    · rename_i hi
      obtain ⟨v, hv, rfl⟩ := Option.map_eq_some_iff.mp hu
      rw [hi, ← task?_eq, ht] at hv
      cases hv
      exact .inl ⟨t, hi ▸ ht, rfl, .inl, .inr ⟨hf, hs, hl⟩⟩
    · exact .inl ⟨u, hu, rfl, .inl, .inl rfl⟩
  | gone id => exact .inl ⟨u, of_findTask_without hu, rfl, .inl, .inl rfl⟩
  | joined op =>
    rcases of_findTask_append hu with hu | ⟨rfl, rfl⟩
    · exact .inl ⟨u, hu, rfl, .inl, .inl rfl⟩
    · exact .inr ⟨Nat.le_refl _, Nat.lt_succ_self _, rfl, rfl, fun _ _ h => nomatch h⟩
  | installed id g link hl =>
    rcases of_findTask_append (of_findTask_without hu) with hu | ⟨rfl, rfl⟩
    · rcases of_findTask_append hu with hu | ⟨rfl, rfl⟩
      · exact .inl ⟨u, hu, rfl, .inl, .inl rfl⟩
      · refine .inr ⟨Nat.le_refl _, Nat.lt_add_of_pos_right (by decide), rfl, rfl, ?_⟩
        intro g' l h
        cases h
        exact hl
    · exact .inr ⟨Nat.le_succ _, Nat.lt_succ_self _, rfl, rfl, fun _ _ h => nomatch h⟩

theorem Regroup.nodup {ts : List Task} {next : TaskId} (h : Regroup m links ts next) (hm : Fit m) :
    (ts.map Task.id).Nodup := by
  have fresh : ∀ t ∈ m.tasks, t.id < m.nextTask := fun t ht =>
    hm.fresh _ t (findTask_of_mem hm.nodup ht)
  have kept : ∀ {us : List Task} (id : TaskId), (us.map Task.id).Nodup →
      ((without id us).map Task.id).Nodup := by
    intro us id hn
    exact hn.sublist (List.filter_sublist.map _)
  have mapped : ∀ f : Task → Task, (∀ t, (f t).id = t.id) →
      ((m.tasks.map f).map Task.id).Nodup := by
    intro f hf
    rw [List.map_map, show Task.id ∘ f = Task.id from funext hf]
    exact hm.nodup
  cases h with
  | same => exact hm.nodup
  | told id h => exact mapped _ (fun t => by split <;> rfl)
  | moved => exact mapped _ (fun t => by split <;> rfl)
  | gone id => exact kept id hm.nodup
  | joined op =>
    rw [List.map_append, List.nodup_append]
    refine ⟨hm.nodup, by simp, ?_⟩
    intro a ha b hb
    obtain ⟨t, ht, rfl⟩ := List.mem_map.mp ha
    have hb : b = m.nextTask := by simpa using hb
    exact hb ▸ Nat.ne_of_lt (fresh t ht)
  | installed id g link hl =>
    apply kept
    rw [List.append_assoc, List.map_append, List.nodup_append]
    refine ⟨hm.nodup, by simp, ?_⟩
    intro a ha b hb
    obtain ⟨t, ht, rfl⟩ := List.mem_map.mp ha
    have hlt := fresh t ht
    have hb : b = m.nextTask ∨ b = m.nextTask + 1 := by simpa using hb
    rcases hb with rfl | rfl
    · exact Nat.ne_of_lt hlt
    · exact Nat.ne_of_lt (Nat.lt_succ_of_lt hlt)

/-! ## What becomes of the links -/

/-- The writer of a link is closed. -/
def ShutIn (links : List Link) (l : LinkId) : Prop := ∃ k, links[l]? = some k ∧ k.writerOpen = false

/-- Links only come, a writer that is closed stays closed, and nothing waits to be read but what
waited before or has been pushed. -/
structure Tended (os : List Observation) (a b : List Link) : Prop where
  length_le : a.length ≤ b.length
  shut : ∀ l, ShutIn a l → ShutIn b l
  mail : ∀ l k f, b[l]? = some k → f ∈ k.toClient →
    (∃ j, a[l]? = some j ∧ f ∈ j.toClient) ∨ .pushed l f ∈ os

section
variable {gone : LinkId → Prop} {os : List Observation} {a b : List Link} {l : LinkId} {j k : Link}

theorem LinkStep.tends (h : LinkStep gone l j os k) :
    (j.writerOpen = false → k.writerOpen = false) ∧
      ∀ f ∈ k.toClient, f ∈ j.toClient ∨ .pushed l f ∈ os := by
  cases h with
  | setMode mode => exact ⟨id, fun f hf => .inl hf⟩
  | closeServer => exact ⟨id, fun f hf => .inl hf⟩
  | closeWriter => exact ⟨fun _ => rfl, fun f hf => .inl hf⟩
  | closeReader h => exact ⟨id, fun f hf => nomatch hf⟩
  | push frame hs hr =>
    rw [Link.push_eq frame hr]
    refine ⟨id, fun f hf => ?_⟩
    rcases List.mem_append.mp hf with hf | hf
    · exact .inl hf
    · rw [List.mem_singleton.mp hf]
      exact .inr (.head _)
  | take h =>
    obtain ⟨rest, _, he⟩ := Link.take_eq_frame h
    rw [he]
    exact ⟨id, fun f hf => .inl hf⟩
  | write i frame h =>
    obtain ⟨_, _, rfl⟩ := Link.write_eq_sent h
    exact ⟨id, fun f hf => .inl hf⟩
  | read h =>
    obtain ⟨hq, he⟩ := Link.receive_eq_frame h
    exact ⟨fun hw => by rw [he]; exact hw, fun f hf => .inl (hq ▸ .tail _ hf)⟩
  | fault h =>
    obtain ⟨_, _, hq, he⟩ := Link.receive_eq_failed h
    exact ⟨fun hw => by rw [he]; exact hw, fun f hf => .inl (hq ▸ .tail _ hf)⟩

theorem LinkSteps.tends (h : LinkSteps gone l j os k) :
    (j.writerOpen = false → k.writerOpen = false) ∧
      ∀ f ∈ k.toClient, f ∈ j.toClient ∨ .pushed l f ∈ os := by
  induction h with
  | refl => exact ⟨id, fun f hf => .inl hf⟩
  | tail _ s ih =>
    refine ⟨fun hw => s.tends.1 (ih.1 hw), fun f hf => ?_⟩
    rcases s.tends.2 f hf with hf | hp
    · exact (ih.2 f hf).imp_right (List.mem_append_left _)
    · exact .inr (List.mem_append_right _ hp)

theorem Wired.tended (h : Wired gone os a b) : Tended os a b := by
  refine ⟨?_, ?_, ?_⟩
  · by_contra hlt
    have along := h b.length
    rw [List.getElem?_eq_none (Nat.le_refl _), List.getElem?_eq_getElem (Nat.lt_of_not_le hlt)]
      at along
    generalize mail b.length os = ms at along
    cases along
  · rintro l ⟨k, hk, hw⟩
    have along := h l
    rw [hk] at along
    generalize hb : b[l]? = y at along
    generalize mail l os = ms at along
    cases along with
    | went s => exact ⟨_, hb, s.tends.1 hw⟩
  · intro l k f hk hf
    have along := h l
    rw [hk] at along
    generalize ha : a[l]? = x at along
    generalize ho : mail l os = ms at along
    have observed : ∀ o ∈ ms, o ∈ os := fun o hm => (List.mem_filter.mp (ho ▸ hm)).1
    cases along with
    | went s =>
      rcases s.tends.2 f hf with hf | hp
      · exact .inl ⟨_, rfl, hf⟩
      · exact .inr (observed _ hp)
    | came s =>
      rcases s.tends.2 f hf with hf | hp
      · cases hf
      · exact .inr (observed _ hp)

end

theorem shutIn_closeWriter {a : List Link} {l : LinkId} (h : l < a.length) :
    ShutIn (a.modify l Link.closeWriter) l := by
  refine ⟨a[l].closeWriter, ?_, rfl⟩
  rw [List.getElem?_modify_eq, List.getElem?_eq_getElem h]
  rfl

theorem Change.tended {os : List Observation} {n : Machine} (h : Change m os n) :
    Tended os m.links n.links := h.wired.tended

/-! ## Tasks fit their roles -/

theorem Regroup.next_le {ts : List Task} {next : TaskId} (h : Regroup m links ts next) :
    m.nextTask ≤ next := by
  cases h with
  | joined => exact Nat.le_succ _
  | installed => exact Nat.le_add_right _ _
  | _ => exact Nat.le_refl _

theorem Fit.keep {os : List Observation} {n : Machine} (hm : Fit m) (h : Change m os n) :
    Fit n := by
  have hr := h.regroup hm
  have hlen := h.tended.length_le
  refine ⟨hr.nodup hm, ?_, ?_, ?_, ?_, ?_⟩
  · intro i u hu
    rcases hr.origin hu with ⟨t, ht, hrole, _, hpos | ⟨hf, _⟩⟩ | ⟨_, _, hp, _⟩
    · rw [hrole, hpos]
      exact hm.fits i t ht
    · exact hrole ▸ hf
    · rw [hp]
      exact .start
  · intro i u hu
    rcases hr.origin hu with ⟨t, ht, _⟩ | ⟨_, hi, _⟩
    · exact Nat.lt_of_lt_of_le (hm.fresh i t ht) hr.next_le
    · exact hi
  · intro i u g l hu hru
    rcases hr.origin hu with ⟨t, ht, hrole, _⟩ | ⟨_, _, _, _, hl⟩
    · exact Nat.lt_of_lt_of_le (hm.linked i t g l ht (hrole ▸ hru)) hlen
    · exact hl g l hru
  · intro i u l hu hl
    rcases hr.origin hu with ⟨t, ht, _, _, hpos | ⟨_, _, hb⟩⟩ | ⟨_, _, hp, _⟩
    · exact Nat.lt_of_lt_of_le (hm.lodged i t l ht (hpos ▸ hl)) hlen
    · exact hb l hl
    · rw [hp] at hl
      cases hl
  · intro i u hu ha
    rcases hr.origin hu with ⟨t, ht, hrole, hab, _⟩ | ⟨_, _, _, hnew, _⟩
    · rw [Task.isOperation, hrole]
      exact (hab ha).elim (hm.told i t ht) id
    · rw [hnew] at ha
      cases ha

end

/-! ## Invariants -/

/-- What holds of a new client with nothing observed and is kept by every change. -/
structure Invariant (I : List Observation → Machine → Prop) : Prop where
  initial : ∀ m, Machine.Initial m → I [] m
  keep : ∀ m os n tr, Change m os n → I tr m → I (tr ++ os) n
  /-- Nothing is said about the history and about who is handed the events. -/
  quiet : ∀ tr (n : Machine) handler history, I tr n →
    I tr { n with handler := handler, history := history }

/-- The fields of a new client that no settings decide. -/
theorem Machine.Initial.fields {m : Machine} (h : Machine.Initial m) :
    ∃ settings clock handler policy, m =
      { settings := settings, clock := clock, handler := handler, policy := policy } := by
  cases h with
  | build h seconds =>
    unfold Client.build at h
    split at h
    · cases h
    · cases h
      exact ⟨_, _, _, _, rfl⟩

theorem fit_invariant : Invariant (fun _ m => Fit m) where
  initial m h := by
    obtain ⟨_, _, _, _, rfl⟩ := h.fields
    have none : ∀ (i : TaskId) (t : Task), findTask [] i = some t → False := fun _ _ h => nomatch h
    exact ⟨List.nodup_nil, fun i t h => (none i t h).elim, fun i t h => (none i t h).elim,
      fun i t _ _ h => (none i t h).elim, fun i t _ h => (none i t h).elim,
      fun i t h => (none i t h).elim⟩
  keep m os n tr h hm := hm.keep h
  quiet _ _ _ _ h := ⟨h.nodup, h.fits, h.fresh, h.linked, h.lodged, h.told⟩

namespace Invariant

variable {I J : List Observation → Machine → Prop}

theorem after (hI : Invariant I) {m : Machine} (hm : Fit m) {v : Move} (h : m.allows v = true)
    (hi : I m.trace m) : I (m.after v).trace (m.after v) :=
  (Machine.course_after hm h).invariant hi hI.keep hI.quiet

theorem reached (hI : Invariant I) {may : Move → Prop} {m : Machine} (hm : m.Reachable may) :
    I m.trace m := by
  obtain ⟨start, hs, hr⟩ := hm
  have both : Fit m ∧ I m.trace m := by
    refine hr.invariant (I := fun m => Fit m ∧ I m.trace m) ⟨fit_invariant.initial start hs, ?_⟩ ?_
    · have nothing : start.trace = [] := by
        obtain ⟨_, _, _, _, rfl⟩ := hs.fields
        rfl
      rw [nothing]
      exact hI.initial start hs
    · intro m v hm h _
      exact ⟨fit_invariant.after hm.1 h hm.1, hI.after hm.1 h hm.2⟩
  exact both.2

theorem both (hI : Invariant I) (hJ : Invariant J) : Invariant (fun tr m => I tr m ∧ J tr m) where
  initial m h := ⟨hI.initial m h, hJ.initial m h⟩
  keep m os n tr h hm := ⟨hI.keep m os n tr h hm.1, hJ.keep m os n tr h hm.2⟩
  quiet _ _ _ _ h := ⟨hI.quiet _ _ _ _ h.1, hJ.quiet _ _ _ _ h.2⟩

/-- An invariant may lean on another one. -/
theorem and (hJ : Invariant J) (initial : ∀ m, Machine.Initial m → I [] m)
    (keep : ∀ m os n tr, Change m os n → J tr m → I tr m → I (tr ++ os) n)
    (quiet : ∀ tr (n : Machine) handler history, I tr n →
      I tr { n with handler := handler, history := history }) :
    Invariant (fun tr m => J tr m ∧ I tr m) where
  initial m h := ⟨hJ.initial m h, initial m h⟩
  keep m os n tr h hm := ⟨hJ.keep m os n tr h hm.1, keep m os n tr h hm.1 hm.2⟩
  quiet _ _ _ _ h := ⟨hJ.quiet _ _ _ _ h.1, quiet _ _ _ _ h.2⟩

end Invariant

/-! ## What is observed, and when -/

section
variable {R : Machine → List Observation → Machine → Prop} {I : List Record → Machine → Prop}
  {a b : Machine}

theorem Effect.dates (h : Effect R a b)
    (keep : ∀ m os n rs, R m os n → I rs m → I (rs ++ os.map (Record.mk m.now)) n)
    (quiet : ∀ rs (n : Machine) handler history, I rs n →
      I rs { n with handler := handler, history := history }) (ha : I (observed a.history) a) :
    I (observed b.history) b := by
  obtain ⟨os, n, hc, hs⟩ := h
  obtain ⟨handler, history, rfl⟩ := hs.same
  rw [hs.seen]
  exact quiet _ _ _ _ (keep _ _ _ _ hc ha)

theorem Course.dates {k : Nat} (h : Course R a k b)
    (keep : ∀ m os n rs, R m os n → I rs m → I (rs ++ os.map (Record.mk m.now)) n)
    (quiet : ∀ rs (n : Machine) handler history, I rs n →
      I rs { n with handler := handler, history := history }) (ha : I (observed a.history) a) :
    I (observed b.history) b := by
  induction h with
  | refl => exact ha
  | calm _ h _ _ ih => exact h.dates keep quiet ih
  | leap _ h ih => exact h.dates keep quiet ih

variable {J : List Observation → Machine → Prop}

/-- What every change keeps, leaning on an invariant, holds from where it once held. -/
theorem Machine.Reaches.kept {may₀ may : Move → Prop} (hab : Machine.Reaches may a b)
    (ha : a.Reachable may₀) (hJ : Invariant J)
    (keep : ∀ m os n rs, Change m os n → J (rs.map Record.what) m → I rs m →
      I (rs ++ os.map (Record.mk m.now)) n)
    (quiet : ∀ rs (n : Machine) handler history, I rs n →
      I rs { n with handler := handler, history := history })
    (base : I (observed a.history) a) : I (observed b.history) b := by
  let K : List Record → Machine → Prop := fun rs m => J (rs.map Record.what) m ∧ I rs m
  have kept : Fit b ∧ K (observed b.history) b := by
    refine hab.invariant (I := fun m => Fit m ∧ K (observed m.history) m)
      ⟨fit_invariant.reached ha, hJ.reached ha, base⟩ ?_
    intro m v hm h _
    refine ⟨fit_invariant.after hm.1 h hm.1, (Machine.course_after hm.1 h).dates ?_ ?_ hm.2⟩
    · intro m os n rs hc hk
      have kept := hJ.keep m os n _ hc hk.1
      exact ⟨by simpa [Function.comp_def] using kept, keep m os n rs hc hk.1 hk.2⟩
    · exact fun rs n handler history hk =>
        ⟨hJ.quiet _ _ _ _ hk.1, quiet _ _ _ _ hk.2⟩
  exact kept.2.2

/-- What is observed from some moment on, and what holds from there. -/
theorem Machine.Reaches.since {may₀ may : Move → Prop} (hab : Machine.Reaches may a b)
    (ha : a.Reachable may₀) (hJ : Invariant J)
    (keep : ∀ m os n rs, Change m os n → J (a.trace ++ rs.map Record.what) m → I rs m →
      I (rs ++ os.map (Record.mk m.now)) n)
    (quiet : ∀ rs (n : Machine) handler history, I rs n →
      I rs { n with handler := handler, history := history })
    (base : I [] a) : ∃ rs, observed b.history = observed a.history ++ rs ∧ I rs b := by
  refine hab.kept (I := fun rs m => ∃ rs', rs = observed a.history ++ rs' ∧ I rs' m) ha hJ ?_ ?_
    ⟨[], (List.append_nil _).symm, base⟩
  · rintro m os n _ hc hj ⟨rs, rfl, hi⟩
    rw [List.map_append] at hj
    exact ⟨_, List.append_assoc .., keep m os n rs hc hj hi⟩
  · rintro _ n handler history ⟨rs, rfl, hi⟩
    exact ⟨rs, rfl, quiet rs n handler history hi⟩

/-- What was observed stays on record. -/
theorem Machine.Reaches.observed_since {may₀ may : Move → Prop} (hab : Machine.Reaches may a b)
    (ha : a.Reachable may₀) : ∃ rs, observed b.history = observed a.history ++ rs := by
  obtain ⟨rs, hrs, _⟩ := hab.since (I := fun _ _ => True) ha fit_invariant
    (fun _ _ _ _ _ _ _ => trivial) (fun _ _ _ _ _ => trivial) trivial
  exact ⟨rs, hrs⟩

theorem Machine.Reaches.mem_trace {may₀ may : Move → Prop} (hab : Machine.Reaches may a b)
    (ha : a.Reachable may₀) {o : Observation} (ho : o ∈ a.trace) : o ∈ b.trace := by
  obtain ⟨rs, hrs⟩ := hab.observed_since ha
  rw [trace, hrs, List.map_append]
  exact List.mem_append_left _ ho

/-- What holds before anything is observed and is kept by every change, leaning on an invariant. -/
theorem Machine.Reachable.kept {may : Move → Prop} (hb : b.Reachable may) (hJ : Invariant J)
    (initial : ∀ m, Machine.Initial m → I [] m)
    (keep : ∀ m os n rs, Change m os n → J (rs.map Record.what) m → I rs m →
      I (rs ++ os.map (Record.mk m.now)) n)
    (quiet : ∀ rs (n : Machine) handler history, I rs n →
      I rs { n with handler := handler, history := history }) : I (observed b.history) b := by
  obtain ⟨start, hs, hr⟩ := hb
  have base : I (observed start.history) start := by
    obtain ⟨_, _, _, _, rfl⟩ := hs.fields
    exact initial _ hs
  exact hr.kept ⟨start, hs, .refl may start⟩ hJ keep quiet base

end

end GameLink.Client

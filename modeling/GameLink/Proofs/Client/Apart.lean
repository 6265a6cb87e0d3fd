import GameLink.Proofs.Client.Invariant

/-! # What a task leaves alone

In its own step a task moves no other task, lets no time pass, and changes
neither how a close or a write ends nor who was heard to do something else
(`Apart`). While no task takes a step, none moves at all (`Still`).
-/
namespace GameLink.Client

/-- Who does something for itself. -/
def Observation.actor? : Observation → Option TaskId
  | .dialed i _ _ | .finished i _ | .closing i _ | .issued i _ | .answered i _ _ | .wrote i _ _ =>
    some i
  | _ => none

/-- Links only come, and their server ends stay as they are. -/
def Steady (a b : List Link) : Prop :=
  ∀ (l : LinkId) (k : Link), a[l]? = some k →
    ∃ k' : Link, b[l]? = some k' ∧ k'.mode = k.mode ∧ k'.serverOpen = k.serverOpen

namespace Steady

variable {a b c : List Link}

theorem refl (a : List Link) : Steady a a := fun _ k hk => ⟨k, hk, rfl, rfl⟩

theorem trans (hab : Steady a b) (hbc : Steady b c) : Steady a c := by
  intro l k hk
  obtain ⟨k', hk', hm, hs⟩ := hab l k hk
  obtain ⟨k'', hk'', hm', hs'⟩ := hbc l k' hk'
  exact ⟨k'', hk'', hm'.trans hm, hs'.trans hs⟩

theorem append (a b : List Link) : Steady a (a ++ b) := by
  intro l k hk
  obtain ⟨hlt, _⟩ := List.getElem?_eq_some_iff.mp hk
  exact ⟨k, by rw [List.getElem?_append_left hlt, hk], rfl, rfl⟩

theorem modify (a : List Link) (i : LinkId) (f : Link → Link)
    (hf : ∀ k, a[i]? = some k → (f k).mode = k.mode ∧ (f k).serverOpen = k.serverOpen) :
    Steady a (a.modify i f) := by
  intro l k hk
  rw [List.getElem?_modify]
  by_cases hi : i = l
  · subst hi
    exact ⟨f k, by simp [hk], hf k hk⟩
  · exact ⟨k, by simp [hi, hk], rfl, rfl⟩

theorem closeWriter (a : List Link) (i : LinkId) : Steady a (a.modify i Link.closeWriter) :=
  modify a i _ fun _ _ => ⟨rfl, rfl⟩

theorem closeReader (a : List Link) (i : LinkId) : Steady a (a.modify i Link.closeReader) :=
  modify a i _ fun _ _ => ⟨rfl, rfl⟩

theorem replaceWriter (a : List Link) (w : Option LinkId) :
    Steady a (Client.replaceWriter a w) := by
  cases w with
  | none => exact refl a
  | some old => exact closeWriter a old

theorem closeEnd (t : Task) (a : List Link) : Steady a (Client.closeEnd t a) := by
  unfold Client.closeEnd
  split
  · exact closeReader a _
  · exact refl a

theorem received {i : LinkId} {k k' : Link} {r : Link.Received} (hk : a[i]? = some k)
    (hf : k.receive = (k', r)) : Steady a (a.modify i (fun _ => k')) := by
  refine modify a i _ fun j hj => ?_
  cases hj.symm.trans hk
  have same : k' = k.receive.1 := by rw [hf]
  subst same
  unfold Link.receive
  split <;> exact ⟨rfl, rfl⟩

end Steady

/-- What task `i` does by itself. -/
structure Apart (i : TaskId) (m : Machine) (os : List Observation) (n : Machine) : Prop where
  others : ∀ j, j ≠ i → j < m.nextTask → n.task? j = m.task? j
  next_le : m.nextTask ≤ n.nextTask
  now : n.now = m.now
  settings : n.settings = m.settings
  closeMode : n.closeMode = m.closeMode
  links : Steady m.links n.links
  actor : ∀ o ∈ os, ∀ j, o.actor? = some j → j = i

section
variable {i : TaskId} {m n : Machine} {t : Task} {os : List Observation}

theorem others_placed {p : Position} (hi : t.id = i) (j : TaskId) (hj : j ≠ i) :
    findTask (placed t.id p m.tasks) j = m.task? j := by
  rw [findTask_placed, if_neg (hi ▸ hj)]
  rfl

theorem others_without (hi : t.id = i) (j : TaskId) (hj : j ≠ i) :
    findTask (without t.id m.tasks) j = m.task? j := by
  rw [findTask_without, if_neg (hi ▸ hj)]
  rfl

theorem others_released (host : Host) (hi : t.id = i) (j : TaskId) (hj : j ≠ i) :
    findTask (host.released t.id m.tasks) j = m.task? j := by
  cases host with
  | operation op => exact others_without hi j hj
  | heartbeat g k => exact others_placed hi j hj

theorem actor_farewell (host : Host) (id : TaskId) (outcome : Except Failure Answer) :
    ∀ o ∈ host.farewell id outcome, ∀ j, o.actor? = some j → j = id := by
  intro o ho j hj
  cases host with
  | operation op =>
    cases List.mem_singleton.mp ho
    exact (Option.some.inj hj).symm
  | heartbeat g k => cases ho

/-- The observations of one task, one by one. -/
theorem actor_cons {o : Observation} {os : List Observation}
    (ho : ∀ j, o.actor? = some j → j = i) (hos : ∀ o ∈ os, ∀ j, o.actor? = some j → j = i) :
    ∀ o' ∈ o :: os, ∀ j, o'.actor? = some j → j = i := by
  intro o' h
  rcases List.mem_cons.mp h with rfl | h
  · exact ho
  · exact hos o' h

theorem actor_nil : ∀ o ∈ ([] : List Observation), ∀ j, o.actor? = some j → j = i :=
  fun _ h => nomatch h

theorem actor_own {o : Observation} (hi : t.id = i) (ho : o.actor? = some t.id) (j : TaskId)
    (hj : o.actor? = some j) : j = i :=
  (Option.some.inj (ho.symm.trans hj)).symm.trans hi

theorem Released.apart (h : Released m os n) : Apart i m os n := by
  cases h with
  | cancelled g hu hc =>
    exact ⟨fun _ _ _ => rfl, Nat.le_refl _, rfl, rfl, rfl, .refl _, actor_nil⟩
  | emptied link hh ht hc hw =>
    exact ⟨fun _ _ _ => rfl, Nat.le_refl _, rfl, rfl, rfl, .closeWriter _ _, actor_nil⟩

theorem Connecting.apart (hi : t.id = i) (h : Connecting m t os n) : Apart i m os n := by
  cases h with
  | begun op url deadline stage hr hp hmsg hs hd hw hc =>
    exact ⟨fun j hj _ => others_placed hi j hj, Nat.le_refl _, rfl, rfl, rfl, .refl _, actor_nil⟩
  | backedOut n hr hp hs =>
    exact ⟨fun _ _ _ => rfl, Nat.le_refl _, rfl, rfl, rfl, .refl _, actor_nil⟩
  | hung op g url deadline wake hr hp =>
    exact ⟨fun j hj _ => others_placed hi j hj, Nat.le_refl _, rfl, rfl, rfl, .refl _, actor_nil⟩
  | abandoned g url deadline stage hp hg hs =>
    exact ⟨fun _ _ _ => rfl, Nat.le_refl _, rfl, rfl, rfl, .refl _, actor_nil⟩
  | dialed op g url deadline stage hr hp =>
    exact ⟨fun j hj _ => others_placed hi j hj, Nat.le_refl _, rfl, rfl, rfl, .append _ _,
      actor_cons (actor_own hi rfl) actor_nil⟩
  | installed op g link hr hp hl hg hs =>
    refine ⟨fun j hj hlt => ?_, Nat.le_add_right _ _, rfl, rfl, rfl, .replaceWriter _ _, ?_⟩
    · show findTask (without t.id (m.tasks ++ [⟨m.nextTask, .reader g link, .start, false⟩] ++
        [⟨m.nextTask + 1, .heartbeat g, .start, false⟩])) j = m.task? j
      rw [findTask_without, if_neg (hi ▸ hj), findTask_append, findTask_append,
        if_neg (Nat.ne_of_gt hlt), if_neg (Nat.ne_of_gt (Nat.lt_succ_of_lt hlt)), Option.or_none,
        Option.or_none]
      rfl
    · exact actor_cons (fun _ h => nomatch h) (actor_cons (fun _ h => nomatch h)
        (actor_cons (fun _ h => nomatch h) (actor_cons (actor_own hi rfl) actor_nil)))
  | outdated op g link hr hp hl hg =>
    exact ⟨fun j hj _ => others_placed hi j hj, Nat.le_refl _, rfl, rfl, rfl, .refl _, actor_nil⟩
  | discarded op link f hr hp =>
    exact ⟨fun j hj _ => others_without hi j hj, Nat.le_refl _, rfl, rfl, rfl,
      (Steady.closeWriter _ _).trans (.closeReader _ _), actor_cons (actor_own hi rfl) actor_nil⟩

theorem Exchanging.apart (hi : t.id = i) (h : Exchanging m t os n) : Apart i m os n := by
  have farewell : ∀ (host : Host) (outcome : Except Failure Answer),
      ∀ o ∈ host.farewell t.id outcome, ∀ j, o.actor? = some j → j = i :=
    fun host outcome o ho j hj => (actor_farewell host t.id outcome o ho j hj).trans hi
  cases h with
  | sending op message hr hp hq hs hmsg =>
    exact ⟨fun j hj _ => others_placed hi j hj, Nat.le_refl _, rfl, rfl, rfl, .refl _, actor_nil⟩
  | requesting host x hh hx hs hmsg hb =>
    exact ⟨fun j hj _ => others_placed hi j hj, Nat.le_refl _, rfl, rfl, rfl, .refl _,
      actor_cons (actor_own hi rfl) actor_nil⟩
  | refused host hh hs =>
    exact ⟨fun j hj _ => others_released host hi j hj, Nat.le_refl _, rfl, rfl, rfl, .refl _,
      actor_cons (actor_own hi rfl) (actor_cons (actor_own hi rfl) (farewell host _))⟩
  | stalled host x l link hr hv hp hl hw hk hf =>
    exact ⟨fun j hj _ => others_placed hi j hj, Nat.le_refl _, rfl, rfl, rfl, .refl _, actor_nil⟩
  | written host x l link link' hr hv hp hl hw hk hf =>
    refine ⟨fun j hj _ => others_placed hi j hj, Nat.le_refl _, rfl, rfl, rfl, ?_,
      actor_cons (actor_own hi rfl) actor_nil⟩
    obtain ⟨_, _, rfl⟩ := Link.write_eq_sent hf
    refine Steady.modify _ _ _ fun k hk' => ?_
    cases hk'.symm.trans hk
    exact ⟨rfl, rfl⟩
  | sent op x hr hp hx =>
    exact ⟨fun j hj _ => others_without hi j hj, Nat.le_refl _, rfl, rfl, rfl, .refl _,
      actor_cons (actor_own hi rfl) actor_nil⟩
  | notSent op x stage f hr hp hx hn =>
    exact ⟨fun j hj _ => others_without hi j hj, Nat.le_refl _, rfl, rfl, rfl, .refl _,
      actor_cons (actor_own hi rfl) actor_nil⟩
  | unsent host x stage k f hr hv hp hx hn =>
    exact ⟨fun j hj _ => others_released host hi j hj, Nat.le_refl _, rfl, rfl, rfl, .refl _,
      actor_cons (actor_own hi rfl) (farewell host _)⟩
  | replied host x k outcome hr hv hp hx hw =>
    exact ⟨fun j hj _ => others_released host hi j hj, Nat.le_refl _, rfl, rfl, rfl, .refl _,
      actor_cons (actor_own hi rfl) (farewell host _)⟩
  | givenUp host x stage hr hp hv =>
    exact ⟨fun j hj _ => others_without hi j hj, Nat.le_refl _, rfl, rfl, rfl, .refl _, actor_nil⟩

theorem Background.apart (hi : t.id = i) (h : Background m t os n) : Apart i m os n := by
  cases h with
  | readerStarted g link hr hp =>
    exact ⟨fun j hj _ => others_placed hi j hj, Nat.le_refl _, rfl, rfl, rfl, .refl _, actor_nil⟩
  | heartbeatStarted g hr hp =>
    exact ⟨fun j hj _ => others_placed hi j hj, Nat.le_refl _, rfl, rfl, rfl, .refl _, actor_nil⟩
  | dispatched g link l l' frame hr hp hc hl hf =>
    refine ⟨fun _ _ _ => rfl, Nat.le_refl _, rfl, rfl, rfl, .received hl hf, ?_⟩
    refine actor_cons (fun _ h => nomatch h) ?_
    unfold heard
    split
    · exact actor_cons (fun _ h => nomatch h) (actor_cons (fun _ h => nomatch h) actor_nil)
    · exact actor_nil
  | readerLeft g link hr hp ho =>
    exact ⟨fun j hj _ => others_without hi j hj, Nat.le_refl _, rfl, rfl, rfl, .closeReader _ _,
      actor_nil⟩
  | heartbeatLeft g k hr hp ho =>
    exact ⟨fun j hj _ => others_without hi j hj, Nat.le_refl _, rfl, rfl, rfl, .refl _, actor_nil⟩

theorem Begins.steady {td : Teardown} {links : List Link} (h : Begins m t td links) :
    Steady m.links links := by
  cases h with
  | close n hr hp => exact .refl _
  | remote g link l l' hr hp hc hl hf => exact .refl _
  | failed g link l l' f hr hp hc hl hf => exact .received hl hf
  | silent g k hr hp hc => exact .refl _

theorem Tearing.apart (hi : t.id = i) (h : Tearing m t os n) : Apart i m os n := by
  cases h with
  | begun td links hb hg hs =>
    refine ⟨fun j hj _ => others_placed hi j hj, Nat.le_refl _, rfl, rfl, rfl, hb.steady,
      actor_cons (actor_own hi rfl) ?_⟩
    split
    · exact actor_cons (fun _ h => nomatch h) (actor_cons (fun _ h => nomatch h) actor_nil)
    · exact actor_nil
  | taken td link hp hl hw =>
    exact ⟨fun j hj _ => others_placed hi j hj, Nat.le_refl _, rfl, rfl, rfl, .refl _, actor_nil⟩
  | ended td stage links queue hf hp hv =>
    have shut : Steady m.links links := by
      cases hv with
      | empty hl hw => exact .refl _
      | closed link deadline => exact .closeWriter _ _
    refine ⟨fun j hj _ => others_without hi j hj, Nat.le_refl _, rfl, rfl, rfl,
      shut.trans (.closeEnd _ _), actor_cons (fun _ h => nomatch h) ?_⟩
    intro o ho j hj
    rcases List.mem_append.mp ho with ho | ho
    · rcases List.mem_append.mp ho with ho | ho
      · split at ho
        · rcases List.mem_cons.mp ho with rfl | ho
          · cases hj
          · cases List.mem_singleton.mp ho
            cases hj
        · cases ho
      · split at ho
        · cases ho
        · cases List.mem_singleton.mp ho
          cases hj
    · split at ho
      · cases List.mem_singleton.mp ho
        exact actor_own hi rfl j hj
      · cases ho

theorem Leaving.apart (hi : t.id = i) (h : Leaving m t os n) : Apart i m os n := by
  cases h with
  | finished op r hr hp hmsg hd =>
    refine ⟨fun j hj _ => others_without hi j hj, Nat.le_refl _, rfl, rfl, rfl, .refl _,
      actor_cons (fun j hj => ?_) actor_nil⟩
    exact (Option.some.inj hj).symm.trans hi
  | dropped links queue ha hd =>
    have shut : Steady m.links links := by
      generalize t.position = p at hd
      cases hd with
      | installing g link => exact (Steady.closeWriter _ _).trans (.closeReader _ _)
      | discarding link => exact (Steady.closeWriter _ _).trans (.closeReader _ _)
      | closing td link deadline => exact .closeWriter _ _
      | _ => exact .refl _
    exact ⟨fun j hj _ => others_without hi j hj, Nat.le_refl _, rfl, rfl, rfl, shut, actor_nil⟩

theorem Deed.apart (h : Deed i m os n) : Apart i m os n := by
  cases h with
  | nothing => exact ⟨fun _ _ _ => rfl, Nat.le_refl _, rfl, rfl, rfl, .refl _, actor_nil⟩
  | hires op policy h =>
    refine ⟨fun j hj hlt => ?_, Nat.le_succ _, rfl, rfl, rfl, .refl _,
      actor_cons (fun _ h => nomatch h) actor_nil⟩
    show findTask (m.tasks ++ [⟨m.nextTask, .operation op, .start, false⟩]) j = m.task? j
    rw [findTask_append, if_neg (Nat.ne_of_gt hlt), Option.or_none]
    rfl
  | released h => exact h.apart
  | connecting hi ht h => exact h.apart hi
  | exchanging hi ht h => exact h.apart hi
  | background hi ht h => exact h.apart hi
  | tearing hi ht h => exact h.apart hi
  | leaving hi ht h => exact h.apart hi

end

/-! ## A whole step -/

theorem Apart.trans {i : TaskId} {a b c : Machine} {os os' : List Observation}
    (hab : Apart i a os b) (hbc : Apart i b os' c) : Apart i a (os ++ os') c where
  others j hj hlt := (hbc.others j hj (Nat.lt_of_lt_of_le hlt hab.next_le)).trans
    (hab.others j hj hlt)
  next_le := Nat.le_trans hab.next_le hbc.next_le
  now := hbc.now.trans hab.now
  settings := hbc.settings.trans hab.settings
  closeMode := hbc.closeMode.trans hab.closeMode
  links := hab.links.trans hbc.links
  actor o ho := (List.mem_append.mp ho).elim (hab.actor o) (hbc.actor o)

/-- What a step of task `i` leaves alone, and what is on record after it. -/
def Untouched (i : TaskId) (m n : Machine) : Prop :=
  ∃ os, Apart i m os n ∧
    observed n.history = observed m.history ++ os.map (Record.mk m.now)

theorem Untouched.effect {i : TaskId} {m b c : Machine} (hu : Untouched i m b)
    (h : Effect (Deed i) b c) : Untouched i m c := by
  obtain ⟨os, ha, hr⟩ := hu
  obtain ⟨os', n, hd, hs⟩ := h
  obtain ⟨handler, history, rfl⟩ := hs.same
  have last : Apart i b os' { n with handler := handler, history := history } := by
    obtain ⟨others, next_le, now, settings, closeMode, links, actor⟩ := hd.apart
    exact ⟨others, next_le, now, settings, closeMode, links, actor⟩
  refine ⟨os ++ os', ha.trans last, ?_⟩
  rw [hs.seen, hr, ha.now, List.map_append, List.append_assoc]

theorem Course.untouched {i : TaskId} {m n : Machine} {k : Nat} (h : Course (Deed i) m k n) :
    Untouched i m n := by
  induction h with
  | refl =>
    exact ⟨[], ⟨fun _ _ _ => rfl, Nat.le_refl _, rfl, rfl, rfl, .refl _, actor_nil⟩, by simp⟩
  | calm _ h _ _ ih => exact ih.effect h
  | leap _ h ih => exact ih.effect h

/-! ## While no task takes a step -/

/-- Every task is where it was, and only operations are told to stop. -/
structure Still (m : Machine) (os : List Observation) (n : Machine) : Prop where
  next_le : m.nextTask ≤ n.nextTask
  settings : n.settings = m.settings
  stays : ∀ i t, m.task? i = some t → ∃ u, n.task? i = some u ∧ u.role = t.role ∧
    u.position = t.position ∧ (t.isOperation = false → u.aborted = t.aborted)
  gone : ∀ i, i < m.nextTask → m.task? i = none → n.task? i = none
  actor : ∀ o ∈ os, o.actor? = none

section
variable {a b c m n : Machine} {os os' : List Observation}

theorem Still.same (hn : n.nextTask = m.nextTask) (hs : n.settings = m.settings)
    (ht : n.tasks = m.tasks) (ho : ∀ o ∈ os, o.actor? = none) : Still m os n := by
  have same : ∀ i, n.task? i = m.task? i := fun i => congrArg (findTask · i) ht
  exact ⟨Nat.le_of_eq hn.symm, hs, fun i t h => ⟨t, (same i).trans h, rfl, rfl, fun _ => rfl⟩,
    fun i _ h => (same i).trans h, ho⟩

theorem Still.trans (hab : Still a os b) (hbc : Still b os' c) : Still a (os ++ os') c where
  next_le := Nat.le_trans hab.next_le hbc.next_le
  settings := hbc.settings.trans hab.settings
  stays i t ht := by
    obtain ⟨u, hu, hr, hp, ha⟩ := hab.stays i t ht
    obtain ⟨v, hv, hr', hp', ha'⟩ := hbc.stays i u hu
    have operation : u.isOperation = t.isOperation := by
      rw [Task.isOperation, Task.isOperation, hr]
    exact ⟨v, hv, hr'.trans hr, hp'.trans hp, fun h => (ha' (operation.trans h)).trans (ha h)⟩
  gone i hi h := hbc.gone i (Nat.lt_of_lt_of_le hi hab.next_le) (hab.gone i hi h)
  actor o ho := (List.mem_append.mp ho).elim (hab.actor o) (hbc.actor o)

theorem Outside.still (h : Outside m os n) : Still m os n := by
  cases h with
  | nothing => exact .same rfl rfl rfl fun _ h => nomatch h
  | started op policy hu =>
    have there : ∀ i, findTask (m.tasks ++ [⟨m.nextTask, .operation op, .start, false⟩]) i =
        (m.task? i).or (if m.nextTask = i then some ⟨m.nextTask, .operation op, .start, false⟩
          else none) := fun i => findTask_append
    refine ⟨Nat.le_succ _, rfl, fun i t ht => ⟨t, ?_, rfl, rfl, fun _ => rfl⟩, fun i hi ht => ?_,
      fun o ho => ?_⟩
    · exact (there i).trans (by rw [ht]; rfl)
    · exact (there i).trans (by rw [ht, if_neg (Nat.ne_of_gt hi)]; rfl)
    · cases List.mem_singleton.mp ho
      rfl
  | aborted id hid =>
    have there : ∀ i, findTask (m.tasks.map
        (fun t => if t.id = id then { t with aborted := true } else t)) i =
        (m.task? i).map (fun t => if t.id = id then { t with aborted := true } else t) :=
      fun i => findTask_map (fun t => by split <;> rfl)
    refine ⟨Nat.le_refl _, rfl, fun i t ht => ?_, fun i _ ht => ?_, fun _ h => nomatch h⟩
    · by_cases hi : t.id = id
      · refine ⟨{ t with aborted := true }, ?_, rfl, rfl, fun hop => ?_⟩
        · exact (there i).trans (by rw [ht, Option.map_some, if_pos hi])
        · -- only an operation is told to stop
          have ht : m.task? id = some t := hi ▸ findTask_id ht ▸ ht
          rw [ht, Option.any_some, hop] at hid
          cases hid
      · exact ⟨t, (there i).trans (by rw [ht, Option.map_some, if_neg hi]), rfl, rfl,
          fun _ => rfl⟩
    · exact (there i).trans (by rw [ht]; rfl)
  | unheld => exact .same rfl rfl rfl fun _ h => nomatch h
  | ambient dialer closeMode clock => exact .same rfl rfl rfl fun _ h => nomatch h
  | elapsed ms hms => exact .same rfl rfl rfl fun _ h => nomatch h
  | pushed link l frame hl hs hr =>
    refine .same rfl rfl rfl fun o ho => ?_
    cases List.mem_singleton.mp ho
    rfl
  | serverMode link mode => exact .same rfl rfl rfl fun _ h => nomatch h
  | serverClosed link => exact .same rfl rfl rfl fun _ h => nomatch h
  | taken link l text hl ht =>
    refine .same rfl rfl rfl fun o ho => ?_
    cases List.mem_singleton.mp ho
    rfl

theorem Stir.still (h : Stir m os n) : Still m os n := by
  cases h with
  | outside h => exact h.still
  | released h => cases h <;> exact .same rfl rfl rfl fun _ h => nomatch h

/-- What is on record after moves that no task made. -/
theorem Course.still {k : Nat} (h : Course Stir m k n) : ∃ rs,
    observed n.history = observed m.history ++ rs ∧ Still m (rs.map Record.what) n := by
  have effect : ∀ {a b : Machine}, Effect Stir a b →
      (∃ rs, observed a.history = observed m.history ++ rs ∧ Still m (rs.map Record.what) a) →
      ∃ rs, observed b.history = observed m.history ++ rs ∧ Still m (rs.map Record.what) b := by
    rintro a b ⟨os, c, hc, hs⟩ ⟨rs, hrs, hm⟩
    obtain ⟨handler, history, rfl⟩ := hs.same
    obtain ⟨next_le, settings, stays, gone, actor⟩ := hc.still
    refine ⟨rs ++ os.map (Record.mk a.now), by rw [hs.seen, hrs, List.append_assoc], ?_⟩
    have last : Still a os { c with handler := handler, history := history } :=
      ⟨next_le, settings, stays, gone, actor⟩
    simpa [Function.comp_def] using hm.trans last
  induction h with
  | refl => exact ⟨[], (List.append_nil _).symm, .same rfl rfl rfl fun _ h => nomatch h⟩
  | calm _ h _ _ ih => exact effect h ih
  | leap _ h ih => exact effect h ih

end

/-! ## Moves of others -/

/-- What becomes of a task in a move that it does not make. -/
structure Bystander (i : TaskId) (m n : Machine) : Prop where
  next_le : m.nextTask ≤ n.nextTask
  settings : n.settings = m.settings
  stays : ∀ t, m.task? i = some t → ∃ u, n.task? i = some u ∧ u.role = t.role ∧
    u.position = t.position ∧ (t.isOperation = false → u.aborted = t.aborted)
  gone : i < m.nextTask → m.task? i = none → n.task? i = none
  records : ∃ rs, observed n.history = observed m.history ++ rs ∧
    ∀ r ∈ rs, r.what.actor? ≠ some i

section
variable {m n : Machine} {t u : Task} {i j : TaskId}

theorem Untouched.bystander (h : Untouched j m n) (hm : Fit m) (hij : i ≠ j) : Bystander i m n := by
  obtain ⟨os, ha, hr⟩ := h
  refine ⟨ha.next_le, ha.settings, fun t ht => ⟨t, ?_, rfl, rfl, fun _ => rfl⟩, fun hi ht => ?_,
    _, hr, fun r hmem ho => ?_⟩
  · exact (ha.others i hij (hm.fresh i t ht)).trans ht
  · exact (ha.others i hij hi).trans ht
  · obtain ⟨o, hos, rfl⟩ := List.mem_map.mp hmem
    exact hij (ha.actor o hos i ho)

theorem Machine.bystander (hm : Fit m) {v : Move} (h : m.allows v = true)
    (hv : v ≠ .work (.task i)) : Bystander i m (m.after v) := by
  cases v with
  | work w =>
    obtain ⟨j, hj, hij⟩ : ∃ j, (∀ k, w = .task k → k = j) ∧ i ≠ j := by
      cases w with
      | task j =>
        refine ⟨j, fun k hk => (Worker.task.inj hk).symm, ?_⟩
        rintro rfl
        exact hv rfl
      | forwarder k => exact ⟨i + 1, fun _ h => (nomatch h), Nat.ne_of_lt (Nat.lt_succ_self i)⟩
    exact (course_run hm h hj).untouched.bystander hm hij
  | act a =>
    obtain ⟨rs, hrs, hs⟩ := (course_act h).still
    refine ⟨hs.next_le, hs.settings, hs.stays i, hs.gone i, rs, hrs, fun r hr ho => ?_⟩
    cases (hs.actor r.what (List.mem_map_of_mem hr)).symm.trans ho

/-- A task that is there after a move of others was there before it. -/
theorem Bystander.origin (h : Bystander i m n) (hu : n.task? i = some u) (hi : i < m.nextTask) :
    ∃ t, m.task? i = some t ∧ u.role = t.role ∧ u.position = t.position := by
  cases ht : m.task? i with
  | none => cases hu.symm.trans (h.gone hi ht)
  | some t =>
    obtain ⟨v, hv, hr, hp, _⟩ := h.stays t ht
    cases hu.symm.trans hv
    exact ⟨t, rfl, hr, hp⟩

end

/-! ## The end of a task -/

namespace Machine

variable {i : TaskId}

/-- Whoever lets go touches the stored cancellation and the writer only. -/
theorem release_eq (m : Machine) : ∃ cancel cancelled writer links, m.release =
    { m with cancel := cancel, cancelled := cancelled, writer := writer, links := links } := by
  have handle : ∃ cancel cancelled, m.releaseHandle =
      { m with cancel := cancel, cancelled := cancelled } := by
    unfold releaseHandle
    split
    · exact ⟨_, _, rfl⟩
    · exact ⟨_, _, cancelStored_eq m⟩
  obtain ⟨cancel, cancelled, heq⟩ := handle
  unfold release releaseWriter
  rw [heq]
  split
  · exact ⟨_, _, _, _, rfl⟩
  · split
    · exact ⟨_, _, _, _, rfl⟩
    · exact ⟨_, _, _, _, rfl⟩

theorem removeTask_eq (m : Machine) : ∃ cancel cancelled writer links, m.removeTask i =
    { m with
      tasks := without i m.tasks
      cancel := cancel
      cancelled := cancelled
      writer := writer
      links := links } := release_eq { m with tasks := without i m.tasks }

theorem removeTask_gone (m : Machine) : (m.removeTask i).task? i = none := by
  obtain ⟨_, _, _, _, heq⟩ := @removeTask_eq i m
  rw [heq]
  exact findTask_without.trans (if_pos rfl)

theorem removeTask_history (m : Machine) : (m.removeTask i).history = m.history := by
  obtain ⟨_, _, _, _, heq⟩ := @removeTask_eq i m
  rw [heq]

theorem removeTask_state (m : Machine) : (m.removeTask i).state = m.state := by
  obtain ⟨_, _, _, _, heq⟩ := @removeTask_eq i m
  rw [heq]

/-- Whoever finishes is gone. -/
theorem finish_gone (r : Result) (m : Machine) : (m.finish i r).task? i = none :=
  removeTask_gone _

theorem finish_trace (r : Result) (m : Machine) :
    (m.finish i r).trace = m.trace ++ [.finished i r] := by
  rw [trace, finish, removeTask_history]
  simp [trace]

end Machine

end GameLink.Client

import GameLink.Proofs.Registry.Unaided

/-! # How a wait ends

A wait on one handle among any other acts at the desk. Its outcome is whatever settles
its slot first, before the wait starts or after, and where nothing does, that its time
is up. The time counts from the registration.

When a wait ends is not for the table to say: it needs a desk at which time does not
pass over a wait that can end (`Lets`). At such a desk a wait that is settled ends at
that moment, or as soon as it starts, and any other at its deadline, or as soon as it
starts. The invariant is `Awaits`; one act keeps it or is the poll that ends the wait.
-/
namespace GameLink.Registry.Desk

/-! ## When an id is settled -/

/-- `outcome` is what settles `c`, at `moment`. -/
def SettlesAt (acts : List Act) (c : String) (outcome : Outcome) (moment : Nat) : Prop :=
  ∃ earlier a later, acts = earlier ++ a :: later ∧ fate c (journal earlier).entries = none ∧
    fate c (journal (earlier ++ [a])).entries = some outcome ∧ (journal earlier).desk.now = moment

section
variable {acts : List Act} {a : Act} {c : String} {outcome : Outcome} {moment : Nat}

theorem SettlesAt.append (h : SettlesAt acts c outcome moment) (more : List Act) :
    SettlesAt (acts ++ more) c outcome moment := by
  obtain ⟨earlier, a, later, rfl, before, after, now⟩ := h
  exact ⟨earlier, a, later ++ more, by simp, before, after, now⟩

theorem settlesAt_last (before : fate c (journal acts).entries = none)
    (after : fate c (journal (acts ++ [a])).entries = some outcome) :
    SettlesAt (acts ++ [a]) c outcome (journal acts).desk.now :=
  ⟨acts, a, [], rfl, before, after, rfl⟩

/-- What has settled an id stays. -/
theorem fate_append_of_some {es : List Entry} {e : Entry} (h : fate c es = some outcome) :
    fate c (es ++ [e]) = some outcome := by
  have mem : c ∈ issued es := by
    by_contra absent
    simp [fate_of_not_mem absent] at h
  rw [fate_append_of_mem mem, h, Option.some_or]

theorem fate_later (h : fate c (journal acts).entries = some outcome) (more : List Act) :
    fate c (journal (acts ++ more)).entries = some outcome := by
  induction more using List.reverseRecOn with
  | nil => simpa using h
  | append_singleton more a ih =>
    rw [← List.append_assoc, journal_append_singleton]
    exact fate_append_of_some ih

theorem SettlesAt.fate (h : SettlesAt acts c outcome moment) :
    fate c (journal acts).entries = some outcome := by
  obtain ⟨earlier, a, later, rfl, -, after, -⟩ := h
  rw [List.append_cons]
  exact fate_later after later

theorem exists_settlesAt (h : fate c (journal acts).entries = some outcome) :
    ∃ moment ≤ (journal acts).desk.now, SettlesAt acts c outcome moment := by
  induction acts using List.reverseRecOn with
  | nil => simp [journal, fate] at h
  | append_singleton acts a ih =>
    have later : (journal acts).desk.now ≤ (journal (acts ++ [a])).desk.now := by
      rw [journal_append_singleton, Journal.step, play_now]
      exact Nat.le_add_right ..
    cases before : fate c (journal acts).entries with
    | none => exact ⟨_, later, settlesAt_last before h⟩
    | some first =>
      have same : fate c (journal (acts ++ [a])).entries = some first := by
        rw [journal_append_singleton]
        exact fate_append_of_some before
      obtain rfl : first = outcome := Option.some.inj (same.symm.trans h)
      obtain ⟨moment, le, settles⟩ := ih before
      exact ⟨moment, le.trans later, settles.append [a]⟩

end

/-! ## A wait among other acts -/

/-- A wait on `h` is under way that began at `start`. -/
structure Awaits (acts : List Act) (h : Nat) (ticket : Ticket) (timeout start : Nat) : Prop where
  waiting : (journal acts).desk.requests[h]? = some ⟨ticket, .waiting timeout⟩
  since : start ≤ (journal acts).desk.now
  due : (journal acts).desk.now ≤ max start (deadline ticket timeout)
  /-- What has been settled is settled just now, or was before the wait. -/
  settled : ∀ outcome, fate ticket.cid (journal acts).entries = some outcome →
    ∃ moment, SettlesAt acts ticket.cid outcome moment ∧
      (journal acts).desk.now = max start moment

/-- How a wait that began at `start` ends at `moment`, after `acts`. -/
inductive Concludes (acts : List Act) (ticket : Ticket) (timeout start moment : Nat) :
    Outcome → Prop
  | settled {outcome : Outcome} {settling : Nat}
    (settles : SettlesAt acts ticket.cid outcome settling)
    (inTime : settling ≤ max start (deadline ticket timeout))
    (ends : moment = max start settling) : Concludes acts ticket timeout start moment outcome
  | timedOut (unsettled : fate ticket.cid (journal acts).entries = none)
    (ends : moment = max start (deadline ticket timeout)) :
    Concludes acts ticket timeout start moment (.error (.timeout ticket.cid timeout))

section
variable {acts before during : List Act} {a : Act} {h timeout start : Nat} {ticket : Ticket}

theorem awaits_wait (held : (journal before).desk.requests[h]? = some ⟨ticket, .held⟩) :
    Awaits (before ++ [.wait h timeout]) h ticket timeout (journal before).desk.now := by
  have hs : (journal before).desk.stage h = .held := by simp [stage, held]
  have now : (journal (before ++ [.wait h timeout])).desk.now = (journal before).desk.now := by
    rw [journal_append_singleton, Journal.step, play_now]
    rfl
  refine ⟨?_, now.ge, now.le.trans (Nat.le_max_left ..), fun outcome settled => ?_⟩
  · simp [Journal.step, play, Desk.wait, hs, setStage, held]
  · obtain ⟨moment, le, settles⟩ := exists_settlesAt settled
    exact ⟨moment, settles, by omega⟩

/-- One more act, unless it ends the wait. -/
theorem Awaits.next (w : Awaits acts h ticket timeout start)
    (waits : ((journal acts).desk.play a).1.requests[h]? = some ⟨ticket, .waiting timeout⟩)
    (prompt : ∀ ms, a = .elapse ms → (journal acts).desk.Lets h ms) :
    Awaits (acts ++ [a]) h ticket timeout start := by
  have hb := journal_books acts
  have since := w.since
  have due := w.due
  have now : (journal (acts ++ [a])).desk.now = (journal acts).desk.now + a.lasts := by
    rw [journal_append_singleton, Journal.step, play_now]
  have entries : (journal (acts ++ [a])).entries =
      (journal acts).entries ++ [((journal acts).desk.play a).2] := by
    rw [journal_append_singleton, Journal.step]
  have still : (journal (acts ++ [a])).desk.requests[h]? = some ⟨ticket, .waiting timeout⟩ := by
    rw [journal_append_singleton]
    exact waits
  -- Either the clock stands still, or nothing has settled the id and nothing does.
  by_cases stands : a.lasts = 0
  · refine ⟨still, by omega, by omega, fun outcome settled => ?_⟩
    cases before : fate ticket.cid (journal acts).entries with
    | none => exact ⟨_, settlesAt_last before settled, by omega⟩
    | some first =>
      have same := fate_append_of_some (e := ((journal acts).desk.play a).2) before
      rw [← entries, settled] at same
      obtain rfl : outcome = first := Option.some.inj same
      obtain ⟨moment, settles, same_now⟩ := w.settled outcome before
      exact ⟨moment, settles.append [a], by omega⟩
  · obtain ⟨ms, rfl⟩ : ∃ ms, a = .elapse ms := by
      cases a <;> first | exact ⟨_, rfl⟩ | exact absurd rfl stands
    obtain ⟨unending, le⟩ := prompt ms rfl ticket timeout w.waiting
    rw [ending_eq hb w.waiting, Option.or_eq_none_iff] at unending
    have later : (journal (acts ++ [.elapse ms])).desk.now ≤ deadline ticket timeout := by
      rw [now]
      exact le
    refine ⟨still, by omega, later.trans (Nat.le_max_right ..), fun outcome settled => ?_⟩
    have holds : (journal acts).desk.Holds h ticket.cid := ⟨_, w.waiting, rfl, Stage.noConfusion⟩
    rw [entries, hb.fate_aside holds rfl, unending.1] at settled
    cases settled

/-- A poll ends a wait just when it is settled or its time is up. -/
theorem Awaits.ending_iff (w : Awaits acts h ticket timeout start) {outcome : Outcome} :
    (journal acts).desk.ending h = some outcome ↔
      Concludes acts ticket timeout start (journal acts).desk.now outcome := by
  have due := w.due
  have since := w.since
  rw [ending_eq (journal_books acts) w.waiting]
  constructor
  · intro ends
    cases settled : fate ticket.cid (journal acts).entries with
    | some first =>
      obtain ⟨moment, settles, now⟩ := w.settled first settled
      obtain rfl : first = outcome := by simpa [settled] using ends
      exact .settled settles (by omega) now
    | none =>
      obtain ⟨late, rfl⟩ : deadline ticket timeout ≤ (journal acts).desk.now ∧
          .error (.timeout ticket.cid timeout) = outcome := by simpa [settled] using ends
      exact .timedOut settled (by omega)
  · rintro (⟨settles, -, -⟩ | ⟨unsettled, ends⟩)
    · rw [settles.fate, Option.some_or]
    · rw [unsettled, Option.none_or, if_pos (by omega)]

theorem unended_next (none : ∀ e ∈ (journal acts).entries, e.ends h = false)
    (last : ((journal acts).desk.play a).2.ends h = false) :
    ∀ e ∈ (journal (acts ++ [a])).entries, e.ends h = false := by
  intro e he
  rw [journal_append_singleton, Journal.step, List.mem_append] at he
  rcases he with he | he
  · exact none e he
  · rw [List.mem_singleton.mp he]
    exact last

/-- A wait goes on among the acts during it, or one of them has ended it. -/
theorem wait_course (held : (journal before).desk.requests[h]? = some ⟨ticket, .held⟩)
    (kept : .abandon h ∉ during) (prompt : Prompt h (before ++ [.wait h timeout]) during) :
    (Awaits (before ++ .wait h timeout :: during) h ticket timeout (journal before).desk.now ∧
      ∀ e ∈ (journal (before ++ .wait h timeout :: during)).entries, e.ends h = false) ∨
    ∃ inside outside outcome, during = inside ++ .finish h :: outside ∧
      Awaits (before ++ .wait h timeout :: inside) h ticket timeout (journal before).desk.now ∧
      (journal (before ++ .wait h timeout :: inside)).desk.ending h = some outcome ∧
      (journal (before ++ .wait h timeout :: during)).desk.requests[h]? = some ⟨ticket, .gone⟩ ∧
      (journal (before ++ .wait h timeout :: during)).entries.filter (Entry.ends h) =
        [.ended h (journal (before ++ .wait h timeout :: inside)).desk.now outcome] := by
  have began : ∀ e ∈ (journal before).entries, e.ends h = false := by
    have lt := (List.getElem?_eq_some_iff.mp held).1
    exact ((journal_books before).exists_holds_iff lt).mp ⟨_, _, held, rfl, Stage.noConfusion⟩
  induction during using List.reverseRecOn with
  | nil =>
    exact .inl ⟨awaits_wait held, unended_next began rfl⟩
  | append_singleton during a ih =>
    have snoc : before ++ .wait h timeout :: (during ++ [a]) =
        (before ++ .wait h timeout :: during) ++ [a] := by simp
    have hb := journal_books (before ++ .wait h timeout :: during)
    rw [snoc]
    rcases ih (fun he => kept (List.mem_append_left _ he)) prompt.of_append with
      ⟨w, none⟩ | ⟨inside, outside, outcome, rfl, w, ending, gone, ended⟩
    · have kept' : a ≠ .abandon h := by rintro rfl; exact kept (by simp)
      rcases play_waiting hb w.waiting kept' with
        ⟨waits, quiet⟩ | ⟨outcome, rfl, ending, gone, ended⟩
      · refine .inl ⟨w.next waits fun ms e => ?_, unended_next none quiet⟩
        subst e
        simpa using prompt.last
      · refine .inr ⟨during, [], outcome, rfl, w, ending, ?_, ?_⟩
        · rw [journal_append_singleton]
          exact gone
        · rw [journal_append_singleton, Journal.step, List.filter_append,
            List.filter_eq_nil_iff.mpr (by simpa using none), List.nil_append, ended]
          simp [Entry.ends]
    · obtain ⟨gone', quiet⟩ := play_gone hb a gone
      refine .inr ⟨inside, outside ++ [a], outcome, by simp, w, ending, ?_, ?_⟩
      · rw [journal_append_singleton]
        exact gone'
      · rw [journal_append_singleton, Journal.step, List.filter_append, ended]
        simp [quiet]

/-- Who is gone stays gone. -/
theorem gone_later (gone : (journal acts).desk.requests[h]? = some ⟨ticket, .gone⟩)
    (more : List Act) : (journal (acts ++ more)).desk.requests[h]? = some ⟨ticket, .gone⟩ := by
  induction more using List.reverseRecOn with
  | nil => simpa using gone
  | append_singleton more a ih =>
    rw [← List.append_assoc, journal_append_singleton]
    exact (play_gone (journal_books _) a ih).1

end

/-! ## The wait -/

/-- A wait on handle `h` that begins after `before`, during which these acts happen. -/
structure Awaited (before : List Act) (h : Nat) (ticket : Ticket) (timeout : Nat)
    (during : List Act) : Prop where
  /-- The handle has the id of its number, and its time counts from its registration. -/
  registered : ∃ earlier later, before = earlier ++ .register :: later ∧
    (journal earlier).desk.requests.length = h ∧
    ticket = ⟨toString (h + 1), (journal earlier).desk.now⟩
  /-- It ends when it is polled, with what settled its slot or because its time is up,
  and at no other moment than that of whatever comes first. -/
  ended : ∀ moment outcome,
    .ended h moment outcome ∈ (journal (before ++ .wait h timeout :: during)).entries →
    ∃ inside outside, during = inside ++ .finish h :: outside ∧
      moment = (journal (before ++ .wait h timeout :: inside)).desk.now ∧
      Concludes (before ++ .wait h timeout :: inside) ticket timeout (journal before).desk.now
        moment outcome
  once : ((journal (before ++ .wait h timeout :: during)).entries.filter (Entry.ends h)).length ≤ 1
  /-- As long as it has not ended, nothing is overdue, and a poll ends it just when it
  is settled or its time is up. -/
  pending : (∀ e ∈ (journal (before ++ .wait h timeout :: during)).entries, e.ends h = false) →
    Awaits (before ++ .wait h timeout :: during) h ticket timeout (journal before).desk.now ∧
    ∀ outcome, (journal (before ++ .wait h timeout :: during)).desk.ending h = some outcome ↔
      Concludes (before ++ .wait h timeout :: during) ticket timeout (journal before).desk.now
        (journal (before ++ .wait h timeout :: during)).desk.now outcome
  /-- Once it has ended its id is in no table any more, and whoever resolves it finds nothing. -/
  afterwards : (∃ e ∈ (journal (before ++ .wait h timeout :: during)).entries, e.ends h = true) →
    ∀ more : List Act,
      (journal (before ++ .wait h timeout :: (during ++ more))).desk.registry.contains
        ticket.cid = false ∧
      ∀ outcome, ((journal (before ++ .wait h timeout :: (during ++ more))).desk.registry.resolve
        ticket.cid outcome).2 = false
  /-- Time that passes by itself gives up no wait and passes over none. -/
  advanced : ∀ ms : Nat, ∃ more : List Act,
    (journal (before ++ .wait h timeout :: (during ++ more))).desk =
      ((journal (before ++ .wait h timeout :: during)).desk.advance ms).1 ∧
    endings (journal (before ++ .wait h timeout :: (during ++ more))).entries =
      endings (journal (before ++ .wait h timeout :: during)).entries ++
        ((journal (before ++ .wait h timeout :: during)).desk.advance ms).2 ∧
    .abandon h ∉ during ++ more ∧ Prompt h (before ++ [.wait h timeout]) (during ++ more)

theorem wait_awaited {before during : List Act} {h timeout : Nat} {ticket : Ticket}
    (held : (journal before).desk.requests[h]? = some ⟨ticket, .held⟩)
    (kept : .abandon h ∉ during) (prompt : Prompt h (before ++ [.wait h timeout]) during) :
    Awaited before h ticket timeout during := by
  have whole : ∀ acts : List Act, before ++ .wait h timeout :: acts =
      before ++ [.wait h timeout] ++ acts := by simp
  have course := wait_course held kept prompt
  exact {
    registered := by
      have ht : ((journal before).desk.requests.map (·.ticket))[h]? = some ticket := by simp [held]
      obtain ⟨earlier, later, split, length, now⟩ := exists_registration ht
      have cid : ticket.cid = toString (h + 1) := (journal_books before).ticket_eq held
      exact ⟨earlier, later, split, length, by rw [← cid, ← now]⟩
    ended := by
      intro moment outcome mem
      have ends : Entry.ends h (.ended h moment outcome) = true := by simp [Entry.ends]
      rcases course with ⟨-, none⟩ | ⟨inside, outside, found, split, w, ending, -, only⟩
      · simp [none _ mem] at ends
      · have last := List.mem_filter.mpr ⟨mem, ends⟩
        rw [only, List.mem_singleton] at last
        obtain ⟨rfl, rfl⟩ : moment = _ ∧ outcome = found := by simpa using last
        exact ⟨inside, outside, split, rfl, w.ending_iff.mp ending⟩
    once := by
      rcases course with ⟨-, none⟩ | ⟨_, _, _, _, _, _, -, only⟩
      · rw [List.filter_eq_nil_iff.mpr (by simpa using none)]
        exact Nat.zero_le _
      · rw [only]
        exact Nat.le_refl _
    pending := by
      intro none
      rcases course with ⟨w, -⟩ | ⟨_, _, _, _, _, _, -, only⟩
      · exact ⟨w, fun _ => w.ending_iff⟩
      · rw [List.filter_eq_nil_iff.mpr (by simpa using none)] at only
        cases only
    afterwards := by
      rintro ⟨e, mem, ends⟩ more
      rcases course with ⟨-, none⟩ | ⟨_, _, _, _, _, _, gone, -⟩
      · simp [none e mem] at ends
      · have still := gone_later gone more
        have hb := journal_books (before ++ .wait h timeout :: during ++ more)
        have later := contains_gone hb (h := h) (by simp only [stage, still])
        rw [← hb.ticket_eq still, List.append_assoc, List.cons_append] at later
        exact ⟨later, fun outcome => by rw [resolve_found, later]⟩
    advanced := by
      intro ms
      have passes := advance_passes (journal_books (before ++ .wait h timeout :: during)) ms
      obtain ⟨more, desk, entries, uncalled, further⟩ := passes.unaided.acts rfl
      rw [List.append_assoc, List.cons_append] at desk entries
      have keeps : .abandon h ∉ more := fun mem => Bool.noConfusion (uncalled _ mem)
      refine ⟨more, desk, entries, by simp [kept, keeps], prompt.append ?_⟩
      rw [← whole]
      exact further h }

/-- A request that is registered at 0 and waited for from then on. -/
theorem wait_awaited_alone :
    (journal [.register]).desk.requests[0]? = some ⟨⟨"1", 0⟩, .held⟩ ∧
      Awaited [.register] 0 ⟨"1", 0⟩ 50 [.elapse 50, .finish 0] ∧
      endings (journal [.register, .wait 0 50, .elapse 50, .finish 0]).entries =
        [⟨0, 50, .error (.timeout "1" 50)⟩] := by
  have held : (journal [.register]).desk.requests[0]? = some ⟨⟨"1", 0⟩, .held⟩ := by decide +kernel
  refine ⟨held, wait_awaited held (by simp) ?_, rfl⟩
  refine Prompt.append (.single (a := .elapse 50) ?_) (.single ?_)
  · rintro ms ⟨⟩ ticket timeout hr
    have waiting : (journal [.register, .wait 0 50]).desk.requests[0]? =
        some ⟨⟨"1", 0⟩, .waiting 50⟩ := by decide +kernel
    obtain ⟨rfl, rfl⟩ : ticket = ⟨"1", 0⟩ ∧ timeout = 50 := by simpa using hr.symm.trans waiting
    exact ⟨rfl, by decide⟩
  · rintro ms ⟨⟩

end GameLink.Registry.Desk

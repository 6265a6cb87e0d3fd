import Mathlib.Data.List.Induction
import GameLink.Event.Channel

/-! # Nothing overtakes on the way to the receiver

What a channel holds is one sequence: its queue, then what a forwarder has in
hand, then the backlog. Handing an event over appends to that sequence or leaves
it alone, receiving takes its head, and a forwarder only moves the boundaries in
it. So what was received, followed by what the channel holds, is the sequence of
the events that were kept, in any interleaving of the tasks concerned.

That there is one forwarder exactly while there is a backlog is what makes the
sequence well defined, and it is kept by the same steps.
-/
namespace GameLink.Event.Channel

variable {n : Nat} {c : Channel}

/-! ## One sequence -/

/-- What was handed over and not yet received, next one first. -/
def content (c : Channel) : List Event :=
  c.queue ++ c.forwarders.flatMap Option.toList ++ c.backlog.getD []

/-- Whether an event that finds the channel like this is kept. -/
def keeps (c : Channel) (e : Event) : Bool :=
  e.isLifecycle ||
    match c.backlog with
    | none => c.hasRoom
    | some es => es.length < c.capacity

/-- Either events are queued directly or one forwarder delivers a backlog. -/
inductive Owned : Option (List Event) → List (Option Event) → Prop
  | direct : Owned none []
  | forwarded (es : List Event) (held : Option Event) : Owned (some es) [held]

/-- A channel made for `n` events whose receiver is there, inside a runtime. -/
structure Sound (n : Nat) (c : Channel) : Prop where
  size : c.capacity = max n 1
  heard : c.receiverOpen = true
  hosted : c.runtime = true
  fits : c.queue.length ≤ c.capacity
  owned : Owned c.backlog c.forwarders

theorem Sound.new (n : Nat) : (Channel.new n true).Sound n :=
  ⟨rfl, rfl, rfl, Nat.zero_le _, .direct⟩

theorem Owned.alone {backlog : Option (List Event)} {forwarders : List (Option Event)}
    (h : Owned backlog forwarders) : forwarders.length ≤ 1 := by
  cases h <;> simp

theorem Owned.some_iff {backlog : Option (List Event)} {forwarders : List (Option Event)}
    (h : Owned backlog forwarders) : backlog ≠ none ↔ forwarders.length = 1 := by
  cases h <;> simp

/-- What the channel turns away is no lifecycle event and found no room. -/
theorem Sound.turned_away (hc : c.Sound n) {e : Event} (h : c.keeps e = false) :
    e.isLifecycle = false ∧
      (c.backlog = none ∧ c.queue.length = max n 1 ∨
        ∃ es, c.backlog = some es ∧ max n 1 ≤ es.length) := by
  obtain ⟨hlife, hfull⟩ := Bool.or_eq_false_iff.mp h
  refine ⟨hlife, ?_⟩
  have hfits := hc.fits
  rw [hc.size] at hfits
  cases hb : c.backlog with
  | none =>
    rw [hb] at hfull
    simp only [hasRoom, decide_eq_false_iff_not, hc.size] at hfull
    exact .inl ⟨rfl, by omega⟩
  | some es =>
    rw [hb] at hfull
    simp only [decide_eq_false_iff_not, hc.size] at hfull
    exact .inr ⟨es, rfl, by omega⟩

/-! ## Handing over -/

theorem Sound.handle (hc : c.Sound n) (e : Event) : (c.handle e).1.Sound n := by
  obtain ⟨hsize, hheard, hhosted, hfits, howned⟩ := hc
  obtain ⟨capacity, queue, backlog, forwarders, receiverOpen, runtime⟩ := c
  subst hheard hhosted
  cases howned with
  | direct =>
    by_cases hroom : queue.length < capacity
    · simp only [Channel.handle, hasRoom, hroom]
      exact ⟨hsize, rfl, rfl, by simpa using Nat.succ_le_of_lt hroom, .direct⟩
    · cases hlife : e.isLifecycle <;>
        simp only [Channel.handle, hasRoom, hroom, overflow, hlife]
      · exact ⟨hsize, rfl, rfl, hfits, .direct⟩
      · exact ⟨hsize, rfl, rfl, hfits, .forwarded _ _⟩
  | forwarded es held =>
    simp only [Channel.handle, queueBehind]
    split
    · exact ⟨hsize, rfl, rfl, hfits, .forwarded _ _⟩
    · exact ⟨hsize, rfl, rfl, hfits, .forwarded _ _⟩

/-- Handing over appends what is kept. -/
theorem Sound.content_handle (hc : c.Sound n) (e : Event) :
    (c.handle e).1.content = c.content ++ if c.keeps e then [e] else [] := by
  obtain ⟨-, hheard, hhosted, -, howned⟩ := hc
  obtain ⟨capacity, queue, backlog, forwarders, receiverOpen, runtime⟩ := c
  subst hheard hhosted
  cases howned with
  | direct =>
    by_cases hroom : queue.length < capacity
    · simp [Channel.handle, keeps, content, hasRoom, hroom]
    · cases hlife : e.isLifecycle <;>
        simp [Channel.handle, keeps, content, hasRoom, hroom, overflow, hlife]
  | forwarded es held =>
    cases hkeep : e.isLifecycle || decide (es.length < capacity) <;>
      simp [Channel.handle, queueBehind, keeps, content, hkeep]

/-! ## Receiving -/

theorem Sound.receive (hc : c.Sound n) : c.receive.1.Sound n := by
  obtain ⟨hsize, hheard, hhosted, hfits, howned⟩ := hc
  cases hq : c.queue with
  | nil =>
    simp only [Channel.receive, hq]
    exact ⟨hsize, hheard, hhosted, hfits, howned⟩
  | cons e es =>
    simp only [Channel.receive, hq]
    refine ⟨hsize, hheard, hhosted, ?_, howned⟩
    simp only [hq, List.length_cons] at hfits
    exact Nat.le_of_succ_le hfits

/-- Receiving takes the head of what the channel holds, if it is delivered. -/
theorem content_receive (c : Channel) : c.receive.2.toList ++ c.receive.1.content = c.content := by
  cases hq : c.queue <;> simp [Channel.receive, content, hq]

/-! ## Forwarding -/

/-- A forwarder moves one event or ends; there is only the first one. -/
theorem Sound.forward (hc : c.Sound n) (i : Nat) :
    (c.forward i).1.Sound n ∧ (c.forward i).1.content = c.content := by
  have hsame : c.Sound n ∧ c.content = c.content := ⟨hc, rfl⟩
  obtain ⟨hsize, hheard, hhosted, hfits, howned⟩ := hc
  obtain ⟨capacity, queue, backlog, forwarders, receiverOpen, runtime⟩ := c
  subst hheard hhosted
  cases howned with
  | direct => simpa only [Channel.forward, List.getElem?_nil] using hsame
  | forwarded es held =>
    cases i with
    | succ i => simpa only [Channel.forward, List.getElem?_cons_succ, List.getElem?_nil] using hsame
    | zero =>
      cases held with
      | none =>
        cases es with
        | nil => exact ⟨⟨hsize, rfl, rfl, hfits, .direct⟩, rfl⟩
        | cons e es =>
          exact ⟨⟨hsize, rfl, rfl, hfits, .forwarded _ _⟩,
            by simp [Channel.forward, setForwarder, content]⟩
      | some e =>
        by_cases hroom : queue.length < capacity
        · simp only [Channel.forward, List.getElem?_cons_zero, hasRoom, hroom, setForwarder]
          exact ⟨⟨hsize, rfl, rfl, by simpa using Nat.succ_le_of_lt hroom, .forwarded _ _⟩,
            by simp [content]⟩
        · simpa [Channel.forward, hasRoom, hroom] using hsame

/-! ## Traffic -/

/-- One step of a task that sends, receives or forwards. -/
inductive Act
  | handle (e : Event)
  | receive
  | forward (i : Nat)

/-- A channel, what was handed to it and what was received from it so far. -/
structure Traffic where
  channel : Channel
  /-- Each event with the channel as its call found it. -/
  handled : List (Channel × Event) := []
  received : List Event := []

namespace Traffic

def step (t : Traffic) : Act → Traffic
  | .handle e =>
    { t with channel := (t.channel.handle e).1, handled := t.handled ++ [(t.channel, e)] }
  | .receive =>
    { t with channel := t.channel.receive.1, received := t.received ++ t.channel.receive.2.toList }
  | .forward i => { t with channel := (t.channel.forward i).1 }

/-- The events that their calls did not drop. -/
def kept (t : Traffic) : List Event := (t.handled.filter fun p => p.1.keeps p.2).map Prod.snd

structure Ordered (n : Nat) (t : Traffic) : Prop where
  sound : t.channel.Sound n
  found : ∀ p ∈ t.handled, p.1.Sound n
  order : t.received ++ t.channel.content = t.kept

theorem Ordered.step {t : Traffic} (ht : t.Ordered n) (a : Act) : (t.step a).Ordered n := by
  cases a with
  | handle e =>
    refine ⟨ht.sound.handle e, ?_, ?_⟩
    · intro p hp
      rcases List.mem_append.mp hp with hp | hp
      · exact ht.found p hp
      · rw [List.mem_singleton.mp hp]; exact ht.sound
    · simp only [Traffic.step, kept, ht.sound.content_handle e, List.filter_append, List.map_append]
      rw [← List.append_assoc, ht.order, kept]
      by_cases hk : t.channel.keeps e = true <;> simp [hk]
  | receive =>
    refine ⟨ht.sound.receive, ht.found, ?_⟩
    simp only [Traffic.step, List.append_assoc, content_receive]
    exact ht.order
  | forward i =>
    obtain ⟨hs, hcontent⟩ := ht.sound.forward i
    refine ⟨hs, ht.found, ?_⟩
    simp only [Traffic.step, hcontent]
    exact ht.order

end Traffic

/-- What happens on a channel for `n` events when its tasks take these steps. -/
def traffic (n : Nat) (acts : List Act) : Traffic :=
  acts.foldl Traffic.step { channel := .new n true }

@[simp] theorem traffic_append_singleton (n : Nat) (acts : List Act) (a : Act) :
    traffic n (acts ++ [a]) = (traffic n acts).step a := by
  simp [traffic]

theorem traffic_ordered (n : Nat) (acts : List Act) : (traffic n acts).Ordered n := by
  induction acts using List.reverseRecOn with
  | nil => exact ⟨.new n, by simp [traffic], rfl⟩
  | append_singleton acts a ih => rw [traffic_append_singleton]; exact ih.step a

def Act.handed? : Act → Option Event
  | .handle e => some e
  | .receive | .forward _ => none

/-- Each call is on record with the channel it found. -/
theorem traffic_handled (n : Nat) (acts : List Act) :
    (traffic n acts).handled.map Prod.snd = acts.filterMap Act.handed? ∧
      ∀ p ∈ (traffic n acts).handled, ∃ before after,
        acts = before ++ .handle p.2 :: after ∧ p.1 = (traffic n before).channel := by
  induction acts using List.reverseRecOn with
  | nil => simp [traffic]
  | append_singleton acts a ih =>
    obtain ⟨hevents, hfound⟩ := ih
    have hold : ∀ p ∈ (traffic n acts).handled, ∃ before after,
        acts ++ [a] = before ++ .handle p.2 :: after ∧ p.1 = (traffic n before).channel := by
      intro p hp
      obtain ⟨before, after, hacts, hp⟩ := hfound p hp
      exact ⟨before, after ++ [a], by simp [hacts], hp⟩
    rw [traffic_append_singleton, List.filterMap_append, ← hevents]
    cases a with
    | handle e =>
      refine ⟨by simp [Traffic.step, Act.handed?], ?_⟩
      intro p hp
      rcases List.mem_append.mp hp with hp | hp
      · exact hold p hp
      · rw [List.mem_singleton.mp hp]; exact ⟨acts, [], rfl, rfl⟩
    | receive => exact ⟨by simp [Traffic.step, Act.handed?], hold⟩
    | forward i => exact ⟨by simp [Traffic.step, Act.handed?], hold⟩

/-- Forwarders left to work until they have to wait take steps that are part of the traffic. -/
theorem exists_traffic_settle (n : Nat) (acts : List Act) (fuel : Nat) :
    ∃ is : List Nat,
      (settle fuel (traffic n acts).channel).1 = (traffic n (acts ++ is.map .forward)).channel := by
  induction fuel generalizing acts with
  | zero => exact ⟨[], by simp [settle]⟩
  | succ fuel ih =>
    cases hi : (traffic n acts).channel.forwarders.findIdx?
        (traffic n acts).channel.forwarderReady with
    | none => exact ⟨[], by simp [settle, hi]⟩
    | some i =>
      obtain ⟨is, h⟩ := ih (acts ++ [.forward i])
      rw [traffic_append_singleton] at h
      exact ⟨i :: is, by simpa [settle, hi, Traffic.step] using h⟩

/-- What is true of a channel for `n` events after these steps of its tasks, in the terms
of someone who sends and receives. -/
structure Delivered (n : Nat) (acts : List Act) : Prop where
  /-- The record of calls is that of the steps taken. -/
  handled : (traffic n acts).handled.map Prod.snd = acts.filterMap Act.handed?
  found : ∀ p ∈ (traffic n acts).handled, ∃ before after,
    acts = before ++ .handle p.2 :: after ∧ p.1 = (traffic n before).channel
  /-- What was received, what is queued, what is in hand and the backlog are the kept events. -/
  order : (traffic n acts).received ++ (traffic n acts).channel.queue ++
      (traffic n acts).channel.forwarders.flatMap Option.toList ++
      (traffic n acts).channel.backlog.getD [] =
    ((traffic n acts).handled.filter fun p => p.1.keeps p.2).map Prod.snd
  /-- Lifecycle events are all among them. -/
  lifecycle : ∀ p ∈ (traffic n acts).handled, p.2.isLifecycle = true → p.1.keeps p.2 = true
  /-- Any other is missing only if it found no room. -/
  missing : ∀ p ∈ (traffic n acts).handled, p.1.keeps p.2 = false →
    p.2.isLifecycle = false ∧
      (p.1.backlog = none ∧ p.1.queue.length = max n 1 ∨
        ∃ es, p.1.backlog = some es ∧ max n 1 ≤ es.length)
  /-- There is a backlog exactly while one forwarder delivers it. -/
  owner : (traffic n acts).channel.backlog ≠ none ↔ (traffic n acts).channel.forwarders.length = 1
  alone : (traffic n acts).channel.forwarders.length ≤ 1
  bounded : (traffic n acts).channel.queue.length ≤ max n 1
  /-- Forwarders that work until each has to wait take such steps. -/
  settled : ∃ is : List Nat,
    (traffic n acts).channel.settled.1 = (traffic n (acts ++ is.map .forward)).channel

theorem delivered_in_order (n : Nat) (acts : List Act) : Delivered n acts where
  handled := (traffic_handled n acts).1
  found := (traffic_handled n acts).2
  order := by
    have h := (traffic_ordered n acts).order
    simpa only [content, Traffic.kept, List.append_assoc] using h
  lifecycle := by
    intro p _ hlife
    simp [keeps, hlife]
  missing := by
    intro p hp hkeeps
    exact ((traffic_ordered n acts).found p hp).turned_away hkeeps
  owner := (traffic_ordered n acts).sound.owned.some_iff
  alone := (traffic_ordered n acts).sound.owned.alone
  bounded := by
    have hs := (traffic_ordered n acts).sound
    rw [← hs.size]
    exact hs.fits
  settled := exists_traffic_settle n acts _

end GameLink.Event.Channel

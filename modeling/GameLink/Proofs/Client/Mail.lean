import GameLink.Proofs.Client.Reasons
import GameLink.Proofs.Client.Recount
import GameLink.Proofs.Client.Listening

/-! # What the server puts on its way

A frame that a reader takes, and the failure that makes it tear its link down,
were put on their way by the server end of that link, which had been opened
before (`Brought`, `Blamed`).
-/
namespace GameLink.Client

/-! ## What waits to be read was pushed -/

def Mail (tr : List Observation) (m : Machine) : Prop :=
  ∀ l k f, m.links[l]? = some k → f ∈ k.toClient → .pushed l f ∈ tr

theorem mail_invariant : Invariant Mail where
  initial m h := by
    obtain ⟨_, _, _, _, rfl⟩ := h.fields
    intro l k f hk
    simp at hk
  keep m os n tr h hm := by
    intro l k f hk hf
    rcases h.tended.mail l k f hk hf with ⟨j, hj, hf⟩ | hp
    · exact List.mem_append_left _ (hm l j f hj hf)
    · exact List.mem_append_right _ hp
  quiet _ _ _ _ h := h

/-- A reader reads a link that was opened. -/
theorem opened_of_reader {m : Machine} {tr : List Observation} {t : Task} {g : Generation}
    {link : LinkId} (hs : (m.life tr).Sound) (ht : m.task? t.id = some t)
    (hr : t.role = .reader g link) : .opened g link ∈ tr :=
  mem_openings.mp (opened_of_serves hs ((view_of ht).trans (by rw [hr]; rfl)))

/-! ## Frames -/

/-- A frame is read from a link that was opened and had been given it. -/
def Brought (tr : List Observation) : Prop :=
  ∀ a link frame b, tr = a ++ .dispatched link frame :: b →
    (∃ g, .opened g link ∈ a) ∧ .pushed link (.data frame) ∈ a

/-- Only a reader takes frames. -/
theorem Change.dispatched {m n : Machine} {os : List Observation} (h : Change m os n) :
    (∀ link frame, .dispatched link frame ∉ os) ∨
      ∃ (t : Task) (g : Generation) (link : LinkId) (l : Link) (frame : Bytes)
        (rest : List Observation),
          m.task? t.id = some t ∧ t.role = .reader g link ∧ m.links[link]? = some l ∧
            .data frame ∈ l.toClient ∧ os = .dispatched link frame :: rest ∧
            ∀ link frame, .dispatched link frame ∉ rest := by
  by_cases hd : ∃ link frame, .dispatched link frame ∈ os
  · refine .inr ?_
    obtain ⟨link, frame, hd⟩ := hd
    cases h with
    | background ht h =>
      cases h with
      | dispatched g link' l l' frame' hr hp hc hl hf =>
        refine ⟨_, g, link', l, frame', heard m frame', ht, hr, hl, ?_, rfl, ?_⟩
        · rw [(Link.receive_eq_frame hf).1]
          exact .head _
        · intro link frame hm
          unfold heard at hm
          split at hm
          · simp at hm
          · cases hm
      | _ => cases hd
    | outside h => cases h <;> simp at hd
    | released h => cases h <;> cases hd
    | connecting ht h => cases h <;> simp at hd
    | exchanging ht h =>
      have silent : ∀ {host : Host} {i o}, .dispatched link frame ∉ host.farewell i o := by
        intro host i o hm
        cases host with
        | operation op => simp [Host.farewell] at hm
        | heartbeat g k => cases hm
      cases h <;> simp [silent] at hd
    | tearing ht h =>
      cases h with
      | begun td links hb hg hs =>
        rcases List.mem_cons.mp hd with hd | hd
        · cases hd
        · split at hd <;> simp at hd
      | taken td link hp hl hw => cases hd
      | ended td stage links queue hf hp hv =>
        simp only [List.mem_cons, List.mem_append] at hd
        rcases hd with hd | (hd | hd) | hd
        · cases hd
        · split at hd <;> simp at hd
        · split at hd <;> simp at hd
        · split at hd <;> simp at hd
    | leaving ht h => cases h <;> simp at hd
  · exact .inl fun link frame hm => hd ⟨link, frame, hm⟩

theorem Brought.keep {m n : Machine} {tr os : List Observation} (hc : Brought tr) (hm : Mail tr m)
    (hs : (m.life tr).Sound) (h : Change m os n) : Brought (tr ++ os) := by
  intro a link frame b he
  rcases split_append he with ⟨b', he⟩ | ⟨a', ha, he⟩
  · exact hc a link frame b' he
  · rcases h.dispatched with hn | ⟨t, g, link', l, frame', rest, ht, hr, hl, hf, hos, hrest⟩
    · exact absurd (he ▸ List.mem_append_right _ (.head _)) (hn link frame)
    · rw [hos] at he
      cases a' with
      | cons x a' =>
        have later : .dispatched link frame ∈ rest := by
          rw [(List.cons.inj he).2]
          exact List.mem_append_right _ (.head _)
        exact absurd later (hrest link frame)
      | nil =>
        cases he
        rw [List.append_nil] at ha
        subst ha
        exact ⟨⟨g, opened_of_reader hs ht hr⟩, hm _ _ _ hl hf⟩

/-! ## Failures -/

/-- A teardown whose cause is an error was begun by a reader that read it from the link. -/
def Blamed (tr : List Observation) : Prop :=
  ∀ i td f, .closing i td ∈ tr → td.cause = .error f →
    ∃ link reason, f = .transport reason ∧ .opened td.generation link ∈ tr ∧
      .pushed link (.fail reason) ∈ tr

theorem Blamed.keep {m n : Machine} {tr os : List Observation} (hc : Blamed tr) (hm : Mail tr m)
    (hs : (m.life tr).Sound) (h : Change m os n) : Blamed (tr ++ os) := by
  intro i td f hi hcause
  rcases List.mem_append.mp hi with hi | hi
  · obtain ⟨link, reason, hf, ho, hp⟩ := hc i td f hi hcause
    exact ⟨link, reason, hf, List.mem_append_left _ ho, List.mem_append_left _ hp⟩
  · have closing := mem_closings.mpr hi
    rcases h.closings with hn | ⟨t, td', links, ht, hb, hn⟩
    · rw [hn] at closing
      cases closing
    · rw [hn, List.mem_singleton] at closing
      cases closing
      cases hb with
      | failed g link l l' f' hr hp hcan hl hf =>
        cases hcause
        obtain ⟨reason, rfl, hq, _⟩ := Link.receive_eq_failed hf
        have hmail : .fail reason ∈ l.toClient := by
          rw [hq]
          exact .head _
        exact ⟨link, reason, rfl, List.mem_append_left _ (opened_of_reader hs ht hr),
          List.mem_append_left _ (hm _ _ _ hl hmail)⟩
      | _ => cases hcause

namespace Machine

section
variable {may : Move → Prop} {m : Machine} (hm : m.Reachable may)
include hm

theorem Reachable.brought_blamed : Brought m.trace ∧ Blamed m.trace := by
  have base := Life.sound_invariant.both mail_invariant
  have inv := base.and (I := fun tr _ => Brought tr ∧ Blamed tr) ?_ ?_ (fun _ _ _ _ h => h)
  · exact (inv.reached hm).2
  · intro _ _
    refine ⟨?_, fun _ _ _ h => (nomatch h)⟩
    intro a link frame b h
    simp at h
  · intro m os n tr h hb hc
    exact ⟨hc.1.keep hb.2 hb.1.2 h, hc.2.keep hb.2 hb.1.2 h⟩

/-- What is closed was torn down for the cause. -/
theorem Reachable.closing_of_closed {g : Generation} {c : Cause} (h : .closed g c ∈ m.trace) :
    ∃ i td, .closing i td ∈ m.trace ∧ td.generation = g ∧ td.cause = c := by
  obtain ⟨es, haffairs, _, _, _⟩ := hm.eras
  obtain ⟨e, he, ho⟩ := Era.exists_of_mem haffairs h rfl
  obtain ⟨i, td, hs, hg, hc⟩ := Era.of_closed ho
  exact ⟨i, td, Era.mem_of_mem haffairs he (Era.closing_mem (.inr hs)), hg, hc⟩

/-- Nothing is opened twice. -/
theorem Reachable.not_reopened {a b : List Observation} {o : Observation} {g g' : Generation}
    {link : LinkId} (h : m.trace = a ++ o :: b) (ha : .opened g link ∈ a) :
    .opened g' link ∉ b := by
  intro hb
  have once := (lodging_invariant.reached hm).2.once
  rw [h, show a ++ o :: b = (a ++ [o]) ++ b by simp, openings_append, List.map_append,
    List.nodup_append] at once
  have before : link ∈ (openings (a ++ [o])).map Prod.snd :=
    List.mem_map_of_mem (f := Prod.snd) (mem_openings.mpr (List.mem_append_left [o] ha))
  have after : link ∈ (openings b).map Prod.snd :=
    List.mem_map_of_mem (f := Prod.snd) (mem_openings.mpr hb)
  exact once.2.2 _ before _ after rfl

end

end Machine

end GameLink.Client

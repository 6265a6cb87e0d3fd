import GameLink.Proofs.Client.Mail

/-! # What was read when a link is torn down

A reader that tears its link down for a failure has read everything that the
server sent before it failed, and one that does so because the server is gone
has read all that there will ever be (`Prompting`).
-/
namespace GameLink.Client

/-- At the teardown of `g` between `a` and what follows, the reader had come to this failure. -/
def Failed (a : List Observation) (g : Generation) (f : Failure) : Prop :=
  ∃ link reason sent rest, .opened g link ∈ a ∧ f = .transport reason ∧
    pushes link a = sent ++ .fail reason :: rest ∧
    dispatches link a = sent.filterMap ServerFrame.data?

/-- At the teardown of `g` between `a` and `b`, the reader had come to the end of its link. -/
def Exhausted (m : Machine) (a b : List Observation) (g : Generation) : Prop :=
  ∃ link k, .opened g link ∈ a ∧ dispatches link a = sends link a ∧ pushes link b = [] ∧
    m.links[link]? = some k ∧ k.serverOpen = false

def Prompting (tr : List Observation) (m : Machine) : Prop :=
  ∀ a i td b, tr = a ++ .closing i td :: b →
    (∀ f, td.cause = .error f → Failed a td.generation f) ∧
      (td.cause = .remote → Exhausted m a b td.generation)

section
variable {m n : Machine} {tr os a b : List Observation} {t : Task} {td : Teardown}
  {links : List Link} {g : Generation} {link : LinkId} {k : Link}

theorem Exhausted.keep (hx : Exhausted m a b g) (h : Change m os n) :
    Exhausted n a (b ++ os) g := by
  obtain ⟨link, k, ho, hd, hp, hk, hs⟩ := hx
  obtain ⟨hp', _, l, hl, hs'⟩ := h.serverless hk hs
  exact ⟨link, l, ho, hd, by rw [pushes_append, hp, hp']; rfl, hl, hs'⟩

theorem Inward.exhausted (hin : Inward link tr k) (hr : k.readerOpen = true)
    (hq : k.toClient = []) : dispatches link tr = sends link tr := by
  obtain ⟨past, rest, hpush, hread, hqueue⟩ := hin
  rw [hr, if_pos rfl, hq] at hqueue
  rw [sends, hpush, ← hqueue, List.append_nil, hread]

theorem Begins.failed_of (hs : (m.life tr).Sound)
    (hin : ∀ link k, m.links[link]? = some k → Inward link tr k) (ht : m.task? t.id = some t)
    (hb : Begins m t td links) {f : Failure} (hc : td.cause = .error f) :
    Failed tr td.generation f := by
  cases hb with
  | failed g link l l' f' hr hp hcan hl hf =>
    cases hc
    obtain ⟨reason, rfl, hq, _⟩ := Link.receive_eq_failed hf
    obtain ⟨_, sent, hpush, hread⟩ := (hin link l hl).queued hq
    exact ⟨link, reason, sent, l'.toClient, opened_of_reader hs ht hr, rfl, hpush, hread⟩
  | _ => cases hc

theorem Begins.exhausted_of (hs : (m.life tr).Sound) (hm : Listening m)
    (hin : ∀ link k, m.links[link]? = some k → Inward link tr k) (ht : m.task? t.id = some t)
    (hb : Begins m t td links) (hc : td.cause = .remote) : Exhausted m tr [] td.generation := by
  cases hb with
  | remote g link l l' hr hp hcan hl hf =>
    obtain ⟨hq, hserver⟩ := Link.receive_eq_closed hf
    have hopen : l.readerOpen = true := hm t.id link l (attends_of_task ht (.inr ⟨g, hr⟩)) hl
    exact ⟨link, l, opened_of_reader hs ht hr, (hin link l hl).exhausted hopen hq, rfl, hl, hserver⟩
  | _ => cases hc

theorem Prompting.keep (hc : Prompting tr m) (hs : (m.life tr).Sound) (hm : Listening m)
    (hin : ∀ link k, m.links[link]? = some k → Inward link tr k) (h : Change m os n) :
    Prompting (tr ++ os) n := by
  intro a i td b he
  rcases split_append he with ⟨b', rfl⟩ | ⟨a', rfl, ho⟩
  · obtain ⟨hfailed, hremote⟩ := hc a i td b' rfl
    have hb : b = b' ++ os := by simpa using he.symm
    exact ⟨hfailed, fun hcause => hb ▸ (hremote hcause).keep h⟩
  · rcases h.begins with hn | ⟨t, td', links, rest, ht, hb, hos, hrest⟩
    · have closing : (i, td) ∈ closings os :=
        mem_closings.mpr (ho ▸ List.mem_append_right _ (.head _))
      rw [hn] at closing
      cases closing
    · rw [hos] at ho
      cases a' with
      | cons x a' =>
        have closing : (i, td) ∈ closings rest :=
          mem_closings.mpr ((List.cons.inj ho).2 ▸ List.mem_append_right _ (.head _))
        rw [hrest] at closing
        cases closing
      | nil =>
        cases ho
        rw [List.append_nil]
        refine ⟨fun f hcause => hb.failed_of hs hin ht hcause, fun hcause => ?_⟩
        obtain ⟨link, k, hopened, hread, _, hk, hserver⟩ := hb.exhausted_of hs hm hin ht hcause
        obtain ⟨hp, _, l, hl, hs'⟩ := h.serverless hk hserver
        rw [hos] at hp
        exact ⟨link, l, hopened, hread, hp, hl, hs'⟩

end

namespace Machine

variable {may : Move → Prop} {m : Machine}

theorem Reachable.prompting (hm : m.Reachable may) : Prompting m.trace m := by
  have inv := (listening_invariant.both streamed_invariant).and (I := Prompting) ?_ ?_
    (fun _ _ _ _ h => h)
  · exact (inv.reached hm).2
  · intro m _ a i td b h
    simp at h
  · intro m os n tr h hb hc
    exact hc.keep hb.1.1.1.2 hb.1.2 (fun link k hk => (hk ▸ hb.2 link).inward) h

theorem Reachable.listening (hm : m.Reachable may) : Listening m :=
  (listening_invariant.reached hm).2

end Machine

end GameLink.Client

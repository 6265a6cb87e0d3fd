import GameLink.Link.Memory

/-! # The two queues of a link

What a read, a write, a push or a take that succeeds says about the link before
it, and what the link is afterwards.
-/
namespace GameLink.Link

variable {k k' : Link}

theorem receive_eq_frame {bytes : Bytes} (h : k.receive = (k', .frame bytes)) :
    k.toClient = .data bytes :: k'.toClient ∧ k' = { k with toClient := k'.toClient } := by
  unfold receive at h
  split at h
  · rename_i hq
    cases h
    exact ⟨hq, rfl⟩
  · cases h
  · split at h <;> cases h

theorem receive_eq_failed {f : Failure} (h : k.receive = (k', .failed f)) :
    ∃ reason, f = .transport reason ∧ k.toClient = .fail reason :: k'.toClient ∧
      k' = { k with toClient := k'.toClient } := by
  unfold receive at h
  split at h
  · cases h
  · rename_i hq
    cases h
    exact ⟨_, rfl, hq, rfl⟩
  · split at h <;> cases h

theorem receive_eq_closed (h : k.receive = (k', .closed)) :
    k.toClient = [] ∧ k.serverOpen = false := by
  unfold receive at h
  split at h
  · cases h
  · cases h
  · rename_i hq
    split at h
    · cases h
    · rename_i hs
      exact ⟨hq, by simpa using hs⟩

/-- A write completes only on a link both of whose ends are there, in mode `deliver`. -/
theorem write_eq_sent {text : String} (h : k.write text = (k', .sent)) :
    k.serverOpen = true ∧ k.writerOpen = true ∧
      k' = { k with toServer := k.toServer ++ [text] } := by
  unfold write at h
  split at h
  · cases h
  · rename_i hw
    split at h
    · cases h
    · cases h
    · split at h
      · rename_i hs
        cases h
        exact ⟨hs, by simpa using hw, rfl⟩
      · cases h

theorem write_eq_stalls {text : String} (h : (k.write text).2 = .stalls) : k.mode = .stall := by
  unfold write at h
  split at h
  · cases h
  · split at h
    · cases h
    · assumption
    · split at h <;> cases h

theorem take_eq_frame {text : String} (h : k.take.2 = .frame text) :
    ∃ rest, k.toServer = text :: rest ∧ k.take.1 = { k with toServer := rest } := by
  unfold take at h ⊢
  split at h
  · rename_i hq
    cases h
    exact ⟨_, hq, rfl⟩
  · split at h <;> cases h

theorem push_eq (f : ServerFrame) (hr : k.readerOpen = true) :
    (k.push f).1 = { k with toClient := k.toClient ++ [f] } := by
  rw [push, if_pos hr]

end GameLink.Link

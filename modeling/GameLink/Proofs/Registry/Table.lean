import GameLink.Registry.Basic
import Mathlib.Data.List.Nodup

/-! # The table of requests

What registering, releasing, resolving and draining do to the slots and to the
outcomes that wait to be picked up, seen from one id.
-/
namespace GameLink.Registry

/-! ## Ids -/

theorem toString_inj {a b : Nat} (h : toString a = toString b) : a = b := by
  have digits : Nat.toDigits 10 a = Nat.toDigits 10 b := by
    have list := congrArg String.toList h
    simpa using list
  have value := congrArg (Nat.ofDigitChars 10 · 0) digits
  simpa using value

/-- The ids of the first `n` requests. -/
def cids (n : Nat) : List String := (List.range n).map (fun k => toString (k + 1))

theorem cids_succ (n : Nat) : cids (n + 1) = cids n ++ [toString (n + 1)] := by
  rw [cids, List.range_succ, List.map_append]
  rfl

theorem cids_nodup (n : Nat) : (cids n).Nodup := by
  refine List.Nodup.map_on ?_ List.nodup_range
  intro a _ b _ h
  have numbers := toString_inj h
  omega

theorem succ_not_mem_cids (n : Nat) : toString (n + 1) ∉ cids n := by
  have apart := cids_nodup (n + 1)
  rw [cids_succ, List.nodup_append] at apart
  exact fun h => apart.2.2 _ h _ (.head _) rfl

theorem nextCid_not_mem (r : Registry) : r.nextCid ∉ cids r.issued := succ_not_mem_cids r.issued

/-! ## Slots and outcomes -/

section
variable {r : Registry} {c cid : String} {outcome : Outcome} {f : Failure}

theorem lookup_filter_ne {ds : List (String × Outcome)} (h : c ≠ cid) :
    (ds.filter (fun d => d.1 != cid)).lookup c = ds.lookup c := by
  induction ds with
  | nil => rfl
  | cons d ds ih =>
    by_cases hd : d.1 = cid
    · have hc : (c == d.1) = false := by simp [hd, h]
      rw [List.filter_cons_of_neg (by simp [hd]), List.lookup_cons, hc]
      exact ih
    · rw [List.filter_cons_of_pos (by simp [hd]), List.lookup_cons, List.lookup_cons, ih]

theorem lookup_release (h : c ≠ cid) :
    (r.release cid).delivered.lookup c = r.delivered.lookup c := lookup_filter_ne h

theorem mem_delivered_release {d : String × Outcome} :
    d ∈ (r.release cid).delivered ↔ d ∈ r.delivered ∧ d.1 ≠ cid := by
  show d ∈ r.delivered.filter (fun d => d.1 != cid) ↔ _
  rw [List.mem_filter, bne_iff_ne]

theorem mem_slots_release (h : r.slots.Nodup) :
    c ∈ (r.release cid).slots ↔ c ≠ cid ∧ c ∈ r.slots := h.mem_erase_iff

theorem release_slots (h : r.slots = []) : (r.release cid).slots = [] := by
  show r.slots.erase cid = []
  rw [h]
  rfl

theorem lookup_eq_none {ds : List (String × Outcome)} (h : ∀ d ∈ ds, d.1 ≠ c) :
    ds.lookup c = none := by
  rw [List.lookup_eq_none_iff]
  intro d hd
  simpa using (h d hd).symm

/-- A request that is registered and released at once leaves nothing but its number. -/
theorem release_register (now : Nat) (hs : r.nextCid ∉ r.slots)
    (hd : ∀ d ∈ r.delivered, d.1 ≠ r.nextCid) :
    (r.register now).1.release r.nextCid = { r with issued := r.issued + 1 } := by
  have slots : (r.slots ++ [r.nextCid]).erase r.nextCid = r.slots := by
    rw [List.erase_append_right _ hs, List.erase_cons_head, List.append_nil]
  have delivered : r.delivered.filter (fun d => d.1 != r.nextCid) = r.delivered := by
    rw [List.filter_eq_self]
    exact fun d hm => bne_iff_ne.mpr (hd d hm)
  unfold register release
  dsimp only
  rw [slots, delivered]

theorem resolve_of_mem (h : cid ∈ r.slots) :
    r.resolve cid outcome =
      ({ r with slots := r.slots.erase cid, delivered := r.delivered ++ [(cid, outcome)] }, true) :=
  if_pos (List.contains_iff_mem.mpr h)

theorem resolve_of_not_mem (h : cid ∉ r.slots) : r.resolve cid outcome = (r, false) :=
  if_neg (fun hc => h (List.contains_iff_mem.mp hc))

theorem lookup_map_error {cs : List String} (h : c ∈ cs) :
    (cs.map (fun c => (c, (Except.error f : Outcome)))).lookup c = some (.error f) := by
  induction cs with
  | nil => cases h
  | cons d cs ih =>
    by_cases hd : c = d
    · rw [List.map_cons, hd, List.lookup_cons_self]
    · rw [List.map_cons, List.lookup_cons, show (c == d) = false by simp [hd]]
      exact ih ((List.mem_cons.mp h).resolve_left hd)

/-- A slot that was open is drained with the failure. -/
theorem lookup_drain_of_mem (h : c ∈ r.slots) (hd : r.delivered.lookup c = none) :
    (r.drain f).1.delivered.lookup c = some (.error f) := by
  show (r.delivered ++ _).lookup c = _
  rw [List.lookup_append, hd, Option.none_or, lookup_map_error h]

/-- What was delivered before a drain stays. -/
theorem lookup_drain_of_some (hd : r.delivered.lookup c = some outcome) :
    (r.drain f).1.delivered.lookup c = some outcome := by
  show (r.delivered ++ _).lookup c = _
  rw [List.lookup_append, hd, Option.some_or]

theorem poll_of_delivered (h : r.delivered.lookup c = some outcome) : r.poll c = some outcome := by
  rw [poll, h]

theorem poll_of_slot (h : c ∈ r.slots) (hd : r.delivered.lookup c = none) : r.poll c = none := by
  rw [poll, hd]
  exact if_pos (List.contains_iff_mem.mpr h)

theorem poll_of_closed (h : c ∉ r.slots) : (r.poll c).isSome = true := by
  cases hl : r.delivered.lookup c <;> simp [poll, contains, hl, h]

theorem poll_congr {next : Registry} (hl : next.delivered.lookup c = r.delivered.lookup c)
    (hs : c ∈ next.slots ↔ c ∈ r.slots) : next.poll c = r.poll c := by
  have hc : next.contains c = r.contains c := by
    rw [Bool.eq_iff_iff, contains, contains, List.contains_iff_mem, List.contains_iff_mem, hs]
  rw [poll, poll, hl, hc]

theorem poll_register (now : Nat) (h : c ≠ r.nextCid) : (r.register now).1.poll c = r.poll c :=
  poll_congr rfl (by simp [register, h])

theorem contains_release (h : r.slots.Nodup) (hc : c ≠ cid) :
    (r.release cid).contains c = r.contains c := by
  rw [Bool.eq_iff_iff, contains, contains, List.contains_iff_mem, List.contains_iff_mem,
    mem_slots_release h]
  exact and_iff_right hc

/-- What a request finds does not depend on those that are over. -/
theorem poll_release (h : r.slots.Nodup) (hc : c ≠ cid) : (r.release cid).poll c = r.poll c :=
  poll_congr (lookup_release hc) ((mem_slots_release h).trans (and_iff_right hc))

theorem wait_eq_some {k : Ticket} {timeout now : Nat} (h : r.wait k timeout now = some outcome) :
    r.poll k.cid = some outcome ∨
      r.poll k.cid = none ∧ ∃ ms, outcome = .error (.timeout k.cid ms) := by
  unfold wait at h
  split at h
  · rename_i o ho
    exact .inl (ho.trans h)
  · rename_i ho
    split at h
    · cases h
      exact .inr ⟨ho, _, rfl⟩
    · cases h

end

end GameLink.Registry

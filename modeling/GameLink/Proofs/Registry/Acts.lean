import GameLink.Proofs.Registry.Journal

/-! # What one act does

Each act at a desk changes the slot of one id, the stage of one handle, or the time. What it
does to a stage can be told from the calls alone (`standing`): the answers of the desk follow
from the stages, and not the stages from the answers.
-/
namespace GameLink.Registry.Desk

/-! ## What one call does -/

section
variable {d : Desk} {es : List Entry}

theorem contains_iff (hb : Books d es) (c : String) :
    d.registry.contains c = true ↔ (∃ h, d.Holds h c) ∧ fate c es = none :=
  List.contains_iff_mem.trans (hb.slot c)

theorem contains_erase (hb : Books d es) (cid c : String) :
    (d.registry.slots.erase cid).contains c = (d.registry.contains c && c != cid) := by
  rw [Bool.eq_iff_iff, List.contains_iff_mem, hb.apart.mem_erase_iff, Registry.contains]
  simp [and_comm]

theorem contains_resolve (hb : Books d es) (cid : String) (outcome : Outcome) (c : String) :
    (d.registry.resolve cid outcome).1.contains c = (d.registry.contains c && c != cid) := by
  rw [← contains_erase hb cid c]
  by_cases hc : cid ∈ d.registry.slots
  · rw [resolve_of_mem hc]
    rfl
  · rw [resolve_of_not_mem hc, List.erase_of_not_mem hc]
    rfl

theorem resolve_found (r : Registry) (cid : String) (outcome : Outcome) :
    (r.resolve cid outcome).2 = r.contains cid := by
  unfold Registry.resolve
  split <;> simp_all

/-- What a wait comes to is the fate of its id, or that its time is up. -/
theorem ending_eq (hb : Books d es) {h timeout : Nat} {ticket : Ticket}
    (hr : d.requests[h]? = some ⟨ticket, .waiting timeout⟩) :
    d.ending h = (fate ticket.cid es).or
      (if deadline ticket timeout ≤ d.now then some (.error (.timeout ticket.cid timeout))
        else none) := by
  have hh : d.Holds h ticket.cid := ⟨_, hr, rfl, Stage.noConfusion⟩
  rw [ending, hr, ← hb.poll h _ hh]
  simp only [Registry.wait]
  cases d.registry.poll ticket.cid <;> rfl

/-! ## Other handles -/

def Act.handle? : Act → Option Nat
  | .drop h | .wait h _ | .abandon h | .finish h => some h
  | _ => none

/-- A desk that differs in what concerns one handle. -/
inductive Touches (d : Desk) (h : Nat) : Desk → Prop
  | not : Touches d h d
  | stage (s : Stage) : Touches d h (d.setStage h s)
  | retired {c : String} (hh : d.Holds h c) : Touches d h (d.retire h)

theorem play_touches {a : Act} {h : Nat} (ha : a.handle? = some h) :
    Touches d h (d.play a).1 := by
  cases a with
  | drop k =>
    cases ha
    simp only [play, Desk.drop]
    split
    · rename_i hheld
      obtain ⟨c, hh⟩ := exists_holds (d := d) (h := h) (by simp [hheld])
      exact .retired hh
    · exact .not
  | wait k timeout =>
    cases ha
    simp only [play, Desk.wait]
    split
    · exact .stage _
    · exact .not
  | abandon k =>
    cases ha
    simp only [play, abort_eq]
    split
    · rename_i hw
      obtain ⟨c, hh⟩ := exists_holds_of_isWaiting hw
      exact .retired hh
    · exact .not
  | finish k =>
    cases ha
    simp only [play]
    split
    · rename_i outcome ho
      obtain ⟨c, hh⟩ := exists_holds_of_isWaiting (isWaiting_of_ending ho)
      exact .retired hh
    · exact .not
  | _ => cases ha

/-- Whatever happens to one handle, another finds its slot as it was. -/
theorem Touches.other (hb : Books d es) {next : Desk} {h k : Nat} {r : Request}
    (ht : Touches d h next) (hk : k ≠ h) (hr : d.requests[k]? = some r) :
    next.requests[k]? = some r ∧
      next.registry.contains r.ticket.cid = d.registry.contains r.ticket.cid ∧
      next.registry.poll r.ticket.cid = d.registry.poll r.ticket.cid := by
  cases ht with
  | not => exact ⟨hr, rfl, rfl⟩
  | stage s => exact ⟨by simp [setStage, hk.symm, hr], rfl, rfl⟩
  | @retired c hh =>
    have hne : r.ticket.cid ≠ c := by
      rw [hb.cid_eq hh, hb.ticket_eq hr]
      intro hc
      have numbers := toString_inj hc
      omega
    rw [hh.retire_eq]
    exact ⟨by simp [setStage, hk.symm, hr], contains_release hb.apart hne,
      poll_release hb.apart hne⟩

end

/-! ## The clock, the tickets and one handle -/

/-- How long an act takes. -/
def Act.lasts : Act → Nat
  | .elapse ms => ms
  | _ => 0

section
variable {d next : Desk} {es : List Entry} {a : Act} {h : Nat} {r : Request}

theorem now_retire (d : Desk) (h : Nat) : (d.retire h).now = d.now := by
  unfold retire
  split <;> rfl

theorem Touches.now (ht : Touches d h next) : next.now = d.now := by
  cases ht with
  | not => rfl
  | stage s => rfl
  | retired hh => exact now_retire d h

theorem play_now (d : Desk) (a : Act) : (d.play a).1.now = d.now + a.lasts := by
  cases ha : a.handle? with
  | none => cases a <;> first | rfl | cases ha
  | some h =>
    rw [(play_touches ha).now]
    cases a <;> first | rfl | cases ha

/-- No act but a registration gives out a ticket. -/
theorem play_tickets (ha : a ≠ .register) :
    (d.play a).1.requests.map (·.ticket) = d.requests.map (·.ticket) := by
  cases hk : a.handle? with
  | some k =>
    have touches : Touches d k (d.play a).1 := play_touches hk
    generalize (d.play a).1 = next at touches ⊢
    cases touches with
    | not => rfl
    | stage s => exact tickets_setStage ..
    | retired hh => rw [hh.retire_eq]; exact tickets_setStage ..
  | none =>
    cases a with
    | register => exact absurd rfl ha
    | resolve | remove | drain | contains | elapse => rfl
    | _ => cases hk

/-- A request is left alone by every act on another handle and on none. -/
theorem play_request (hb : Books d es) (ha : a.handle? ≠ some h) (hr : d.requests[h]? = some r) :
    (d.play a).1.requests[h]? = some r := by
  cases hk : a.handle? with
  | some k =>
    have ne : h ≠ k := by rintro rfl; exact ha hk
    exact ((play_touches hk).other hb ne hr).1
  | none =>
    cases a with
    | register =>
      have lt := (List.getElem?_eq_some_iff.mp hr).1
      simp only [play, Desk.register]
      rw [List.getElem?_append_left lt, hr]
    | resolve | remove | drain | contains | elapse => exact hr
    | _ => cases hk

/-- Only an act on a handle ends it. -/
theorem play_ends (ha : a.handle? ≠ some h) : (d.play a).2.ends h = false := by
  cases a with
  | drop k | abandon k => simpa [play, Entry.ends] using fun _ e => ha (congrArg some e)
  | finish k =>
    simp only [play]
    split
    · simpa [Entry.ends] using fun e => ha (congrArg some e)
    · rfl
  | _ => rfl

/-- Who is gone stays gone, and no act ends him again. -/
theorem play_gone (hb : Books d es) {ticket : Ticket} (a : Act)
    (hr : d.requests[h]? = some ⟨ticket, .gone⟩) :
    (d.play a).1.requests[h]? = some ⟨ticket, .gone⟩ ∧ (d.play a).2.ends h = false := by
  have hs : d.stage h = .gone := by simp [stage, hr]
  have hw : d.isWaiting h = false := by simp [isWaiting, hs]
  have he : d.ending h = none := by simp [ending, hr]
  by_cases ha : a.handle? = some h
  · cases a with
    | drop k => cases ha; simpa [play, Desk.drop, hs, Entry.ends] using hr
    | wait k timeout => cases ha; simpa [play, Desk.wait, hs, Entry.ends] using hr
    | abandon k => cases ha; simpa [play, abort_eq, hw, Entry.ends] using hr
    | finish k => cases ha; simpa [play, he, Entry.ends] using hr
    | _ => cases ha
  · exact ⟨play_request hb ha hr, play_ends ha⟩

/-- A wait that is not given up goes on until it can end and is asked to. -/
theorem play_waiting (hb : Books d es) {ticket : Ticket} {timeout : Nat}
    (hr : d.requests[h]? = some ⟨ticket, .waiting timeout⟩) (kept : a ≠ .abandon h) :
    ((d.play a).1.requests[h]? = some ⟨ticket, .waiting timeout⟩ ∧ (d.play a).2.ends h = false) ∨
      ∃ outcome, a = .finish h ∧ d.ending h = some outcome ∧
        (d.play a).1.requests[h]? = some ⟨ticket, .gone⟩ ∧
        (d.play a).2 = .ended h d.now outcome := by
  have hs : d.stage h = .waiting timeout := by simp [stage, hr]
  by_cases ha : a.handle? = some h
  · cases a with
    | drop k => cases ha; exact .inl (by simpa [play, Desk.drop, hs, Entry.ends] using hr)
    | wait k timeout => cases ha; exact .inl (by simpa [play, Desk.wait, hs, Entry.ends] using hr)
    | abandon k => cases ha; exact absurd rfl kept
    | finish k =>
      cases ha
      cases he : d.ending h with
      | none => exact .inl (by simpa [play, he, Entry.ends] using hr)
      | some outcome =>
        exact .inr ⟨outcome, rfl, rfl, by simp [play, he, retire, hr, setStage], by simp [play, he]⟩
    | _ => cases ha
  · exact .inl ⟨play_request hb ha hr, play_ends ha⟩

/-- The ticket of a handle is from its registration. -/
theorem exists_registration {acts : List Act} {ticket : Ticket}
    (ht : ((journal acts).desk.requests.map (·.ticket))[h]? = some ticket) :
    ∃ earlier later, acts = earlier ++ .register :: later ∧
      (journal earlier).desk.requests.length = h ∧
      ticket.registeredAt = (journal earlier).desk.now := by
  induction acts using List.reverseRecOn with
  | nil => simp [journal] at ht
  | append_singleton acts a ih =>
    rw [journal_append_singleton, Journal.step] at ht
    have earlier : ((journal acts).desk.requests.map (·.ticket))[h]? = some ticket →
        ∃ earlier later, acts ++ [a] = earlier ++ .register :: later ∧
          (journal earlier).desk.requests.length = h ∧
          ticket.registeredAt = (journal earlier).desk.now := by
      intro old
      obtain ⟨earlier, later, rfl, registration⟩ := ih old
      exact ⟨earlier, later ++ [a], by simp, registration⟩
    by_cases ha : a = .register
    · subst ha
      rcases Nat.lt_trichotomy h (journal acts).desk.requests.length with lt | rfl | gt
      · refine earlier ?_
        rwa [play, Desk.register, List.map_append,
          List.getElem?_append_left (by simpa using lt)] at ht
      · refine ⟨acts, [], rfl, rfl, ?_⟩
        have new : ticket = ⟨(journal acts).desk.registry.nextCid, (journal acts).desk.now⟩ := by
          simpa [play, Desk.register, Registry.register] using ht.symm
        rw [new]
      · rw [play, Desk.register, List.map_append, List.getElem?_eq_none ?_] at ht
        · cases ht
        · rw [List.length_append, List.length_map]
          exact gt
    · rw [play_tickets ha] at ht
      exact earlier ht

end

/-! ## Stages -/

/-- Where handle `h` stands after an entry, whatever the desk answered: who is held can be
dropped or begin to wait, and a wait can be given up or end. When it ends is for `ending_eq`. -/
def Entry.moves (h : Nat) (s : Stage) : Entry → Stage
  | .registered cid => if cid = toString (h + 1) then .held else s
  | .dropped k _ => if k = h ∧ s = .held then .gone else s
  | .began k timeout _ => if k = h ∧ s = .held then .waiting timeout else s
  | .abandoned k _ | .ended k _ _ => if k = h ∧ s ≠ .held then .gone else s
  | _ => s

/-- The stage that a journal gives handle `h`. -/
def standing (h : Nat) (es : List Entry) : Stage := es.foldl (Entry.moves h) .gone

section
variable {d : Desk} {es : List Entry} {h k : Nat} {s : Stage}

theorem stage_setStage (hs : d.stage k ≠ .gone) :
    (d.setStage k s).stage h = if k = h then s else d.stage h := by
  by_cases same : k = h
  · subst same
    cases hr : d.requests[k]? with
    | none => simp [stage, hr] at hs
    | some r => simp [stage, setStage, hr]
  · simp [stage, setStage, same]

theorem stage_retire (hs : d.stage k ≠ .gone) :
    (d.retire k).stage h = if k = h then .gone else d.stage h := by
  obtain ⟨c, hh⟩ := exists_holds hs
  rw [hh.retire_eq]
  exact stage_setStage hs

theorem stage_register (hb : Books d es) :
    d.register.1.stage h = if d.register.2 = toString (h + 1) then .held else d.stage h := by
  have number : d.register.2 = toString (h + 1) ↔ h = d.requests.length := by
    show toString (d.registry.issued + 1) = _ ↔ _
    rw [hb.count]
    exact ⟨fun e => by have numbers := toString_inj e; omega, fun e => by rw [e]⟩
  simp only [number]
  rcases Nat.lt_trichotomy h d.requests.length with lt | rfl | gt
  · simp [stage, Desk.register, List.getElem?_append_left lt, lt.ne]
  · simp [stage, Desk.register]
  · have beyond : d.requests[h]? = none := List.getElem?_eq_none gt.le
    have beyond' : d.register.1.requests[h]? = none :=
      List.getElem?_eq_none (by simpa [Desk.register] using Nat.succ_le_of_lt gt)
    simp [stage, beyond, beyond', gt.ne']

/-- The id of a handle that is gone is not in the table. -/
theorem contains_gone (hb : Books d es) (gone : d.stage h = .gone) :
    d.registry.contains (toString (h + 1)) = false := by
  rw [Bool.eq_false_iff, ne_eq, contains_iff hb]
  rintro ⟨⟨k, hh⟩, -⟩
  have numbers := toString_inj (hb.cid_eq hh)
  obtain rfl : k = h := by omega
  obtain ⟨r, hr, -, stays⟩ := hh
  exact stays (by simpa [stage, hr] using gone)

/-- What is done to handle `k` if its stage allows it. -/
theorem stage_guarded {next : Desk} {P : Stage → Prop} [DecidablePred P]
    (allowed : P (d.stage k) → next.stage h = if k = h then s else d.stage h)
    (refused : ¬ P (d.stage k) → next.stage h = d.stage h) :
    next.stage h = if k = h ∧ P (d.stage h) then s else d.stage h := by
  by_cases same : k = h
  · subst same
    by_cases hp : P (d.stage k)
    · simpa [hp] using allowed hp
    · simpa [hp] using refused hp
  · by_cases hp : P (d.stage k)
    · simpa [same] using allowed hp
    · simpa [same] using refused hp

theorem stage_of_isWaiting (hw : d.isWaiting k = true) :
    ∃ timeout, d.stage k = .waiting timeout := by
  unfold isWaiting at hw
  split at hw
  · exact ⟨_, ‹_›⟩
  · cases hw

/-- Nobody's stage depends on what is answered. -/
theorem play_stage (hb : Books d es) (a : Act) (h : Nat) :
    (d.play a).1.stage h = (d.play a).2.moves h (d.stage h) := by
  cases a with
  | register => exact stage_register hb
  | resolve | remove | drain | contains | elapse => rfl
  | drop k =>
    refine stage_guarded (P := (· = .held)) (fun hs => ?_) (fun hs => ?_)
    · simpa [play, Desk.drop, hs] using stage_retire (h := h) (hs.trans_ne Stage.noConfusion)
    · cases hk : d.stage k <;> simp_all [play, Desk.drop]
  | wait k timeout =>
    refine stage_guarded (P := (· = .held)) (fun hs => ?_) (fun hs => ?_)
    · simpa [play, Desk.wait, hs] using stage_setStage (h := h) (hs.trans_ne Stage.noConfusion)
    · cases hk : d.stage k <;> simp_all [play, Desk.wait]
  | abandon k =>
    refine stage_guarded (P := (· ≠ .held)) (fun hs => ?_) (fun hs => ?_)
    · cases hk : d.stage k with
      | held => exact absurd hk hs
      | waiting timeout =>
        simpa [play, Desk.abort, hk] using stage_retire (h := h) (hk.trans_ne Stage.noConfusion)
      | gone =>
        have stays : (d.play (.abandon k)).1 = d := by simp [play, Desk.abort, hk]
        rw [stays]
        split
        · rename_i same
          exact same ▸ hk
        · rfl
    · simp [play, Desk.abort, not_not.mp hs]
  | finish k =>
    simp only [play]
    split
    · rename_i outcome ho
      obtain ⟨timeout, hk⟩ := stage_of_isWaiting (isWaiting_of_ending ho)
      refine stage_guarded (P := (· ≠ .held)) (fun _ => ?_) (fun hs => absurd (hk.trans_ne ?_) hs)
      · exact stage_retire (hk.trans_ne Stage.noConfusion)
      · exact Stage.noConfusion
    · rfl

theorem stage_eq (acts : List Act) (h : Nat) :
    (journal acts).desk.stage h = standing h (journal acts).entries := by
  induction acts using List.reverseRecOn with
  | nil => rfl
  | append_singleton acts a ih =>
    rw [journal_append_singleton, Journal.step, play_stage (journal_books acts), ih, standing,
      standing, List.foldl_append]
    rfl

end

end GameLink.Registry.Desk

import GameLink.Proofs.Registry.Unaided

/-! # The table follows from the journal

After any acts at a desk the stage of each handle, the keys of its table, the answers of
its calls and what a wait finds are what the calls of the journal say. Waits that end on
their own and time that passes deadline by deadline are such acts too, so this holds of
the desk that runs by itself.
-/
namespace GameLink.Registry.Desk

/-- The slot of handle `h` is open: the handle is held or waits, and no call has settled
its id. -/
def isOpen (es : List Entry) (h : Nat) : Bool :=
  standing h es != .gone && (fate (toString (h + 1)) es).isNone

section
variable {acts : List Act} {h : Nat} {c : String}

theorem holds_iff : (journal acts).desk.Holds h c ↔
    c = toString (h + 1) ∧ standing h (journal acts).entries ≠ .gone := by
  have hb := journal_books acts
  rw [← stage_eq]
  constructor
  · intro hh
    refine ⟨hb.cid_eq hh, ?_⟩
    obtain ⟨r, hr, -, hs⟩ := hh
    simpa [stage, hr] using hs
  · rintro ⟨rfl, hs⟩
    obtain ⟨c, hh⟩ := exists_holds hs
    exact hb.cid_eq hh ▸ hh

theorem contains_iff_isOpen : (journal acts).desk.registry.contains c = true ↔
    ∃ h, c = toString (h + 1) ∧ isOpen (journal acts).entries h = true := by
  simp only [contains_iff (journal_books acts), holds_iff, isOpen, Bool.and_eq_true,
    bne_iff_ne, Option.isNone_iff_eq_none]
  constructor
  · rintro ⟨⟨h, rfl, hs⟩, unsettled⟩
    exact ⟨h, rfl, hs, unsettled⟩
  · rintro ⟨h, rfl, hs, unsettled⟩
    exact ⟨⟨h, rfl, hs⟩, unsettled⟩

theorem lt_of_isOpen (ho : isOpen (journal acts).entries h = true) :
    h < (journal acts).desk.requests.length := by
  have hs : (journal acts).desk.stage h ≠ .gone := by
    rw [stage_eq]
    exact bne_iff_ne.mp (Bool.and_eq_true_iff.mp ho).1
  obtain ⟨c, hh⟩ := exists_holds hs
  exact hh.lt

theorem slots_perm (acts : List Act) : (journal acts).desk.registry.slots.Perm
    (((List.range (journal acts).desk.requests.length).filter
      (isOpen (journal acts).entries)).map fun h => toString (h + 1)) := by
  refine (List.perm_ext_iff_of_nodup (journal_books acts).apart ?_).mpr fun c => ?_
  · exact (cids_nodup _).sublist (List.filter_sublist.map _)
  · rw [← List.contains_iff_mem, ← Registry.contains, contains_iff_isOpen, List.mem_map]
    constructor
    · rintro ⟨h, rfl, ho⟩
      exact ⟨h, List.mem_filter.mpr ⟨List.mem_range.mpr (lt_of_isOpen ho), ho⟩, rfl⟩
    · rintro ⟨h, hm, rfl⟩
      exact ⟨h, rfl, (List.mem_filter.mp hm).2⟩

/-- There are as many slots as handles whose slot is open. -/
theorem size_eq (acts : List Act) : (journal acts).desk.registry.size =
    (List.range (journal acts).desk.requests.length).countP (isOpen (journal acts).entries) := by
  rw [Registry.size, (slots_perm acts).length_eq, List.length_map, List.countP_eq_length_filter]

theorem now_eq (acts : List Act) :
    (journal acts).desk.now = acts.foldl (fun now a => now + a.lasts) 0 := by
  induction acts using List.reverseRecOn with
  | nil => rfl
  | append_singleton acts a ih =>
    rw [journal_append_singleton, Journal.step, play_now, ih, List.foldl_append]
    rfl

end

/-! ## The record -/

/-- What is true of a desk after these acts. -/
structure Recorded (acts : List Act) : Prop where
  /-- The ids are the decimal texts of the first numbers, in order and all distinct. -/
  ids : issued (journal acts).entries =
    (List.range (journal acts).desk.requests.length).map fun n => toString (n + 1)
  distinct : (issued (journal acts).entries).Nodup
  /-- The time counts from the registration. -/
  tickets : ∀ (h : Nat) (r : Request), (journal acts).desk.requests[h]? = some r →
    ∃ earlier later, acts = earlier ++ .register :: later ∧
      (journal earlier).desk.requests.length = h ∧
      r.ticket = ⟨toString (h + 1), (journal earlier).desk.now⟩
  clock : (journal acts).desk.now = acts.foldl (fun now a => now + a.lasts) 0
  /-- Whether a handle is held, waits or is gone follows from the calls, whatever was
  answered. -/
  stages : ∀ h : Nat, (journal acts).desk.stage h = standing h (journal acts).entries
  /-- A handle is held or waiting until an act ends it. -/
  handles : ∀ h < (journal acts).desk.requests.length,
    (∃ c, (journal acts).desk.Holds h c) ↔ ∀ e ∈ (journal acts).entries, e.ends h = false
  /-- The keys are the ids of handles that are held or wait and that no call has settled. -/
  keys : ∀ cid, (journal acts).desk.registry.contains cid = true ↔
    ∃ h, cid = toString (h + 1) ∧ isOpen (journal acts).entries h = true
  single : (journal acts).desk.registry.slots.Nodup
  size : (journal acts).desk.registry.size =
    (List.range (journal acts).desk.requests.length).countP (isOpen (journal acts).entries)
  empty : (journal acts).desk.registry.isEmpty = true ↔ (journal acts).desk.registry.size = 0
  /-- Of all calls so far at most one took the slot of an id. -/
  once : ∀ cid, (journal acts).entries.countP (Entry.takes cid) ≤ 1
  /-- A call finds just the slot under that very text, and takes no other. -/
  resolved : ∀ (cid : String) (outcome : Outcome),
    ((journal acts).desk.registry.resolve cid outcome).2 =
        (journal acts).desk.registry.contains cid ∧
      ∀ c, ((journal acts).desk.registry.resolve cid outcome).1.contains c =
        ((journal acts).desk.registry.contains c && c != cid)
  removed : ∀ cid : String,
    ((journal acts).desk.registry.remove cid).2 = (journal acts).desk.registry.contains cid ∧
      ∀ c, ((journal acts).desk.registry.remove cid).1.contains c =
        ((journal acts).desk.registry.contains c && c != cid)
  drained : ∀ failure : Failure,
    ((journal acts).desk.registry.drain failure).2 = (journal acts).desk.registry.size ∧
      ((journal acts).desk.registry.drain failure).1.isEmpty = true ∧
      ∀ c, ((journal acts).desk.registry.drain failure).1.contains c = false
  /-- Who is held can be dropped, and nobody else; he is gone then, and his id with him. -/
  dropped : ∀ h : Nat,
    (((journal acts).desk.drop h).2 = true ↔ (journal acts).desk.stage h = .held) ∧
      ((journal acts).desk.stage h = .held → ((journal acts).desk.drop h).1.stage h = .gone ∧
        ((journal acts).desk.drop h).1.registry.contains (toString (h + 1)) = false)
  /-- Who is held can begin to wait, and nobody else; no slot is touched. -/
  began : ∀ h timeout : Nat,
    (((journal acts).desk.wait h timeout).2 = true ↔ (journal acts).desk.stage h = .held) ∧
      ((journal acts).desk.stage h = .held →
        ((journal acts).desk.wait h timeout).1.stage h = .waiting timeout) ∧
      ∀ c, ((journal acts).desk.wait h timeout).1.registry.contains c =
        (journal acts).desk.registry.contains c
  abandoned : ∀ h timeout : Nat, (journal acts).desk.stage h = .waiting timeout →
    ((journal acts).desk.abort h).stage h = .gone ∧
      ((journal acts).desk.abort h).registry.contains (toString (h + 1)) = false
  finished : ∀ (h : Nat) (outcome : Outcome), (journal acts).desk.ending h = some outcome →
    ((journal acts).desk.retire h).stage h = .gone ∧
      ((journal acts).desk.retire h).registry.contains (toString (h + 1)) = false
  /-- A wait ends with what settled its slot, or when its time is up before that. -/
  waits : ∀ (h timeout : Nat) (ticket : Ticket),
    (journal acts).desk.requests[h]? = some ⟨ticket, .waiting timeout⟩ →
    (journal acts).desk.ending h = (fate ticket.cid (journal acts).entries).or
      (if deadline ticket timeout ≤ (journal acts).desk.now then
        some (.error (.timeout ticket.cid timeout)) else none)
  idle : ∀ h : Nat, (∀ timeout, (journal acts).desk.stage h ≠ .waiting timeout) →
    (journal acts).desk.ending h = none
  /-- What is done to one handle leaves the slot of any other as it was. -/
  others : ∀ (a : Act) (h k : Nat) (r : Request), a.handle? = some h → k ≠ h →
    (journal acts).desk.requests[k]? = some r →
    ((journal acts).desk.play a).1.requests[k]? = some r ∧
      ((journal acts).desk.play a).1.registry.contains r.ticket.cid =
        (journal acts).desk.registry.contains r.ticket.cid ∧
      ((journal acts).desk.play a).1.registry.poll r.ticket.cid =
        (journal acts).desk.registry.poll r.ticket.cid
  /-- Time that passes by itself is made of acts without a caller. It passes over no wait,
  and at its end no wait is left that can end. -/
  advanced : ∀ ms : Nat, ∃ more : List Act,
    (∀ a ∈ more, a.uncalled = true) ∧ (∀ h, Prompt h acts more) ∧
      (journal (acts ++ more)).desk = ((journal acts).desk.advance ms).1 ∧
      endings (journal (acts ++ more)).entries =
        endings (journal acts).entries ++ ((journal acts).desk.advance ms).2 ∧
      ((journal acts).desk.advance ms).1.now = (journal acts).desk.now + ms ∧
      ((journal acts).desk.advance ms).1.Rests

theorem desk_recorded (acts : List Act) : Recorded acts := by
  have hb := journal_books acts
  exact {
    ids := hb.registered
    distinct := by rw [hb.registered]; exact cids_nodup _
    tickets := by
      intro h r hr
      have ht : ((journal acts).desk.requests.map (·.ticket))[h]? = some r.ticket := by simp [hr]
      obtain ⟨earlier, later, split, length, now⟩ := exists_registration ht
      exact ⟨earlier, later, split, length, by rw [← hb.ticket_eq hr, ← now]⟩
    clock := now_eq acts
    stages := stage_eq acts
    handles := fun h hlt => hb.exists_holds_iff hlt
    keys := fun _ => contains_iff_isOpen
    single := hb.apart
    size := size_eq acts
    empty := List.isEmpty_iff_length_eq_zero
    once := fun cid =>
      le_trans (Nat.le_of_add_right_le (hb.balance cid)) (Books.count_cids_le _ cid)
    resolved := fun cid outcome =>
      ⟨resolve_found _ cid outcome, contains_resolve hb cid outcome⟩
    removed := fun cid => ⟨rfl, contains_erase hb cid⟩
    drained := fun failure => ⟨rfl, rfl, fun _ => rfl⟩
    dropped := by
      intro h
      refine ⟨?_, fun held => ?_⟩
      · unfold Desk.drop
        split <;> simp_all
      · have gone : ((journal acts).desk.drop h).1.stage h = .gone := by
          have step := play_stage hb (.drop h) h
          simpa [play, Entry.moves, held] using step
        exact ⟨gone, contains_gone (hb.play (.drop h)) gone⟩
    began := by
      intro h timeout
      refine ⟨?_, fun held => ?_, fun c => ?_⟩
      · unfold Desk.wait
        split <;> simp_all
      · have step := play_stage hb (.wait h timeout) h
        simpa [play, Entry.moves, held] using step
      · unfold Desk.wait
        split <;> rfl
    abandoned := by
      intro h timeout waiting
      have gone : ((journal acts).desk.abort h).stage h = .gone := by
        have step := play_stage hb (.abandon h) h
        simpa [play, Entry.moves, waiting] using step
      exact ⟨gone, contains_gone (hb.play (.abandon h)) gone⟩
    finished := by
      intro h outcome ends
      obtain ⟨timeout, waiting⟩ := stage_of_isWaiting (isWaiting_of_ending ends)
      have retires : ((journal acts).desk.play (.finish h)).1 = (journal acts).desk.retire h := by
        simp [play, ends]
      rw [← retires]
      have gone : ((journal acts).desk.play (.finish h)).1.stage h = .gone := by
        rw [play_stage hb]
        simp [play, ends, Entry.moves, waiting]
      exact ⟨gone, contains_gone (hb.play (.finish h)) gone⟩
    waits := fun h timeout ticket hr => ending_eq hb hr
    idle := by
      intro h unwaiting
      cases ends : (journal acts).desk.ending h with
      | none => rfl
      | some outcome =>
        obtain ⟨timeout, waiting⟩ := stage_of_isWaiting (isWaiting_of_ending ends)
        exact absurd waiting (unwaiting timeout)
    others := fun a h k r ha hk hr => (play_touches ha).other hb hk hr
    advanced := by
      intro ms
      have passes := advance_passes hb ms
      obtain ⟨more, desk, entries, uncalled, prompt⟩ := passes.unaided.acts rfl
      exact ⟨more, uncalled, prompt, desk, entries, passes.now, passes.rests⟩ }

end GameLink.Registry.Desk

import Mathlib.Data.List.Count
import Mathlib.Data.List.Induction
import Mathlib.Data.List.TakeWhile
import GameLink.Registry.Desk
import GameLink.Proofs.Registry.Table

/-! # What a desk's journal says about its table

Anything can happen at a desk in any order: requests are registered, dropped,
waited for and given up, slots are resolved, removed and drained under ids of
anybody's choice, waits end and time passes. A journal records each of these
with its answer. The table is then a matter of record: an id is a key exactly
as long as its handle is held or waiting and no call after its registration has
settled it.

The one law that needs the ids to be apart is the balance: every id that was
issued accounts for at most one slot or one call that took it.
-/
namespace GameLink.Registry.Desk

inductive Act
  | register
  | resolve (cid : String) (outcome : Outcome)
  | remove (cid : String)
  | drain (failure : Failure)
  | contains (cid : String)
  | drop (handle : Nat)
  | wait (handle timeout : Nat)
  | abandon (handle : Nat)
  /-- A wait ends if it can. -/
  | finish (handle : Nat)
  | elapse (ms : Nat)

/-- An act with its answer. -/
inductive Entry
  | registered (cid : String)
  | resolved (cid : String) (outcome : Outcome) (found : Bool)
  | removed (cid : String) (found : Bool)
  /-- `failed` are the keys of the table at that moment. -/
  | drained (failure : Failure) (failed : List String) (count : Nat)
  | looked (cid : String) (found : Bool)
  | dropped (handle : Nat) (held : Bool)
  | began (handle timeout : Nat) (held : Bool)
  | abandoned (handle : Nat) (waiting : Bool)
  | ended (handle moment : Nat) (outcome : Outcome)
  | unended (handle : Nat)
  | passed (ms : Nat)

def isWaiting (d : Desk) (h : Nat) : Bool :=
  match d.stage h with
  | .waiting _ => true
  | _ => false

def play (d : Desk) : Act → Desk × Entry
  | .register => (d.register.1, .registered d.register.2)
  | .resolve cid outcome =>
    ({ d with registry := (d.registry.resolve cid outcome).1 },
      .resolved cid outcome (d.registry.resolve cid outcome).2)
  | .remove cid =>
    ({ d with registry := (d.registry.remove cid).1 }, .removed cid (d.registry.remove cid).2)
  | .drain failure =>
    ({ d with registry := (d.registry.drain failure).1 },
      .drained failure d.registry.slots (d.registry.drain failure).2)
  | .contains cid => (d, .looked cid (d.registry.contains cid))
  | .drop h => ((d.drop h).1, .dropped h (d.drop h).2)
  | .wait h timeout => ((d.wait h timeout).1, .began h timeout (d.wait h timeout).2)
  | .abandon h => (d.abort h, .abandoned h (d.isWaiting h))
  | .finish h =>
    match d.ending h with
    | some outcome => (d.retire h, .ended h d.now outcome)
    | none => (d, .unended h)
  | .elapse ms => ({ d with now := d.now + ms }, .passed ms)

structure Journal where
  desk : Desk := {}
  entries : List Entry := []

def Journal.step (j : Journal) (a : Act) : Journal :=
  ⟨(j.desk.play a).1, j.entries ++ [(j.desk.play a).2]⟩

/-- A new desk after these acts, with its journal. -/
def journal (acts : List Act) : Journal := acts.foldl Journal.step {}

@[simp] theorem journal_append_singleton (acts : List Act) (a : Act) :
    journal (acts ++ [a]) = (journal acts).step a := by
  simp [journal]

/-! ## Reading a journal -/

def Entry.registered? : Entry → Option String
  | .registered cid => some cid
  | _ => none

/-- What a call means for the slot of `c` if it is open. -/
def Entry.settles (c : String) : Entry → Option Outcome
  | .resolved cid outcome _ => if cid = c then some outcome else none
  | .removed cid _ => if cid = c then some (.error .notConnected) else none
  | .drained failure _ _ => some (.error failure)
  | _ => none

/-- The call took the slot of `c`. -/
def Entry.takes (c : String) : Entry → Bool
  | .resolved cid _ found => found && cid == c
  | .removed cid found => found && cid == c
  | .drained _ failed _ => failed.contains c
  | _ => false

/-- Handle `h` is over. -/
def Entry.ends (h : Nat) : Entry → Bool
  | .dropped k held => held && k == h
  | .abandoned k waiting => waiting && k == h
  | .ended k _ _ => k == h
  | _ => false

/-- The entry concerns no slot by its id. -/
structure Entry.Aside (e : Entry) : Prop where
  registered : e.registered? = none
  settles : ∀ c, e.settles c = none
  takes : ∀ c, e.takes c = false

def issued (es : List Entry) : List String := es.filterMap Entry.registered?

/-- What the first call after the registration of `c` that concerns it decided. -/
def fate (c : String) (es : List Entry) : Option Outcome :=
  (es.dropWhile fun e => e.registered? != some c).findSome? (Entry.settles c)

/-- Handle `h` is held or waiting, for the id `c`. -/
def Holds (d : Desk) (h : Nat) (c : String) : Prop :=
  ∃ r, d.requests[h]? = some r ∧ r.ticket.cid = c ∧ r.stage ≠ .gone

section
variable {c : String} {es : List Entry} {e : Entry}

theorem settles_of_registered (h : e.registered? = some c) (k : String) : e.settles k = none := by
  cases e with
  | registered cid => rfl
  | _ => cases h

theorem dropWhile_eq_nil :
    (es.dropWhile fun e => e.registered? != some c) = [] ↔ c ∉ issued es := by
  simp [List.dropWhile_eq_nil_iff, issued]

theorem fate_append_of_mem (h : c ∈ issued es) :
    fate c (es ++ [e]) = (fate c es).or (e.settles c) := by
  have hdrop : (es.dropWhile fun e => e.registered? != some c).isEmpty = false := by
    rw [Bool.eq_false_iff, ne_eq, List.isEmpty_iff, dropWhile_eq_nil, not_not]
    exact h
  rw [fate, List.dropWhile_append, hdrop]
  simp [fate, List.findSome?_append]

theorem fate_of_not_mem (h : c ∉ issued es) : fate c es = none := by
  rw [fate, dropWhile_eq_nil.mpr h, List.findSome?_nil]

/-- The entry that registers an id does not settle it. -/
theorem fate_append_of_not_mem (h : c ∉ issued es) : fate c (es ++ [e]) = none := by
  by_cases he : e.registered? = some c
  · rw [fate, List.dropWhile_append, dropWhile_eq_nil.mpr h]
    simp [he, settles_of_registered he]
  · refine fate_of_not_mem fun hc => ?_
    rw [issued, List.filterMap_append, List.mem_append] at hc
    rcases hc with hc | hc
    · exact h hc
    · exact he (by simpa using hc)

end

/-! ## Handles -/

section
variable {d : Desk} {h k : Nat} {c : String} {s : Stage}

@[simp] theorem tickets_setStage (d : Desk) (h : Nat) (s : Stage) :
    (d.setStage h s).requests.map (·.ticket) = d.requests.map (·.ticket) := by
  apply List.ext_getElem?
  intro k
  simp only [setStage, List.getElem?_map, List.getElem?_modify]
  cases d.requests[k]? with
  | none => rfl
  | some r => by_cases hk : h = k <;> simp [hk]

@[simp] theorem cids_setStage (d : Desk) (h : Nat) (s : Stage) :
    (d.setStage h s).requests.map (·.ticket.cid) = d.requests.map (·.ticket.cid) := by
  simpa only [List.map_map, Function.comp_def] using
    congrArg (List.map Ticket.cid) (tickets_setStage d h s)

theorem holds_setStage_of_ne (hk : k ≠ h) : (d.setStage h s).Holds k c ↔ d.Holds k c := by
  simp [Holds, setStage, hk.symm]

theorem holds_setStage (hs : s ≠ .gone) (hh : d.stage h ≠ .gone) :
    (d.setStage h s).Holds k c ↔ d.Holds k c := by
  by_cases hk : k = h
  · subst hk
    cases hr : d.requests[k]? with
    | none => simp [Holds, setStage, hr]
    | some r =>
      have hstage : r.stage ≠ .gone := by simpa [stage, hr] using hh
      simp [Holds, setStage, hr, hs, hstage]
  · exact holds_setStage_of_ne hk

theorem not_holds_setStage_gone : ¬ (d.setStage h .gone).Holds h c := by
  rintro ⟨r, hr, -, hstage⟩
  simp only [setStage, List.getElem?_modify, ↓reduceIte, Option.map_eq_map,
    Option.map_eq_some_iff] at hr
  obtain ⟨r', -, rfl⟩ := hr
  exact hstage rfl

theorem holds_setStage_gone : (d.setStage h .gone).Holds k c ↔ k ≠ h ∧ d.Holds k c := by
  by_cases hk : k = h
  · subst hk
    simp [not_holds_setStage_gone]
  · simp [hk, holds_setStage_of_ne hk]

theorem exists_holds (hh : d.stage h ≠ .gone) : ∃ c, d.Holds h c := by
  cases hr : d.requests[h]? with
  | none => simp [stage, hr] at hh
  | some r => exact ⟨_, r, hr, rfl, by simpa [stage, hr] using hh⟩

theorem Holds.lt (hh : d.Holds h c) : h < d.requests.length := by
  obtain ⟨r, hr, -, -⟩ := hh
  exact (List.getElem?_eq_some_iff.mp hr).1

theorem Holds.retire_eq (hh : d.Holds h c) :
    d.retire h = { d.setStage h .gone with registry := d.registry.release c } := by
  obtain ⟨r, hr, rfl, -⟩ := hh
  simp only [retire, hr]

end

/-! ## The books -/

/-- The desk agrees with the journal. -/
structure Books (d : Desk) (es : List Entry) : Prop where
  count : d.registry.issued = d.requests.length
  tickets : d.requests.map (·.ticket.cid) = cids d.requests.length
  registered : issued es = cids d.requests.length
  slot : ∀ c, c ∈ d.registry.slots ↔ (∃ h, d.Holds h c) ∧ fate c es = none
  poll : ∀ h c, d.Holds h c → d.registry.poll c = fate c es
  delivered : ∀ p ∈ d.registry.delivered, p.1 ∈ cids d.registry.issued
  balance : ∀ c, es.countP (Entry.takes c) + d.registry.slots.count c ≤
    (cids d.registry.issued).count c
  spent : ∀ h, (∃ e ∈ es, e.ends h = true) ↔ h < d.requests.length ∧ ∀ c, ¬ d.Holds h c

/-- A registry after a call that settles slots. -/
structure Settles (r next : Registry) (e : Entry) : Prop where
  issued : next.issued = r.issued
  slot : ∀ c, c ∈ next.slots ↔ c ∈ r.slots ∧ e.settles c = none
  poll : ∀ c, next.poll c = (r.poll c).or (e.settles c)
  delivered : ∀ p ∈ next.delivered, p ∈ r.delivered ∨ p.1 ∈ r.slots
  balance : ∀ c, (if e.takes c then 1 else 0) + next.slots.count c ≤ r.slots.count c

/-! ## Calls on the registry -/

section
variable {r next : Registry} {e : Entry} {cid : String} {outcome : Outcome}

/-- A call that settles no open slot changes nothing. -/
theorem settles_none (hsettles : ∀ c ∈ r.slots, e.settles c = none)
    (htakes : ∀ c, e.takes c = false) : Settles r r e where
  issued := rfl
  slot c := by simpa using hsettles c
  poll c := by
    by_cases hc : c ∈ r.slots
    · rw [hsettles c hc, Option.or_none]
    · rw [Option.or_of_isSome (poll_of_closed hc)]
  delivered p hp := .inl hp
  balance c := by simp [htakes]

/-- A call that takes one open slot gives it its outcome. -/
theorem settles_one (hn : r.slots.Nodup) (hc : cid ∈ r.slots)
    (hsettles : ∀ c, e.settles c = if cid = c then some outcome else none)
    (htakes : ∀ c, e.takes c = (cid == c)) (hissued : next.issued = r.issued)
    (hslots : next.slots = r.slots.erase cid)
    (hlookup : ∀ c, c ≠ cid → next.delivered.lookup c = r.delivered.lookup c)
    (hpoll : next.poll cid = (r.poll cid).or (some outcome))
    (hdelivered : ∀ p ∈ next.delivered, p ∈ r.delivered ∨ p.1 = cid) : Settles r next e where
  issued := hissued
  slot c := by
    rw [hslots, hn.mem_erase_iff, hsettles]
    by_cases h : cid = c
    · simp [h]
    · simp [h, Ne.symm h]
  poll c := by
    rw [hsettles]
    by_cases h : c = cid
    · subst h; simpa using hpoll
    · rw [if_neg (Ne.symm h), Option.or_none]
      exact poll_congr (hlookup c h) (by rw [hslots, hn.mem_erase_iff]; exact and_iff_right h)
  delivered p hp := (hdelivered p hp).imp_right fun (h : p.1 = cid) => h ▸ hc
  balance c := by
    rw [hslots, List.count_erase, htakes]
    by_cases h : cid = c
    · subst h
      have hpos := List.count_pos_iff.mpr hc
      simp only [BEq.rfl, ↓reduceIte]
      omega
    · simp [h]

theorem settles_resolve (hn : r.slots.Nodup) (cid : String) (outcome : Outcome) :
    Settles r (r.resolve cid outcome).1 (.resolved cid outcome (r.resolve cid outcome).2) := by
  by_cases hc : cid ∈ r.slots
  · rw [resolve_of_mem hc]
    refine settles_one hn hc (fun _ => rfl) (fun _ => Bool.true_and _) rfl rfl ?_ ?_ ?_
    · intro c h
      simp [List.lookup_append, List.lookup_cons, beq_eq_false_iff_ne.mpr h]
    · cases hl : r.delivered.lookup cid <;>
        simp [Registry.poll, Registry.contains, List.lookup_append, hl, hc]
    · intro p hp
      rcases List.mem_append.mp hp with hp | hp
      · exact .inl hp
      · exact .inr (by rw [List.mem_singleton.mp hp])
  · rw [resolve_of_not_mem hc]
    refine settles_none (fun c hm => if_neg ?_) (fun _ => rfl)
    rintro rfl
    exact hc hm

theorem settles_remove (hn : r.slots.Nodup) (cid : String) :
    Settles r (r.remove cid).1 (.removed cid (r.remove cid).2) := by
  by_cases hc : cid ∈ r.slots
  · have hfound : r.contains cid = true := List.contains_iff_mem.mpr hc
    have fails : ∀ c, (Entry.removed cid (r.remove cid).2).settles c =
        if cid = c then some (.error .notConnected) else none := fun _ => rfl
    refine settles_one hn hc fails (fun c => ?_) rfl rfl (fun _ _ => rfl) ?_ (fun _ => .inl)
    · simp [Entry.takes, Registry.remove, hfound]
    · cases hl : r.delivered.lookup cid <;>
        simp [Registry.poll, Registry.remove, Registry.contains, hl, hc, hn.mem_erase_iff]
  · have hfound : r.contains cid = false := by simpa [Registry.contains] using hc
    have hsame : (r.remove cid).1 = r := by
      simp [Registry.remove, List.erase_of_not_mem hc]
    rw [hsame]
    refine settles_none (fun c hm => if_neg ?_) (fun _ => ?_)
    · rintro rfl
      exact hc hm
    · simp [Entry.takes, Registry.remove, hfound]

theorem settles_drain (f : Failure) :
    Settles r (r.drain f).1 (.drained f r.slots (r.drain f).2) where
  issued := rfl
  slot c := by simp [Registry.drain, Entry.settles]
  poll c := by
    by_cases hc : c ∈ r.slots
    · cases hl : r.delivered.lookup c with
      | none =>
        rw [poll_of_slot hc hl, Option.none_or]
        exact poll_of_delivered (lookup_drain_of_mem hc hl)
      | some outcome =>
        rw [poll_of_delivered hl, Option.some_or]
        exact poll_of_delivered (lookup_drain_of_some hl)
    · have hnone : (r.slots.map fun c => (c, (Except.error f : Outcome))).lookup c = none := by
        refine lookup_eq_none fun p hp => ?_
        obtain ⟨k, hk, rfl⟩ := List.mem_map.mp hp
        rintro rfl
        exact hc hk
      have hsame : (r.drain f).1.poll c = r.poll c :=
        poll_congr (by simp [Registry.drain, List.lookup_append, hnone])
          (by simp [Registry.drain, hc])
      rw [hsame, Option.or_of_isSome (poll_of_closed hc)]
  delivered p hp := by
    rcases List.mem_append.mp hp with hp | hp
    · exact .inl hp
    · obtain ⟨c, hc, rfl⟩ := List.mem_map.mp hp
      exact .inr hc
  balance c := by
    show (if r.slots.contains c = true then 1 else 0) + 0 ≤ _
    by_cases hc : c ∈ r.slots
    · rw [if_pos (List.contains_iff_mem.mpr hc)]
      exact List.count_pos_iff.mpr hc
    · simp [hc]

end

namespace Books

variable {d : Desk} {es : List Entry} {e : Entry} {h : Nat} {c : String}

theorem ticket_eq (hb : Books d es) {r : Request} (hr : d.requests[h]? = some r) :
    r.ticket.cid = toString (h + 1) := by
  have hlt : h < d.requests.length := (List.getElem?_eq_some_iff.mp hr).1
  have hcid : (d.requests.map (·.ticket.cid))[h]? = some r.ticket.cid := by
    rw [List.getElem?_map, hr, Option.map_some]
  rw [hb.tickets, cids, List.getElem?_map, List.getElem?_range hlt] at hcid
  exact (Option.some.inj hcid).symm

theorem cid_eq (hb : Books d es) (hh : d.Holds h c) : c = toString (h + 1) := by
  obtain ⟨r, hr, rfl, -⟩ := hh
  exact hb.ticket_eq hr

/-- Two handles never have one id. -/
theorem handle_eq (hb : Books d es) {k : Nat} (hh : d.Holds h c) (hk : d.Holds k c) : h = k := by
  have numbers := toString_inj ((hb.cid_eq hh).symm.trans (hb.cid_eq hk))
  omega

theorem mem_issued (hb : Books d es) (hh : d.Holds h c) : c ∈ issued es := by
  rw [hb.registered, ← hb.tickets]
  obtain ⟨r, hr, rfl, -⟩ := hh
  exact List.mem_map_of_mem (List.mem_of_getElem? hr)

/-- An entry that settles nothing leaves the fates of all ids that are held. -/
theorem fate_aside (hb : Books d es) (hh : d.Holds h c) (he : e.settles c = none) :
    fate c (es ++ [e]) = fate c es := by
  rw [fate_append_of_mem (hb.mem_issued hh), he, Option.or_none]

theorem issued_of_slot (hb : Books d es) (hc : c ∈ d.registry.slots) : c ∈ issued es :=
  have ⟨⟨_, hh⟩, _⟩ := (hb.slot c).mp hc
  hb.mem_issued hh

theorem count_cids_le (n : Nat) (c : String) : (cids n).count c ≤ 1 :=
  List.nodup_iff_count_le_one.mp (cids_nodup n) c

theorem apart (hb : Books d es) : d.registry.slots.Nodup := by
  rw [List.nodup_iff_count_le_one]
  intro c
  have hbal := hb.balance c
  have hone := count_cids_le d.registry.issued c
  omega

theorem exists_holds_iff (hb : Books d es) (hlt : h < d.requests.length) :
    (∃ c, d.Holds h c) ↔ ∀ e ∈ es, e.ends h = false := by
  constructor
  · rintro ⟨c, hh⟩ e he
    rw [Bool.eq_false_iff]
    exact fun hends => ((hb.spent h).mp ⟨e, he, hends⟩).2 c hh
  · intro hall
    by_contra hnone
    obtain ⟨e, he, hends⟩ := (hb.spent h).mpr ⟨hlt, not_exists.mp hnone⟩
    rw [hall e he] at hends
    cases hends

theorem nextCid_fresh (hb : Books d es) : d.registry.nextCid ∉ issued es := by
  rw [hb.registered, ← hb.count]
  exact nextCid_not_mem d.registry

/-- A call on the registry that settles slots leaves the handles alone. -/
theorem settled (hb : Books d es) {r : Registry} (hr : Settles d.registry r e)
    (hreg : e.registered? = none) (hends : ∀ h, e.ends h = false) :
    Books { d with registry := r } (es ++ [e]) where
  count := hr.issued.trans hb.count
  tickets := hb.tickets
  registered := by rw [issued, List.filterMap_append, ← issued, hb.registered]; simp [hreg]
  slot c := by
    rw [hr.slot c, hb.slot c, and_assoc]
    refine and_congr_right fun ⟨h, hh⟩ => ?_
    rw [fate_append_of_mem (hb.mem_issued hh), Option.or_eq_none_iff]
  poll h c hh := by
    rw [hr.poll c, hb.poll h c hh, fate_append_of_mem (hb.mem_issued hh)]
  delivered p hp := by
    show p.1 ∈ cids r.issued
    rw [hr.issued]
    rcases hr.delivered p hp with hp | hp
    · exact hb.delivered p hp
    · rw [hb.count, ← hb.registered]; exact hb.issued_of_slot hp
  balance c := by
    show _ + r.slots.count c ≤ (cids r.issued).count c
    rw [hr.issued, List.countP_append, List.countP_singleton]
    have hold := hb.balance c
    have hnew := hr.balance c
    omega
  spent h := by
    simp only [List.mem_append, List.mem_singleton, or_and_right, exists_or, exists_eq_left,
      hends, Bool.false_eq_true, or_false]
    exact hb.spent h

/-- Handles keep their ids, one of them may start to wait. -/
theorem stood (hb : Books d es) {next : Desk} (hr : next.registry = d.registry)
    (hcids : next.requests.map (·.ticket.cid) = d.requests.map (·.ticket.cid))
    (hholds : ∀ h c, next.Holds h c ↔ d.Holds h c) (he : e.Aside)
    (hends : ∀ h, e.ends h = false) : Books next (es ++ [e]) := by
  have hsame : Settles d.registry d.registry e := settles_none (fun c _ => he.settles c) he.takes
  obtain ⟨hcount, htickets, hregistered, hslot, hpoll, hdelivered, hbalance, hover⟩ :=
    hb.settled hsame he.registered hends
  have hlength : next.requests.length = d.requests.length := by
    simpa using congrArg List.length hcids
  constructor
  · rw [hr, hlength]; exact hcount
  · rw [hcids, hlength]; exact htickets
  · rw [hlength]; exact hregistered
  · intro c; simp only [hr, hholds]; exact hslot c
  · intro h c hh; rw [hr]; exact hpoll h c ((hholds h c).mp hh)
  · rw [hr]; exact hdelivered
  · rw [hr]; exact hbalance
  · intro h; simp only [hlength, hholds]; exact hover h

/-- A handle that is over takes its slot along. -/
theorem retired (hb : Books d es) (hh : d.Holds h c) (he : e.Aside)
    (hends : ∀ k, e.ends k = (h == k)) : Books (d.retire h) (es ++ [e]) := by
  have hfate : ∀ {k c'}, d.Holds k c' → fate c' (es ++ [e]) = fate c' es :=
    fun hk => hb.fate_aside hk (he.settles _)
  have hne : ∀ {k c'}, k ≠ h → d.Holds k c' → c' ≠ c := by
    rintro k c' hk hold rfl
    exact hk (hb.handle_eq hold hh)
  have hlength : (d.setStage h .gone).requests.length = d.requests.length :=
    List.length_modify ..
  rw [hh.retire_eq]
  constructor
  · exact hb.count.trans hlength.symm
  · show (d.setStage h .gone).requests.map (·.ticket.cid) =
      cids (d.setStage h .gone).requests.length
    rw [cids_setStage, hlength]; exact hb.tickets
  · rw [issued, List.filterMap_append, ← issued, hb.registered]
    simp [he.registered, hlength]
  · intro c'
    show c' ∈ (d.registry.release c).slots ↔ (∃ k, (d.setStage h .gone).Holds k c') ∧ _
    rw [mem_slots_release hb.apart, hb.slot c']
    constructor
    · rintro ⟨hc, ⟨k, hk⟩, hnone⟩
      have hkh : k ≠ h := by
        rintro rfl
        exact hc ((hb.cid_eq hk).trans (hb.cid_eq hh).symm)
      exact ⟨⟨k, holds_setStage_gone.mpr ⟨hkh, hk⟩⟩, (hfate hk).trans hnone⟩
    · rintro ⟨⟨k, hk⟩, hnone⟩
      obtain ⟨hkh, hk⟩ := holds_setStage_gone.mp hk
      exact ⟨hne hkh hk, ⟨k, hk⟩, (hfate hk).symm.trans hnone⟩
  · intro k c' hk
    obtain ⟨hkh, hk⟩ := holds_setStage_gone.mp hk
    show (d.registry.release c).poll c' = _
    rw [poll_release hb.apart (hne hkh hk), hb.poll k c' hk, hfate hk]
  · intro p hp
    exact hb.delivered p (mem_delivered_release.mp hp).1
  · intro c'
    have hold := hb.balance c'
    have hslots : (d.registry.release c).slots.count c' ≤ d.registry.slots.count c' :=
      List.Sublist.count_le c' List.erase_sublist
    show _ + (d.registry.release c).slots.count c' ≤ (cids d.registry.issued).count c'
    rw [List.countP_append, List.countP_singleton, he.takes]
    simp only [Bool.false_eq_true, ↓reduceIte]
    omega
  · intro k
    show _ ↔ k < (d.setStage h .gone).requests.length ∧ ∀ c', ¬ (d.setStage h .gone).Holds k c'
    simp only [List.mem_append, List.mem_singleton, or_and_right, exists_or, exists_eq_left, hends,
      hb.spent k, hlength, holds_setStage_gone, not_and]
    by_cases hk : k = h
    · subst hk; simp [hh.lt]
    · simp [hk, Ne.symm hk]

theorem same (hb : Books d es) (he : e.Aside) (hends : ∀ h, e.ends h = false) :
    Books d (es ++ [e]) :=
  hb.stood rfl rfl (fun _ _ => Iff.rfl) he hends

theorem holds_register {k : Nat} {c' : String} : d.register.1.Holds k c' ↔
    d.Holds k c' ∨ k = d.requests.length ∧ d.registry.nextCid = c' := by
  rcases Nat.lt_trichotomy k d.requests.length with hk | rfl | hk
  · simp [Holds, Desk.register, List.getElem?_append_left hk, hk.ne]
  · simp [Holds, Desk.register, Registry.register]
  · have hlast : (d.requests ++ [⟨⟨d.registry.nextCid, d.now⟩, .held⟩])[k]? = none :=
      List.getElem?_eq_none (by simpa using Nat.succ_le_of_lt hk)
    simp [Holds, Desk.register, Registry.register, hlast, hk.le, hk.ne']

/-- The new handle is not over, and no other one is when it comes. -/
theorem spent_register (hb : Books d es) (k : Nat) :
    (∃ e ∈ es ++ [.registered d.register.2], e.ends k = true) ↔
      k < d.requests.length + 1 ∧ ∀ c', ¬ d.register.1.Holds k c' := by
  have hends : (∃ e ∈ es ++ [.registered d.register.2], Entry.ends k e = true) ↔
      ∃ e ∈ es, e.ends k = true := by
    simp [or_and_right, exists_or, Entry.ends]
  rw [hends, hb.spent k]
  constructor
  · rintro ⟨hk, hnone⟩
    refine ⟨Nat.lt_succ_of_lt hk, fun c' hc => ?_⟩
    rcases holds_register.mp hc with hc | ⟨rfl, -⟩
    · exact hnone c' hc
    · exact Nat.lt_irrefl _ hk
  · rintro ⟨hk, hnone⟩
    have hold : k ≠ d.requests.length := by
      rintro rfl
      exact hnone _ (holds_register.mpr (.inr ⟨rfl, rfl⟩))
    exact ⟨by omega, fun c' hc => hnone c' (holds_register.mpr (.inl hc))⟩

/-- The new id has a slot, nothing has settled it, and nobody else has it. -/
theorem register (hb : Books d es) :
    Books d.register.1 (es ++ [.registered d.register.2]) := by
  have hfresh := hb.nextCid_fresh
  have hslots : d.registry.nextCid ∉ d.registry.slots := fun hm => hfresh (hb.issued_of_slot hm)
  have hdelivered : d.registry.delivered.lookup d.registry.nextCid = none := by
    refine lookup_eq_none fun p hp hc => hfresh ?_
    rw [hb.registered, ← hb.count, ← hc]
    exact hb.delivered p hp
  have hlength : d.register.1.requests.length = d.requests.length + 1 := by simp [Desk.register]
  have hcids : cids (d.requests.length + 1) = cids d.requests.length ++ [d.registry.nextCid] := by
    rw [cids_succ, nextCid, hb.count]
  have hne : ∀ {k c'}, d.Holds k c' → c' ≠ d.registry.nextCid := by
    rintro k c' hk rfl
    exact hfresh (hb.mem_issued hk)
  have hfate : ∀ {k c'}, d.Holds k c' →
      fate c' (es ++ [.registered d.register.2]) = fate c' es :=
    fun hk => hb.fate_aside hk rfl
  have hnew : fate d.registry.nextCid (es ++ [.registered d.register.2]) = none :=
    fate_append_of_not_mem hfresh
  constructor
  · rw [hlength, ← hb.count]; rfl
  · rw [hlength, hcids, ← hb.tickets]
    simp [Desk.register, Registry.register]
  · rw [hlength, hcids, ← hb.registered, issued, List.filterMap_append]
    rfl
  · intro c'
    show c' ∈ d.registry.slots ++ [d.registry.nextCid] ↔ _
    rw [List.mem_append, List.mem_singleton, hb.slot c']
    constructor
    · rintro (⟨⟨k, hk⟩, hnone⟩ | rfl)
      · exact ⟨⟨k, holds_register.mpr (.inl hk)⟩, (hfate hk).trans hnone⟩
      · exact ⟨⟨_, holds_register.mpr (.inr ⟨rfl, rfl⟩)⟩, hnew⟩
    · rintro ⟨⟨k, hk⟩, hnone⟩
      rcases holds_register.mp hk with hk | ⟨-, rfl⟩
      · exact .inl ⟨⟨k, hk⟩, (hfate hk).symm.trans hnone⟩
      · exact .inr rfl
  · intro k c' hk
    rcases holds_register.mp hk with hk | ⟨-, rfl⟩
    · rw [hfate hk, ← hb.poll k c' hk]
      exact poll_register d.now (hne hk)
    · rw [hnew]
      exact poll_of_slot (List.mem_append_right _ (.head _)) hdelivered
  · intro p hp
    show p.1 ∈ cids (d.registry.issued + 1)
    rw [cids_succ]
    exact List.mem_append_left _ (hb.delivered p hp)
  · intro c'
    have hold := hb.balance c'
    show _ + (d.registry.slots ++ [d.registry.nextCid]).count c' ≤
      (cids (d.registry.issued + 1)).count c'
    rw [cids_succ, List.countP_append, List.count_append, List.count_append]
    have hquiet : [Entry.registered d.register.2].countP (Entry.takes c') = 0 := rfl
    have hsame : [d.registry.nextCid].count c' = [toString (d.registry.issued + 1)].count c' := rfl
    omega
  · intro k
    rw [hlength]
    exact hb.spent_register k

end Books

/-! ## Every journal -/

section
variable {d : Desk} {h : Nat}

theorem exists_holds_of_isWaiting (hw : d.isWaiting h = true) : ∃ c, d.Holds h c := by
  refine exists_holds fun hgone => ?_
  simp [isWaiting, hgone] at hw

theorem isWaiting_of_ending {outcome : Outcome} (ho : d.ending h = some outcome) :
    d.isWaiting h = true := by
  unfold ending at ho
  split at ho
  · rename_i hr
    simp [isWaiting, stage, hr]
  · cases ho

theorem abort_eq : d.abort h = if d.isWaiting h then d.retire h else d := by
  unfold abort isWaiting
  cases d.stage h <;> rfl

end

theorem Books.play {d : Desk} {es : List Entry} (hb : Books d es) (a : Act) :
    Books (d.play a).1 (es ++ [(d.play a).2]) := by
  cases a with
  | register => exact hb.register
  | resolve cid outcome => exact hb.settled (settles_resolve hb.apart cid outcome) rfl fun _ => rfl
  | remove cid => exact hb.settled (settles_remove hb.apart cid) rfl fun _ => rfl
  | drain f => exact hb.settled (settles_drain f) rfl fun _ => rfl
  | contains cid => exact hb.same ⟨rfl, fun _ => rfl, fun _ => rfl⟩ fun _ => rfl
  | elapse ms =>
    exact hb.stood rfl rfl (fun _ _ => Iff.rfl) ⟨rfl, fun _ => rfl, fun _ => rfl⟩ fun _ => rfl
  | wait h timeout =>
    simp only [Desk.play, Desk.wait]
    split
    · rename_i hheld
      have hh : d.stage h ≠ .gone := by simp [hheld]
      exact hb.stood rfl (cids_setStage ..) (fun _ _ => holds_setStage Stage.noConfusion hh)
        ⟨rfl, fun _ => rfl, fun _ => rfl⟩ fun _ => rfl
    · exact hb.same ⟨rfl, fun _ => rfl, fun _ => rfl⟩ fun _ => rfl
  | drop h =>
    simp only [Desk.play, Desk.drop]
    split
    · rename_i hheld
      obtain ⟨c, hh⟩ := exists_holds (d := d) (h := h) (by simp [hheld])
      exact hb.retired hh ⟨rfl, fun _ => rfl, fun _ => rfl⟩ fun _ => Bool.true_and _
    · exact hb.same ⟨rfl, fun _ => rfl, fun _ => rfl⟩ fun _ => rfl
  | abandon h =>
    simp only [Desk.play]
    cases hw : d.isWaiting h with
    | true =>
      obtain ⟨c, hh⟩ := exists_holds_of_isWaiting hw
      rw [abort_eq, if_pos hw]
      exact hb.retired hh ⟨rfl, fun _ => rfl, fun _ => rfl⟩ fun _ => Bool.true_and _
    | false =>
      rw [abort_eq, if_neg (by simp [hw])]
      exact hb.same ⟨rfl, fun _ => rfl, fun _ => rfl⟩ fun _ => rfl
  | finish h =>
    simp only [Desk.play]
    split
    · rename_i outcome ho
      obtain ⟨c, hh⟩ := exists_holds_of_isWaiting (isWaiting_of_ending ho)
      exact hb.retired hh ⟨rfl, fun _ => rfl, fun _ => rfl⟩ fun _ => rfl
    · exact hb.same ⟨rfl, fun _ => rfl, fun _ => rfl⟩ fun _ => rfl

theorem Books.new : Books {} [] := by
  constructor
  case spent => simp [Holds]
  case slot => simp [Holds, fate]
  case poll => rintro h c ⟨r, hr, -⟩; cases hr
  all_goals simp [issued, cids]

theorem journal_books (acts : List Act) : Books (journal acts).desk (journal acts).entries := by
  induction acts using List.reverseRecOn with
  | nil => exact .new
  | append_singleton acts a ih =>
    rw [journal_append_singleton]
    exact ih.play a

end GameLink.Registry.Desk

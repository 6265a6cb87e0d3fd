import Mathlib.Data.List.Sublists
import GameLink.Proofs.Registry.Acts

/-! # A desk that runs by itself

What a desk does when nobody acts: a wait that can end ends, and time passes where it
passes over no wait (`Unaided`). Letting time pass at a desk is nothing else, and leaves no
wait that can end (`advance_passes`). That needs two facts. When all waits that can end
have ended, no wait can end, since the end of one never lets another end. And every stop
at a deadline leaves fewer deadlines, so that there are never more stops than requests.
-/
namespace GameLink.Registry.Desk

/-! ## Time that passes over no wait -/

/-- Time may pass by `ms` as far as `h` is concerned: if it waits, it cannot end yet, and
its deadline is no sooner. -/
def Lets (d : Desk) (h ms : Nat) : Prop :=
  ∀ ticket timeout, d.requests[h]? = some ⟨ticket, .waiting timeout⟩ →
    d.ending h = none ∧ d.now + ms ≤ deadline ticket timeout

/-- After `before`, time never passes over the end of a wait on `h`. -/
def Prompt (h : Nat) (before during : List Act) : Prop :=
  ∀ inside ms outside, during = inside ++ .elapse ms :: outside →
    (journal (before ++ inside)).desk.Lets h ms

section
variable {h : Nat} {before during more : List Act} {a : Act}

theorem Prompt.none : Prompt h before [] := fun inside ms outside eq => by simp at eq

theorem Prompt.single (lets : ∀ ms, a = .elapse ms → (journal before).desk.Lets h ms) :
    Prompt h before [a] := by
  rintro inside ms outside eq
  obtain ⟨rfl, rfl, rfl⟩ : inside = [] ∧ a = .elapse ms ∧ outside = [] := by
    cases inside <;> simp_all
  simpa using lets ms rfl

theorem Prompt.append (p : Prompt h before during) (q : Prompt h (before ++ during) more) :
    Prompt h before (during ++ more) := by
  intro inside ms outside eq
  rcases List.append_eq_append_iff.mp eq with ⟨past, rfl, rest⟩ | ⟨left, rfl, rest⟩
  · simpa using q past ms outside rest
  · cases left with
    | nil => simpa using q [] ms outside rest.symm
    | cons x left =>
      obtain ⟨rfl, -⟩ := List.cons.inj rest
      exact p inside ms left rfl

theorem Prompt.of_append (p : Prompt h before (during ++ [a])) : Prompt h before during :=
  fun inside ms outside eq => p inside ms (outside ++ [a]) (by simp [eq])

theorem Prompt.last {ms : Nat} (p : Prompt h before (during ++ [.elapse ms])) :
    (journal (before ++ during)).desk.Lets h ms :=
  p during ms [] rfl

end

theorem now_settle (d : Desk) : d.settle.1.now = d.now := by
  unfold settle
  refine List.foldlRecOn (motive := fun acc : Desk × List Finished => acc.1.now = d.now) _ _ rfl ?_
  intro acc hacc h _
  split
  · rw [← hacc]; exact now_retire ..
  · exact hacc

theorem nextDeadline_bounds {d : Desk} {target t : Nat} (h : d.nextDeadline target = some t) :
    d.now < t ∧ t ≤ target := by
  have hm := List.min?_mem h
  simpa using (List.mem_filter.mp hm).2

/-- No wait can end. -/
def Rests (d : Desk) : Prop := ∀ h, d.ending h = none

/-- What a desk does by itself. -/
inductive Unaided : Desk → Desk → List Finished → Prop
  | nothing (d : Desk) : Unaided d d []
  | finish {d last : Desk} {ended : List Finished} {h : Nat} {outcome : Outcome}
    (ends : d.ending h = some outcome) (more : Unaided (d.retire h) last ended) :
    Unaided d last (⟨h, d.now, outcome⟩ :: ended)
  | elapse {d last : Desk} {ended : List Finished} (ms : Nat) (lets : ∀ h, d.Lets h ms)
    (more : Unaided { d with now := d.now + ms } last ended) : Unaided d last ended

section
variable {d last : Desk} {es : List Entry} {ended : List Finished} {h k : Nat}

theorem Unaided.trans {next : Desk} {further : List Finished} (u : Unaided d next ended)
    (v : Unaided next last further) : Unaided d last (ended ++ further) := by
  induction u with
  | nothing => exact v
  | finish ends _ ih => exact .finish ends (ih v)
  | elapse ms lets _ ih => exact .elapse ms lets (ih v)

theorem mem_deadlines {t : Nat} : t ∈ d.deadlines ↔ ∃ (h : Nat) (ticket : Ticket) (timeout : Nat),
    d.requests[h]? = some ⟨ticket, .waiting timeout⟩ ∧ deadline ticket timeout = t := by
  rw [Desk.deadlines, List.mem_filterMap]
  constructor
  · rintro ⟨⟨ticket, s⟩, hm, ht⟩
    obtain ⟨h, hr⟩ := List.mem_iff_getElem?.mp hm
    cases s with
    | waiting timeout => exact ⟨h, ticket, timeout, hr, Option.some.inj ht⟩
    | held | gone => cases ht
  · rintro ⟨h, ticket, timeout, hr, rfl⟩
    exact ⟨_, List.mem_of_getElem? hr, rfl⟩

/-- Where no wait can end, time may pass up to the next deadline. -/
theorem Rests.lets (rests : d.Rests) {ms : Nat}
    (early : ∀ t ∈ d.deadlines, d.now + ms ≤ t) (h : Nat) : d.Lets h ms :=
  fun ticket timeout hr => ⟨rests h, early _ (mem_deadlines.mpr ⟨h, ticket, timeout, hr, rfl⟩)⟩

theorem Rests.deadlines (hb : Books d es) (rests : d.Rests) {t : Nat} (ht : t ∈ d.deadlines) :
    d.now < t := by
  obtain ⟨h, ticket, timeout, hr, rfl⟩ := mem_deadlines.mp ht
  have unending := rests h
  rw [ending_eq hb hr, Option.or_eq_none_iff] at unending
  simpa using unending.2

/-- The end of one wait does not let another end. -/
theorem ending_retire (hb : Books d es) {c : String} (hh : d.Holds h c) :
    (d.retire h).ending k = if k = h then none else d.ending k := by
  split
  · rename_i same
    subst same
    obtain ⟨r, hr, -, -⟩ := hh
    simp [ending, retire, hr, setStage]
  · rename_i other
    cases hr : d.requests[k]? with
    | none =>
      have : (d.retire h).requests[k]? = none := by
        rw [hh.retire_eq]
        simpa [setStage, Ne.symm other] using hr
      simp [ending, hr, this]
    | some r =>
      obtain ⟨request, -, poll⟩ := (Touches.retired hh).other hb other hr
      obtain ⟨ticket, s⟩ := r
      cases s with
      | waiting timeout => simp only [ending, hr, request, Registry.wait, poll, now_retire]
      | held | gone => simp only [ending, hr, request]

theorem filterMap_modify_sublist {α β : Type} {f : α → Option β} {g : α → α}
    (drops : ∀ x, f (g x) = none) (xs : List α) (n : Nat) :
    ((xs.modify n g).filterMap f).Sublist (xs.filterMap f) := by
  induction xs generalizing n with
  | nil => simp
  | cons x xs ih =>
    cases n with
    | zero =>
      rw [List.modify_zero_cons, List.filterMap_cons_none (drops x)]
      exact (List.sublist_cons_self x xs).filterMap f
    | succ n =>
      rw [List.modify_succ_cons, List.filterMap_cons, List.filterMap_cons]
      cases f x with
      | none => exact ih n
      | some y => exact (ih n).cons_cons y

theorem deadlines_retire : (d.retire h).deadlines.Sublist d.deadlines := by
  unfold retire
  split
  · exact filterMap_modify_sublist (fun _ => rfl) d.requests h
  · exact .refl _

theorem Unaided.deadlines (u : Unaided d last ended) : last.deadlines.Sublist d.deadlines := by
  induction u with
  | nothing => exact .refl _
  | finish _ _ ih => exact ih.trans deadlines_retire
  | elapse _ _ _ ih => exact ih

theorem Unaided.books (u : Unaided d last ended) (hb : Books d es) : ∃ es', Books last es' := by
  induction u generalizing es with
  | nothing => exact ⟨es, hb⟩
  | @finish d last ended h outcome ends more ih =>
    have played := hb.play (.finish h)
    simp only [play, ends] at played
    exact ih played
  | elapse ms lets more ih => exact ih (hb.play (.elapse ms))

/-- Ends the wait on one handle if it can end. -/
def ask (acc : Desk × List Finished) (h : Nat) : Desk × List Finished :=
  match acc.1.ending h with
  | some outcome => (acc.1.retire h, acc.2 ++ [⟨h, acc.1.now, outcome⟩])
  | none => acc

theorem settle_eq (d : Desk) : d.settle = (List.range d.requests.length).foldl ask (d, []) := rfl

theorem ask_unaided (acc : Desk × List Finished) (h : Nat) :
    ∃ ended, (ask acc h).2 = acc.2 ++ ended ∧ Unaided acc.1 (ask acc h).1 ended := by
  unfold ask
  cases ends : acc.1.ending h with
  | none => exact ⟨[], by simp, .nothing _⟩
  | some outcome => exact ⟨_, rfl, .finish ends (.nothing _)⟩

theorem ending_ask {acc : Desk × List Finished} (hb : Books acc.1 es)
    (rests : k = h ∨ acc.1.ending k = none) : (ask acc h).1.ending k = none := by
  unfold ask
  cases ends : acc.1.ending h with
  | none => rcases rests with rfl | rests <;> assumption
  | some outcome =>
    obtain ⟨c, hh⟩ := exists_holds_of_isWaiting (isWaiting_of_ending ends)
    rw [ending_retire hb hh]
    split
    · rfl
    · exact rests.resolve_left ‹_›

theorem asks_unaided (handles : List Nat) (acc : Desk × List Finished) :
    ∃ ended, (handles.foldl ask acc).2 = acc.2 ++ ended ∧
      Unaided acc.1 (handles.foldl ask acc).1 ended := by
  induction handles generalizing acc with
  | nil => exact ⟨[], by simp, .nothing _⟩
  | cons h hs ih =>
    obtain ⟨first, eq, u⟩ := ask_unaided acc h
    obtain ⟨others, eq', v⟩ := ih (ask acc h)
    exact ⟨first ++ others, by rw [List.foldl_cons, eq', eq, List.append_assoc], u.trans v⟩

theorem ending_asks (handles : List Nat) {acc : Desk × List Finished} (hb : Books acc.1 es)
    (rests : k ∈ handles ∨ acc.1.ending k = none) : (handles.foldl ask acc).1.ending k = none := by
  induction handles generalizing acc es with
  | nil => simpa using rests
  | cons h hs ih =>
    obtain ⟨_, -, u⟩ := ask_unaided acc h
    obtain ⟨es', hb'⟩ := u.books hb
    rw [List.mem_cons, or_assoc, or_left_comm] at rests
    exact ih hb' (rests.imp_right (ending_ask hb))

theorem settle_unaided (d : Desk) : Unaided d d.settle.1 d.settle.2 := by
  obtain ⟨ended, eq, u⟩ := asks_unaided (List.range d.requests.length) (d, [])
  rw [settle_eq, eq]
  exact u

theorem settle_rests (hb : Books d es) : d.settle.1.Rests := by
  intro h
  refine ending_asks (List.range d.requests.length) hb ?_
  by_cases lt : h < d.requests.length
  · exact .inl (List.mem_range.mpr lt)
  · exact .inr (by simp [ending, List.getElem?_eq_none (Nat.le_of_not_lt lt)])

/-- Each stop leaves fewer deadlines. -/
theorem settle_deadlines (hb : Books d es) (due : d.now ∈ d.deadlines) :
    d.settle.1.deadlines.length < d.deadlines.length := by
  have u := settle_unaided d
  obtain ⟨es', hb'⟩ := u.books hb
  refine Nat.lt_of_le_of_ne u.deadlines.length_le fun same => ?_
  have kept : d.now ∈ d.settle.1.deadlines := u.deadlines.eq_of_length same ▸ due
  have later := (settle_rests hb).deadlines hb' kept
  rw [now_settle] at later
  exact Nat.lt_irrefl _ later

theorem nextDeadline_min {target t : Nat} (hb : Books d es) (rests : d.Rests)
    (next : d.nextDeadline target = some t) : ∀ s ∈ d.deadlines, t ≤ s := by
  intro s hs
  by_cases le : s ≤ target
  · exact (List.min?_eq_some_iff.mp next).2 s (by simpa [hs, le] using rests.deadlines hb hs)
  · exact (nextDeadline_bounds next).2.trans (Nat.le_of_not_le le)

theorem nextDeadline_none {target : Nat} (hb : Books d es) (rests : d.Rests)
    (next : d.nextDeadline target = none) : ∀ s ∈ d.deadlines, target < s := by
  intro s hs
  by_contra le
  have : s ∈ d.deadlines.filter (fun t => d.now < t && t ≤ target) := by
    simpa [hs, rests.deadlines hb hs] using Nat.le_of_not_lt le
  simp [List.min?_eq_none_iff.mp next] at this

/-- A desk at rest may wait for any moment that no deadline comes before. -/
theorem Rests.until (rests : d.Rests) {t : Nat} (le : d.now ≤ t) (early : ∀ s ∈ d.deadlines, t ≤ s)
    (more : Unaided { d with now := t } last ended) : Unaided d last ended := by
  refine .elapse (t - d.now) (rests.lets ?_) ?_
  · rwa [Nat.add_sub_cancel' le]
  · rwa [Nat.add_sub_cancel' le]

/-- A desk at rest stays at rest as long as no deadline has come. -/
theorem Rests.later (rests : d.Rests) {t : Nat} (early : ∀ s ∈ d.deadlines, t < s) :
    Rests { d with now := t } := by
  intro h
  cases hr : d.requests[h]? with
  | none => simp [ending, hr]
  | some r =>
    obtain ⟨ticket, s⟩ := r
    cases s with
    | held | gone => simp [ending, hr]
    | waiting timeout =>
      have unending := rests h
      have due := early _ (mem_deadlines.mpr ⟨h, ticket, timeout, hr, rfl⟩)
      simp only [ending, hr, Registry.wait] at unending ⊢
      cases poll : d.registry.poll ticket.cid with
      | some outcome => simp [poll] at unending
      | none => exact if_neg (Nat.not_le_of_lt due)

/-- Time has passed up to `target`, and no wait is left that can end. -/
structure Passes (d : Desk) (target : Nat) (next : Desk × List Finished) : Prop where
  unaided : Unaided d next.1 next.2
  rests : next.1.Rests
  now : next.1.now = target

theorem Rests.passes (rests : d.Rests) {target : Nat} (le : d.now ≤ target)
    (early : ∀ s ∈ d.deadlines, target < s) : Passes d target ({ d with now := target }, []) where
  unaided := rests.until le (fun s hs => (early s hs).le) (.nothing _)
  rests := rests.later early
  now := rfl

theorem runUntil_passes (target fuel : Nat) (hb : Books d es) (rests : d.Rests)
    (enough : d.deadlines.length ≤ fuel) (le : d.now ≤ target) :
    Passes d target (runUntil target fuel d) := by
  induction fuel generalizing d es with
  | zero =>
    rw [Nat.le_zero, List.length_eq_zero_iff] at enough
    exact rests.passes le (by simp [enough])
  | succ fuel ih =>
    rw [runUntil]
    cases next : d.nextDeadline target with
    | none => exact rests.passes le (nextDeadline_none hb rests next)
    | some t =>
      obtain ⟨lt, le'⟩ := nextDeadline_bounds next
      have due : t ∈ d.deadlines := (List.mem_filter.mp (List.min?_mem next)).1
      have u := settle_unaided { d with now := t }
      obtain ⟨es', hb'⟩ : ∃ es, Books { d with now := t } es :=
        (rests.until lt.le (nextDeadline_min hb rests next) (.nothing _)).books hb
      obtain ⟨es'', hb''⟩ := u.books hb'
      have fewer := settle_deadlines hb' due
      have further := ih hb'' (settle_rests hb') (by simp only [Desk.deadlines] at *; omega)
        (by rw [now_settle]; exact le')
      exact ⟨rests.until lt.le (nextDeadline_min hb rests next) (u.trans further.unaided),
        further.rests, further.now⟩

/-- Time that passes at a desk passes over no wait. -/
theorem advance_passes (hb : Books d es) (ms : Nat) :
    Passes d (d.now + ms) (d.advance ms) := by
  have u := settle_unaided d
  obtain ⟨es', hb'⟩ := u.books hb
  have further : Passes d.settle.1 (d.now + ms)
      (runUntil (d.now + ms) d.requests.length d.settle.1) := by
    refine runUntil_passes _ _ hb' (settle_rests hb) ?_ ?_
    · exact u.deadlines.length_le.trans (List.length_filterMap_le ..)
    · rw [now_settle]
      exact Nat.le_add_right ..
  exact ⟨u.trans further.unaided, further.rests, further.now⟩

end

def Entry.finished? : Entry → Option Finished
  | .ended h moment outcome => some ⟨h, moment, outcome⟩
  | _ => none

/-- The waits that ended. -/
def endings (es : List Entry) : List Finished := es.filterMap Entry.finished?

/-- The end of a wait and the passing of time need no caller. -/
def Act.uncalled : Act → Bool
  | .finish _ | .elapse _ => true
  | _ => false

/-- What a desk does by itself is made of acts without a caller that pass over no wait. -/
theorem Unaided.acts {d last : Desk} {ended : List Finished} (u : Unaided d last ended)
    {before : List Act} (start : (journal before).desk = d) :
    ∃ more, (journal (before ++ more)).desk = last ∧
      endings (journal (before ++ more)).entries = endings (journal before).entries ++ ended ∧
      (∀ a ∈ more, a.uncalled = true) ∧ ∀ h, Prompt h before more := by
  induction u generalizing before with
  | nothing d => exact ⟨[], by simpa using start, by simp, by simp, fun h => .none⟩
  | @finish d last ended h outcome ends more ih =>
    subst start
    obtain ⟨more, desk, entries, uncalled, prompt⟩ := ih
      (show (journal (before ++ [.finish h])).desk = _ by simp [Journal.step, play, ends])
    refine ⟨.finish h :: more, by simpa using desk, ?_, ?_, fun k => ?_⟩
    · rw [List.append_cons, entries]
      simp [Journal.step, play, ends, endings, Entry.finished?]
    · exact List.forall_mem_cons.mpr ⟨rfl, uncalled⟩
    · exact (Prompt.single fun ms eq => by cases eq).append (prompt k)
  | @elapse d last ended ms lets more ih =>
    subst start
    obtain ⟨more, desk, entries, uncalled, prompt⟩ := ih
      (show (journal (before ++ [.elapse ms])).desk = _ by simp [Journal.step, play])
    refine ⟨.elapse ms :: more, by simpa using desk, ?_, ?_, fun k => ?_⟩
    · rw [List.append_cons, entries]
      simp [Journal.step, play, endings, Entry.finished?]
    · exact List.forall_mem_cons.mpr ⟨rfl, uncalled⟩
    · exact (Prompt.single fun ms' eq => by cases eq; exact lets k).append (prompt k)

end GameLink.Registry.Desk

import GameLink.Proofs.Client.Answers

/-! # Every answer has its reason

A probe whose request a teardown has settled is cancelled (`Shielded`), and so
whoever is answered after a teardown has drained the table is an operation. With
that, the accounts of a client are complete (`Accounts`): each answer in its
history has its reason in what was observed before it.
-/
namespace GameLink.Client

open Function (update)

/-- What follows a split of a list that has grown. -/
theorem split_append {α : Type} {as os a b : List α} {x : α} (h : as ++ os = a ++ x :: b) :
    (∃ b', as = a ++ x :: b') ∨ ∃ a', a = as ++ a' ∧ os = a' ++ x :: b := by
  rcases List.append_eq_append_iff.mp h with ⟨a', ha, ho⟩ | ⟨b', ha, hb⟩
  · exact .inr ⟨a', ha, ho⟩
  · cases b' with
    | nil => exact .inr ⟨[], by simpa using ha.symm, hb.symm⟩
    | cons y b' =>
      obtain ⟨rfl, _⟩ := List.cons.inj hb
      exact .inl ⟨b', ha⟩

namespace Ledger

section
variable {c d : Ledger}

/-! ## Probes of links that are torn down -/

def Shielded (c : Ledger) : Prop :=
  ∀ i cid sent g g' cause, c.calls i = some (.waiting cid sent (some g)) →
    settlement cid c.deals = some (.drain g' cause) → g ∈ c.cancelled

/-- A step that drains nothing, after which whoever waits and has been drained waited before. -/
theorem Shielded.quiet (hc : c.Shielded) (hh : c.Held) {os : List Observation}
    (hg : c.cancelled ⊆ d.cancelled) (hd : d.deals = c.deals ++ os)
    (hs : ∀ cid g cause, os.findSome? (Observation.settles cid) ≠ some (.drain g cause))
    (hw : ∀ i cid sent probe, d.calls i = some (.waiting cid sent probe) →
      (∃ sent', c.calls i = some (.waiting cid sent' probe)) ∨ settlement cid d.deals = none) :
    d.Shielded := by
  intro i cid sent g g' cause hi hst
  rcases hw i cid sent _ hi with ⟨sent', hi⟩ | hnone
  · have issuer := hh.issuer i cid ⟨sent', _, hi⟩
    rw [hd, settlement_append (mem_issues.mp issuer), Option.or_eq_some_iff] at hst
    rcases hst with hst | ⟨_, hst⟩
    · exact hg (hc i cid sent' g g' cause hi hst)
    · exact absurd hst (hs cid g' cause)
  · cases hnone.symm.trans hst

theorem Shielded.keep (hc : c.Shielded) (hh : c.Held) (hn : c.Numbered) (h : Step c d) :
    d.Shielded := by
  have all : c.cancelled ⊆ c.cancelled := fun _ h => h
  have left : ∀ {i k : TaskId} {cid : String} {sent : Bool} {probe : Option Generation},
      update c.calls i none k = some (.waiting cid sent probe) →
      ∃ sent', c.calls k = some (.waiting cid sent' probe) :=
    fun h => ⟨_, (of_update_none h).2⟩
  cases h with
  | stay cancelled next hg hnext =>
    exact hc.quiet hh hg (List.append_nil _).symm (fun _ _ _ h => (nomatch h))
      (fun _ _ s _ h => .inl ⟨s, h⟩)
  | asked op hq hi =>
    refine hc.quiet hh all rfl (fun _ _ _ h => (nomatch h)) ?_
    intro k cid sent probe h
    rcases of_update_some h with ⟨_, h⟩ | ⟨_, h⟩
    · cases h
    · exact .inl ⟨sent, h⟩
  | issued i probe now hi =>
    refine hc.quiet hh all rfl (fun _ _ _ h => (nomatch h)) ?_
    intro k cid sent p h
    rcases of_update_some h with ⟨_, he⟩ | ⟨_, h⟩
    · cases he
      exact .inr (hn.unsettled i)
    · exact .inl ⟨sent, h⟩
  | refused i probe now hi =>
    exact hc.quiet hh all rfl (fun _ _ _ h => (nomatch h)) (fun _ _ _ _ h => .inl (left h))
  | wrote i cid probe link frame hi hf =>
    refine hc.quiet hh all rfl (fun _ _ _ h => (nomatch h)) ?_
    intro k c' sent p h
    rcases of_update_some h with ⟨rfl, he⟩ | ⟨_, h⟩
    · cases he
      exact .inl ⟨false, hi⟩
    · exact .inl ⟨sent, h⟩
  | unsent i cid probe f hi hl hf =>
    exact hc.quiet hh all rfl (fun _ _ _ h => (nomatch h)) (fun _ _ _ _ h => .inl (left h))
  | replied i cid probe outcome hi hl ho =>
    exact hc.quiet hh all rfl (fun _ _ _ h => (nomatch h)) (fun _ _ _ _ h => .inl (left h))
  | withdrawn i hi =>
    exact hc.quiet hh all (List.append_nil _).symm (fun _ _ _ h => (nomatch h))
      (fun _ _ _ _ h => .inl (left h))
  | dropped i cid sent probe hi =>
    exact hc.quiet hh all (List.append_nil _).symm (fun _ _ _ h => (nomatch h))
      (fun _ _ _ _ h => .inl (left h))
  | heard link frame =>
    refine hc.quiet hh all rfl ?_ (fun _ _ s _ h => .inl ⟨s, h⟩)
    intro cid g cause hs
    rw [List.findSome?_singleton] at hs
    unfold Observation.settles at hs
    dsimp only at hs
    split at hs
    · split at hs <;> cases hs
    · cases hs
  | drained g cause hcause hp =>
    intro i cid sent g' _ _ hi _
    exact hp i cid sent g' hi

/-! ## The reason of each answer -/

/-- Each answer has its reason before it, and after a drain only operations are answered. -/
def Explained (tr : List Observation) : Prop :=
  ∀ a i cid o b, tr = a ++ .answered i cid o :: b →
    Reason a i cid o ∧
      ∀ g cause, settlement cid a = some (.drain g cause) → ∃ op, .started i op ∈ a

section
variable {ds os : List Observation} {i : TaskId} {cid : String} {o : Except Failure Answer}

theorem Explained.quiet (hc : Explained ds) (ho : replies os = []) : Explained (ds ++ os) := by
  intro a i cid o b h
  rcases split_append h with ⟨b', h⟩ | ⟨a', _, h⟩
  · exact hc a i cid o b' h
  · have answered : (i, cid, o) ∈ replies os := by
      rw [h, mem_replies]
      exact List.mem_append_right _ (.head _)
    rw [ho] at answered
    cases answered

theorem Explained.answer (hc : Explained ds) (hr : Reason ds i cid o)
    (hop : ∀ g cause, settlement cid ds = some (.drain g cause) → ∃ op, .started i op ∈ ds) :
    Explained (ds ++ [.answered i cid o]) := by
  intro a j c' o' b h
  rcases split_append h with ⟨b', h⟩ | ⟨a', ha, h⟩
  · exact hc a j c' o' b' h
  · cases a' with
    | nil =>
      cases h
      rw [List.append_nil] at ha
      exact ha ▸ ⟨hr, hop⟩
    | cons x a' =>
      have short := (List.cons.inj h).2
      simp at short

end

theorem explained_keep (hc : Explained c.deals) (hn : c.Numbered) (hh : c.Held)
    (hm : c.Marked) (ha : c.Asked) (hs : c.Shielded) (h : Step c d) : Explained d.deals := by
  -- a probe that goes on has not been drained
  have operation : ∀ {i cid sent probe}, c.calls i = some (.waiting cid sent probe) →
      c.Live probe → ∀ g cause, settlement cid c.deals = some (.drain g cause) →
      ∃ op, .started i op ∈ c.deals := by
    intro i cid sent probe hi hl g cause hst
    cases probe with
    | none => exact (ha.asked i cid sent none hi).mp rfl
    | some g' => exact absurd (hs i cid sent g' g cause hi hst) hl
  cases h with
  | stay cancelled next hg hnext => exact hc
  | asked op hq hi => exact hc.quiet rfl
  | issued i probe now hi => exact hc.quiet rfl
  | refused i probe now hi =>
    have issued : Explained (c.deals ++ [.issued i c.registry.nextCid]) := hc.quiet rfl
    have unsettled := hn.unsettled i
    have unwritten : ¬ Written (c.deals ++ [.issued i c.registry.nextCid]) i
        c.registry.nextCid := by
      rw [written_append_quiet rfl]
      exact fun hw => hn.fresh (hm.issued i _ hw)
    have answered := issued.answer (.unsent .notConnected unwritten (.inl rfl)) fun g cause hst =>
      (nomatch unsettled.symm.trans hst)
    rwa [List.append_assoc] at answered
  | wrote i cid probe link frame hi hf => exact hc.quiet rfl
  | unsent i cid probe f hi hl hf =>
    have unwritten : ¬ Written c.deals i cid := by
      rw [← hm.sent i cid false probe hi]
      exact Bool.false_ne_true
    exact hc.answer (.unsent f unwritten hf) (operation hi hl)
  | replied i cid probe outcome hi hl ho =>
    have written : Written c.deals i cid := (hm.sent i cid true probe hi).mp rfl
    refine hc.answer ?_ (operation hi hl)
    cases hh.settled i cid ⟨true, probe, hi⟩ with
    | pending hslot hdeliv hst =>
      rcases ho with ho | ⟨_, ms, rfl⟩
      · cases (Registry.poll_of_slot hslot hdeliv).symm.trans ho
      · exact .overdue ms hst written
    | settled s hslot hdeliv hst =>
      have polled := Registry.poll_of_delivered hdeliv
      rcases ho with ho | ⟨ho, _⟩
      · cases polled.symm.trans ho
        exact .settled s hst written
      · cases polled.symm.trans ho
  | withdrawn i hi => exact hc
  | dropped i cid sent probe hi => exact hc
  | heard link frame => exact hc.quiet rfl
  | drained g cause hcause hp => exact hc.quiet rfl

/-! ## The causes of drains -/

/-- A link that failed did so in its transport. -/
def Plain (c : Ledger) : Prop :=
  ∀ g f, .closed g (.error f) ∈ c.deals → ∃ reason, f = .transport reason

theorem Plain.keep (hc : c.Plain) (h : Step c d) : d.Plain := by
  have quiet : ∀ {o : Observation}, (∀ g f, o ≠ .closed g (.error f)) →
      ∀ g f, .closed g (.error f) ∈ c.deals ++ [o] → ∃ reason, f = .transport reason := by
    intro o ho g f hm
    rcases List.mem_append.mp hm with hm | hm
    · exact hc g f hm
    · exact absurd (List.mem_singleton.mp hm).symm (ho g f)
  cases h with
  | drained g cause hcause hp =>
    intro g' f hm
    rcases List.mem_append.mp hm with hm | hm
    · exact hc g' f hm
    · cases List.mem_singleton.mp hm
      exact hcause f rfl
  | refused i probe now hi =>
    intro g f hm
    rcases List.mem_append.mp hm with hm | hm
    · exact hc g f hm
    · rcases List.mem_cons.mp hm with hm | hm
      · cases hm
      · cases List.mem_singleton.mp hm
  | asked op hq hi => exact quiet (fun _ _ h => (nomatch h))
  | issued i probe now hi => exact quiet (fun _ _ h => (nomatch h))
  | wrote i cid probe link frame hi hf => exact quiet (fun _ _ h => (nomatch h))
  | unsent i cid probe f hi hl hf => exact quiet (fun _ _ h => (nomatch h))
  | replied i cid probe outcome hi hl ho => exact quiet (fun _ _ h => (nomatch h))
  | heard link frame => exact quiet (fun _ _ h => (nomatch h))
  | _ => exact hc

/-! ## All of it -/

structure Accounts (c : Ledger) : Prop where
  numbered : c.Numbered
  held : c.Held
  replied : c.Replied
  marked : c.Marked
  asked : c.Asked
  shielded : c.Shielded
  explained : Explained c.deals
  plain : c.Plain

theorem Accounts.keep (hc : c.Accounts) (h : Step c d) : d.Accounts where
  numbered := hc.numbered.keep h
  held := hc.held.keep hc.numbered h
  replied := hc.replied.keep hc.held hc.numbered h
  marked := hc.marked.keep hc.held hc.numbered h
  asked := hc.asked.keep h
  shielded := hc.shielded.keep hc.held hc.numbered h
  explained := explained_keep hc.explained hc.numbered hc.held hc.marked hc.asked hc.shielded h
  plain := hc.plain.keep h

/-! ### Before anything is asked for -/

theorem New.nobody (h : c.New) {i : TaskId} {a : Standing} : c.calls i ≠ some a := by
  rw [h.calls]
  exact fun h => (nomatch h)

theorem New.nothing (h : c.New) {o : Observation} : o ∉ c.deals := by
  rw [h.deals]
  exact List.not_mem_nil

theorem New.numbered (h : c.New) : c.Numbered := by
  show (issues c.deals).map Prod.snd = Registry.cids c.registry.issued
  rw [h.deals, h.registry]
  rfl

theorem New.held (h : c.New) : c.Held where
  issuer _ _ hw := by
    obtain ⟨_, _, hw⟩ := hw
    exact absurd hw h.nobody
  slots := by
    rw [h.registry]
    exact fun _ h => (nomatch h)
  delivered := by
    rw [h.registry]
    exact fun _ h => (nomatch h)
  ordered := by
    rw [h.registry]
    exact List.nodup_nil
  settled _ _ hw := by
    obtain ⟨_, _, hw⟩ := hw
    exact absurd hw h.nobody

theorem New.replied (h : c.New) : c.Replied where
  waiting _ _ hw := by
    obtain ⟨_, _, hw⟩ := hw
    exact absurd hw h.nobody
  issued _ _ _ hm := absurd (mem_replies.mp hm) h.nothing
  once := by
    rw [h.deals]
    exact List.nodup_nil

theorem New.marked (h : c.New) : c.Marked where
  issued := by
    rintro i cid ⟨link, frame, hm, _⟩
    exact absurd hm h.nothing
  sent _ _ _ _ hi := absurd hi h.nobody

theorem New.asked (h : c.New) : c.Asked where
  known := ⟨fun _ _ hm => absurd hm h.nothing, fun _ _ hm => absurd (mem_issues.mp hm) h.nothing⟩
  ready _ hi := absurd hi h.nobody
  asked _ _ _ _ hi := absurd hi h.nobody
  single _ _ _ _ hm := absurd hm h.nothing

theorem New.accounts (h : c.New) : c.Accounts where
  numbered := h.numbered
  held := h.held
  replied := h.replied
  marked := h.marked
  asked := h.asked
  shielded _ _ _ _ _ _ hi := absurd hi h.nobody
  explained := by
    intro a i cid o b he
    have answered : .answered i cid o ∈ c.deals := he ▸ List.mem_append_right _ (.head _)
    exact absurd answered h.nothing
  plain _ _ hm := absurd hm h.nothing

end

end Ledger

theorem Machine.Reachable.accounts {may : Move → Prop} {m : Machine} (hm : m.Reachable may) :
    (m.ledger m.trace).Accounts :=
  hm.ledger (fun _ h => h.accounts) (fun _ _ h hc => hc.keep h)

end GameLink.Client

import GameLink.Proofs.Client.Change

/-! # What settles a request

The slot of a request is settled by the first frame that answers it or the first
teardown that drains the table after its id was given out. Both are observed, and
so a settlement can be read off what has been observed: it stays once it is there.
-/
namespace GameLink.Client

/-- Ids are given out, messages with an id are written, frames arrive, teardowns drain, and
requests are answered. -/
def Observation.isDeal : Observation → Bool
  | .started _ op => op.requests
  | .issued _ _ | .answered _ _ _ | .dispatched _ _ | .closed _ _ => true
  | .wrote _ _ frame => frame.cid.isSome
  | _ => false

def deals (tr : List Observation) : List Observation := tr.filter Observation.isDeal

@[simp] theorem deals_append (a b : List Observation) : deals (a ++ b) = deals a ++ deals b :=
  List.filter_append ..

theorem mem_deals {tr : List Observation} {o : Observation} (h : o.isDeal = true) :
    o ∈ deals tr ↔ o ∈ tr := by
  rw [deals, List.mem_filter]
  exact and_iff_left h

/-! ## Ids and answers -/

def Observation.issue : Observation → Option (TaskId × String)
  | .issued i cid => some (i, cid)
  | _ => none

/-- The ids that were given out, each with its task. -/
def issues (tr : List Observation) : List (TaskId × String) := tr.filterMap Observation.issue

@[simp] theorem issues_append (a b : List Observation) : issues (a ++ b) = issues a ++ issues b :=
  List.filterMap_append

theorem mem_issues {tr : List Observation} {i : TaskId} {cid : String} :
    (i, cid) ∈ issues tr ↔ .issued i cid ∈ tr :=
  mem_picked fun o => by cases o <;> simp [Observation.issue]

def Observation.reply : Observation → Option (TaskId × String × Except Failure Answer)
  | .answered i cid outcome => some (i, cid, outcome)
  | _ => none

/-- How requests and probes ended. -/
def replies (tr : List Observation) : List (TaskId × String × Except Failure Answer) :=
  tr.filterMap Observation.reply

@[simp] theorem replies_append (a b : List Observation) :
    replies (a ++ b) = replies a ++ replies b := List.filterMap_append

theorem mem_replies {tr : List Observation} {i : TaskId} {cid : String}
    {outcome : Except Failure Answer} :
    (i, cid, outcome) ∈ replies tr ↔ .answered i cid outcome ∈ tr :=
  mem_picked fun o => by cases o <;> simp [Observation.reply]

/-! ## Settlements -/

inductive Settlement
  /-- A frame answers. -/
  | reply (link : LinkId) (frame : Bytes) (outcome : Outcome)
  /-- A teardown drains the table. -/
  | drain (g : Generation) (cause : Cause)

def Settlement.outcome : Settlement → Outcome
  | .reply _ _ outcome => outcome
  | .drain _ cause => .error cause.failure

/-- What an observation means for a request that is in the table. -/
def Observation.settles (cid : String) : Observation → Option Settlement
  | .dispatched link frame =>
    match replyIn frame with
    | some (c, outcome) => if c = cid then some (.reply link frame outcome) else none
    | none => none
  | .closed g cause => some (.drain g cause)
  | _ => none

def Observation.issues (cid : String) : Observation → Bool
  | .issued _ c => c == cid
  | _ => false

/-- The first that settles `cid` after it was given out. -/
def settlement (cid : String) : List Observation → Option Settlement
  | [] => none
  | o :: rest =>
    if o.issues cid then rest.findSome? (Observation.settles cid) else settlement cid rest

section
variable {cid : String} {a b : List Observation} {o : Observation}

theorem Observation.issues_iff : o.issues cid = true ↔ ∃ i, o = .issued i cid := by
  cases o with
  | issued i c =>
    simp only [Observation.issues, beq_iff_eq, Observation.issued.injEq, exists_eq_left']
  | _ => simp [Observation.issues]

theorem settles_deal (h : o.isDeal = false) : o.settles cid = none := by
  cases o with
  | dispatched link frame => cases h
  | closed g cause => cases h
  | _ => rfl

theorem settles_dispatched {link : LinkId} {frame : Bytes} {outcome : Outcome}
    (h : replyIn frame = some (cid, outcome)) :
    (Observation.dispatched link frame).settles cid = some (.reply link frame outcome) := by
  unfold Observation.settles
  dsimp only
  rw [h]
  exact if_pos rfl

theorem settles_dispatched_of_ne {link : LinkId} {frame : Bytes}
    (h : ∀ outcome, replyIn frame ≠ some (cid, outcome)) :
    (Observation.dispatched link frame).settles cid = none := by
  unfold Observation.settles
  dsimp only
  split
  · rename_i c outcome hr
    refine if_neg ?_
    rintro rfl
    exact h outcome hr
  · rfl

theorem findSome?_deals (tr : List Observation) :
    (deals tr).findSome? (Observation.settles cid) = tr.findSome? (Observation.settles cid) := by
  induction tr with
  | nil => rfl
  | cons o tr ih =>
    cases h : o.isDeal with
    | true =>
      rw [deals, List.filter_cons_of_pos h, List.findSome?_cons, List.findSome?_cons]
      rw [show tr.filter Observation.isDeal = deals tr from rfl, ih]
    | false =>
      rw [deals, List.filter_cons_of_neg (by simp [h]), List.findSome?_cons, settles_deal h]
      exact ih

theorem issues_deals (tr : List Observation) : issues (deals tr) = issues tr := by
  rw [issues, issues, deals, List.filterMap_filter]
  congr 1
  funext o
  cases o <;> first | rfl | exact ite_self _

theorem mem_issues_deals {tr : List Observation} {i : TaskId} {cid : String} :
    (i, cid) ∈ issues (deals tr) ↔ .issued i cid ∈ tr := by
  rw [issues_deals, mem_issues]

theorem replies_deals (tr : List Observation) : replies (deals tr) = replies tr := by
  rw [replies, replies, deals, List.filterMap_filter]
  congr 1
  funext o
  cases o <;> first | rfl | exact ite_self _

theorem settlement_deals (tr : List Observation) :
    settlement cid (deals tr) = settlement cid tr := by
  induction tr with
  | nil => rfl
  | cons o tr ih =>
    cases h : o.isDeal with
    | true =>
      rw [deals, List.filter_cons_of_pos h, settlement, settlement]
      rw [show tr.filter Observation.isDeal = deals tr from rfl, ih, findSome?_deals]
    | false =>
      have hi : o.issues cid = false := by
        cases o with
        | issued i c => cases h
        | _ => rfl
      rw [deals, List.filter_cons_of_neg (by simp [h]), settlement, hi]
      exact ih

/-- Before its id is given out nothing settles a request. -/
theorem settlement_append_of_not_mem (h : ∀ i, .issued i cid ∉ a) :
    settlement cid (a ++ b) = settlement cid b := by
  induction a with
  | nil => rfl
  | cons o a ih =>
    have hi : o.issues cid = false := by
      rw [Bool.eq_false_iff, ne_eq, Observation.issues_iff]
      rintro ⟨i, rfl⟩
      exact h i (.head _)
    rw [List.cons_append, settlement, hi]
    exact ih fun i hm => h i (.tail _ hm)

/-- A settlement stays, and until there is one anything new may settle. -/
theorem settlement_append {i : TaskId} (h : .issued i cid ∈ a) :
    settlement cid (a ++ b) = (settlement cid a).or (b.findSome? (Observation.settles cid)) := by
  induction a with
  | nil => cases h
  | cons o a ih =>
    rw [List.cons_append, settlement, settlement]
    by_cases hi : o.issues cid = true
    · rw [if_pos hi, if_pos hi, List.findSome?_append]
    · rw [if_neg hi, if_neg hi]
      refine ih ?_
      rcases List.mem_cons.mp h with rfl | h
      · exact absurd (Observation.issues_iff.mpr ⟨i, rfl⟩) hi
      · exact h

theorem settles_eq_reply {link : LinkId} {frame : Bytes} {outcome : Outcome}
    (h : o.settles cid = some (.reply link frame outcome)) :
    o = .dispatched link frame ∧ replyIn frame = some (cid, outcome) := by
  cases o with
  | dispatched l f =>
    unfold Observation.settles at h
    dsimp only at h
    split at h
    · rename_i c out hr
      split at h
      · rename_i hc
        cases h
        exact ⟨rfl, hc ▸ hr⟩
      · cases h
    · cases h
  | _ => cases h

theorem settles_eq_drain {g : Generation} {cause : Cause}
    (h : o.settles cid = some (.drain g cause)) : o = .closed g cause := by
  cases o with
  | dispatched link frame =>
    unfold Observation.settles at h
    dsimp only at h
    split at h
    · split at h <;> cases h
    · cases h
  | closed g' cause' =>
    cases h
    rfl
  | _ => cases h

/-- What settles a request was observed, after its id was given out and before anything else that
settles it. -/
theorem exists_of_settlement {tr : List Observation} {s : Settlement}
    (h : settlement cid tr = some s) :
    ∃ a o b i, tr = a ++ o :: b ∧ .issued i cid ∈ a ∧ settlement cid a = none ∧
      o.settles cid = some s := by
  induction tr with
  | nil => cases h
  | cons o tr ih =>
    rw [settlement] at h
    split at h
    · rename_i hi
      obtain ⟨a, o', b, rfl, hs, hnone⟩ := List.findSome?_eq_some_iff.mp h
      obtain ⟨i, rfl⟩ := Observation.issues_iff.mp hi
      refine ⟨.issued i cid :: a, o', b, i, rfl, .head _, ?_, hs⟩
      rw [settlement, if_pos hi]
      exact List.findSome?_eq_none_iff.mpr hnone
    · rename_i hi
      obtain ⟨a, o', b, i, rfl, hm, hnone, hs⟩ := ih h
      refine ⟨o :: a, o', b, i, rfl, .tail _ hm, ?_, hs⟩
      rw [settlement, if_neg hi]
      exact hnone

end

end GameLink.Client

import GameLink.Proofs.Client.Invariant

/-! # The streams of a link

What the server sends on a link and the client has not read is the end of what
was sent, and what the client has read is the rest, in order; likewise the other
way for as long as the server end is there. So nothing is lost, repeated or
reordered on a link (`Flow`).
-/
namespace GameLink

def ServerFrame.data? : ServerFrame → Option Bytes
  | .data bytes => some bytes
  | .fail _ => none

namespace Client

/-! ## What went over a link -/

def Observation.push? (link : LinkId) : Observation → Option ServerFrame
  | .pushed l frame => if l = link then some frame else none
  | _ => none

/-- What the server end put on its way. -/
def pushes (link : LinkId) (tr : List Observation) : List ServerFrame :=
  tr.filterMap (Observation.push? link)

/-- The frames that the server end sent. -/
def sends (link : LinkId) (tr : List Observation) : List Bytes :=
  (pushes link tr).filterMap ServerFrame.data?

def Observation.frame? (link : LinkId) : Observation → Option Bytes
  | .dispatched l frame => if l = link then some frame else none
  | _ => none

/-- The frames that the client dispatched. -/
def dispatches (link : LinkId) (tr : List Observation) : List Bytes :=
  tr.filterMap (Observation.frame? link)

def Observation.written? (link : LinkId) : Observation → Option Envelope.Outgoing
  | .wrote _ l frame => if l = link then some frame else none
  | _ => none

/-- What the client wrote. -/
def writes (link : LinkId) (tr : List Observation) : List Envelope.Outgoing :=
  tr.filterMap (Observation.written? link)

def Observation.receipt? (link : LinkId) : Observation → Option String
  | .taken l text => if l = link then some text else none
  | _ => none

/-- The texts that the server end read. -/
def receipts (link : LinkId) (tr : List Observation) : List String :=
  tr.filterMap (Observation.receipt? link)

section
variable (link : LinkId) (a b : List Observation)

@[simp] theorem pushes_append : pushes link (a ++ b) = pushes link a ++ pushes link b :=
  List.filterMap_append

@[simp] theorem sends_append : sends link (a ++ b) = sends link a ++ sends link b := by
  rw [sends, pushes_append, List.filterMap_append]
  rfl

@[simp] theorem dispatches_append :
    dispatches link (a ++ b) = dispatches link a ++ dispatches link b := List.filterMap_append

@[simp] theorem writes_append : writes link (a ++ b) = writes link a ++ writes link b :=
  List.filterMap_append

@[simp] theorem receipts_append : receipts link (a ++ b) = receipts link a ++ receipts link b :=
  List.filterMap_append

@[simp] theorem pushes_pushed (frame : ServerFrame) :
    pushes link [.pushed link frame] = [frame] := by
  simp [pushes, Observation.push?]

@[simp] theorem dispatches_dispatched (frame : Bytes) :
    dispatches link [.dispatched link frame] = [frame] := by
  simp [dispatches, Observation.frame?]

@[simp] theorem writes_wrote (i : TaskId) (frame : Envelope.Outgoing) :
    writes link [.wrote i link frame] = [frame] := by
  simp [writes, Observation.written?]

@[simp] theorem receipts_taken (text : String) : receipts link [.taken link text] = [text] := by
  simp [receipts, Observation.receipt?]

/-- What is read off the mail of a link may as well be read off everything. -/
theorem filterMap_mail {α : Type} {f : Observation → Option α}
    (hf : ∀ o, o.isMail link = false → f o = none) : (mail link a).filterMap f = a.filterMap f := by
  induction a with
  | nil => rfl
  | cons o a ih =>
    rw [mail] at ih ⊢
    cases ho : o.isMail link with
    | true => rw [List.filter_cons_of_pos ho, List.filterMap_cons, List.filterMap_cons, ih]
    | false =>
      rw [List.filter_cons_of_neg (by simp [ho]), List.filterMap_cons, hf o ho]
      exact ih

theorem pushes_mail : pushes link (mail link a) = pushes link a :=
  filterMap_mail link a fun o ho => by
    cases o <;> simp_all [Observation.push?, Observation.isMail]

theorem dispatches_mail : dispatches link (mail link a) = dispatches link a :=
  filterMap_mail link a fun o ho => by
    cases o <;> simp_all [Observation.frame?, Observation.isMail]

theorem writes_mail : writes link (mail link a) = writes link a :=
  filterMap_mail link a fun o ho => by
    cases o <;> simp_all [Observation.written?, Observation.isMail]

theorem receipts_mail : receipts link (mail link a) = receipts link a :=
  filterMap_mail link a fun o ho => by
    cases o <;> simp_all [Observation.receipt?, Observation.isMail]

end

/-! ## Both ways -/

/-- What the client end has not read is queued, if it can still be read. -/
def Inward (link : LinkId) (tr : List Observation) (k : Link) : Prop :=
  ∃ past rest, pushes link tr = past ++ rest ∧
    dispatches link tr = past.filterMap ServerFrame.data? ∧
    k.toClient = if k.readerOpen then rest else []

/-- What the server end has not read is queued, if it is still there. -/
def Outward (link : LinkId) (tr : List Observation) (k : Link) : Prop :=
  ∃ rest, (writes link tr).map Envelope.Outgoing.toText = receipts link tr ++ rest ∧
    k.toServer = if k.serverOpen then rest else []

section
variable {gone : LinkId → Prop} {link : LinkId} {tr os : List Observation} {k l : Link}

theorem Inward.same (hk : Inward link tr k) (hp : pushes link os = [])
    (hd : dispatches link os = []) (hq : l.toClient = k.toClient)
    (hr : l.readerOpen = k.readerOpen) : Inward link (tr ++ os) l := by
  obtain ⟨past, rest, hpush, hread, hin⟩ := hk
  refine ⟨past, rest, ?_, ?_, ?_⟩
  · rw [pushes_append, hp, List.append_nil, hpush]
  · rw [dispatches_append, hd, List.append_nil, hread]
  · rw [hq, hr, hin]

/-- What is queued can be read. -/
theorem Inward.queued {f : ServerFrame} {fs : List ServerFrame} (hk : Inward link tr k)
    (hq : k.toClient = f :: fs) : k.readerOpen = true ∧ ∃ past, pushes link tr = past ++ f :: fs ∧
      dispatches link tr = past.filterMap ServerFrame.data? := by
  obtain ⟨past, rest, hpush, hread, hin⟩ := hk
  cases hr : k.readerOpen with
  | true =>
    rw [hr, if_pos rfl, hq] at hin
    exact ⟨rfl, past, hin ▸ hpush, hread⟩
  | false =>
    rw [hr, hq] at hin
    cases hin

/-- The head of the queue leaves it. -/
theorem Inward.left {f : ServerFrame} (hk : Inward link tr k) (hq : k.toClient = f :: l.toClient)
    (hr : l.readerOpen = k.readerOpen) (hp : pushes link os = [])
    (hd : dispatches link os = f.data?.toList) : Inward link (tr ++ os) l := by
  obtain ⟨hopen, past, hpush, hread⟩ := hk.queued hq
  refine ⟨past ++ [f], l.toClient, ?_, ?_, ?_⟩
  · rw [pushes_append, hp, List.append_nil, hpush, List.append_assoc]
    rfl
  · rw [dispatches_append, hd, hread, List.filterMap_append]
    cases f <;> rfl
  · rw [hr, hopen, if_pos rfl]

theorem Inward.step (hk : Inward link tr k) (h : LinkStep gone link k os l) :
    Inward link (tr ++ os) l := by
  cases h with
  | setMode mode => exact hk.same rfl rfl rfl rfl
  | closeServer => exact hk.same rfl rfl rfl rfl
  | closeWriter => exact hk.same rfl rfl rfl rfl
  | closeReader =>
    obtain ⟨past, rest, hpush, hread, _⟩ := hk
    exact ⟨past, rest, by rw [List.append_nil, hpush], by rw [List.append_nil, hread], rfl⟩
  | push frame hs hr =>
    obtain ⟨past, rest, hpush, hread, hin⟩ := hk
    rw [hr, if_pos rfl] at hin
    rw [Link.push_eq frame hr]
    refine ⟨past, rest ++ [frame], ?_, ?_, ?_⟩
    · rw [pushes_append, pushes_pushed, hpush, List.append_assoc]
    · rw [dispatches_append, hread]
      exact List.append_nil _
    · simp [hr, hin]
  | take h =>
    obtain ⟨rest, _, he⟩ := Link.take_eq_frame h
    rw [he]
    exact hk.same rfl rfl rfl rfl
  | write i frame h =>
    obtain ⟨_, _, rfl⟩ := Link.write_eq_sent h
    exact hk.same rfl rfl rfl rfl
  | read h =>
    obtain ⟨hq, he⟩ := Link.receive_eq_frame h
    exact hk.left hq (by rw [he]) rfl (dispatches_dispatched link _)
  | fault h =>
    obtain ⟨_, _, hq, he⟩ := Link.receive_eq_failed h
    exact hk.left hq (by rw [he]) rfl rfl

theorem Outward.same (hk : Outward link tr k) (hw : writes link os = [])
    (hr : receipts link os = []) (hq : l.toServer = k.toServer)
    (hs : l.serverOpen = k.serverOpen) : Outward link (tr ++ os) l := by
  obtain ⟨rest, hwrites, hout⟩ := hk
  refine ⟨rest, ?_, ?_⟩
  · rw [writes_append, receipts_append, hw, hr, List.append_nil, List.append_nil, hwrites]
  · rw [hq, hs, hout]

theorem Outward.step (hk : Outward link tr k) (h : LinkStep gone link k os l) :
    Outward link (tr ++ os) l := by
  cases h with
  | setMode mode => exact hk.same rfl rfl rfl rfl
  | closeServer =>
    obtain ⟨rest, hwrites, _⟩ := hk
    exact ⟨rest, by rw [List.append_nil, hwrites], rfl⟩
  | closeWriter => exact hk.same rfl rfl rfl rfl
  | closeReader => exact hk.same rfl rfl rfl rfl
  | push frame hs hr =>
    rw [Link.push_eq frame hr]
    exact hk.same rfl rfl rfl rfl
  | take h =>
    obtain ⟨left, hq, he⟩ := Link.take_eq_frame h
    obtain ⟨rest, hwrites, hout⟩ := hk
    have hopen : k.serverOpen = true := by
      by_contra hs
      rw [if_neg hs, hq] at hout
      cases hout
    rw [if_pos hopen, hq] at hout
    rw [he]
    refine ⟨left, ?_, (if_pos hopen).symm⟩
    rw [receipts_append, receipts_taken, writes_append,
      show writes link [.taken link _] = [] from rfl, List.append_nil, hwrites, ← hout,
      List.append_assoc]
    rfl
  | write i frame h =>
    obtain ⟨hopen, _, rfl⟩ := Link.write_eq_sent h
    obtain ⟨rest, hwrites, hout⟩ := hk
    rw [if_pos hopen] at hout
    refine ⟨rest ++ [frame.toText], ?_, ?_⟩
    · rw [writes_append, writes_wrote, List.map_append, hwrites, receipts_append, List.append_assoc,
        show receipts link [.wrote i link frame] = [] from rfl, List.append_nil]
      rfl
    · simp [hopen, hout]
  | read h =>
    obtain ⟨_, he⟩ := Link.receive_eq_frame h
    exact hk.same rfl rfl (by rw [he]) (by rw [he])
  | fault h =>
    obtain ⟨_, _, _, he⟩ := Link.receive_eq_failed h
    exact hk.same rfl rfl (by rw [he]) (by rw [he])

/-- A server end that is gone stays gone, sends nothing and gets nothing. -/
theorem LinkStep.serverless (h : LinkStep gone link k os l) (hs : k.serverOpen = false) :
    l.serverOpen = false ∧ pushes link os = [] ∧ writes link os = [] := by
  cases h with
  | setMode mode => exact ⟨hs, rfl, rfl⟩
  | closeServer => exact ⟨rfl, rfl, rfl⟩
  | closeWriter => exact ⟨hs, rfl, rfl⟩
  | closeReader => exact ⟨hs, rfl, rfl⟩
  | push frame ho hr => cases hs.symm.trans ho
  | take h =>
    obtain ⟨_, _, he⟩ := Link.take_eq_frame h
    exact ⟨by rw [he]; exact hs, rfl, rfl⟩
  | write i frame h => cases hs.symm.trans (Link.write_eq_sent h).1
  | read h => exact ⟨by rw [(Link.receive_eq_frame h).2]; exact hs, rfl, rfl⟩
  | fault h =>
    obtain ⟨_, _, _, he⟩ := Link.receive_eq_failed h
    exact ⟨by rw [he]; exact hs, rfl, rfl⟩

theorem LinkSteps.serverless (h : LinkSteps gone link k os l) (hs : k.serverOpen = false) :
    l.serverOpen = false ∧ pushes link os = [] ∧ writes link os = [] := by
  induction h with
  | refl => exact ⟨hs, rfl, rfl⟩
  | tail _ s ih =>
    obtain ⟨hs', hp, hw⟩ := ih
    obtain ⟨hs'', hp', hw'⟩ := s.serverless hs'
    exact ⟨hs'', by rw [pushes_append, hp, hp']; rfl, by rw [writes_append, hw, hw']; rfl⟩

end

/-- What is known of the streams of a link that may not be there. -/
inductive Streamed (link : LinkId) (tr : List Observation) : Option Link → Prop
  | absent (h : mail link tr = []) : Streamed link tr none
  | flows {k : Link} (inward : Inward link (mail link tr) k)
      (outward : Outward link (mail link tr) k) : Streamed link tr (some k)

theorem Streamed.inward {link : LinkId} {tr : List Observation} {k : Link}
    (h : Streamed link tr (some k)) : Inward link tr k := by
  cases h with
  | flows hin _ => simpa only [Inward, pushes_mail, dispatches_mail] using hin

theorem Streamed.outward {link : LinkId} {tr : List Observation} {k : Link}
    (h : Streamed link tr (some k)) : Outward link tr k := by
  cases h with
  | flows _ hout => simpa only [Outward, writes_mail, receipts_mail] using hout

theorem streamed_invariant : Invariant (fun tr m => ∀ link, Streamed link tr m.links[link]?) where
  initial m h := by
    obtain ⟨_, _, _, _, rfl⟩ := h.fields
    exact fun link => .absent rfl
  keep m os n tr h hm := by
    intro link
    have along := h.wired link
    have streamed := hm link
    generalize m.links[link]? = x at along streamed
    generalize n.links[link]? = y at along
    generalize hos : mail link os = ms at along
    have grown : mail link (tr ++ os) = mail link tr ++ ms := by rw [mail_append, hos]
    cases along with
    | absent =>
      cases streamed with
      | absent h => exact .absent (by rw [grown, h]; rfl)
    | went s =>
      cases streamed with
      | flows hin hout =>
        refine .flows ?_ ?_
        · rw [grown]
          exact s.keeps (fun _ _ _ _ s h => h.step s) hin
        · rw [grown]
          exact s.keeps (fun _ _ _ _ s h => h.step s) hout
    | @came url _ _ s =>
      cases streamed with
      | absent h =>
        refine .flows ?_ ?_
        · rw [grown, h]
          exact s.keeps (fun _ _ _ _ s h => h.step s) ⟨[], [], rfl, rfl, rfl⟩
        · rw [grown, h]
          exact s.keeps (fun _ _ _ _ s h => h.step s) ⟨[], rfl, rfl⟩
  quiet _ _ _ _ h := h

/-- Nothing more comes over a link whose server end is gone. -/
theorem Change.serverless {m n : Machine} {os : List Observation} {link : LinkId} {k : Link}
    (h : Change m os n) (hk : m.links[link]? = some k) (hs : k.serverOpen = false) :
    pushes link os = [] ∧ writes link os = [] ∧
      ∃ l, n.links[link]? = some l ∧ l.serverOpen = false := by
  have along := h.wired link
  rw [hk] at along
  generalize hy : n.links[link]? = y at along
  generalize ho : mail link os = ms at along
  cases along with
  | went s =>
    obtain ⟨hs', hp, hw⟩ := s.serverless hs
    rw [← ho, pushes_mail] at hp
    rw [← ho, writes_mail] at hw
    exact ⟨hp, hw, _, rfl, hs'⟩

namespace Machine

variable {may : Move → Prop} {m : Machine} {link : LinkId}

theorem Reachable.inward (hm : m.Reachable may) {k : Link} (hk : m.links[link]? = some k) :
    Inward link m.trace k := (hk ▸ streamed_invariant.reached hm link).inward

theorem Reachable.outward (hm : m.Reachable may) {k : Link} (hk : m.links[link]? = some k) :
    Outward link m.trace k := (hk ▸ streamed_invariant.reached hm link).outward

/-- Nothing goes over a link that is not there. -/
theorem Reachable.mail_absent (hm : m.Reachable may) (hk : m.links[link]? = none) :
    mail link m.trace = [] := by
  have streamed := streamed_invariant.reached hm link
  rw [hk] at streamed
  cases streamed with
  | absent h => exact h

end Machine

end Client

end GameLink

import GameLink.Proofs.Client.Change
import GameLink.Proofs.Link.Queues

/-! # What a change does to a link

Every change takes each link along a few steps: the server end pushes, takes,
sets its mode or goes, the client end writes, reads or closes a half. What is
observed of the link is what these steps show (`Change.wired`), so whatever they
keep is kept by every change. The read half is closed only when the task that
holds the link or reads it is gone (`Deserted`).
-/
namespace GameLink.Client

/-! ## Steps of a link -/

/-- A frame goes into or out of a queue of the link. -/
def Observation.isMail (link : LinkId) : Observation → Bool
  | .pushed l _ | .dispatched l _ | .taken l _ | .wrote _ l _ => l == link
  | _ => false

def mail (link : LinkId) (tr : List Observation) : List Observation :=
  tr.filter (Observation.isMail link)

@[simp] theorem mail_append (link : LinkId) (a b : List Observation) :
    mail link (a ++ b) = mail link a ++ mail link b := List.filter_append ..

section
variable (gone : LinkId → Prop) (link : LinkId)

inductive LinkStep : Link → List Observation → Link → Prop
  | setMode (k : Link) (mode : WriteMode) : LinkStep k [] (k.setMode mode)
  | closeServer (k : Link) : LinkStep k [] k.closeServer
  | closeWriter (k : Link) : LinkStep k [] k.closeWriter
  | closeReader (k : Link) (h : gone link) : LinkStep k [] k.closeReader
  | push {k : Link} (frame : ServerFrame) (hs : k.serverOpen = true) (hr : k.readerOpen = true) :
      LinkStep k [.pushed link frame] (k.push frame).1
  | take {k : Link} {text : String} (h : k.take.2 = .frame text) :
      LinkStep k [.taken link text] k.take.1
  | write {k k' : Link} (i : TaskId) (frame : Envelope.Outgoing)
      (h : k.write frame.toText = (k', .sent)) : LinkStep k [.wrote i link frame] k'
  | read {k k' : Link} {bytes : Bytes} (h : k.receive = (k', .frame bytes)) :
      LinkStep k [.dispatched link bytes] k'
  | fault {k k' : Link} {f : Failure} (h : k.receive = (k', .failed f)) : LinkStep k [] k'

inductive LinkSteps : Link → List Observation → Link → Prop
  | refl (k : Link) : LinkSteps k [] k
  | tail {j k l : Link} {os os' : List Observation} (run : LinkSteps j os k)
      (h : LinkStep gone link k os' l) : LinkSteps j (os ++ os') l

/-- What becomes of a link that may not be there yet. -/
inductive Along : Option Link → List Observation → Option Link → Prop
  | absent : Along none [] none
  | went {k k' : Link} {os : List Observation} (h : LinkSteps gone link k os k') :
      Along (some k) os (some k')
  | came {url : String} {k : Link} {os : List Observation}
      (h : LinkSteps gone link { url := url } os k) : Along none os (some k)

end

def Wired (gone : LinkId → Prop) (os : List Observation) (a b : List Link) : Prop :=
  ∀ link, Along gone link a[link]? (mail link os) b[link]?

section
variable {gone : LinkId → Prop} {link : LinkId} {j k l : Link} {os os' : List Observation}
  {a b c : List Link}

theorem LinkStep.steps (h : LinkStep gone link k os l) : LinkSteps gone link k os l :=
  .tail (.refl k) h

theorem LinkSteps.trans (h : LinkSteps gone link j os k) (h' : LinkSteps gone link k os' l) :
    LinkSteps gone link j (os ++ os') l := by
  induction h' with
  | refl => rwa [List.append_nil]
  | tail _ s ih => rw [← List.append_assoc]; exact .tail ih s

/-- What every step keeps, with what is observed of it, a few steps keep. -/
theorem LinkSteps.keeps {I : List Observation → Link → Prop} (h : LinkSteps gone link j os k)
    (keep : ∀ tr os' (k l : Link), LinkStep gone link k os' l → I tr k → I (tr ++ os') l)
    {tr : List Observation} (base : I tr j) : I (tr ++ os) k := by
  induction h with
  | refl => rwa [List.append_nil]
  | tail _ s ih => rw [← List.append_assoc]; exact keep _ _ _ _ s ih

theorem Along.refl (k : Option Link) : Along gone link k [] k := by
  cases k with
  | none => exact .absent
  | some k => exact .went (.refl k)

theorem Along.trans {x y z : Option Link} (h : Along gone link x os y)
    (h' : Along gone link y os' z) : Along gone link x (os ++ os') z := by
  cases h with
  | absent => exact h'
  | went h =>
    cases h' with
    | went h' => exact .went (h.trans h')
  | came h =>
    cases h' with
    | went h' => exact .came (h.trans h')

theorem LinkStep.mail (h : LinkStep gone link k os l) :
    mail link os = os ∧ ∀ i, i ≠ link → mail i os = [] := by
  have other : ∀ {i}, i ≠ link → (link == i) = false := fun h => beq_eq_false_iff_ne.mpr h.symm
  cases h <;> exact ⟨by simp [Client.mail, Observation.isMail], fun i hi => by
    simp [Client.mail, Observation.isMail, other hi]⟩

/-! ## Lists of links -/

theorem Wired.refl (a : List Link) : Wired gone [] a a := fun _ => .refl _

theorem Wired.trans (h : Wired gone os a b) (h' : Wired gone os' b c) :
    Wired gone (os ++ os') a c := by
  intro link
  rw [mail_append]
  exact (h link).trans (h' link)

/-- Only the mail among the observations counts. -/
theorem Wired.of_mail (h : Wired gone os a b) (ho : ∀ link, mail link os' = mail link os) :
    Wired gone os' a b := fun link => ho link ▸ h link

theorem wired_put (hk : a[link]? = some k) (h : LinkStep gone link k os l) :
    Wired gone os a (a.modify link fun _ => l) := by
  intro i
  by_cases hi : link = i
  · subst hi
    rw [List.getElem?_modify_eq, hk, h.mail.1]
    exact .went h.steps
  · rw [List.getElem?_modify_ne _ a hi, h.mail.2 i (Ne.symm hi)]
    exact .refl _

theorem wired_modify (a : List Link) (link : LinkId) {f : Link → Link}
    (h : ∀ k, LinkStep gone link k [] (f k)) : Wired gone [] a (a.modify link f) := by
  intro i
  by_cases hi : link = i
  · subst hi
    rw [List.getElem?_modify_eq]
    cases a[link]? with
    | none => exact .absent
    | some k => exact .went (h k).steps
  · rw [List.getElem?_modify_ne f a hi]
    exact .refl _

theorem wired_append (a : List Link) (url : String) : Wired gone [] a (a ++ [{ url := url }]) := by
  intro i
  by_cases hi : i < a.length
  · rw [List.getElem?_append_left hi]
    exact .refl _
  · rw [List.getElem?_append_right (Nat.le_of_not_lt hi), List.getElem?_singleton,
      List.getElem?_eq_none (Nat.le_of_not_lt hi)]
    split
    · exact .came (.refl _)
    · exact .absent

theorem wired_closeWriter (a : List Link) (link : LinkId) :
    Wired gone [] a (a.modify link Link.closeWriter) := wired_modify a link .closeWriter

theorem wired_closeReader (a : List Link) (h : gone link) :
    Wired gone [] a (a.modify link Link.closeReader) :=
  wired_modify a link fun k => .closeReader k h

theorem wired_close (a : List Link) (h : gone link) :
    Wired gone [] a ((a.modify link Link.closeWriter).modify link Link.closeReader) :=
  (wired_closeWriter a link).trans (wired_closeReader _ h)

theorem wired_replaceWriter (a : List Link) (writer : Option LinkId) :
    Wired gone [] a (replaceWriter a writer) := by
  cases writer with
  | none => exact .refl a
  | some old => exact wired_closeWriter a old

end

/-! ## Changes -/

/-- The task that held the link or read it is gone, and no task has come. -/
def Deserted (m n : Machine) (link : LinkId) : Prop :=
  ∃ t, m.task? t.id = some t ∧ n.task? t.id = none ∧ n.nextTask = m.nextTask ∧
    (t.position.held = some link ∨ ∃ g, t.role = .reader g link)

section
variable {m n : Machine} {t : Task} {os : List Observation} {ls : List Link}

theorem deserted_without (ht : m.task? t.id = some t) (hn : n.tasks = without t.id m.tasks)
    (hnext : n.nextTask = m.nextTask) {link : LinkId}
    (h : t.position.held = some link ∨ ∃ g, t.role = .reader g link) : Deserted m n link := by
  refine ⟨t, ht, ?_, hnext, h⟩
  rw [Machine.task?_eq, hn, findTask_without, if_pos rfl]

theorem wired_closeEnd {gone : LinkId → Prop} (a : List Link)
    (h : ∀ g link, t.role = .reader g link → gone link) : Wired gone [] a (closeEnd t a) := by
  unfold closeEnd
  split
  · rename_i g link hr
    exact wired_closeReader a (h g link hr)
  · exact .refl a

theorem Drops.wired {gone : LinkId → Prop} {p : Position} {queue : List TaskId}
    (h : Drops m t p ls queue) (hg : ∀ link, p.held = some link → gone link) :
    Wired gone [] m.links ls := by
  cases h with
  | installing g link => exact wired_close _ (hg link rfl)
  | discarding link => exact wired_close _ (hg link rfl)
  | closing td link deadline => exact wired_closeWriter _ _
  | _ => exact .refl _

theorem Begins.wired {gone : LinkId → Prop} {td : Teardown} (h : Begins m t td ls) :
    Wired gone [] m.links ls := by
  cases h with
  | failed g link l l' f hr hp hc hl hf => exact wired_put hl (.fault hf)
  | _ => exact .refl _

theorem mail_farewell (link : LinkId) (host : Host) (i : TaskId)
    (outcome : Except Failure Answer) : mail link (host.farewell i outcome) = [] := by
  cases host <;> rfl

theorem mail_heard (link : LinkId) (m : Machine) (frame : Bytes) :
    mail link (heard m frame) = [] := by
  unfold heard
  split <;> rfl

theorem Change.wired (h : Change m os n) : Wired (Deserted m n) os m.links n.links := by
  have quiet : ∀ {os' : List Observation} {b : List Link}, Wired (Deserted m n) [] m.links b →
      (∀ link, mail link os' = []) → Wired (Deserted m n) os' m.links b := fun h ho => h.of_mail ho
  cases h with
  | outside h =>
    cases h with
    | pushed link l frame hl hs hr => exact wired_put hl (.push frame hs hr)
    | serverMode link mode => exact wired_modify _ _ fun k => .setMode k mode
    | serverClosed link => exact wired_modify _ _ .closeServer
    | taken link l text hl ht => exact wired_put hl (.take ht)
    | _ => exact quiet (.refl _) fun _ => rfl
  | released h =>
    cases h with
    | cancelled g hu hc => exact .refl _
    | emptied link hh ht hc hw => exact wired_closeWriter _ _
  | connecting ht h =>
    cases h with
    | dialed op g url deadline stage hr hp => exact quiet (wired_append _ _) fun _ => rfl
    | installed op g link hr hp hl hg hs => exact quiet (wired_replaceWriter _ _) fun _ => rfl
    | discarded op link f hr hp =>
      refine quiet (wired_close _ ?_) fun _ => rfl
      exact deserted_without ht (by rfl) (by rfl) (.inl (by rw [hp]; rfl))
    | _ => exact .refl _
  | exchanging ht h =>
    cases h with
    | written host x l link link' hr hv hp hl hw hk hf => exact wired_put hk (.write _ _ hf)
    | refused host hh hs => exact quiet (.refl _) (mail_farewell · host _ _)
    | unsent host x stage k f hr hv hp hx hn => exact quiet (.refl _) (mail_farewell · host _ _)
    | replied host x k outcome hr hv hp hx hw => exact quiet (.refl _) (mail_farewell · host _ _)
    | _ => exact quiet (.refl _) fun _ => rfl
  | background ht h =>
    cases h with
    | dispatched g link l l' frame hr hp hc hl hf =>
      refine (wired_put hl (.read hf)).of_mail fun i => ?_
      rw [← List.singleton_append, mail_append, mail_heard, List.append_nil]
    | readerLeft g link hr hp ho =>
      refine wired_closeReader _ ?_
      exact deserted_without ht (by rfl) (by rfl) (.inr ⟨g, hr⟩)
    | _ => exact .refl _
  | tearing ht h =>
    cases h with
    | begun td links hb hg hs =>
      refine quiet hb.wired fun _ => ?_
      split <;> rfl
    | taken td link hp hl hw => exact .refl _
    | ended td stage links queue hf hp hv =>
      refine quiet ?_ fun _ => ?_
      · cases hv with
        | empty hl hw =>
          refine wired_closeEnd _ ?_
          exact fun g link hr => deserted_without ht (by rfl) (by rfl) (.inr ⟨g, hr⟩)
        | closed link deadline =>
          refine (wired_closeWriter _ _).trans (wired_closeEnd _ ?_)
          exact fun g link hr => deserted_without ht (by rfl) (by rfl) (.inr ⟨g, hr⟩)
      · split <;> split <;> split <;> rfl
  | leaving ht h =>
    cases h with
    | finished op r hr hp => exact quiet (.refl _) fun _ => rfl
    | dropped links queue ha hd =>
      refine hd.wired ?_
      exact fun link hl => deserted_without ht (by rfl) (by rfl) (.inl hl)

end

end GameLink.Client

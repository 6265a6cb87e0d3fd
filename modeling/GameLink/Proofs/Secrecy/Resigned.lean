import Mathlib.Data.List.Forall2
import GameLink.Proofs.Secrecy.Run

/-! # Clients over tokens that differ in header and signature

Two clients are alike if they are the same but for header and signature of their
tokens. Each of the relations here says where such tokens are, and that
everything else is the same; together they are what the veil leaves.
-/
namespace GameLink

structure Link.Resigned (server : Settings.Server) (l l' : Link) : Prop where
  url : Link.Readdressed server l.url l'.url
  rest : { l with url := l'.url } = l'

theorem Link.resigned_of_veil {server : Settings.Server} {l l' : Link}
    (h : l.veil server = l'.veil server) : l.Resigned server l' where
  url := Link.readdressed_of_veilUrl (congrArg Link.url h)
  rest := congrArg (fun l : Link => { l with url := l'.url }) h

namespace Client

section
variable {α β : Type} {R : α → α → Prop} {f : α → β} {xs ys : List α}

theorem forall₂_of_map_eq (h : ∀ a b, f a = f b → R a b) (heq : xs.map f = ys.map f) :
    List.Forall₂ R xs ys := by
  rw [← List.forall₂_eq_eq_eq, List.forall₂_map_left_iff, List.forall₂_map_right_iff] at heq
  exact heq.imp fun _ _ => h _ _

theorem map_eq_of_forall₂ (h : ∀ a b, R a b → f a = f b) (hall : List.Forall₂ R xs ys) :
    xs.map f = ys.map f := by
  rw [← List.forall₂_eq_eq_eq, List.forall₂_map_left_iff, List.forall₂_map_right_iff]
  exact hall.imp fun _ _ => h _ _

end

/-! ## What is asked of a client -/

inductive Operation.Resigned : Operation → Operation → Prop
  | same (op : Operation) : Resigned op op
  | connect {session session' : Session} (h : session.Resigned session') (online : Option Bool) :
      Resigned (.connect session online) (.connect session' online)
  | signIn {token token' : String} (h : Claims.Resigned token token') (online : Option Bool) :
      Resigned (.signIn token online) (.signIn token' online)

inductive Policy.Resigned : Policy → Policy → Prop
  | same (policy : Policy) : Resigned policy policy
  | redial {token token' : String} (h : Claims.Resigned token token') (left : Nat) :
      Resigned (.redial left token) (.redial left token')

inductive Move.Resigned : Move → Move → Prop
  | same (v : Move) : Resigned v v
  | start {op op' : Operation} (h : op.Resigned op') :
      Resigned (.act (.start op)) (.act (.start op'))

theorem Operation.veil_eq_veil_iff {op op' : Operation} :
    op.veil = op'.veil ↔ op.Resigned op' := by
  constructor
  · intro h
    cases op with
    | connect session online =>
      cases op' with
      | connect session' online' =>
        obtain ⟨hsession, rfl⟩ := Operation.connect.inj h
        exact .connect (Session.veil_eq_veil_iff.mp hsession) online
      | _ => cases h
    | signIn token online =>
      cases op' with
      | signIn token' online' =>
        obtain ⟨htoken, rfl⟩ := Operation.signIn.inj h
        exact .signIn (Claims.veil_eq_veil_iff.mp htoken) online
      | _ => cases h
    | close | send | request | perform =>
      cases op' <;> cases h
      exact .same _
  · rintro (_ | ⟨h, _⟩ | ⟨h, _⟩)
    · rfl
    · rw [veil, veil, Session.veil_eq_veil_iff.mpr h]
    · rw [veil, veil, Claims.veil_eq_veil_iff.mpr h]

theorem Policy.veil_eq_veil_iff {policy policy' : Policy} :
    policy.veil = policy'.veil ↔ policy.Resigned policy' := by
  constructor
  · intro h
    cases policy with
    | redial left token =>
      cases policy' with
      | redial left' token' =>
        obtain ⟨rfl, htoken⟩ := Policy.redial.inj h
        exact .redial (Claims.veil_eq_veil_iff.mp htoken) left
      | _ => cases h
    | notify | manual =>
      cases policy' <;> cases h
      exact .same _
  · rintro (_ | ⟨h, _⟩)
    · rfl
    · rw [veil, veil, Claims.veil_eq_veil_iff.mpr h]

theorem Move.veil_eq_veil {v v' : Move} (h : v.Resigned v') : v.veil = v'.veil := by
  cases h with
  | same => rfl
  | start h =>
    show Move.act (.start _) = Move.act (.start _)
    rw [Operation.veil_eq_veil_iff.mpr h]

/-! ## What a client is and has done -/

section
variable (server : Settings.Server)

inductive Role.Resigned : Role → Role → Prop
  | same (role : Role) : Resigned role role
  | operation {op op' : Operation} (h : op.Resigned op') :
      Resigned (.operation op) (.operation op')

inductive Position.Resigned : Position → Position → Prop
  | same (position : Position) : Resigned position position
  | dialing {url url' : String} (h : Link.Readdressed server url url') (g : Generation)
      (deadline : Nat) (stage : DialStage) :
      Resigned (.dialing g url deadline stage) (.dialing g url' deadline stage)

structure Task.Resigned (t t' : Task) : Prop where
  role : t.role.Resigned t'.role
  position : t.position.Resigned server t'.position
  rest : { t with role := t'.role, position := t'.position } = t'

/-- Everything observed is the same, but for the token in an address that is dialed and the tokens
of the operation that is started. -/
inductive Observation.Resigned : Observation → Observation → Prop
  | same (o : Observation) : Resigned o o
  | dialed {url url' : String} (h : Link.Readdressed server url url') (task : TaskId)
      (link : LinkId) : Resigned (.dialed task link url) (.dialed task link url')
  | started {op op' : Operation} (h : op.Resigned op') (task : TaskId) :
      Resigned (.started task op) (.started task op')

structure Record.Resigned (r r' : Record) : Prop where
  moment : r.moment = r'.moment
  what : r.what.Resigned server r'.what

structure Machine.Resigned (m m' : Machine) : Prop where
  links : List.Forall₂ (Link.Resigned server) m.links m'.links
  policy : m.policy.Resigned m'.policy
  tasks : List.Forall₂ (Task.Resigned server) m.tasks m'.tasks
  history : List.Forall₂ (Record.Resigned server) m.history m'.history
  rest : { m with
    links := m'.links, policy := m'.policy, tasks := m'.tasks, history := m'.history } = m'

end

section
variable {server : Settings.Server}

theorem Role.resigned_of_veil {role role' : Role} (h : role.veil = role'.veil) :
    role.Resigned role' := by
  cases role with
  | operation op =>
    cases role' with
    | operation op' => exact .operation (Operation.veil_eq_veil_iff.mp (Role.operation.inj h))
    | _ => cases h
  | reader | heartbeat =>
    cases role' <;> cases h
    exact .same _

theorem Position.resigned_of_veil {position position' : Position}
    (h : position.veil server = position'.veil server) : position.Resigned server position' := by
  cases position with
  | dialing g url deadline stage =>
    cases position' with
    | dialing g' url' deadline' stage' =>
      obtain ⟨rfl, hurl, rfl, rfl⟩ := Position.dialing.inj h
      exact .dialing (Link.readdressed_of_veilUrl hurl) g deadline stage
    | _ => cases h
  | start | installing | discarding | exchanging | tearing | reading | ticking | probing =>
    cases position' <;> cases h
    exact .same _

theorem Task.resigned_of_veil {t t' : Task} (h : t.veil server = t'.veil server) :
    t.Resigned server t' where
  role := Role.resigned_of_veil (congrArg Task.role h)
  position := Position.resigned_of_veil (congrArg Task.position h)
  rest := congrArg (fun t : Task => { t with role := t'.role, position := t'.position }) h

theorem Observation.resigned_of_veil {o o' : Observation} (h : o.veil server = o'.veil server) :
    o.Resigned server o' := by
  cases o with
  | dialed task link url =>
    cases o' with
    | dialed task' link' url' =>
      obtain ⟨rfl, rfl, hurl⟩ := Observation.dialed.inj h
      exact .dialed (Link.readdressed_of_veilUrl hurl) task link
    | _ => cases h
  | started task op =>
    cases o' with
    | started task' op' =>
      obtain ⟨rfl, hop⟩ := Observation.started.inj h
      exact .started (Operation.veil_eq_veil_iff.mp hop) task
    | _ => cases h
  | _ =>
    cases o' <;> cases h
    exact .same _

theorem Record.resigned_of_veil {r r' : Record} (h : r.veil server = r'.veil server) :
    r.Resigned server r' where
  moment := (Record.mk.inj h).1
  what := Observation.resigned_of_veil (congrArg Record.what h)

theorem Machine.resigned_of_veil {m m' : Machine} (h : m.veil server = m'.veil server) :
    m.Resigned server m' where
  links := forall₂_of_map_eq (fun _ _ => Link.resigned_of_veil) (congrArg Machine.links h)
  policy := Policy.veil_eq_veil_iff.mp (congrArg Machine.policy h)
  tasks := forall₂_of_map_eq (fun _ _ => Task.resigned_of_veil) (congrArg Machine.tasks h)
  history := forall₂_of_map_eq (fun _ _ => Record.resigned_of_veil) (congrArg Machine.history h)
  rest := congrArg (fun m : Machine => { m with
    links := m'.links, policy := m'.policy, tasks := m'.tasks, history := m'.history }) h

end

end Client
end GameLink

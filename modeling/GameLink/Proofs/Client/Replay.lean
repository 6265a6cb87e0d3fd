import GameLink.Client.Run

/-! # Replaying moves

A list of moves is replayed by making them one after the other; where each one is
allowed when its turn comes, the replay is a run. The runs that several modules look at
are made here of a few moves that always come together.
-/
namespace GameLink.Client

namespace Machine

def replay (m : Machine) (moves : List Move) : Machine := moves.foldl Machine.after m

/-- Every move is allowed when its turn comes. -/
def replays (m : Machine) : List Move → Bool
  | [] => true
  | v :: rest => m.allows v && (m.after v).replays rest

theorem reaches_replay {may : Move → Prop} {moves : List Move} {m : Machine}
    (h : m.replays moves = true) (hv : ∀ v ∈ moves, may v) : Reaches may m (m.replay moves) := by
  induction moves generalizing m with
  | nil => exact .refl may m
  | cons v rest ih =>
    rw [replays, Bool.and_eq_true] at h
    obtain ⟨hallows, hrest⟩ := h
    have first : Reaches may m (m.after v) := (Reaches.refl may m).step hallows (hv v (.head _))
    exact first.trans (ih hrest fun u hu => hv u (.tail _ hu))

theorem run_replay {moves : List Move} {m : Machine} (h : m.replays moves = true) :
    Run m moves.reverse (m.replay moves) := by
  induction moves generalizing m with
  | nil => exact .nil
  | cons v rest ih =>
    rw [replays, Bool.and_eq_true] at h
    obtain ⟨hallows, hrest⟩ := h
    have first : Run m [v] (m.after v) := .cons .nil v hallows
    rw [List.reverse_cons]
    exact first.append (ih hrest)

/-- A client over the settings that come with it. -/
def fresh : Machine := { settings := {} }

theorem initial_fresh : Initial fresh := by
  have built : Client.build {} .direct .notify = .ok fresh := rfl
  exact .build built _

theorem reachable_replay {moves : List Move} (h : fresh.replays moves = true) :
    (fresh.replay moves).Reachable (fun _ => True) :=
  ⟨fresh, initial_fresh, reaches_replay h fun _ _ => trivial⟩

/-! ## Moves that come together -/

def guest : Session where
  token := "t"
  refreshToken := ""
  expiresAt := 4000000000
  refreshExpiresAt := 0
  createdAt := 0
  created := false
  userId := "u"
  username := "n"
  vars := .empty

/-- Task `i` is started and takes `n` steps. -/
def steps (i : TaskId) (n : Nat) (op : Operation) : List Move :=
  .act (.start op) :: List.replicate n (.work (.task i))

/-- Task `i` connects without being disturbed. -/
def opening (i : TaskId) : List Move := steps i 3 (.connect guest none)

/-- A connect that is closed under way dials a link in vain, and the next one opens. -/
def overtaken : List Move :=
  steps 0 1 (.connect guest none) ++ steps 1 1 (.close false) ++
    [.work (.task 0), .work (.task 0)] ++ opening 2

/-- The server speaks and closes, the reader tears the link down, and the next connect opens. -/
def reopened : List Move :=
  opening 0 ++
    [.work (.task 1), .act (.serverPush 0 (.data [])), .work (.task 1), .act (.serverClose 0),
      .work (.task 1), .work (.task 1)] ++ opening 3

/-- A frame that answers the request with id `cid`. -/
def answerTo (cid : String) : Bytes := Bytes.ofText (Json.object [("cid", .string cid)]).render

end Machine

end GameLink.Client

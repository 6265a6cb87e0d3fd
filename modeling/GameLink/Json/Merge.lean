import GameLink.Json.Basic

/-! # Merging documents of defaults

An overlay changes only what it names: objects merge key by key, a null keeps
what was there, and anything else takes the place of what was there.
-/
namespace GameLink.Json

mutual
/-- `overlay` laid over `base`. -/
def merge (base : Json) : Json → Json
  | .object overlay =>
    match base with
    | .object members => .object (mergeMembers members overlay)
    | _ => .object overlay
  | overlay => overlay

def mergeMembers (members : List (String × Json)) : List (String × Json) → List (String × Json)
  | [] => members
  | (key, value) :: rest =>
    if value.isNull then mergeMembers members rest
    else
      let merged :=
        match Entries.find? key members with
        | some existing => merge existing value
        | none => value
      mergeMembers (Entries.insert key merged members) rest
end

end GameLink.Json

import ProviderScout.Json.Parser

/-!
Values that are taken over whole from a text that was read leniently. An object whose first name is
a certain mark stands for the value of the JSON text that it holds.
-/

namespace ProviderScout.Json

/-- What a marked object stands for. Nothing but the text may stand in it. -/
def heldValue? (mark : String) (v : Json) (rest : List (String × Json)) : Option Json :=
  match v, rest with
  | .string s, [] => (read (.strict mark) s).toOption
  | _, _ => none

mutual

/-- The value with what marked objects stand for in their place, if they all stand for something. -/
def settled? (mark : String) : Json → Option Json
  | .array items => (settledItems? mark items).map .array
  | .object fields => match fields with
    | [] => some (.object [])
    | f :: rest =>
      if f.1 = mark then heldValue? mark f.2 rest
      else do
        let v ← f.2.settled? mark
        return .object ((f.1, v) :: (← settledFields? mark rest))
  | v => some v

def settledItems? (mark : String) : List Json → Option (List Json)
  | [] => some []
  | v :: rest => do return (← v.settled? mark) :: (← settledItems? mark rest)

def settledFields? (mark : String) : List (String × Json) → Option (List (String × Json))
  | [] => some []
  | f :: rest => do
    let v ← f.2.settled? mark
    return (f.1, v) :: (← settledFields? mark rest)

end

end ProviderScout.Json

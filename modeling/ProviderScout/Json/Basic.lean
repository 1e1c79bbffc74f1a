import ProviderScout.SortedMap.Basic

/-!
JSON values. Whole numbers and doubles are kept apart, and an object keeps its fields in the order
in which they were written, repeated names included.
-/

namespace ProviderScout

/-- A JSON value. -/
inductive Json where
  | null
  | bool (b : Bool)
  | int (n : Int)
  | float (x : Float)
  | string (s : String)
  | array (items : List Json)
  | object (fields : List (String × Json))
  /-- A literal that is well formed but stands for no value: a number beyond the doubles or a text
  with half of a surrogate pair. -/
  | unreadable

namespace Json

instance : Inhabited Json := ⟨.null⟩

/-- The double as a JSON value. JSON has no form for infinities and NaN. -/
def ofFloat (x : Float) : Json := if x.isFinite then .float x else .null

def ofOption {α : Type} (f : α → Json) : Option α → Json
  | none => .null
  | some a => f a

def ofNat (n : Nat) : Json := .int n

def ofNats (ns : List Nat) : Json := .array (ns.map ofNat)

def ofStrings (ss : List String) : Json := .array (ss.map .string)

/-- The field of an object; of repeated ones the last. -/
def field? (name : String) : Json → Option Json
  | .object fields => (fields.reverse.find? fun f => f.1 == name).map (·.2)
  | _ => none

mutual

/-- Whether the value can be taken over whole: no literal in it is unreadable and its arrays and
objects nest at most `depth` deep. -/
def isWhole (depth : Nat) : Json → Bool
  | .unreadable => false
  | .array items => match depth with
    | 0 => false
    | depth + 1 => areWhole depth items
  | .object fields => match depth with
    | 0 => false
    | depth + 1 => fieldsAreWhole depth fields
  | _ => true

def areWhole (depth : Nat) : List Json → Bool
  | [] => true
  | v :: rest => v.isWhole depth && areWhole depth rest

def fieldsAreWhole (depth : Nat) : List (String × Json) → Bool
  | [] => true
  | f :: rest => f.2.isWhole depth && fieldsAreWhole depth rest

end

mutual

/-- The same value with the fields of every object in the order of their names; of repeated ones
the last counts. -/
def sorted : Json → Json
  | .array items => .array (sortedItems items)
  | .object fields => .object (SortedMap.ofList (sortedFields fields)).entries
  | v => v

def sortedItems : List Json → List Json
  | [] => []
  | v :: rest => v.sorted :: sortedItems rest

def sortedFields : List (String × Json) → List (String × Json)
  | [] => []
  | f :: rest => (f.1, f.2.sorted) :: sortedFields rest

end

end Json

end ProviderScout

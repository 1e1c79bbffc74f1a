import ProviderScout.Json.Basic
import ProviderScout.Number.Counter

/-!
Records in JSON. A record is an object that names its fields, where unknown names do not count, or
an array that gives them in order and may end early. What a field holds is read by a function that
answers nothing for a value of another kind.
-/

namespace ProviderScout

/-- What a record gives for one field. -/
inductive Slot where
  | given (v : Json)
  /-- The object does not name the field. -/
  | unnamed
  /-- The array ends before the field. -/
  | cutOff

namespace Slot

variable {α : Type}

def required (read : Json → Option α) : Slot → Option α
  | given v => read v
  | unnamed | cutOff => none

def withDefault (d : α) (read : Json → Option α) : Slot → Option α
  | given v => read v
  | unnamed | cutOff => some d

def nullable (read : Json → Option α) : Json → Option (Option α)
  | .null => some none
  | v => (read v).map some

/-- A field that may be null, and that an object may leave out. -/
def optional (read : Json → Option α) : Slot → Option (Option α)
  | given v => nullable read v
  | unnamed => some none
  | cutOff => none

end Slot

/-- The fields of a record in their order, each with what is given for it. -/
structure Record where
  slots : List (String × Slot)

namespace Record

/-- What an object gives for a field; nothing if it gives two values. -/
def named? (fields : List (String × Json)) (name : String) : Option Slot :=
  match fields.filter fun f => f.1 == name with
  | [] => some .unnamed
  | [f] => some (.given f.2)
  | _ => none

/-- Reads an object as a record with the given names. -/
def ofFields? (names : List String) (fields : List (String × Json)) : Option Record :=
  (names.mapM fun name => (named? fields name).map fun slot => (name, slot)).map Record.mk

/-- Reads an array as a record with the given names. -/
def ofItems? (names : List String) (items : List Json) : Option Record :=
  if items.length ≤ names.length then
    let slots := items.map Slot.given ++ List.replicate (names.length - items.length) .cutOff
    some ⟨names.zip slots⟩
  else none

/-- Reads a value as a record with the given names. -/
def ofJson? (names : List String) : Json → Option Record
  | .object fields => ofFields? names fields
  | .array items => ofItems? names items
  | _ => none

def slot (r : Record) (name : String) : Slot :=
  match r.slots.find? fun s => s.1 == name with
  | some s => s.2
  | none => .unnamed

end Record

namespace Json

def bool? : Json → Option Bool
  | .bool b => some b
  | _ => none

def string? : Json → Option String
  | .string s => some s
  | _ => none

def int? (low high : Int) : Json → Option Int
  | .int n => if low ≤ n ∧ n ≤ high then some n else none
  | _ => none

/-- A whole number from zero to a bound. -/
def nat? (high : Nat) : Json → Option Nat
  | .int n => if 0 ≤ n ∧ n ≤ high then some n.toNat else none
  | _ => none

def counter? : Json → Option Nat := nat? Counter.max

def uint16? (v : Json) : Option UInt16 := (nat? 65535 v).map UInt16.ofNat

def uint32? (v : Json) : Option UInt32 := (nat? 4294967295 v).map UInt32.ofNat

def uint64? (v : Json) : Option UInt64 := (nat? Counter.max v).map UInt64.ofNat

def int32? (v : Json) : Option Int32 :=
  (int? Int32.minValue.toInt Int32.maxValue.toInt v).map Int32.ofInt

def column? (v : Json) : Option Column :=
  (int? Int64.minValue.toInt Int64.maxValue.toInt v).map Int64.ofInt

def float? : Json → Option Float
  | .float x => some x
  | .int n => some (Float.ofInt n)
  | _ => none

def list? {α : Type} (read : Json → Option α) : Json → Option (List α)
  | .array items => items.mapM read
  | _ => none

/-- One of some named values: its name, or an object whose only field has that name and is null. -/
def choice? {α : Type} (ofName? : String → Option α) : Json → Option α
  | .string s => ofName? s
  | .object [(s, .null)] => ofName? s
  | _ => none

end Json

end ProviderScout

import SpecAtlas.Json.Reader

/-!
Decoding JSON values into data. A decoder is told how many levels of arrays and objects it may still
enter. A record is written as an object, where unknown fields are passed over and a known one may
come only once, or as an array of its fields in order.
-/

namespace SpecAtlas.Json

/-- Reads a value of type `α`, entering at most the given number of levels. -/
abbrev Decoder (α : Type) := Nat → Value → Option α

namespace Decoder

def string : Decoder String
  | _, .string s => some s
  | _, _ => none

def bool : Decoder Bool
  | _, .bool b => some b
  | _, _ => none

def below (bound : Nat) : Decoder Nat
  | _, .int (.ofNat n) => if n < bound then some n else none
  | _, _ => none

def uint32 : Decoder UInt32 := fun n v => (below UInt32.size n v).map UInt32.ofNat

def uint64 : Decoder UInt64 := fun n v => (below UInt64.size n v).map UInt64.ofNat

def optional {α : Type} (d : Decoder α) : Decoder (Option α)
  | _, .null => some none
  | n, v => (d n v).map some

def list {α : Type} (d : Decoder α) : Decoder (List α)
  | n + 1, .array items => items.mapM (d n)
  | _, _ => none

def choice {α : Type} (ofName? : String → Option α) : Decoder α
  | _, .string s => ofName? s
  | _ + 1, .object [(key, .null)] => ofName? key
  | _, _ => none

end Decoder

inductive Slot where
  | given (v : Value)
  | absent
  | short
deriving Repr

namespace Slot

def required {α : Type} (d : Decoder α) (n : Nat) : Slot → Option α
  | given v => d n v
  | absent | short => none

def withDefault {α : Type} (d : Decoder α) (default : α) (n : Nat) : Slot → Option α
  | given v => d n v
  | absent | short => some default

/-- A field that may be `null`, or left out of an object but not of an array. -/
def nullable {α : Type} (d : Decoder α) (n : Nat) : Slot → Option (Option α)
  | given v => Decoder.optional d n v
  | absent => some none
  | short => none

end Slot

def fieldSlot? (fields : List (String × Value)) (name : String) : Option Slot :=
  match fields.filter (·.1 == name) with
  | [] => some .absent
  | [(_, v)] => some (.given v)
  | _ => none

def slots? (names : List String) : Value → Option (List Slot)
  | .object fields => names.mapM (fieldSlot? fields)
  -- an array gives the fields in order, and may end before the last of them
  | .array items =>
    if items.length ≤ names.length then
      some (items.map Slot.given ++ List.replicate (names.length - items.length) .short)
    else none
  | _ => none

def maxDepth : Nat := 127

def Decoder.ofText {α : Type} (d : Decoder α) (s : String) : Option α := do
  d maxDepth (← parse? s)

def Decoder.ofValue {α : Type} (d : Decoder α) (v : Value) : Option α := d v.depth v

end SpecAtlas.Json

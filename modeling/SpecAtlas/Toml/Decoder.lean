import SpecAtlas.Toml.Value

/-!
Decoding TOML values into data. A record is written as a table, where unknown keys are passed over,
or as an array of its fields in order. A date counts as a table of unknown keys.
-/

namespace SpecAtlas.Toml

abbrev Decoder (α : Type) := Value → Option α

namespace Decoder

def string : Decoder String
  | .string s => some s
  | _ => none

def bool : Decoder Bool
  | .boolean b => some b
  | _ => none

def list {α : Type} (d : Decoder α) : Decoder (List α)
  | .array items => items.mapM d
  | .tables items => (items.map (Value.table .header)).mapM d
  | _ => none

def isEmpty : Value → Bool
  | .array items => items.isEmpty
  | .tables items => items.isEmpty
  | .table _ fields => fields.isEmpty
  | _ => false

def choice {α : Type} (ofName? : String → Option α) : Decoder α
  | .string s => ofName? s
  | .table _ [(key, v)] => if isEmpty v then ofName? key else none
  | _ => none

end Decoder

def field? (names : List String) (fields : Fields) : Option (Option Value) :=
  match fields.filter fun (key, _) => names.contains key with
  | [] => some none
  | [(_, v)] => some (some v)
  | _ => none

def slots? (fields : List (List String)) : Value → Option (List (Option Value))
  | .table _ given => fields.mapM (field? · given)
  | .array items => some ((List.range fields.length).map fun i => items[i]?)
  | .tables items =>
    some ((List.range fields.length).map fun i => items[i]?.map (Value.table .header))
  | .datetime _ => some (fields.map fun _ => none)
  | _ => none

def optional {α : Type} (d : Decoder α) : Option Value → Option (Option α)
  | some v => (d v).map some
  | none => some none

def listed {α : Type} (d : Decoder α) : Option Value → Option (List α)
  | some v => Decoder.list d v
  | none => some []

end SpecAtlas.Toml

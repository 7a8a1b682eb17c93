/-!
The data of a TOML document. Every table remembers how it came about, because this decides what may
still be added to it.
-/

namespace SpecAtlas.Toml

inductive Origin where
  | header
  | passing
  | dotted
  | inline
deriving DecidableEq, Repr

inductive Value where
  | string (s : String)
  | integer (i : Int)
  | float (text : String)
  | boolean (b : Bool)
  | datetime (text : String)
  | array (items : List Value)
  | tables (items : List (List (String × Value)))
  | table (origin : Origin) (fields : List (String × Value))
deriving Repr, Inhabited

abbrev Fields := List (String × Value)

namespace Fields

def get? (fields : Fields) (key : String) : Option Value :=
  (fields.find? (·.1 == key)).map (·.2)

def put (fields : Fields) (key : String) (v : Value) : Fields :=
  match fields with
  | [] => [(key, v)]
  | (k, w) :: rest => if k == key then (key, v) :: rest else (k, w) :: put rest key v

@[simp] theorem get?_put_self (fields : Fields) (key : String) (v : Value) :
    (fields.put key v).get? key = some v := by
  induction fields with
  | nil => simp [put, get?]
  | cons entry rest ih =>
    obtain ⟨k, w⟩ := entry
    by_cases h : k = key
    · simp [put, get?, h]
    · have hk : (k == key) = false := by simp [h]
      rw [put]
      simpa [get?, hk] using ih

/-- Changes the table that a path of keys leads to. Missing tables are made on the way. -/
def changeAt (dotted : Bool) (change : Origin → Fields → Option Fields) (origin : Origin) :
    List String → Fields → Option Fields
  | [], fields => change origin fields
  | key :: rest, fields =>
    match fields.get? key with
    | none => do
      let fresh := if dotted then Origin.dotted else .passing
      let sub ← changeAt dotted change fresh rest []
      return fields.put key (.table fresh sub)
    | some (.table o sub) => do
      -- dotted keys pass only through tables that no header or brace has written out
      guard (if dotted then o == .dotted || o == .passing else o != .inline)
      let sub ← changeAt dotted change o rest sub
      return fields.put key (.table o sub)
    -- an array of tables stands for its last item
    | some (.tables items) => do
      let last ← changeAt dotted change .header rest (← items.getLast?)
      return fields.put key (.tables (items.dropLast ++ [last]))
    | some _ => none

def assign (origin : Origin) (path : List String) (key : String) (v : Value) (fields : Fields) :
    Option Fields :=
  fields.changeAt true (fun o fields => do
    -- the table that holds it must stem from the dotted key itself, if there is a dot in it
    guard ((o == .dotted) != path.isEmpty)
    guard (fields.get? key).isNone
    return fields.put key v) origin path

/-- Starts the table of a header. The table must be new, or known only from longer headers. -/
def openTable (parents : List String) (key : String) (fields : Fields) : Option Fields :=
  fields.changeAt false (fun _ fields =>
    match fields.get? key with
    | none => some (fields.put key (.table .header []))
    | some (.table .passing sub) => some (fields.put key (.table .header sub))
    | some _ => none) .header parents

def openItem (parents : List String) (key : String) (fields : Fields) : Option Fields :=
  fields.changeAt false (fun _ fields =>
    match fields.get? key with
    | none => some (fields.put key (.tables [[]]))
    | some (.tables items) => some (fields.put key (.tables (items ++ [[]])))
    | some _ => none) .header parents

end Fields

structure KeyPath where
  parents : List String
  key : String
deriving DecidableEq, Repr

def KeyPath.parts (p : KeyPath) : List String := p.parents ++ [p.key]

inductive Statement where
  | table (path : KeyPath)
  | item (path : KeyPath)
  | assign (path : KeyPath) (v : Value)
deriving Repr

structure Progress where
  root : Fields := []
  current : List String := []

namespace Progress

def take (p : Progress) : Statement → Option Progress
  | .table path => do
    return { root := ← p.root.openTable path.parents path.key, current := path.parts }
  | .item path => do
    return { root := ← p.root.openItem path.parents path.key, current := path.parts }
  | .assign path v => do
    let root ← p.root.changeAt false
      (fun o fields => fields.assign o path.parents path.key v) .header p.current
    return { p with root }

end Progress

def Fields.ofStatements? (statements : List Statement) : Option Fields :=
  (statements.foldlM Progress.take {}).map Progress.root

def Fields.ofPairs? (pairs : List (KeyPath × Value)) : Option Fields :=
  pairs.foldlM (fun fields (path, v) => fields.assign .inline path.parents path.key v) []

end SpecAtlas.Toml

import SpecAtlas.Source.Preorder
import SpecAtlas.Workspace

/-!
Snapshots of a tree of files as JSON. Each source text comes with its syntax tree, so that a
workspace made from a snapshot needs no parser of its own.
-/

namespace SpecAtlas.Snapshot

open Json Files Source

def field (v : Value) (name : String) : Value :=
  match v with
  | .object fields => ((fields.find? (·.1 == name)).map (·.2)).getD .null
  | _ => .null

def string? : Value → Option String
  | .string s => some s
  | _ => none

def natural? : Value → Option Nat
  | .int (.ofNat n) => some n
  | _ => none

/-- A node of a syntax tree: its kind, where it starts and ends, the number of its children, and its
marks: 1 for a construct, 4 for a name, 8 for errors at or below it. -/
def node? : Value → Option (Label × Nat)
  | .array [kind, start, stop, children, marks] => do
    let marks ← natural? marks
    return (
      { kind := ← string? kind
        start := ← natural? start
        stop := ← natural? stop
        named := marks.testBit 0
        nameField := marks.testBit 2
        faulty := marks.testBit 3 }, ← natural? children)
  | _ => none

def tree? : Value → Option Node
  | .array nodes => do (Node.ofPreorder (← nodes.mapM node?)).head?
  | _ => none

def bytes? : List Char → Option (List UInt8)
  | [] => some []
  | [_] => none
  | a :: b :: rest => do
    return .ofNat ((← hexValue? a) * 16 + (← hexValue? b)) :: (← bytes? rest)

def defaultTime : Int := 1000000000

def time (v : Value) : Int :=
  match field v "mtime" with
  | .int i => i
  | _ => defaultTime

def content? (v : Value) : Option ByteArray :=
  match field v "text", field v "hex" with
  | .string text, _ => some text.toByteArray
  | _, .string hex => (bytes? hex.toList).map fun bytes => ⟨bytes.toArray⟩
  | _, _ => none

def write (t : FileTree) (v : Value) : FileTree.Changed :=
  match string? (field v "path") with
  | none => (t, .error .notFound)
  | some path =>
    match field v "dir", field v "symlink" with
    | .bool true, _ => t.makeDirectories [] path
    | _, .string target => t.writeLink [] path target
    | _, _ =>
      match content? v with
      | some bytes => t.writeFile [] path bytes (time v)
      | none => (t, .error .notFound)

def files (mount : String) (entries : List Value) : FileTree :=
  entries.foldl (fun t v => (write t v).1) { mount }

def sources (entries : List Value) : List (String × Node) :=
  entries.filterMap fun v => do
    return (← string? (field v "text"), ← tree? (field v "tree"))

def unparsed (text : String) : Node :=
  .mk { kind := "source_file", start := 0, stop := text.utf8ByteSize } []

def frontend (known : List (String × Node)) : Frontend := fun text =>
  ((known.find? (·.1 == text)).map (·.2)).getD (unparsed text)

def workspace (mount : String) (entries later : List Value) (here : String) (now : UInt64) :
    Workspace :=
  let tree := files mount entries
  { tree
    here := (tree.locate? [] here).getD []
    frontend := frontend (sources (entries ++ later))
    now }

def ofText? (text : String) : Option Workspace :=
  match parse? text with
  | some v =>
    match field v "files" with
    | .array entries =>
      some (workspace "/workspace" entries [] ((string? (field v "here")).getD "")
        (.ofNat ((natural? (field v "now")).getD 0)))
    | _ => none
  | none => none

end SpecAtlas.Snapshot

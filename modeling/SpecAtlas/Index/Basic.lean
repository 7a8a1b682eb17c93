import SpecAtlas.Files.Basic
import SpecAtlas.Language
import SpecAtlas.Report.Codec

/-!
The index of reports. It holds one row for each file, under the text of its path, with the stamp
that the file had when its report was made, and a few entries about itself. A report is handed back
only for the stamp it was stored with, and reports that another version of the program stored are
dropped when the index is opened.
-/

namespace SpecAtlas

def schemaVersion : String := "1"

def toolVersion : String := "0.0.0"

structure IndexMeta where
  schemaVersion : String := SpecAtlas.schemaVersion
  toolVersion : String := SpecAtlas.toolVersion
  rootPath : String := ""
  createdAt : UInt64
  updatedAt : UInt64
deriving DecidableEq, Repr

structure IndexRow where
  id : Nat
  path : String
  language : String
  stamp : Stamp
  specCount : Nat
  testCount : Nat
  report : String
deriving DecidableEq, Repr

structure Index where
  entries : List (String × String) := []
  rows : List IndexRow := []
deriving DecidableEq, Repr

namespace Index

def entry? (i : Index) (key : String) : Option String :=
  (i.entries.find? (·.1 == key)).map (·.2)

def without (entries : List (String × String)) (key : String) : List (String × String) :=
  entries.filter (·.1 != key)

def putEntry (i : Index) (key value : String) : Index :=
  { i with entries := without i.entries key ++ [(key, value)] }

def deleteEntry (i : Index) (key : String) : Index :=
  { i with entries := without i.entries key }

def isCurrent (i : Index) : Bool :=
  i.entry? "schema_version" == some schemaVersion && i.entry? "tool_version" == some toolVersion

def isVersioned (i : Index) : Bool :=
  (i.entry? "schema_version").isSome || (i.entry? "tool_version").isSome

/-- The index as it is after opening: if another version stored it, the rows are dropped and it
counts as stored by this one. -/
def opened (i : Index) : Index :=
  if i.isVersioned && !i.isCurrent then
    (({ i with rows := [] }.putEntry "schema_version" schemaVersion).putEntry
      "tool_version" toolVersion)
  else i

def loadMeta (i : Index) (now : UInt64) : Except Failure IndexMeta :=
  if i.entries.isEmpty then .ok { createdAt := now, updatedAt := now }
  else
    -- an index that does not tell its version counts as one of this version
    let schema := (i.entry? "schema_version").getD schemaVersion
    if schema != schemaVersion then .error (.schemaVersion schema schemaVersion)
    else
      let moment (key : String) : Option UInt64 :=
        ((i.entry? key).bind (Text.unsigned? UInt64.size)).map UInt64.ofNat
      let createdAt := (moment "created_at").getD 0
      .ok
        { schemaVersion := schema
          toolVersion := (i.entry? "tool_version").getD "unknown"
          rootPath := (i.entry? "root_path").getD ""
          createdAt
          updatedAt := (moment "updated_at").getD createdAt }

def saveMeta (i : Index) (m : IndexMeta) : Index :=
  { i with
    entries :=
      [("schema_version", m.schemaVersion), ("tool_version", m.toolVersion),
        ("root_path", m.rootPath), ("created_at", toString m.createdAt.toNat),
        ("updated_at", toString m.updatedAt.toNat)] }

def row? (i : Index) (path : String) : Option IndexRow := i.rows.find? (·.path == path)

def nextId (i : Index) : Nat := i.rows.foldl (fun n r => max n r.id) 0 + 1

/-- The row under the text of a path, if it has the stamp. -/
def current? (i : Index) (path : String) (stamp : Stamp) : Option IndexRow :=
  i.rows.find? fun r => r.path == path && r.stamp == stamp

def cached (i : Index) (path : String) (stamp : Stamp) : Except Failure (Option FileReport) :=
  match i.current? path stamp with
  | none => .ok none
  | some r =>
    match FileReport.decoder.ofText r.report with
    | some report => .ok (some report)
    | none => .error (.corruptEntry path)

def rowOf (id : Nat) (path : String) (stamp : Stamp) (report : FileReport) : IndexRow where
  id
  path
  language := Language.kotlin.id
  stamp
  specCount := report.specs.length
  testCount := report.testCount
  report := report.toJson.render

def store (i : Index) (path : String) (stamp : Stamp) (report : FileReport) : Index × IndexRow :=
  match i.row? path with
  | some old =>
    let row := rowOf old.id path stamp report
    ({ i with rows := i.rows.map fun r => if r.path == path then row else r }, row)
  | none =>
    let row := rowOf i.nextId path stamp report
    ({ i with rows := i.rows ++ [row] }, row)

def remove (i : Index) (path : String) : Index :=
  { i with rows := i.rows.filter (·.path != path) }

def putReport (i : Index) (path text : String) : Index :=
  { i with rows := i.rows.map fun r => if r.path == path then { r with report := text } else r }

@[simp] theorem row?_remove_self (i : Index) (path : String) :
    (i.remove path).row? path = none := by
  simp [row?, remove, List.find?_eq_none]

@[simp] theorem rows_saveMeta (i : Index) (m : IndexMeta) : (i.saveMeta m).rows = i.rows := rfl

end Index

open Json

def IndexRow.toJson (r : IndexRow) : Value :=
  .object
    [("id", natJson r.id), ("path", .string r.path), ("language", .string r.language),
      ("mtime", .int r.stamp.mtime.toInt), ("size", natJson r.stamp.size.toNat),
      ("spec_count", natJson r.specCount), ("test_count", natJson r.testCount)]

def IndexMeta.toJson (m : IndexMeta) : Value :=
  .object
    [("schema_version", .string m.schemaVersion), ("tool_version", .string m.toolVersion),
      ("root_path", .string m.rootPath), ("created_at", natJson m.createdAt.toNat),
      ("updated_at", natJson m.updatedAt.toNat)]

def IndexMeta.decoder : Decoder IndexMeta
  | n + 1, v => do
    let [schemaVersion, toolVersion, rootPath, createdAt, updatedAt] ←
      slots? ["schema_version", "tool_version", "root_path", "created_at", "updated_at"] v | none
    return {
      schemaVersion := ← schemaVersion.required .string n
      toolVersion := ← toolVersion.required .string n
      rootPath := ← rootPath.withDefault .string "" n
      createdAt := ← createdAt.required .uint64 n
      updatedAt := ← updatedAt.required .uint64 n }
  | 0, _ => none

end SpecAtlas

import SpecAtlas.CommandLine.Arguments
import SpecAtlas.Failure
import SpecAtlas.Report.Basic
import SpecAtlas.Settings.Basic
import SpecAtlas.Style
import SpecAtlas.Text.Decimal

/-!
The commands of the program and the arguments that each of them takes.
-/

namespace SpecAtlas.CommandLine

def defaultIndexPath : String := ".specscan/index.sqlite"

def defaultAddress : String := "127.0.0.1:7878"

structure ServerChoice where
  server : Option String := none
  noServer : Bool := false
deriving DecidableEq, Repr

def ServerChoice.effective (c : ServerChoice) : Option String :=
  if c.noServer then none else c.server

structure ScanArgs where
  paths : List String := []
  globs : List String := []
  excludeGlobs : List String := []
  hideCallbacks : Bool := false
  hideIncludes : Bool := false
  useIndex : Bool := false
  indexPath : Option String := none
  format : Format := .text
  remote : ServerChoice := {}
deriving Repr

structure TestAtArgs where
  file : String
  line : UInt32
  column : UInt32 := 1
  leaf : Bool := false
  format : Format := .text
  remote : ServerChoice := {}
deriving Repr

structure LaunchArgs where
  file : Option String := none
  line : Option UInt32 := none
  column : Option UInt32 := none
  package : Option String := none
  format : Format := .text
deriving Repr

structure IndexArgs where
  paths : List String := []
  globs : List String := []
  excludeGlobs : List String := []
  indexPath : Option String := none
  format : Format := .text
  remote : ServerChoice := {}
deriving Repr

structure IndexInfoArgs where
  paths : List String := []
  indexPath : Option String := none
  format : Format := .text
  remote : ServerChoice := {}
deriving Repr

inductive Command where
  | scan (args : ScanArgs)
  | testAt (args : TestAtArgs)
  | launch (args : LaunchArgs)
  | skeleton (style : Style) (name : String)
  | styles (format : Format)
  | index (args : IndexArgs)
  | indexInfo (args : IndexInfoArgs)
  | serve (addr : String)
deriving Repr

structure Invocation where
  schemaVersion : Bool := false
  command : Option Command := none
deriving Repr

def pathsOrHere (paths : List String) : List String := if paths.isEmpty then ["."] else paths

def ScanArgs.config (a : ScanArgs) : ScanConfig :=
  let paths := pathsOrHere a.paths
  { paths
    globs := a.globs
    excludeGlobs := a.excludeGlobs
    hideCallbacks := a.hideCallbacks
    hideIncludes := a.hideIncludes
    index :=
      if a.useIndex then
        some
          { paths, globs := a.globs, excludeGlobs := a.excludeGlobs
            indexPath := a.indexPath.getD defaultIndexPath }
      else none }

def TestAtArgs.request (a : TestAtArgs) : Except Failure TestAtRequest :=
  if a.line == 0 || a.column == 0 then .error .positionBase
  else .ok { path := a.file, line := a.line, column := a.column, leaf := a.leaf }

def LaunchArgs.position (a : LaunchArgs) : Except Failure (Option (UInt32 × UInt32)) :=
  match a.line, a.column with
  | none, _ => .ok none
  | some line, column =>
    let column := column.getD 1
    if line == 0 || column == 0 then .error .positionBase else .ok (some (line, column))

def IndexArgs.config (a : IndexArgs) : IndexConfig where
  paths := pathsOrHere a.paths
  globs := a.globs
  excludeGlobs := a.excludeGlobs
  indexPath := a.indexPath.getD defaultIndexPath

def IndexInfoArgs.config (a : IndexInfoArgs) : IndexConfig where
  paths := pathsOrHere a.paths
  indexPath := a.indexPath.getD defaultIndexPath

def anyText (_ : String) : Option Stop := none

def pathText (text : String) : Option Stop := if text.isEmpty then some .invalidValue else none

def formatText (text : String) : Option Stop :=
  if (Format.ofName? text).isSome then none else some .invalidValue

def number? (text : String) : Option Nat :=
  match text.toList with
  | '-' :: digits => do
    guard ((← Text.nat? digits) == 0)
    return 0
  | _ => Text.unsigned? UInt32.size text

def numberText (text : String) : Option Stop :=
  if (number? text).isSome then none else some .malformedValue

def styleText (text : String) : Option Stop :=
  if (Style.ofText? text).isSome then none else some .malformedValue

def helpOption : OptionSpec := { name := "help", letter := some 'h', kind := .request .help }

def versionOption : OptionSpec :=
  { name := "version", letter := some 'V', kind := .request .version }

def schemaVersionOption : OptionSpec := { name := "schema-version", kind := .flag }

def pathOption : OptionSpec := { name := "path", letter := some 'p', kind := .repeated pathText }

def globOption : OptionSpec := { name := "glob", kind := .repeated anyText }

def excludeOption : OptionSpec := { name := "exclude", kind := .repeated anyText }

def indexPathOption : OptionSpec := { name := "index-path", kind := .single pathText }

def formatOption : OptionSpec := { name := "format", kind := .single formatText }

def serverOptions : List OptionSpec :=
  [{ name := "server", kind := .single anyText }, { name := "no-server", kind := .flag }]

def fileOption : OptionSpec := { name := "file", kind := .single pathText }

def lineOption : OptionSpec := { name := "line", kind := .single numberText }

def columnOption : OptionSpec := { name := "column", kind := .single numberText }

namespace Reading

def format (r : Reading) : Format := ((r.value? "format").bind Format.ofName?).getD .text

def uint32? (r : Reading) (name : String) : Option UInt32 :=
  ((r.value? name).bind number?).map UInt32.ofNat

def remote (r : Reading) (environment : Option String) : ServerChoice where
  server := (r.value? "server").or environment
  noServer := r.has "no-server"

end Reading

structure CommandSpec where
  name : String
  options : List OptionSpec
  required : List String := []
  needs : List (String × String) := []
  build : Reading → Option String → Option Command

def commandSpecs : List CommandSpec :=
  [{ name := "scan"
     options := [pathOption, globOption, excludeOption,
       { name := "hide-callbacks", kind := .flag }, { name := "hide-includes", kind := .flag },
       { name := "use-index", kind := .flag }, indexPathOption, formatOption] ++ serverOptions
     build := fun r env => some (.scan
       { paths := r.values "path", globs := r.values "glob", excludeGlobs := r.values "exclude"
         hideCallbacks := r.has "hide-callbacks", hideIncludes := r.has "hide-includes"
         useIndex := r.has "use-index", indexPath := r.value? "index-path", format := r.format
         remote := r.remote env }) },
   { name := "test-at"
     options := [fileOption, lineOption, columnOption, { name := "leaf", kind := .flag },
       formatOption] ++ serverOptions
     required := ["file", "line"]
     build := fun r env => do
       return .testAt
         { file := ← r.value? "file", line := ← r.uint32? "line"
           column := (r.uint32? "column").getD 1, leaf := r.has "leaf", format := r.format
           remote := r.remote env } },
   { name := "command"
     options :=
       [fileOption, lineOption, columnOption, { name := "package", kind := .single anyText },
         formatOption]
     needs := [("line", "file"), ("column", "line")]
     build := fun r _ => some (.launch
       { file := r.value? "file", line := r.uint32? "line", column := r.uint32? "column"
         package := r.value? "package", format := r.format }) },
   { name := "skeleton"
     options := [{ name := "style", kind := .single styleText },
       { name := "name", kind := .single anyText }]
     required := ["style", "name"]
     build := fun r _ => do
       return .skeleton (← (r.value? "style").bind Style.ofText?) (← r.value? "name") },
   { name := "styles"
     options := [formatOption]
     build := fun r _ => some (.styles r.format) },
   { name := "index"
     options := [pathOption, globOption, excludeOption, indexPathOption, formatOption]
       ++ serverOptions
     build := fun r env => some (.index
       { paths := r.values "path", globs := r.values "glob", excludeGlobs := r.values "exclude"
         indexPath := r.value? "index-path", format := r.format, remote := r.remote env }) },
   { name := "index-info"
     options := [pathOption, indexPathOption, formatOption] ++ serverOptions
     build := fun r env => some (.indexInfo
       { paths := r.values "path", indexPath := r.value? "index-path", format := r.format
         remote := r.remote env }) },
   { name := "serve"
     options := [{ name := "addr", kind := .single anyText }]
     build := fun r _ => some (.serve ((r.value? "addr").getD defaultAddress)) }]

def commandSpec? (name : String) : Option CommandSpec := commandSpecs.find? (·.name == name)

def CommandSpec.read (spec : CommandSpec) (words : List String) (environment : Option String) :
    Except Stop Command := do
  let r ← Reading.ofWords (helpOption :: spec.options) words
  r.demand spec.required spec.needs
  match spec.build r environment with
  | some command => .ok command
  | none => .error .missingArgument

def helpOn : List String → Stop
  | [] => .help
  | [name] => if name == "help" || (commandSpec? name).isSome then .help else .unknownCommand
  | _ => .unknownCommand

def readFrom (environment : Option String) (r : Reading) : List String → Except Stop Invocation
  | [] => .ok { schemaVersion := r.has schemaVersionOption.name }
  | word :: rest =>
    let known := word == "help" || (commandSpec? word).isSome
    -- after two hyphens alone no command follows any more
    if known && !r.escaped then
      match commandSpec? word with
      | none => .error (helpOn rest)
      | some spec => do
        let command ← spec.read rest environment
        return { schemaVersion := r.has schemaVersionOption.name, command := some command }
    else do
      let stray := if known then Stop.unknownArgument else .unknownCommand
      let r ← r.word [schemaVersionOption, helpOption, versionOption] stray word
      readFrom environment r rest

def Invocation.read (words : List String) (environment : Option String) :
    Except Stop Invocation :=
  readFrom environment {} words

end SpecAtlas.CommandLine

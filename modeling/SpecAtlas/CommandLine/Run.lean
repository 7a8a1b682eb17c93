import SpecAtlas.Client
import SpecAtlas.CommandLine.Address
import SpecAtlas.Report.Lines
import SpecAtlas.Report.Table
import SpecAtlas.Settings.Defaults

/-!
Carrying out a command line in a workspace: the settings of the project are looked up, completed
into the arguments, and the result is written in the format that was asked for.
-/

namespace SpecAtlas.CommandLine

open Json

inductive Outcome where
  | stopped (stop : Stop)
  | printed (text : String)
  | failed (e : Failure)
  | listen (address : String)
deriving Repr

structure CommandHelp where
  name : String
  about : String

def commandHelp : List CommandHelp :=
  [⟨"scan", "Scan Kotlin sources and report specs, tests, callbacks and includes"⟩,
    ⟨"test-at", "Show the test at a source position"⟩,
    ⟨"command", "Print console runner arguments for a spec, a test, or a package"⟩,
    ⟨"skeleton", "Print the source template for a new test in a given style"⟩,
    ⟨"styles", "List the supported spec styles"⟩,
    ⟨"index", "Build or update the report index"⟩,
    ⟨"index-info", "Inspect an existing index without modifying it"⟩,
    ⟨"serve", "Run a long-lived HTTP+JSON daemon"⟩,
    ⟨"help", "Print this message or the help of the given subcommand(s)"⟩]

def helpText : String :=
  let width := Text.maxWidth (commandHelp.map CommandHelp.name)
  unlines
    (["Discover Kotest specs and tests in Kotlin sources", "",
      "Usage: specscan [OPTIONS] [COMMAND]", "", "Commands:"]
      ++ commandHelp.map (fun c => "  " ++ Text.padRight width c.name ++ "  " ++ c.about)
      ++ ["", "Options:",
        "      --schema-version  Print the JSON schema version used for "
          ++ "`scan --format=json` output and exit",
        "  -h, --help            Print help",
        "  -V, --version         Print version",
        ""])

def versionText : String := unlines ["specscan " ++ toolVersion]

def schemaVersionText : String :=
  unlines ["Scan result JSON schema version: " ++ scanResultVersion]

def jsonLine (v : Value) : String := unlines [v.render]

def showScan (r : ScanResult) : Format → String
  | .text => r.text
  | .table => r.table
  | .json => jsonLine r.toJson

def showTestAt (r : TestAtResult) : Format → String
  | .text | .table => r.text
  | .json => jsonLine r.toJson

def showLaunch (c : LaunchCommand) : Format → String
  | .text | .table => unlines [c.text]
  | .json => jsonLine c.toJson

def showStyles : Format → String
  | .text => StyleInfo.listText StyleInfo.all
  | .table => StyleInfo.listTable StyleInfo.all
  | .json => jsonLine (.array (StyleInfo.all.map StyleInfo.toJson))

def showBuilt (s : IndexSummary) : Format → String
  | .text | .table => s.builtText
  | .json => jsonLine s.toJson

def showIndex (s : IndexSummary) : Format → String
  | .text | .table => s.infoText
  | .json => jsonLine s.toJson

def upward (here : List String) : List (List String) :=
  (List.range (here.length + 1)).map fun n => here.take (here.length - n)

def settingsPath? (w : Workspace) : Option String :=
  let candidates := (upward w.here).map fun dir => w.tree.pathOf dir ++ "/" ++ Settings.fileName
  candidates.find? w.files.hasFile

def settings (w : Workspace) : Except Failure (Option Settings) :=
  match settingsPath? w with
  | none => .ok none
  | some path =>
    match w.files.read path with
    | .error e => .error (.configUnreadable path e)
    | .ok text =>
      match Settings.ofText? text with
      | none => .error (.configInvalid path)
      | some s => .ok (some s)

def Outcome.ofResult {α : Type} (display : α → String) : Except Failure α → Outcome
  | .ok a => .printed (display a)
  | .error e => .failed e

def delegated {α : Type} (choice : ServerChoice)
    (remote : String → Workspace → Workspace × Except Failure α)
    (locally : Workspace → Workspace × Except Failure α) (w : Workspace) :
    Workspace × Except Failure α :=
  match choice.effective with
  | some server => remote server w
  | none => locally w

def Command.run (send : Transport) (w : Workspace) : Command → Workspace × Outcome
  | .scan a =>
    let (w, r) := delegated a.remote (Client.scan send · a.config) (·.scan a.config) w
    (w, .ofResult (showScan · a.format) r)
  | .testAt a =>
    match a.request with
    | .error e => (w, .failed e)
    | .ok request =>
      let (w, r) :=
        delegated a.remote (Client.testAt send · request) (fun w => (w, w.testAt request)) w
      (w, .ofResult (showTestAt · a.format) r)
  | .launch a =>
    (w, .ofResult (showLaunch · a.format)
      (a.position.bind fun position => w.launch a.file position a.package))
  | .skeleton style name => (w, .printed (unlines [style.skeleton name]))
  | .styles format => (w, .printed (showStyles format))
  | .index a =>
    let (w, r) := delegated a.remote (Client.buildIndex send · a.config) (·.buildIndex a.config) w
    (w, .ofResult (showBuilt · a.format) r)
  | .indexInfo a =>
    let (w, r) :=
      delegated a.remote (Client.describeIndex send · a.config) (·.describeIndex a.config) w
    (w, .ofResult (showIndex · a.format) r)
  | .serve addr => (w, if Address.isValid addr then .listen addr else .failed .badAddress)

def Invocation.run (send : Transport) (w : Workspace) (i : Invocation) : Workspace × Outcome :=
  -- the version is told even if the settings are faulty
  if i.schemaVersion then (w, .printed schemaVersionText)
  else
    match settings w with
    | .error e => (w, .failed e)
    | .ok s =>
      match i.command with
      | none => (w, .printed helpText)
      | some command => ((s.map Settings.complete).getD id command).run send w

def run (send : Transport) (environment : Option String) (words : List String) (w : Workspace) :
    Workspace × Outcome :=
  match Invocation.read words environment with
  | .error stop => (w, .stopped stop)
  | .ok invocation => invocation.run send w

end SpecAtlas.CommandLine

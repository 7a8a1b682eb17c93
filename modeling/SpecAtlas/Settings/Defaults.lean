import SpecAtlas.CommandLine.Command

/-!
Project settings as defaults of a command line. A setting counts only where the command line leaves
the argument open; an argument that was given its default value counts as open.
-/

namespace SpecAtlas.Settings

open CommandLine

def orList (given default : List String) : List String := if given.isEmpty then default else given

def orFlag (given : Bool) (default : Option Bool) : Bool := given || default == some true

def orFormat (given : Format) (default : Option Format) : Format :=
  if given == .text then default.getD given else given

def orServer (s : Settings) (given : ServerChoice) (section_ : Option String)
    (noServer : Option Bool) : ServerChoice where
  server := (given.server.or section_).or (s.http.bind Http.serverUrl)
  noServer := orFlag given.noServer noServer

def scanArgs (s : Settings) (a : ScanArgs) : ScanArgs :=
  let d := s.scan.getD {}
  { paths := orList a.paths d.paths
    globs := orList a.globs d.globs
    excludeGlobs := orList a.excludeGlobs d.excludeGlobs
    hideCallbacks := orFlag a.hideCallbacks d.hideCallbacks
    hideIncludes := orFlag a.hideIncludes d.hideIncludes
    useIndex := orFlag a.useIndex d.useIndex
    indexPath := a.indexPath.or d.indexPath
    format := orFormat a.format d.format
    remote := s.orServer a.remote d.server d.noServer }

def testAtArgs (s : Settings) (a : TestAtArgs) : TestAtArgs :=
  { a with remote := s.orServer a.remote none none }

def indexArgs (s : Settings) (a : IndexArgs) : IndexArgs :=
  let d := s.index.getD {}
  { paths := orList a.paths d.paths
    globs := orList a.globs d.globs
    excludeGlobs := orList a.excludeGlobs d.excludeGlobs
    indexPath := a.indexPath.or d.indexPath
    format := a.format
    remote := s.orServer a.remote d.server d.noServer }

def indexInfoArgs (s : Settings) (a : IndexInfoArgs) : IndexInfoArgs :=
  let d := s.indexInfo.getD {}
  { paths := orList a.paths d.paths
    indexPath := a.indexPath.or d.indexPath
    format := orFormat a.format d.format
    remote := s.orServer a.remote d.server d.noServer }

def address (s : Settings) (addr : String) : String :=
  if addr == defaultAddress then (s.serve.bind Serve.addr).getD addr else addr

def complete (s : Settings) : Command → Command
  | .scan a => .scan (s.scanArgs a)
  | .testAt a => .testAt (s.testAtArgs a)
  | .index a => .index (s.indexArgs a)
  | .indexInfo a => .indexInfo (s.indexInfoArgs a)
  | .serve addr => .serve (s.address addr)
  | command@(.launch _) | command@(.skeleton _ _) | command@(.styles _) => command

end SpecAtlas.Settings

import SpecAtlas.CommandLine.Run
import SpecAtlas.Snapshot

/-!
The command line program. It works in a snapshot of a directory, which it reads from standard input.
-/

open SpecAtlas

def main (args : List String) : IO UInt32 := do
  let some workspace := Snapshot.ofText? (← (← IO.getStdin).readToEnd)
    | IO.eprintln "Error: no snapshot on standard input"
      return 1
  let server ← IO.getEnv "SPECSCAN_SERVER_URL"
  match (CommandLine.run .offline server args workspace).2 with
  | .printed output =>
    IO.print output
    return 0
  | .failed e =>
    IO.eprintln ("Error: " ++ e.chain)
    return 1
  | .listen address =>
    IO.eprintln ("Error: cannot listen at " ++ address)
    return 1
  | .stopped .help =>
    IO.print CommandLine.helpText
    return 0
  | .stopped .version =>
    IO.print CommandLine.versionText
    return 0
  | .stopped stop =>
    IO.eprintln ("Error: " ++ stop.message)
    return 2

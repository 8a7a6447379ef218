import SchedAudit.CommandLine.Checking
import SchedAudit.Simulator.Recorded

/-!
# The program

The outermost layer: it looks at the files that a session may ask for, runs the session, and prints
what comes of it. The traces of a batch are the recorded ones beside the scenarios, and the simulator
that replays them is called by a path; none is installed under a name.
-/

namespace SchedAudit.Main

open CommandLine

/-- What stands at a path. What is neither a directory nor a regular file counts as nothing. -/
def look (path : String) : IO (Found true) := do
  let place := System.mkFilePath [path]
  match ← place.metadata.toBaseIO with
  | .error _ => return .nothing
  | .ok data =>
    match data.type with
    | .dir => return .directory
    | .file =>
      match ← (IO.FS.readBinFile place).toBaseIO with
      | .ok content => return .file content
      | .error _ => return .sealed
    | _ => return .nothing

/-- The names in a directory. -/
def names (path : String) : IO (List String) := do
  let place := System.mkFilePath [path]
  if ← place.isDir then return (← place.readDir).toList.map (·.fileName)
  return []

/-- A directory and what it holds, with the recorded traces below it. -/
def lookInto (directory : String) : IO (List (String × Found true) × (String × List String)) := do
  let inside ← names directory
  let traces := Path.join directory "traces"
  let paths := directory :: inside.map (Path.join directory) ++
    (← names traces).map (Path.join traces)
  return (← paths.mapM fun path => return (path, ← look path), (directory, inside))

/-- The files that a session may ask for. -/
def filesFor (o : Options) : IO Files := do
  let single ← o.filePaths.mapM fun path => return (path, ← look path)
  let directories ← o.directories.mapM lookInto
  return Files.ofSeen (single ++ directories.flatMap (·.1)) (directories.map (·.2))

/-- The files of a session that has arguments. -/
def filesOf (arguments : List String) : IO Files :=
  match Options.parse? arguments with
  | some o => filesFor o
  | none => return Files.ofSeen [] []

/-- What a simulator does that is called by a text. -/
def programAt (files : Files) (text : String) : Program :=
  if Path.hasSlash text then Recorded.program files else Program.missing

end SchedAudit.Main

open SchedAudit in
/-- Runs a session, prints what it prints, and returns its status. -/
def main (arguments : List String) : IO UInt32 := do
  let files ← Main.filesOf arguments
  let session := CommandLine.run ⟨files, Main.programAt files, 1⟩ arguments
  for output in session.output do
    IO.println output.text
  match session.conclusion with
  | .stopped fatal => IO.eprintln fatal.message
  | .misused => IO.eprintln "the arguments are not understood"
  | _ => pure ()
  return session.conclusion.status

import SchedAudit.Arguments
import SchedAudit.Files.Tree
import SchedAudit.Simulator

/-!
# Recorded traces in place of a simulation

Where the traces of a scenario have been recorded, they stand in for the simulator. They lie in the
directory `traces` beside the scenario: one for each policy, under the name by which the arguments
tell it, or one for all of them. `Recorded.program` takes the arguments of a simulator and leaves
the trace that was recorded.
-/

namespace SchedAudit.Recorded

/-- The options of the simulator. -/
def options : List ArgumentOption :=
  [{ name := "i", letter := 'i', hasLongName := false },
    { name := "p", letter := 'p', hasLongName := false },
    { name := "o", letter := 'o', hasLongName := false },
    { name := "reclaim" }, { name := "dvfs" }]

/-- The name by which the arguments tell a policy: what they say about frequencies, or else about
reclaiming. -/
def tag? (given : Arguments.Given) : Option String :=
  (given.text? "dvfs").or (given.text? "reclaim")

/-- Where traces of a scenario may lie, the first place first. -/
def places (scenario : String) (tag : Option String) : List String :=
  let stem := Path.stem scenario
  (tag.map fun t => Path.beside scenario s!"traces/{stem}.{t}.json").toList ++
    [Path.beside scenario s!"traces/{stem}.json"]

/-- The place of the recorded trace of a scenario. -/
def place? (files : Files) (scenario : String) (tag : Option String) : Option String :=
  (places scenario tag).find? fun path => (files.look path).isFile

/-- What is said where no trace was recorded. -/
def noTraceMessage (scenario : String) : String := s!"Error: no recorded trace for {scenario}\n"

/-- What is said where the recorded trace cannot be copied. -/
def noCopyMessage (place output : String) (reason : Unreadable) : String :=
  s!"Error: Cannot copy {place} to {output}\n\nCaused by:\n    {reason.message}\n"

/-- A program that fails at once, and leaves its output file empty. -/
def failing (status : UInt8) (message : String) : Behaviour :=
  .ended 0 (.exited status) message.toUTF8 (.file ByteArray.empty)

/-- What the arguments ask for. -/
structure Request where
  /-- the scenario whose trace is wanted -/
  scenario : String
  /-- where the trace is wanted -/
  output : String
  /-- the name of the policy, if there is one -/
  tag : Option String

/-- What is asked for by arguments. They must tell a platform too. -/
def request? (arguments : List String) : Option Request := do
  let given ← Arguments.parse? options arguments
  let scenario ← (given.text? "i").bind Arguments.path?
  let _ ← (given.text? "p").bind Arguments.path?
  let output ← (given.text? "o").bind Arguments.path?
  return ⟨scenario, output, tag? given⟩

/-- Copies what stands at a place. What cannot be read cannot be copied. -/
def copying (place output : String) (found : Found true) : Behaviour :=
  match found.content with
  | .ok content => .ended 0 (.exited 0) ByteArray.empty (.file content)
  | .error reason => failing 1 (noCopyMessage place output reason)

/-- Leaves the recorded trace of the scenario that the arguments tell. -/
def program (files : Files) : Program := fun arguments =>
  match request? arguments with
  | none => failing 2 "error: unexpected or missing arguments\n"
  | some request =>
    match place? files request.scenario request.tag with
    | some place => copying place request.output (files.look place)
    | none => failing 1 (noTraceMessage request.scenario)

end SchedAudit.Recorded

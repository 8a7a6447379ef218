import SchedAudit.Run
import SchedAudit.Text.Blank
import SchedAudit.Text.Utf8

/-!
# The simulator

A trace is made by a program of its own, the simulator. It is told a scenario, a platform and the
arguments of a policy, and is to leave a trace in a file. A `Program` is what can be seen of it from
outside: for each list of arguments, whether it can be started, how long it takes, how it ends, and
what it leaves behind.

`Simulator.trace` reads the trace of one run, or says why there is none. Several things can be wrong
at once, and they are looked at in a set order: whether the program started and ended in time,
whether it ended well, whether it left a text, whether the text is a trace. So a program that ends
badly has no trace, whatever it left behind.
-/

namespace SchedAudit

/-- How a program ended. -/
inductive Ending where
  /-- with a status; zero means success -/
  | exited (status : UInt8)
  /-- by a signal -/
  | killed
deriving Repr, DecidableEq

/-- An ending in words. -/
def Ending.text : Ending → String
  | .exited status => s!"status {status.toNat}"
  | .killed => "signal"

/-- What a program does when it is to be started. -/
inductive Behaviour where
  /-- it cannot be started -/
  | unstartable
  /-- it does not end -/
  | endless
  /-- it ends after so many milliseconds, having written to its error stream and left something in
  the place of the output file -/
  | ended (milliseconds : Nat) (ending : Ending) (stderr : ByteArray) (output : Found true)

/-- What a program does for each list of arguments. -/
abbrev Program := List String → Behaviour

/-- No program at all. -/
def Program.missing : Program := fun _ => .unstartable

/-- How the simulator is run. -/
structure Simulator where
  /-- the path of the program -/
  path : String
  /-- what the program does -/
  program : Program
  /-- the path of the platform that it is told -/
  platform : String
  /-- its time limit in milliseconds -/
  timeout : Nat

namespace Simulator

/-- The name by which the output file goes here; a run has one of its own. -/
def outputName : String := "trace.json"

/-- The arguments of one run. -/
def arguments (s : Simulator) (scenario : String) (flags : List String) : List String :=
  ["-i", scenario, "-p", s.platform] ++ flags ++ ["-o", outputName]

/-- How many characters of the error stream are told. -/
def excerptLength : Nat := 512

/-- What is told of an error stream: its first characters, without blanks at the ends of the
whole. -/
def excerpt (stderr : ByteArray) : String :=
  String.ofList ((Blank.trim (Utf8.decode stderr)).take excerptLength)

/-- The trace that a program left behind. -/
def traceOf (s : Simulator) : Behaviour → Except RunError Trace
  | .unstartable => .error (.spawn s.path)
  | .endless => .error (.timeout s.timeout)
  | .ended milliseconds ending stderr output =>
    if s.timeout < milliseconds then .error (.timeout s.timeout)
    else if ending = .exited 0 then Trace.load output
    else .error (.simulatorFailed ending.text (excerpt stderr))

/-- The trace of a scenario, made with the arguments of a policy. -/
def trace (s : Simulator) (scenario : String) (flags : List String) : Except RunError Trace :=
  s.traceOf (s.program (s.arguments scenario flags))

end Simulator

end SchedAudit

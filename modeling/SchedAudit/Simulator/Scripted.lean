import SchedAudit.Files.Path
import SchedAudit.Simulator

/-!
# A simulator that follows a script

To try out what a batch makes of a simulator, a script says what the simulator does: it is a list
of rules, and the first rule that fits a run holds.
-/

namespace SchedAudit.Scripted

/-- What the simulator does in some runs. -/
structure Rule where
  /-- the stem of the scenario file, or any -/
  stem : Option String := none
  /-- the arguments of the policy as a whole, or any -/
  flags : Option (List String) := none
  /-- what is written into the output file -/
  output : ByteArray := ByteArray.empty
  /-- whether the output file is removed then -/
  removesOutput : Bool := false
  /-- what is written to the error stream -/
  stderr : ByteArray := ByteArray.empty
  /-- how it ends, if it does -/
  ending : Option Ending := some (.exited 0)

/-- Whether a rule is about a run. -/
def Rule.fits (r : Rule) (stem : String) (flags : List String) : Bool :=
  (r.stem.all (· == stem)) && (r.flags.all (· == flags))

/-- What the simulator does by a rule. -/
def Rule.behaviour (r : Rule) : Behaviour :=
  match r.ending with
  | none => .endless
  | some ending =>
    .ended 0 ending r.stderr (if r.removesOutput then .nothing else .file r.output)

/-- What is said where no rule fits. -/
def noRuleMessage (stem : String) (flags : List String) : String :=
  "no rule: " ++ stem ++ " [" ++ " ".intercalate flags ++ "]"

/-- Does what the first fitting rule says, and fails where none fits. The arguments of the policy
stand between those that tell the scenario and the platform and those that tell the output. -/
def program (rules : List Rule) : Program := fun arguments =>
  let scenario := (arguments.drop 1).headD ""
  let flags := (arguments.drop 4).dropLast.dropLast
  let stem := Path.stem scenario
  match rules.find? fun r => r.fits stem flags with
  | some r => r.behaviour
  | none =>
    .ended 0 (.exited 9) (noRuleMessage stem flags).toUTF8 (.file ByteArray.empty)

end SchedAudit.Scripted

import SchedAudit.Files.Found
import SchedAudit.Policy
import SchedAudit.Yaml.Reading

/-!
# Settings of a batch

A batch of runs has settings: how long the simulator may take, which policies are run with which
arguments, which files are no scenarios, and how many violations a summary lists. A settings file
may give any of them; what it leaves out keeps its default.

`SettingsFile` is what a file says, `Settings.overlay` what comes of it. Two things that a file may
say make no sense, and are told apart from a file that cannot be read at all: a time limit of zero,
and a list of policies without any.
-/

namespace SchedAudit

/-! ## Settings and their defaults -/

/-- The settings of a batch. -/
structure Settings where
  /-- time limit of one simulator run in milliseconds -/
  timeout : Nat
  /-- the policies to run, in the order of reports -/
  policies : List Policy
  /-- the arguments by which the simulator is told a policy -/
  flags : Policy → List String
  /-- names of files among the hand-crafted scenarios that are none -/
  skipFiles : List String
  /-- how many violations of each invariant a summary lists -/
  maxFailureDetails : Nat

namespace Settings

/-- What holds where nothing is said. -/
def default : Settings where
  timeout := 60 * 1000
  policies := Policy.all
  flags := Policy.defaultFlags
  skipFiles := ["ci-output.json", "ci-input.json", "ex1.json", "ex2.json"]
  maxFailureDetails := 10

/-- Whether settings say the same as the defaults. -/
def isDefault (s : Settings) : Bool :=
  s.timeout == default.timeout && s.policies == default.policies &&
    Policy.all.all (fun p => s.flags p == default.flags p) &&
    s.skipFiles == default.skipFiles && s.maxFailureDetails == default.maxFailureDetails

/-- Whether a file is known to be no scenario. -/
def isSkipped (s : Settings) (fileName : String) : Bool := s.skipFiles.contains fileName

end Settings

/-! ## Settings files -/

/-- What a settings file says. -/
structure SettingsFile where
  /-- time limit in seconds -/
  timeoutSecs : Option Nat := none
  /-- the policies to run -/
  policies : Option (List Policy) := none
  /-- arguments of policies; the last ones of a policy count -/
  policyFlags : List (Policy × List String) := []
  /-- names of files that are no scenarios -/
  skipFiles : Option (List String) := none
  /-- how many violations a summary lists -/
  maxFailureDetails : Option Nat := none

namespace SettingsFile

open Yaml (Document Node) in
/-- Takes one field of a settings file. -/
def setField? (d : Document) (file : SettingsFile) (field : String × Node) : Option SettingsFile :=
  match field.1 with
  | "timeout_secs" => do
    return { file with timeoutSecs := ← Document.optional? Document.natural? d field.2 }
  | "policies" => do
    let read := Document.list? (Document.choice? Policy.ofName?)
    return { file with policies := ← Document.optional? read d field.2 }
  | "policy_flags" => do
    let read := Document.pairs? (Document.choice? Policy.ofName?) (Document.list? Document.text?)
    return { file with policyFlags := ← read d field.2 }
  | "skip_files" => do
    let read := Document.list? Document.text?
    return { file with skipFiles := ← Document.optional? read d field.2 }
  | "max_failure_details" => do
    return { file with maxFailureDetails := ← Document.optional? Document.natural? d field.2 }
  | _ => none

/-- The fields of a settings file. -/
def fieldNames : List String :=
  ["timeout_secs", "policies", "policy_flags", "skip_files", "max_failure_details"]

/-- What a text says. -/
def parse? (source : String) : Option SettingsFile := do
  let d ← Yaml.Document.parse? source
  (← d.fields? fieldNames).foldlM (setField? d) {}

end SettingsFile

/-! ## Loading -/

/-- What makes no sense in a settings file. -/
inductive SettingsFault where
  | zeroTimeout
  | noPolicy
deriving Repr, DecidableEq

/-- The fault in words. -/
def SettingsFault.message : SettingsFault → String
  | .zeroTimeout => "timeout_secs must be positive"
  | .noPolicy => "policies must name at least one policy"

/-- Why settings cannot be loaded. -/
inductive SettingsError where
  /-- there is no text at the path -/
  | unreadable (path : String) (reason : Unreadable)
  /-- the text is no YAML, or not of settings -/
  | malformed (path : String)
  /-- the settings make no sense -/
  | invalid (path : String) (fault : SettingsFault)
deriving Repr, DecidableEq

/-- The error in words, from the outside in. -/
def SettingsError.message : SettingsError → String
  | .unreadable path reason => s!"Cannot open configuration file: {path}: {reason.message}"
  | .malformed path => s!"Failed to parse YAML file: {path}"
  | .invalid path fault => s!"Invalid configuration in {path}: {fault.message}"

namespace Settings

/-- The arguments of policies, where `given` says more than `otherwise`. -/
def overlayFlags (otherwise : Policy → List String) (given : List (Policy × List String)) :
    Policy → List String :=
  fun p => (given.reverse.lookup p).getD (otherwise p)

/-- A list without repetitions, each element at its first place. -/
def firstOccurrences (policies : List Policy) : List Policy :=
  policies.foldl (fun kept p => if kept.contains p then kept else kept ++ [p]) []

/-- The settings that a file gives. A time limit of zero is told first. -/
def overlay (file : SettingsFile) : Except SettingsFault Settings :=
  if file.timeoutSecs = some 0 then .error .zeroTimeout
  else if file.policies = some [] then .error .noPolicy
  else
    .ok {
      timeout := (file.timeoutSecs.map (· * 1000)).getD default.timeout
      policies := (file.policies.map firstOccurrences).getD default.policies
      flags := overlayFlags default.flags file.policyFlags
      skipFiles := file.skipFiles.getD default.skipFiles
      maxFailureDetails := file.maxFailureDetails.getD default.maxFailureDetails }

/-- Loads the settings found at a path. -/
def loadFile {guarded : Bool} (path : String) (found : Found guarded) :
    Except SettingsError Settings :=
  match found.text with
  | .error reason => .error (.unreadable path reason)
  | .ok source =>
    match SettingsFile.parse? source with
    | none => .error (.malformed path)
    | some file =>
      match overlay file with
      | .error fault => .error (.invalid path fault)
      | .ok settings => .ok settings

/-- Loads the settings at a path, or the defaults where no path is given. -/
def load {guarded : Bool} (source : Option (String × Found guarded)) :
    Except SettingsError Settings :=
  match source with
  | none => .ok default
  | some (path, found) => loadFile path found

end Settings

end SchedAudit

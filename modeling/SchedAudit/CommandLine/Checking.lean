import SchedAudit.CommandLine.Options
import SchedAudit.CommandLine.Session
import SchedAudit.Summary.Generated
import SchedAudit.Summary.Handcrafted

/-!
# What the command line does

A session loads the settings and the platform. Then it checks one recorded trace, or it runs the
batch of hand-crafted scenarios and the batch of generated ones, either of which may be left out,
and prints a summary of each. It fails when a trace breaks an invariant. Runs that come to no
verdict do not make it fail.

The runs of a batch finish in any order, and `runIn` is told which.
-/

namespace SchedAudit.CommandLine

/-- What a session finds around itself. -/
structure Surroundings where
  /-- the files -/
  files : Files
  /-- what the program does that is called by a text: the one at a path, or an installed one where the
  text has no slash -/
  programAt : String → Program
  /-- how many runs are made side by side unless the arguments say so -/
  defaultWorkers : Nat

variable (world : Surroundings) (order : List PlannedRun → List PlannedRun) (o : Options)

/-! ## What both kinds of sessions need -/

/-- A regular file is wanted at a path. -/
def requireFile (what path : String) : Except Fatal Unit :=
  if (world.files.look path).isFile then .ok () else .error (.notFound what path)

/-- A directory is wanted at a path. -/
def requireDirectory (what path : String) : Except Fatal Unit :=
  if (world.files.look path).isDirectory then .ok () else .error (.notFound what path)

/-- Loads the settings, and then the platform. -/
def load : Except Fatal (Settings × Platform) := do
  let source := o.settings.map fun p => (p, world.files.look p)
  let settings ← (Settings.load source).mapError .settings
  requireFile world "Platform file" o.platform
  let platform ← (Platform.load o.platform (world.files.look o.platform)).mapError .platform
  return (settings, platform)

/-! ## One recorded trace -/

/-- The report on a recorded trace. -/
def reportOn (platform : Platform) (r : Recording) : Except Fatal Report := do
  requireFile world "Trace file" r.trace
  requireFile world "Scenario file" r.scenario
  (Report.ofRecording platform r.policy o.diagnoses r.scenario (world.files.look r.scenario)
    (world.files.look r.trace)).mapError (.recording r.trace)

/-- The verdict on a report. -/
def reportVerdict (report : Report) : String :=
  if report.passed then "PASS" else s!"FAIL ({report.violations.length} violations)"

/-- What is printed about a report: its violations, their explanations, and the verdict. -/
def reportLines (report : Report) : List String :=
  report.violations.map (·.text) ++ report.diagnoses ++ [reportVerdict report]

/-- Checks a recorded trace. -/
def checkRecording (platform : Platform) (r : Recording) : Session :=
  match reportOn world o platform r with
  | .error fatal => ⟨[], .stopped fatal⟩
  | .ok report => ⟨(reportLines report).map .line, .ofPassed report.passed⟩

/-! ## Batches -/

/-- One batch of a session: what is printed about it, and whether it passed, unless it made the
session end. -/
structure Section where
  output : List Output
  passed : Except Fatal Bool

/-- The explanations in the reports of a batch, each under the label of its run. -/
def explanationLines (results : List RunResult) : List String :=
  results.flatMap fun r =>
    match r.outcome with
    | .completed report => report.diagnoses.flatMap fun d => ["[" ++ r.label ++ "]", d]
    | .skipped _ => []

/-- How many runs side by side can be kept count of. -/
def maxWorkers : Nat := Nat.pow 2 61 - 1

/-- How many runs are made side by side. -/
def workers : Nat := o.workers.getD world.defaultWorkers

/-- The section of a batch: its heading, what is told as it is run, and its summary. -/
def runSection (batch : Batch) (scenarios : List ScenarioFile) (heading : List Output)
    (summary : List RunResult → List String) : Section :=
  if maxWorkers < workers world o then ⟨heading, .error .tooManyWorkers⟩
  else
    let course := batch.courseIn order scenarios
    { output := heading ++ course.progress.map .progress ++
        (explanationLines course.results ++ [""] ++ summary course.results).map .line
      passed := .ok (RunResult.allPassed course.results) }

/-- A heading between empty lines. -/
def headingLines (heading : String) : List Output := [.line "", .line heading, .line ""]

/-- The section of hand-crafted scenarios. -/
def handcraftedSection (batch : Batch) : Section :=
  let directory := o.scenariosDirectory
  match Discovery.handcrafted? world.files batch.settings o.filter directory with
  | none => ⟨[], .error (.unlistable directory)⟩
  | some scenarios =>
    runSection world order o batch scenarios
      (headingLines s!"--- Hand-crafted scenarios: {scenarios.length} files in {directory} ---")
      Summary.Handcrafted.lines

/-- The section of generated scenarios. Without any it is only a heading. -/
def generatedSection (batch : Batch) : Section :=
  let directory := o.generatedDirectory
  match Discovery.generated? world.files o.filter directory with
  | none => ⟨[], .error (.unlistable directory)⟩
  | some scenarios =>
    let runs := scenarios.length * batch.settings.policies.length
    let heading := headingLines
      s!"--- Generated scenarios: {scenarios.length} files ({runs} runs) in {directory} ---"
    if scenarios.isEmpty then ⟨heading, .ok true⟩
    else
      runSection world order o batch scenarios heading
        (Summary.Generated.lines batch.settings.maxFailureDetails)

/-- The sections that the options ask for. -/
def sections (batch : Batch) : List Section :=
  (if o.handcrafted then [handcraftedSection world order o batch] else []) ++
    (if o.generated then [generatedSection world order o batch] else [])

/-- The verdict on both batches together; there is none on a single one. -/
def verdictLines (passed : Bool) : List Output :=
  if o.handcrafted && o.generated then
    [.line "", .line (if passed then "=== ALL CHECKS PASSED ===" else "=== SOME CHECKS FAILED ===")]
  else []

/-- Goes through the sections, after what has been printed and found so far. -/
def conclude (output : List Output) (passed : Bool) : List Section → Session
  | [] => ⟨output ++ verdictLines o passed, .ofPassed passed⟩
  | s :: rest =>
    match s.passed with
    | .error fatal => ⟨output ++ s.output, .stopped fatal⟩
    | .ok sectionPassed => conclude (output ++ s.output) (passed && sectionPassed) rest

/-- The directories of the batches and the simulator must be there. -/
def requireBatchFiles : Except Fatal Unit := do
  if o.handcrafted then requireDirectory world "Scenarios directory" o.scenariosDirectory
  if o.generated then requireDirectory world "Generated scenarios directory" o.generatedDirectory
  requireFile world "Simulator binary" o.simulator

/-- The lines in front of the batches. -/
def introduction (settings : Settings) : List Output :=
  [.line s!"Platform: {o.platform}",
    .line ("Policies: " ++ ", ".intercalate (settings.policies.map (·.name))),
    .line s!"Workers: {workers world o}"]

/-- What the runs of a session have in common. -/
def batchOf (settings : Settings) (platform : Platform) : Batch where
  platform := platform
  settings := settings
  simulator :=
    { path := o.simulator
      program := world.programAt o.simulator
      platform := o.platform
      timeout := settings.timeout }
  files := world.files
  diagnoses := o.diagnoses

/-- Runs the batches. -/
def checkBatches (settings : Settings) (platform : Platform) : Session :=
  match requireBatchFiles world o with
  | .error fatal => ⟨[], .stopped fatal⟩
  | .ok () =>
    conclude o (introduction world o settings) true
      (sections world order o (batchOf world o settings platform))

/-! ## Sessions -/

/-- What a session does by its options. -/
def runWith : Session :=
  match load world o with
  | .error fatal => ⟨[], .stopped fatal⟩
  | .ok (settings, platform) =>
    match o.recording with
    | some recording => checkRecording world o platform recording
    | none => checkBatches world order o settings platform

/-- What a session does by its arguments, whose runs finish in an order. -/
def runIn (arguments : List String) : Session :=
  match Options.parse? arguments with
  | none => ⟨[], .misused⟩
  | some o => runWith world order o

/-- What a session does by its arguments, whose runs are made one after the other. -/
def run (arguments : List String) : Session := runIn world id arguments

end SchedAudit.CommandLine

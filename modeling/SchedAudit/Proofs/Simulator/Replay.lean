import Mathlib
import SchedAudit.Proofs.Batch.Assembly
import SchedAudit.Simulator.Recorded

/-!
# A batch of recorded traces

A run of a batch and the check of a recorded trace are two ways to a report. The first one starts the
simulator, which gets its arguments as texts and leaves a file behind; the second one reads the trace
where it lies. When the simulator replays recorded traces, both come to the same report, or to the same
reason why there is none (`outcome_eq_ofRecording`). They part where the trace is a file that cannot be
read: one way ends in the simulator, which fails to copy it, and the other one in the trace.

The way there is through the arguments: what the arguments of a policy say is the same by itself and
between those that tell the scenario and the output (`calls?_append`, `request?_arguments`).
-/

namespace SchedAudit

/-! ## Arguments between others -/

namespace Arguments

variable {options : List ArgumentOption} {o : ArgumentOption} {arguments rest : List String}
  {argument value : String} {given : Given}

theorem calls?_of_attached {text : List Char} (hargument : argument ≠ "--")
    (hcall : call? options argument = some (o, some text)) (htakes : o.takesValue = true) :
    calls? options (argument :: rest) =
      (calls? options rest).map ((o.name, String.ofList text) :: ·) := by
  rw [calls?.eq_3 _ _ _ hargument, Option.map_eq_bind]
  simp only [hcall, htakes]
  rfl

theorem calls?_of_valueless (hargument : argument ≠ "--")
    (hcall : call? options argument = some (o, none)) (htakes : o.takesValue = false) :
    calls? options (argument :: rest) = (calls? options rest).map ((o.name, "") :: ·) := by
  rw [calls?.eq_3 _ _ _ hargument, Option.map_eq_bind]
  simp only [hcall, htakes]
  rfl

/-- The value of an option that has none attached is the next argument. -/
theorem calls?_of_next (hargument : argument ≠ "--")
    (hcall : call? options argument = some (o, none)) (htakes : o.takesValue = true) :
    calls? options (argument :: value :: rest) =
      if isValue value then (calls? options rest).map ((o.name, value) :: ·) else none := by
  rw [calls?.eq_3 _ _ _ hargument, Option.map_eq_bind]
  simp only [hcall, htakes]
  rfl

theorem exists_of_calls?_next (hargument : argument ≠ "--")
    (hcall : call? options argument = some (o, none)) (htakes : o.takesValue = true)
    (h : calls? options (argument :: value :: rest) = some given) :
    ∃ behind, calls? options rest = some behind ∧ given = (o.name, value) :: behind := by
  rw [calls?_of_next hargument hcall htakes] at h
  obtain ⟨-, hmap⟩ := Option.ite_none_right_eq_some.1 h
  obtain ⟨behind, hbehind, rfl⟩ := Option.map_eq_some_iff.1 hmap
  exact ⟨behind, hbehind, rfl⟩

/-- One more pair in front of what is said changes nothing about what is said then. -/
theorem exists_append_of_map {p : String × String} {x y : Option Given} {more : Option Given}
    (ih : ∀ {given}, y = some given → ∃ a b, x = some a ∧ more = some b ∧ given = a ++ b)
    (h : y.map (p :: ·) = some given) :
    ∃ a b, x.map (p :: ·) = some a ∧ more = some b ∧ given = a ++ b := by
  obtain ⟨given', hgiven', rfl⟩ := Option.map_eq_some_iff.1 h
  obtain ⟨a, b, rfl, hb, rfl⟩ := ih hgiven'
  exact ⟨p :: a, b, rfl, hb, rfl⟩

/-- **Arguments one after the other.** Where the second ones begin with one that cannot be a value,
the first ones say by themselves what they say in front of them. -/
theorem calls?_append {first : String} (hfirst : isValue first = false)
    (h : calls? options (arguments ++ first :: rest) = some given) :
    ∃ a b, calls? options arguments = some a ∧ calls? options (first :: rest) = some b ∧
      given = a ++ b := by
  induction arguments using calls?.induct options generalizing given with
  | case1 => exact ⟨[], given, calls?.eq_1 _, h, rfl⟩
  | case2 arguments | case3 arguments =>
    -- Nothing but options may follow two dashes.
    rw [List.cons_append, calls?.eq_2] at h
    simp at h
  | case4 argument arguments hargument hcall =>
    rw [List.cons_append, calls?.eq_3 _ _ _ hargument, hcall] at h
    cases h
  | case5 argument arguments hargument o text htakes hcall ih =>
    rw [List.cons_append, calls?_of_attached hargument hcall htakes] at h
    rw [calls?_of_attached hargument hcall htakes]
    exact exists_append_of_map ih h
  | case6 argument arguments hargument o htakes hcall ih =>
    rw [List.cons_append, calls?_of_valueless hargument hcall htakes] at h
    rw [calls?_of_valueless hargument hcall htakes]
    exact exists_append_of_map ih h
  | case7 argument arguments hargument o text htakes hcall =>
    rw [List.cons_append, calls?.eq_3 _ _ _ hargument] at h
    simp [hcall, htakes] at h
  | case8 argument hargument o htakes hcall =>
    -- The option lacks a value, and the argument behind it can be none.
    rw [List.cons_append, List.nil_append, calls?_of_next hargument hcall htakes, hfirst] at h
    cases h
  | case9 argument hargument o htakes value arguments hvalue hcall ih =>
    rw [List.cons_append, List.cons_append, calls?_of_next hargument hcall htakes, if_pos hvalue] at h
    rw [calls?_of_next hargument hcall htakes, if_pos hvalue]
    exact exists_append_of_map ih h
  | case10 argument hargument o htakes value arguments hvalue hcall =>
    rw [List.cons_append, List.cons_append, calls?_of_next hargument hcall htakes, if_neg hvalue] at h
    cases h

theorem eq_of_path? {path : String} (h : path? value = some path) : value = path :=
  Option.some.inj (Option.ite_none_left_eq_some.1 h).2

theorem parse?_eq_some_iff :
    parse? options arguments = some given ↔
      calls? options arguments = some given ∧ (given.map (·.1)).Nodup := by
  rw [parse?, Option.bind_eq_bind, Option.bind_eq_some_iff]
  constructor
  · rintro ⟨given', hcalls, hunique⟩
    obtain ⟨hnodup, hgiven⟩ := Option.ite_none_right_eq_some.1 hunique
    obtain rfl := Option.some.inj hgiven
    exact ⟨hcalls, hnodup⟩
  · rintro ⟨hcalls, hnodup⟩
    exact ⟨given, hcalls, if_pos hnodup⟩

end Arguments

/-! ## The simulator that replays -/

/-- What a program does, in so many milliseconds. -/
def Behaviour.lasting (milliseconds : Nat) : Behaviour → Behaviour
  | .ended _ ending stderr output => .ended milliseconds ending stderr output
  | b => b

namespace Recorded

open Arguments

variable {files : Files} {scenario platform output : String} {flags : List String}
  {request : Request}

theorem tag?_cons {name value : String} {given : Given} (hreclaim : name ≠ "reclaim")
    (hdvfs : name ≠ "dvfs") : tag? ((name, value) :: given) = tag? given := by
  rw [tag?, Given.text?, Given.text?, List.lookup_cons, List.lookup_cons,
    beq_eq_false_iff_ne.2 hdvfs.symm, beq_eq_false_iff_ne.2 hreclaim.symm]
  rfl

theorem tag?_append_output (given : Given) : tag? (given ++ [("o", output)]) = tag? given := by
  simp only [tag?, Given.text?, List.lookup_append]
  rw [show List.lookup "dvfs" [("o", output)] = none from rfl,
    show List.lookup "reclaim" [("o", output)] = none from rfl, Option.or_none, Option.or_none]

/-- **What the simulator makes of its arguments.** If it takes them, it takes those of the policy by
themselves too, and goes by the scenario and by the policy that they tell. -/
theorem request?_arguments
    (h : request? (["-i", scenario, "-p", platform] ++ flags ++ ["-o", output]) = some request) :
    ∃ given, Arguments.parse? options flags = some given ∧ request = ⟨scenario, output, tag? given⟩ := by
  simp only [request?, Option.bind_eq_bind, Option.bind_eq_some_iff, parse?_eq_some_iff] at h
  obtain ⟨whole, ⟨hcalls, hnodup⟩, path, ⟨input, hinput, hpath⟩, -, -, place, ⟨last, hlast, hplace⟩,
    hrequest⟩ := h
  -- The scenario is told first, then the platform, and the output last.
  change calls? options ("-i" :: scenario :: "-p" :: platform :: (flags ++ ["-o", output])) = _
    at hcalls
  obtain ⟨afterScenario, hscenario, rfl⟩ := exists_of_calls?_next (by decide) (by rfl) rfl hcalls
  obtain ⟨afterPlatform, hplatform, rfl⟩ := exists_of_calls?_next (by decide) (by rfl) rfl hscenario
  obtain ⟨given, behind, hgiven, hbehind, rfl⟩ := calls?_append (by decide) hplatform
  obtain ⟨afterOutput, houtput, rfl⟩ := exists_of_calls?_next (by decide) (by rfl) rfl hbehind
  cases houtput
  rw [List.map_cons, List.map_cons, List.map_append] at hnodup
  obtain ⟨hgivenNodup, -, hapart⟩ := List.nodup_append.1 hnodup.of_cons.of_cons
  cases hinput
  obtain rfl := eq_of_path? hpath
  -- The arguments of the policy tell no output, so the last one does.
  have hlookup : given.lookup "o" = none := List.lookup_eq_none_iff.2 fun p hp =>
    bne_iff_ne.2 (hapart _ (List.mem_map_of_mem hp) "o" List.mem_cons_self).symm
  rw [Given.text?, List.lookup_cons, List.lookup_cons, List.lookup_append, hlookup] at hlast
  cases hlast
  obtain rfl := eq_of_path? hplace
  refine ⟨given, parse?_eq_some_iff.2 ⟨hgiven, hgivenNodup⟩, ?_⟩
  cases hrequest
  rw [tag?_cons (by decide) (by decide), tag?_cons (by decide) (by decide), tag?_append_output]

/-- A scenario whose path looks like an option is not taken for a scenario. -/
theorem request?_of_not_isValue (h : isValue scenario = false) :
    request? (["-i", scenario, "-p", platform] ++ flags ++ ["-o", output]) = none := by
  have hcalls : calls? options (["-i", scenario, "-p", platform] ++ flags ++ ["-o", output]) = none :=
    (calls?_of_next (by decide) (by rfl) rfl).trans (if_neg (Bool.eq_false_iff.1 h))
  rw [request?, parse?, hcalls]
  rfl

/-- Where the trace of a scenario is looked for: the place for the policy if a file lies there, and
else the place for all policies. -/
def expected (files : Files) (scenario : String) (tag : Option String) : String :=
  let stem := Path.stem scenario
  let common := Path.beside scenario s!"traces/{stem}.json"
  match tag with
  | none => common
  | some t =>
    let own := Path.beside scenario s!"traces/{stem}.{t}.json"
    if (files.look own).isFile then own else common

theorem expected_mem_places (files : Files) (scenario : String) (tag : Option String) :
    expected files scenario tag ∈ places scenario tag := by
  cases tag with
  | none => exact List.mem_singleton_self _
  | some t =>
    simp only [expected, places, Option.map_some, Option.toList_some, List.singleton_append]
    split_ifs
    · exact List.mem_cons_self
    · exact List.mem_cons_of_mem _ (List.mem_singleton_self _)

theorem place?_eq (files : Files) (scenario : String) (tag : Option String) :
    place? files scenario tag =
      if (files.look (expected files scenario tag)).isFile then some (expected files scenario tag)
      else none := by
  cases tag with
  | none =>
    rw [place?, places, expected, Option.map_none, Option.toList_none, List.nil_append,
      List.find?_singleton]
  | some t =>
    simp only [place?, places, expected, Option.map_some, Option.toList_some, List.singleton_append,
      List.find?_cons, List.find?_nil]
    split_ifs <;> simp_all

/-- The place where the trace that is asked for is looked for. -/
def Request.place (files : Files) (request : Request) : String :=
  expected files request.scenario request.tag

theorem program_of_not_request {arguments : List String} (files : Files)
    (h : request? arguments = none) :
    program files arguments = failing 2 "error: unexpected or missing arguments\n" := by
  rw [program, h]

theorem program_of_file {arguments : List String} {content : ByteArray}
    (h : request? arguments = some request)
    (hplace : files.look (request.place files) = .file content) :
    program files arguments = .ended 0 (.exited 0) ByteArray.empty (.file content) := by
  rw [program, h]
  dsimp only
  rw [place?_eq, ← Request.place, hplace, if_pos (by rfl)]
  dsimp only
  rw [hplace]
  rfl

/-- Where there is no file that can be read, the program fails, be it for want of a file or of the right
to read it. -/
theorem program_of_not_file {arguments : List String} (h : request? arguments = some request)
    (hplace : ∀ content, files.look (request.place files) ≠ .file content) :
    ∃ message, program files arguments = failing 1 message := by
  rw [program, h]
  dsimp only
  rw [place?_eq, ← Request.place]
  cases hfound : files.look (request.place files) with
  | nothing | directory => exact ⟨_, rfl⟩
  | file content => exact absurd hfound (hplace content)
  | sealed =>
    rw [if_pos (by rfl)]
    dsimp only
    rw [hfound]
    exact ⟨_, rfl⟩

end Recorded

namespace Simulator

variable {s : Simulator} {milliseconds : Nat}

theorem traceOf_lasting_exited (h : milliseconds ≤ s.timeout) (stderr : ByteArray)
    (output : Found true) :
    s.traceOf (.lasting milliseconds (.ended 0 (.exited 0) stderr output)) = Trace.load output := by
  rw [Behaviour.lasting, traceOf, if_neg (Nat.not_lt.2 h), if_pos rfl]

theorem traceOf_lasting_failing (h : milliseconds ≤ s.timeout) {status : UInt8} (hstatus : status ≠ 0)
    (message : String) :
    s.traceOf (.lasting milliseconds (Recorded.failing status message)) =
      .error (.simulatorFailed (Ending.exited status).text (Simulator.excerpt message.toUTF8)) := by
  rw [Recorded.failing, Behaviour.lasting, traceOf, if_neg (Nat.not_lt.2 h), if_neg]
  exact fun h => hstatus (Ending.exited.inj h)

end Simulator

/-! ## The two ways -/

namespace Batch

/-- The arguments with which the simulator is started in a run. -/
def argumentsOf (b : Batch) (run : PlannedRun) : List String :=
  b.simulator.arguments run.scenario.path (b.settings.flags run.policy)

/-- In this run the simulator replays recorded traces, in good time. -/
def ReplaysInTime (b : Batch) (run : PlannedRun) : Prop :=
  ∃ milliseconds ≤ b.simulator.timeout, b.simulator.program (b.argumentsOf run) =
    (Recorded.program b.files (b.argumentsOf run)).lasting milliseconds

/-- In this run the simulator replays recorded traces, in good time, and takes its arguments. -/
def Replays (b : Batch) (run : PlannedRun) : Prop :=
  (Recorded.request? (b.argumentsOf run)).isSome = true ∧ b.ReplaysInTime run

variable {b : Batch} {run : PlannedRun} {tag : Option String}

/-- What stands where the recorded trace of a run is looked for. -/
def recording (b : Batch) (run : PlannedRun) (tag : Option String) : Found true :=
  b.files.look (Recorded.expected b.files run.scenario.path tag)

/-- What comes of checking the recorded trace of a run. -/
def checked (b : Batch) (run : PlannedRun) (tag : Option String) : Except RunError Report :=
  Report.ofRecording b.platform run.policy b.diagnoses run.scenario.path
    (b.files.look run.scenario.path) (b.recording run tag)

/-- A run that is skipped, for want of the scenario or else because the simulator fails. -/
structure Fails (b : Batch) (run : PlannedRun) : Prop where
  unloadable : ∀ e, Task.load run.scenario.path (b.files.look run.scenario.path) = .error e →
    (b.result run).outcome = .skipped (.scenario e.message)
  unreplayed : ∀ tasks, Task.load run.scenario.path (b.files.look run.scenario.path) = .ok tasks →
    ∃ stderr, (b.result run).outcome = .skipped (.simulatorFailed "status 1" stderr)

/-- A run that ends as the check of the recorded trace does, if there is one, and for want of it
otherwise; `same` is what errors have in common. -/
structure EndsAsChecked (same : RunError → RunError → Prop) (b : Batch) (run : PlannedRun)
    (tag : Option String) : Prop where
  completed : (b.recording run tag).isFile = true → ∀ report, b.checked run tag = .ok report →
    (b.result run).outcome = .completed report
  skipped : (b.recording run tag).isFile = true → ∀ e, b.checked run tag = .error e →
    ∃ e', (b.result run).outcome = .skipped e' ∧ same e' e
  unrecorded : (b.recording run tag).isFile = false → b.Fails run

theorem EndsAsChecked.of_isFile (hfile : (b.recording run tag).isFile = true)
    (h : (b.result run).outcome = .ofExcept (b.checked run tag)) : b.EndsAsChecked Eq run tag where
  completed _ report hreport := by
    rw [h, hreport]
    rfl
  skipped _ e he := ⟨e, by rw [h, he]; rfl, rfl⟩
  unrecorded hnone := absurd hfile (Bool.eq_false_iff.1 hnone)

theorem EndsAsChecked.of_not_isFile {same : RunError → RunError → Prop}
    (hnone : (b.recording run tag).isFile = false) (h : b.Fails run) :
    b.EndsAsChecked same run tag where
  completed hfile := absurd hfile (Bool.eq_false_iff.1 hnone)
  skipped hfile := absurd hfile (Bool.eq_false_iff.1 hnone)
  unrecorded _ := h

/-- A run whose simulator leaves what was recorded comes to the report on the recorded trace. -/
theorem report_eq_checked
    (h : b.simulator.trace run.scenario.path (b.settings.flags run.policy) =
      Trace.load (b.recording run tag)) :
    b.report run.scenario run.policy = b.checked run tag := by
  unfold report tasksOf checked Report.ofRecording
  cases Task.loadForRun run.scenario.path (b.files.look run.scenario.path) with
  | error e => rfl
  | ok tasks => cases hload : Trace.load (b.recording run tag) <;> simp only [h, hload]

theorem outcome_of_file {content : ByteArray} (hprogram : b.ReplaysInTime run)
    (hrequest : Recorded.request? (b.argumentsOf run) =
      some ⟨run.scenario.path, Simulator.outputName, tag⟩)
    (hplace : b.recording run tag = .file content) :
    (b.result run).outcome = .ofExcept (b.checked run tag) := by
  obtain ⟨milliseconds, hintime, hprogram⟩ := hprogram
  refine congrArg Outcome.ofExcept (report_eq_checked ?_)
  rw [Simulator.trace, ← argumentsOf, hprogram, Recorded.program_of_file hrequest hplace, hplace,
    Simulator.traceOf_lasting_exited hintime]

/-- A run whose scenario loads is skipped if the simulator fails. -/
theorem outcome_of_failing {tasks : List Task} {status : UInt8} {message : String}
    (hprogram : b.ReplaysInTime run)
    (htasks : Task.load run.scenario.path (b.files.look run.scenario.path) = .ok tasks)
    (hfailing : Recorded.program b.files (b.argumentsOf run) = Recorded.failing status message)
    (hstatus : status ≠ 0) :
    (b.result run).outcome =
      .skipped (.simulatorFailed (Ending.exited status).text (Simulator.excerpt message.toUTF8)) := by
  obtain ⟨milliseconds, hintime, hprogram⟩ := hprogram
  have houtcome : (b.result run).outcome = .ofExcept (b.report run.scenario run.policy) := rfl
  rw [houtcome, report_of_load_ok htasks, Simulator.trace, ← argumentsOf, hprogram, hfailing,
    Simulator.traceOf_lasting_failing hintime hstatus]
  rfl

theorem fails_of_not_file (hprogram : b.ReplaysInTime run)
    (hrequest : Recorded.request? (b.argumentsOf run) =
      some ⟨run.scenario.path, Simulator.outputName, tag⟩)
    (hplace : ∀ content, b.recording run tag ≠ .file content) : b.Fails run := by
  obtain ⟨message, hfailing⟩ := Recorded.program_of_not_file hrequest hplace
  constructor
  · intro e h
    have houtcome : (b.result run).outcome = .ofExcept (b.report run.scenario run.policy) := rfl
    rw [houtcome, report_of_load_error h]
    rfl
  · intro tasks h
    exact ⟨_, outcome_of_failing hprogram h hfailing (by decide)⟩

/-- The check is for want of the trace where the trace cannot be read. -/
theorem checked_of_sealed {tasks : List Task}
    (h : Task.load run.scenario.path (b.files.look run.scenario.path) = .ok tasks)
    (hsealed : b.recording run tag = .sealed) :
    b.checked run tag = .error (.traceUnreadable .denied) := by
  rw [checked, Report.ofRecording, Task.loadForRun, h, hsealed]
  rfl

end Batch

/-- **Replaying a trace is checking it.** Let the simulator of a batch replay recorded traces, take
its arguments and be done in time. Then a run ends as the check of the recorded trace does, if there is
one at the expected place: with the same report, or for the same reason without. If there is none, the
run is skipped, for want of the scenario or else because the simulator fails. So is the run whose trace
is a file that cannot be read, where the check would be for want of the trace. -/
theorem outcome_eq_ofRecording (b : Batch) (run : PlannedRun) (hreplays : b.Replays run) :
    ∃ given, Arguments.parse? Recorded.options (b.settings.flags run.policy) = some given ∧
      let tag := (given.text? "dvfs").or (given.text? "reclaim")
      (b.recording run tag ≠ .sealed → b.EndsAsChecked Eq run tag) ∧
      (b.recording run tag = .sealed → b.Fails run ∧
        ∀ tasks, Task.load run.scenario.path (b.files.look run.scenario.path) = .ok tasks →
          b.checked run tag = .error (.traceUnreadable .denied)) := by
  obtain ⟨haccepts, hprogram⟩ := hreplays
  obtain ⟨request, hrequest⟩ := Option.isSome_iff_exists.1 haccepts
  obtain ⟨given, hgiven, rfl⟩ := Recorded.request?_arguments hrequest
  refine ⟨given, hgiven, ?_⟩
  intro tag
  have hfails (h : ∀ content, b.recording run tag ≠ .file content) : b.Fails run :=
    Batch.fails_of_not_file hprogram hrequest h
  constructor
  · intro hopen
    cases hfound : b.recording run tag with
    | sealed => exact absurd hfound hopen
    | nothing | directory =>
      have hnone : (b.recording run tag).isFile = false := by rw [hfound]; rfl
      exact .of_not_isFile hnone (hfails fun content h => by cases hfound.symm.trans h)
    | file content =>
      have hfile : (b.recording run tag).isFile = true := by rw [hfound]; rfl
      exact .of_isFile hfile (Batch.outcome_of_file hprogram hrequest hfound)
  · intro hsealed
    have hfailed : b.Fails run := hfails fun content h => by cases hsealed.symm.trans h
    exact ⟨hfailed, fun tasks h => Batch.checked_of_sealed h hsealed⟩

/-- A scenario without tasks, and an empty trace of it under one of the policies. -/
def recordedFiles : Files :=
  .ofSeen [("s/one.json", .file "\x7b\"tasks\":[]\x7d".toUTF8),
    ("s/traces/one.ffa.json", .file "[]".toUTF8)] []

/-- A batch with some files, whose simulator replays what was recorded and takes its time. -/
def recordedBatch (files : Files) (platform : Platform) : Batch where
  platform := platform
  settings := Settings.default
  simulator := ⟨"bin/replay", fun arguments => (Recorded.program files arguments).lasting 7,
    "platform.json", 10⟩
  files := files
  diagnoses := false

/-- The run of a scenario in it. -/
def recordedRun (path : String) : PlannedRun := ⟨2, ⟨"one", path, none⟩, .ffa⟩

section RecordedBatch

variable {files : Files} {path : String} (platform : Platform)

theorem replaysInTime_recordedBatch :
    (recordedBatch files platform).ReplaysInTime (recordedRun path) := ⟨7, (by decide : 7 ≤ 10), rfl⟩

theorem parse?_flags_recordedBatch :
    Arguments.parse? Recorded.options
        ((recordedBatch files platform).settings.flags (recordedRun path).policy) =
      some [("reclaim", "grub"), ("dvfs", "ffa")] := by
  change Arguments.parse? Recorded.options (Settings.default.flags .ffa) = _
  cbv

end RecordedBatch

theorem outcome_eq_ofRecording_recordedBatch :
    let b := recordedBatch recordedFiles .twin
    let run := recordedRun "s/one.json"
    b.Replays run ∧ b.recording run (some "ffa") = .file "[]".toUTF8 ∧
      (b.result run).outcome = .completed ⟨[], []⟩ := by
  intro b run
  have haccepts (p : Platform) : (Recorded.request? ((recordedBatch recordedFiles p).argumentsOf
      (recordedRun "s/one.json"))).isSome = true := by cbv
  have hchecked (p : Platform) : (recordedBatch recordedFiles p).checked (recordedRun "s/one.json")
      (some "ffa") = .ok ⟨[], []⟩ := by cbv
  have hrecording (p : Platform) : (recordedBatch recordedFiles p).recording
      (recordedRun "s/one.json") (some "ffa") = .file "[]".toUTF8 := by cbv
  have hreplays : b.Replays run := ⟨haccepts _, replaysInTime_recordedBatch _⟩
  refine ⟨hreplays, hrecording _, ?_⟩
  obtain ⟨given, hgiven, hopen, -⟩ := outcome_eq_ofRecording b run hreplays
  obtain rfl := Option.some.inj ((parse?_flags_recordedBatch _).symm.trans hgiven)
  have hends : b.EndsAsChecked Eq run (some "ffa") := hopen fun h => by
    cases (hrecording _).symm.trans h
  exact hends.completed (by rw [hrecording]; rfl) _ (hchecked _)

/-- Errors of one kind, whatever they tell. -/
def RunError.SameKind (e e' : RunError) : Prop := e.ctorIdx = e'.ctorIdx

/-- A scenario whose recorded trace cannot be read. -/
def sealedTree : FileTree where
  nodes := [(["s", "one.json"], .file "\x7b\"tasks\":[]\x7d".toUTF8),
    (["s", "traces", "one.ffa.json"], .sealed)]

/-- The trace cannot be read, and the simulator fails to copy it. -/
theorem not_endsAsChecked_sealedTree :
    let b := recordedBatch sealedTree.files .twin
    let run := recordedRun "s/one.json"
    b.Replays run ∧ ¬b.EndsAsChecked RunError.SameKind run (some "ffa") := by
  intro b run
  have hrequest (p : Platform) : Recorded.request? ((recordedBatch sealedTree.files p).argumentsOf
      (recordedRun "s/one.json")) = some ⟨"s/one.json", Simulator.outputName, some "ffa"⟩ := by cbv
  have htasks : Task.load "s/one.json" (sealedTree.files.look "s/one.json") = .ok [] := by cbv
  have hplace : Recorded.expected sealedTree.files "s/one.json" (some "ffa") =
      "s/traces/one.ffa.json" := by cbv
  have hsealed : sealedTree.files.look "s/traces/one.ffa.json" = .sealed := by cbv
  have hrecording : b.recording run (some "ffa") = .sealed := by
    change sealedTree.files.look (Recorded.expected sealedTree.files "s/one.json" (some "ffa")) = _
    rw [hplace, hsealed]
  have hintime : b.ReplaysInTime run := replaysInTime_recordedBatch _
  refine ⟨⟨by rw [hrequest]; rfl, hintime⟩, fun hends => ?_⟩
  obtain ⟨e, hskipped, hsame⟩ := hends.skipped (by rw [hrecording]; rfl) _
    (Batch.checked_of_sealed htasks hrecording)
  have hfails : b.Fails run := Batch.fails_of_not_file hintime (hrequest _) fun content h => by
    cases hrecording.symm.trans h
  obtain ⟨stderr, houtcome⟩ := hfails.unreplayed [] htasks
  cases houtcome.symm.trans hskipped
  cases hsame

/-- A scenario and its recorded trace, below a directory that is named like an option. -/
def dashedDirectory : Files :=
  .ofSeen [("-s/one.json", .file "\x7b\"tasks\":[]\x7d".toUTF8),
    ("-s/traces/one.ffa.json", .file "[]".toUTF8)] []

/-- All can be read, but the simulator takes the path of the scenario for an option. -/
theorem not_endsAsChecked_dashedDirectory :
    let b := recordedBatch dashedDirectory .twin
    let run := recordedRun "-s/one.json"
    b.ReplaysInTime run ∧ (∀ path, b.files.look path ≠ .sealed) ∧
      ¬b.EndsAsChecked RunError.SameKind run (some "ffa") := by
  intro b run
  have hrefused : Recorded.request? (b.argumentsOf run) = none :=
    Recorded.request?_of_not_isValue (by decide)
  have hrecording (p : Platform) : (recordedBatch dashedDirectory p).recording
      (recordedRun "-s/one.json") (some "ffa") = .file "[]".toUTF8 := by cbv
  have hchecked (p : Platform) : (recordedBatch dashedDirectory p).checked
      (recordedRun "-s/one.json") (some "ffa") = .ok ⟨[], []⟩ := by cbv
  have htasks : Task.load "-s/one.json" (dashedDirectory.look "-s/one.json") = .ok [] := by cbv
  have hintime : b.ReplaysInTime run := replaysInTime_recordedBatch _
  refine ⟨hintime, fun path => ?_, fun hends => ?_⟩
  · change (Files.ofSeen _ _).look path ≠ _
    simp only [Files.ofSeen, List.lookup_cons, List.lookup_nil]
    cases path == "-s/one.json" <;> cases path == "-s/traces/one.ffa.json" <;> simp
  · have hcompleted := hends.completed (by rw [hrecording]; rfl) _ (hchecked _)
    have hfailing := Recorded.program_of_not_request b.files hrefused
    cases (Batch.outcome_of_failing hintime htasks hfailing (by decide)).symm.trans hcompleted

/-- A run does not always end as the check does: not where the trace cannot be read, although the
simulator takes all its arguments, and not where every file can be read, although it takes the flags of
the policy. -/
theorem not_endsAsChecked_replaying :
    (¬∀ (b : Batch) (run : PlannedRun) (given : Arguments.Given),
      Arguments.parse? Recorded.options (b.settings.flags run.policy) = some given →
      b.Replays run →
        b.EndsAsChecked RunError.SameKind run ((given.text? "dvfs").or (given.text? "reclaim"))) ∧
    ¬∀ (b : Batch) (run : PlannedRun) (given : Arguments.Given),
      Arguments.parse? Recorded.options (b.settings.flags run.policy) = some given →
      b.ReplaysInTime run → (∀ path, b.files.look path ≠ .sealed) →
        b.EndsAsChecked RunError.SameKind run
          ((given.text? "dvfs").or (given.text? "reclaim")) := by
  constructor
  · obtain ⟨hreplays, hnot⟩ := not_endsAsChecked_sealedTree
    exact fun h => hnot (h _ _ _ (parse?_flags_recordedBatch _) hreplays)
  · obtain ⟨hintime, hopen, hnot⟩ := not_endsAsChecked_dashedDirectory
    exact fun h => hnot (h _ _ _ (parse?_flags_recordedBatch _) hintime hopen)

end SchedAudit

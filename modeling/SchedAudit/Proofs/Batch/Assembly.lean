import Mathlib
import SchedAudit.Batch
import SchedAudit.Proofs.Audit.Entries

/-!
# Putting a batch together

The runs of a batch finish in any order, and two pieces of the program put their results into places:
the runs of a scenario that cannot be loaded are over at once, the others when the simulator is done.
`assemble_map` says that this loses nothing. What it rests on is that the planned runs count through
the places (`place_planned`), so that each place is set once, whatever the order
(`getElem?_foldl_set_of_mem`).

Hence the results are those of the planned runs one by one (`results_courseIn`), and the course as a
whole is as `course_assembled` has it.
-/

namespace SchedAudit.Batch

/-! ## Setting places -/

section Places

variable {α : Type} {finished : List (Nat × α)} {places : List (Option α)} {k : Nat} {a : α}

theorem getElem?_foldl_set_of_notMem (h : k ∉ finished.map (·.1)) :
    (finished.foldl (fun places f => places.set f.1 (some f.2)) places)[k]? = places[k]? := by
  induction finished generalizing places with
  | nil => rfl
  | cons f rest ih =>
    simp only [List.map_cons, List.mem_cons, not_or] at h
    rw [List.foldl_cons, ih h.2, List.getElem?_set_ne (Ne.symm h.1)]

/-- A place keeps what is put there, as long as nothing else is put there. -/
theorem getElem?_foldl_set_of_mem (hnodup : (finished.map (·.1)).Nodup)
    (hmem : (k, a) ∈ finished) (hk : k < places.length) :
    (finished.foldl (fun places f => places.set f.1 (some f.2)) places)[k]? = some (some a) := by
  induction finished generalizing places with
  | nil => cases hmem
  | cons f rest ih =>
    rw [List.map_cons, List.nodup_cons] at hnodup
    rw [List.foldl_cons]
    rcases List.mem_cons.1 hmem with rfl | hrest
    · rw [getElem?_foldl_set_of_notMem hnodup.1, List.getElem?_set_self hk]
    · exact ih hnodup.2 hrest (by rwa [List.length_set])

theorem length_foldl_set :
    (finished.foldl (fun places f => places.set f.1 (some f.2)) places).length =
      places.length := by
  induction finished generalizing places with
  | nil => rfl
  | cons f rest ih => rw [List.foldl_cons, ih, List.length_set]

end Places

section Runs

variable {runs finished : List PlannedRun} {result : PlannedRun → RunResult}

/-- **Nothing is lost on the way.** Runs that count through the places may finish in any order: put
into their places, their results are in the order of the runs. -/
theorem assemble_map (hplaces : runs.map (·.place) = List.range runs.length)
    (hfinished : finished.Perm runs) :
    assemble runs.length (finished.map fun r => (r.place, result r)) = runs.map result := by
  have hkeys : (finished.map fun r => (r.place, result r)).map (·.1) = finished.map (·.place) := by
    rw [List.map_map]
    rfl
  have hnodup : ((finished.map fun r => (r.place, result r)).map (·.1)).Nodup := by
    rw [hkeys, (hfinished.map _).nodup_iff, hplaces]
    exact List.nodup_range
  rw [assemble]
  suffices hset : (finished.map fun r => (r.place, result r)).foldl
      (fun places f => places.set f.1 (some f.2)) (List.replicate runs.length none) =
        (runs.map result).map some by
    rw [hset, List.filterMap_map]
    exact List.filterMap_some
  refine List.ext_getElem? fun k => ?_
  by_cases hk : k < runs.length
  · have hplace : runs[k].place = k := by
      have h := congrArg (·[k]?) hplaces
      simpa [hk] using h
    have hmem : (k, result runs[k]) ∈ finished.map fun r => (r.place, result r) :=
      List.mem_map.2 ⟨runs[k], hfinished.mem_iff.2 (List.getElem_mem hk), by rw [hplace]⟩
    rw [getElem?_foldl_set_of_mem hnodup hmem (by rwa [List.length_replicate])]
    simp [hk]
  · rw [List.getElem?_eq_none, List.getElem?_eq_none]
    · simpa using hk
    · rw [length_foldl_set, List.length_replicate]
      exact Nat.le_of_not_lt hk

end Runs

/-! ## Planned runs -/

section Planned

variable {scenarios : List ScenarioFile} {policies : List Policy}

/-- The places of the runs of scenarios that are counted from `n` on. -/
theorem places_from (n : Nat) :
    ((scenarios.zipIdx n).flatMap fun s =>
        policies.zipIdx.map fun p => s.2 * policies.length + p.2) =
      List.range' (n * policies.length) (scenarios.length * policies.length) := by
  induction scenarios generalizing n with
  | nil => simp
  | cons scenario rest ih =>
    have hfirst : (policies.zipIdx.map fun p => n * policies.length + p.2) =
        List.range' (n * policies.length) policies.length := by
      refine List.ext_getElem? fun k => ?_
      by_cases hk : k < policies.length <;> simp [hk]
    rw [List.zipIdx_cons, List.flatMap_cons, ih, hfirst, List.length_cons, Nat.succ_mul n,
      List.range'_append_1, Nat.succ_mul, Nat.add_comm (_ * _)]

/-- The planned runs count through the places. -/
theorem place_planned : (planned scenarios policies).map (·.place) =
    List.range (scenarios.length * policies.length) := by
  have h := @places_from scenarios policies 0
  rw [Nat.zero_mul, ← List.range_eq_range'] at h
  rw [← h, planned, List.map_flatMap]
  simp only [List.map_map]
  rfl

@[simp] theorem length_planned :
    (planned scenarios policies).length = scenarios.length * policies.length := by
  rw [← List.length_map (·.place), place_planned, List.length_range]

theorem getElem?_planned_of_mem {r : PlannedRun} (h : r ∈ planned scenarios policies) :
    (planned scenarios policies)[r.place]? = some r := by
  obtain ⟨k, hk, rfl⟩ := List.getElem_of_mem h
  have hplace : (planned scenarios policies)[k].place = k := by
    have h := congrArg (·[k]?) (@place_planned scenarios policies)
    simpa [hk, length_planned ▸ hk] using h
  rw [hplace, List.getElem?_eq_getElem hk]

theorem getElem?_planned {i j : Nat} {scenario : ScenarioFile} {policy : Policy}
    (hscenario : scenarios[i]? = some scenario) (hpolicy : policies[j]? = some policy) :
    (planned scenarios policies)[i * policies.length + j]? =
      some ⟨i * policies.length + j, scenario, policy⟩ := by
  suffices h : (⟨i * policies.length + j, scenario, policy⟩ : PlannedRun) ∈
      planned scenarios policies from getElem?_planned_of_mem h
  refine List.mem_flatMap.2 ⟨(scenario, i), List.mk_mem_zipIdx_iff_getElem?.2 hscenario, ?_⟩
  exact List.mem_map.2 ⟨(policy, j), List.mk_mem_zipIdx_iff_getElem?.2 hpolicy, rfl⟩

end Planned

/-! ## Telling results -/

section Announced

variable {total : Nat} {finished : List (Nat × RunResult)}

/-- The count goes up by one each time. -/
theorem done_announce :
    (announce total finished).map (·.done) = List.range' 1 finished.length := by
  refine List.ext_getElem? fun k => ?_
  by_cases hk : k < finished.length <;> simp [announce, hk, Nat.add_comm]

theorem run_announce : (announce total finished).map (·.run) = finished.map (·.2) := by
  conv_rhs => rw [← List.zipIdx_map_fst 0 finished, List.map_map]
  rw [announce, List.map_map]
  rfl

theorem total_of_mem_announce {news : Progress} (h : news ∈ announce total finished) :
    news.total = total := by
  obtain ⟨f, -, rfl⟩ := List.mem_map.1 h
  rfl

end Announced

/-! ## Courses -/

variable (b : Batch) {order : List PlannedRun → List PlannedRun} {scenarios : List ScenarioFile}

/-- The runs that need the simulator. -/
def pending (scenarios : List ScenarioFile) : List PlannedRun :=
  (planned scenarios b.settings.policies).filter fun r => b.loads r.scenario

/-- An order in which those runs can finish: each of them does, once. -/
def Finishes (order : List PlannedRun → List PlannedRun) (scenarios : List ScenarioFile) : Prop :=
  (order (b.pending scenarios)).Perm (b.pending scenarios)

/-- The result of one scenario under one policy. -/
def resultOf (scenario : ScenarioFile) (policy : Policy) : RunResult where
  scenario := scenario.name
  level := scenario.level
  policy := policy
  outcome := Outcome.ofExcept (b.report scenario policy)

/-- The batch with a single policy. -/
def only (policy : Policy) : Batch := { b with settings := { b.settings with policies := [policy] } }

variable {b}

theorem finishing_perm (horder : b.Finishes order scenarios) :
    (b.finishing order (planned scenarios b.settings.policies)).Perm
      (planned scenarios b.settings.policies) := by
  refine (horder.append_left _).trans (List.perm_append_comm.trans ?_)
  exact List.filter_append_perm (fun r : PlannedRun => b.loads r.scenario) _

theorem results_planned : (planned scenarios b.settings.policies).map b.result =
    scenarios.flatMap fun s => b.settings.policies.map (b.resultOf s) := by
  have hrow (scenario : ScenarioFile) : b.settings.policies.map (b.resultOf scenario) =
      b.settings.policies.zipIdx.map fun p => b.resultOf scenario p.1 := by
    conv_lhs => rw [← List.zipIdx_map_fst 0 b.settings.policies, List.map_map]
    rfl
  conv_rhs => rw [← List.zipIdx_map_fst 0 scenarios, List.flatMap_map]
  simp only [planned, List.map_flatMap, List.map_map, hrow]
  rfl

/-- The results are those of all scenarios under all policies, one by one. -/
theorem results_courseIn (horder : b.Finishes order scenarios) :
    (b.courseIn order scenarios).results =
      scenarios.flatMap fun s => b.settings.policies.map (b.resultOf s) := by
  rw [courseIn, ← results_planned, ← length_planned]
  exact assemble_map (by rw [place_planned, length_planned]) (finishing_perm horder)

theorem finishes_id : b.Finishes id scenarios := List.Perm.refl _

theorem report_of_load_error {scenario : ScenarioFile} {policy : Policy} {e : LoadError}
    (h : Task.load scenario.path (b.files.look scenario.path) = .error e) :
    b.report scenario policy = .error (.scenario e.message) := by
  rw [report, tasksOf, Task.loadForRun, h]

theorem report_of_load_ok {scenario : ScenarioFile} {policy : Policy} {tasks : List Task}
    (h : Task.load scenario.path (b.files.look scenario.path) = .ok tasks) :
    b.report scenario policy = (b.simulator.trace scenario.path (b.settings.flags policy)).map
      (Report.ofTrace b.platform tasks policy b.diagnoses) := by
  rw [report, tasksOf, Task.loadForRun, h]
  cases b.simulator.trace scenario.path (b.settings.flags policy) <;> rfl

/-- **A batch in any order.** In whatever order the runs finish that need the simulator, there is one
result for each scenario and policy, in the order of both, and it is the result of that run alone: the
runs of a scenario that cannot be loaded are skipped for that reason, and the others do not know of it.
Each run is told of once, and the count goes up by one each time. So the results of two lists of
scenarios in one batch are those of two batches. -/
theorem course_assembled (b : Batch) {scenarios : List ScenarioFile}
    {order : List PlannedRun → List PlannedRun} (horder : b.Finishes order scenarios) :
    let policies := b.settings.policies
    let total := scenarios.length * policies.length
    let course := b.courseIn order scenarios
    course.results.length = total ∧
      (∀ i j scenario policy, scenarios[i]? = some scenario → policies[j]? = some policy →
        course.results[i * policies.length + j]? =
            some ⟨scenario.name, scenario.level, policy, .ofExcept (b.report scenario policy)⟩ ∧
          ((b.only policy).course [scenario]).results =
            [⟨scenario.name, scenario.level, policy, .ofExcept (b.report scenario policy)⟩] ∧
          (∀ e, Task.load scenario.path (b.files.look scenario.path) = .error e →
            b.report scenario policy = .error (.scenario e.message)) ∧
          ∀ tasks, Task.load scenario.path (b.files.look scenario.path) = .ok tasks →
            b.report scenario policy =
              (b.simulator.trace scenario.path (b.settings.flags policy)).map
                (Report.ofTrace b.platform tasks policy b.diagnoses)) ∧
      (∃ places : List Nat, places.Perm (List.range total) ∧
        (course.progress.map (·.run)).map some = places.map (course.results[·]?)) ∧
      course.progress.map (·.done) = List.range' 1 total ∧
      (∀ news ∈ course.progress, news.total = total) ∧
      ∀ more orderOfMore orderOfBoth, b.Finishes orderOfMore more →
        b.Finishes orderOfBoth (scenarios ++ more) →
          (b.courseIn orderOfBoth (scenarios ++ more)).results =
            course.results ++ (b.courseIn orderOfMore more).results := by
  intro policies total course
  have hruns := finishing_perm horder
  have hresults : course.results = (planned scenarios policies).map b.result :=
    (results_courseIn horder).trans results_planned.symm
  have hprogress : course.progress = announce total
      ((b.finishing order (planned scenarios policies)).map fun r => (r.place, b.result r)) := rfl
  have hlength : (b.finishing order (planned scenarios policies)).length = total := by
    rw [hruns.length_eq, length_planned]
  refine ⟨?_, ?_, ?_, ?_, ?_, ?_⟩
  · rw [hresults, List.length_map, length_planned]
  · intro i j scenario policy hscenario hpolicy
    refine ⟨?_, ?_, fun e => report_of_load_error, fun tasks => report_of_load_ok⟩
    · rw [hresults, List.getElem?_map, getElem?_planned hscenario hpolicy]
      rfl
    · rw [Batch.course, results_courseIn finishes_id]
      rfl
  · refine ⟨(b.finishing order (planned scenarios policies)).map (·.place), ?_, ?_⟩
    · exact @place_planned scenarios policies ▸ hruns.map (·.place)
    · rw [hprogress, run_announce, hresults]
      simp only [List.map_map]
      -- Each planned run stands at its own place, and so does its result.
      refine List.map_congr_left fun r hr => ?_
      change some (b.result r) = ((planned scenarios policies).map b.result)[r.place]?
      rw [List.getElem?_map, getElem?_planned_of_mem (hruns.mem_iff.1 hr)]
      rfl
  · rw [hprogress, done_announce, List.length_map, hlength]
  · exact fun news hnews => total_of_mem_announce (hprogress ▸ hnews)
  · intro more orderOfMore orderOfBoth hmore hboth
    rw [results_courseIn hboth, results_courseIn horder, results_courseIn hmore, List.flatMap_append]

/-- A batch of two policies that finds one scenario and no simulator, on any platform. -/
def strandedOn (platform : Platform) : Batch where
  platform := platform
  settings := { Settings.default with policies := [.grub, .csf] }
  simulator := ⟨"bin/sim", .missing, "platform.json", 1000⟩
  files := .ofSeen [("empty.json", .file "\x7b\"tasks\":[]\x7d".toUTF8)] []
  diagnoses := false

/-- The batch on two processors. -/
def stranded : Batch := strandedOn .twin

/-- Two scenarios, the second of which is not there. -/
def strandedScenarios : List ScenarioFile :=
  [⟨"empty", "empty.json", none⟩, ⟨"absent", "absent.json", none⟩]

theorem course_assembled_stranded :
    let course := stranded.courseIn List.reverse strandedScenarios
    stranded.Finishes List.reverse strandedScenarios ∧
      stranded.pending strandedScenarios =
        [⟨0, ⟨"empty", "empty.json", none⟩, .grub⟩, ⟨1, ⟨"empty", "empty.json", none⟩, .csf⟩] ∧
      course.results.length = 4 ∧
      course.results[1]? = some ⟨"empty", none, .csf, .skipped (.spawn "bin/sim")⟩ ∧
      course.results[2]? =
        some ⟨"absent", none, .grub, .skipped (.scenario "cannot read absent.json: no such file")⟩ ∧
      course.progress.map (·.done) = [1, 2, 3, 4] := by
  intro course
  have horder : stranded.Finishes List.reverse strandedScenarios := List.reverse_perm _
  have hloads : Task.load "empty.json" (stranded.files.look "empty.json") = .ok [] := by
    have h (p : Platform) : Task.load "empty.json" ((strandedOn p).files.look "empty.json") =
      .ok [] := by cbv
    exact h _
  have hpending (p : Platform) : (strandedOn p).pending strandedScenarios =
      [⟨0, ⟨"empty", "empty.json", none⟩, .grub⟩, ⟨1, ⟨"empty", "empty.json", none⟩, .csf⟩] := by cbv
  obtain ⟨hlength, hslot, -, hdone, -⟩ := course_assembled stranded horder
  refine ⟨horder, hpending _, hlength, ?_, ?_, hdone⟩
  · obtain ⟨hresult, -, -, hok⟩ := hslot 0 1 _ .csf rfl rfl
    refine hresult.trans ?_
    rw [hok [] hloads]
    rfl
  · obtain ⟨hresult, -, herror, -⟩ := hslot 1 0 _ .grub rfl rfl
    refine hresult.trans ?_
    rw [herror _ rfl]
    rfl

end SchedAudit.Batch

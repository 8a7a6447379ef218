import Mathlib
import SchedAudit.Proofs.Batch.Assembly
import SchedAudit.Proofs.CommandLine.Printed
import SchedAudit.Proofs.Platform.Loading
import SchedAudit.Proofs.Simulator.Replay

/-!
# What a session concludes

A session runs up to two batches, either of which may be left out or find nothing, and its status tells
whether all is well. `session_concludes` says what the status is worth: it is zero just when no
completed run of these batches broke an invariant, however many runs were skipped, and the verdicts
that are printed say the same.

The sections of a session are put together by `conclude`, which stops at the first one that cannot be
had; of a session that does not stop, `conclude_eq` knows all sections (`runSection_concludes` knows one).
-/

namespace SchedAudit

/-! ## Runs without violations -/

namespace Batch

variable {b : Batch} {scenarios : List ScenarioFile} {scenario : ScenarioFile} {policy : Policy}

/-- No completed run of these scenarios broke an invariant. -/
def Clean (b : Batch) (scenarios : List ScenarioFile) : Prop :=
  ∀ scenario ∈ scenarios, ∀ policy ∈ b.settings.policies, ∀ report,
    b.report scenario policy = .ok report → report.violations = []

theorem isFailure_resultOf :
    (b.resultOf scenario policy).isFailure = false ↔
      ∀ report, b.report scenario policy = .ok report → report.violations = [] := by
  have houtcome : (b.resultOf scenario policy).outcome = .ofExcept (b.report scenario policy) := rfl
  rw [RunResult.isFailure, RunResult.violations, RunResult.violations?, houtcome]
  cases b.report scenario policy with
  | error e => exact iff_of_true rfl fun report h => by cases h
  | ok report => simp [Outcome.ofExcept]

/-- The order in which runs finish does not show in the results. -/
theorem results_courseIn_eq {order : List PlannedRun → List PlannedRun}
    (horder : b.Finishes order scenarios) :
    (b.courseIn order scenarios).results = (b.course scenarios).results := by
  rw [course, results_courseIn horder, results_courseIn finishes_id]

/-- A batch has passed when its completed runs have; a skipped run does not count. -/
theorem allPassed_course :
    RunResult.allPassed (b.course scenarios).results = true ↔ b.Clean scenarios := by
  rw [course, results_courseIn finishes_id, RunResult.allPassed, Bool.not_eq_true', List.any_eq_false]
  simp only [List.mem_flatMap, List.mem_map, Bool.not_eq_true]
  constructor
  · intro h scenario hscenario policy hpolicy
    exact isFailure_resultOf.1 (h _ ⟨scenario, hscenario, policy, hpolicy, rfl⟩)
  · rintro h r ⟨scenario, hscenario, policy, hpolicy, rfl⟩
    exact isFailure_resultOf.2 (h scenario hscenario policy hpolicy)

/-- The diagnoses of a completed run are diagnoses. -/
theorem isDiagnosis_of_mem_report {report : Report} (h : b.report scenario policy = .ok report)
    {d : String} (hd : d ∈ report.diagnoses) : CommandLine.IsDiagnosis d := by
  rw [Batch.report] at h
  split at h
  · cases h
  · split at h
    · cases h
    · cases h
      exact CommandLine.isDiagnosis_of_mem_report hd

end Batch

namespace CommandLine

variable {world : Surroundings} {order : List PlannedRun → List PlannedRun} {o : Options}
  {batch : Batch} {scenarios : List ScenarioFile}
  {heading : List Output} {summary : List RunResult → List String} {t : String} {passed : Bool}

/-! ## One section -/

/-- A text that is no verdict on both batches, whatever it may be. -/
def NoVerdict (t : String) : Prop := ∀ passed, t ≠ verdictText passed

theorem noVerdict_of_mem_explanation
    (h : t ∈ explanationLines (batch.course scenarios).results) : NoVerdict t := by
  intro passed
  rw [Batch.course, Batch.results_courseIn Batch.finishes_id] at h
  simp only [explanationLines, List.mem_flatMap, List.mem_map] at h
  obtain ⟨r, ⟨scenario, -, policy, -, rfl⟩, ht⟩ := h
  have houtcome : (batch.resultOf scenario policy).outcome =
    .ofExcept (batch.report scenario policy) := rfl
  rw [houtcome] at ht
  cases hreport : batch.report scenario policy with
  | error e =>
    rw [hreport] at ht
    cases ht
  | ok report =>
    rw [hreport] at ht
    obtain ⟨d, hd, htext⟩ := List.mem_flatMap.1 ht
    rcases List.mem_pair.1 htext with rfl | rfl
    · have hbracket : ("[" ++ (batch.resultOf scenario policy).label ++ "]").toList[0]? = some '[' :=
        getElem?_append (getElem?_append rfl)
      have hverdict : (verdictText passed).toList[0]? ≠ some '[' := by cases passed <;> decide
      exact ne_verdictText_of_getElem? hbracket hverdict
    · exact (Batch.isDiagnosis_of_mem_report hreport hd).ne_verdictText

theorem noVerdict_of_progress (news : Progress) : NoVerdict (Output.progress news).text := by
  intro passed
  refine ne_verdictText_of_blank ?_
  change (progressLine news _).toList[0]? = _
  unfold progressLine
  iterate 5 refine getElem?_append ?_
  rfl

/-- A section that has come to its end: whether the batch passed, and the summary among the lines, none
of which is a verdict on both batches. -/
structure Section.Concludes (s : Section) (passed : Bool) (clean : Prop) (summary : List String) :
    Prop where
  passed_iff : passed = true ↔ clean
  summary : summary <:+: s.output.map Output.text
  silent : ∀ t ∈ s.output.map Output.text, NoVerdict t

theorem runSection_concludes (horder : batch.Finishes order scenarios)
    (hheading : ∀ t ∈ heading.map Output.text, NoVerdict t)
    (hsummary : ∀ results, ∀ t ∈ summary results, NoVerdict t)
    (h : (runSection world order o batch scenarios heading summary).passed = .ok passed) :
    (runSection world order o batch scenarios heading summary).Concludes passed
      (batch.Clean scenarios) (summary (batch.course scenarios).results) := by
  dsimp only [runSection] at h ⊢
  rw [Batch.results_courseIn_eq horder] at h ⊢
  -- With too many workers the session would have ended.
  split_ifs at h ⊢ with hworkers
  cases h
  have htexts (l : List String) : (l.map Output.line).map Output.text = l := by
    rw [List.map_map]
    exact List.map_id l
  refine ⟨Batch.allPassed_course, ?_, ?_⟩
  · simp only [List.map_append, htexts, ← List.append_assoc]
    exact (List.suffix_append _ _).isInfix
  · intro t ht
    simp only [List.map_append, htexts, List.mem_append, List.mem_map, List.mem_singleton] at ht
    rcases ht with (⟨line, hline, rfl⟩ | ⟨_, ⟨news, -, rfl⟩, rfl⟩) | (hexplanation | rfl) | hlast
    · exact hheading _ (List.mem_map_of_mem hline)
    · exact noVerdict_of_progress news
    · exact noVerdict_of_mem_explanation hexplanation
    · exact fun passed => empty_ne_verdictText
    · exact hsummary _ t hlast

theorem noVerdict_of_mem_heading {title : String} (htitle : title.toList[0]? = some '-')
    (h : t ∈ (headingLines title).map Output.text) : NoVerdict t := by
  intro passed
  simp only [headingLines, List.map_cons, List.map_nil, List.mem_cons, List.not_mem_nil, or_false] at h
  rcases h with rfl | rfl | rfl
  · exact empty_ne_verdictText
  · have hverdict : (verdictText passed).toList[0]? ≠ some '-' := by cases passed <;> decide
    exact ne_verdictText_of_getElem? htitle hverdict
  · exact empty_ne_verdictText

theorem handcraftedSection_concludes (horder : ∀ runs, (order runs).Perm runs)
    (h : (handcraftedSection world order o batch).passed = .ok passed) :
    ∃ hand, Discovery.handcrafted? world.files batch.settings o.filter o.scenariosDirectory = some hand ∧
      (handcraftedSection world order o batch).Concludes passed (batch.Clean hand)
        (Summary.Handcrafted.lines (batch.course hand).results) := by
  unfold handcraftedSection at h ⊢
  cases hfound : Discovery.handcrafted? world.files batch.settings o.filter o.scenariosDirectory with
  | none =>
    simp only [hfound] at h
    cases h
  | some hand =>
    simp only [hfound] at h ⊢
    refine ⟨hand, rfl, runSection_concludes (horder _) (fun t ht => noVerdict_of_mem_heading ?_ ht) ?_ h⟩
    · iterate 4 refine getElem?_append ?_
      rfl
    · exact fun results t ht passed => ne_verdictText_of_mem_handcrafted ht

theorem getElem?_generatedTitle (files runs : Nat) (directory : String) :
    (s!"--- Generated scenarios: {files} files ({runs} runs) in {directory} ---").toList[0]? =
      some '-' := by
  iterate 6 refine getElem?_append ?_
  rfl

/-- Of generated scenarios there is a summary only if there are any. -/
theorem generatedSection_concludes (horder : ∀ runs, (order runs).Perm runs)
    (h : (generatedSection world order o batch).passed = .ok passed) :
    ∃ gen, Discovery.generated? world.files o.filter o.generatedDirectory = some gen ∧
      (generatedSection world order o batch).Concludes passed (batch.Clean gen)
        (if gen.isEmpty then []
        else Summary.Generated.lines batch.settings.maxFailureDetails (batch.course gen).results) := by
  unfold generatedSection at h ⊢
  cases hfound : Discovery.generated? world.files o.filter o.generatedDirectory with
  | none =>
    simp only [hfound] at h
    cases h
  | some gen =>
    simp only [hfound] at h ⊢
    have hheading (runs : Nat) : ∀ t ∈ (headingLines
        s!"--- Generated scenarios: {gen.length} files ({runs} runs) in {o.generatedDirectory} ---").map
          Output.text, NoVerdict t :=
      fun t ht => noVerdict_of_mem_heading (getElem?_generatedTitle ..) ht
    refine ⟨gen, rfl, ?_⟩
    split_ifs at h ⊢ with hempty
    · cases h
      refine ⟨?_, List.nil_infix, hheading _⟩
      rw [List.isEmpty_iff.1 hempty]
      exact iff_of_true rfl fun scenario hscenario => absurd hscenario List.not_mem_nil
    · exact runSection_concludes (horder _) (hheading _)
        (fun results t ht passed => ne_verdictText_of_mem_generated ht) h

/-! ## Sections one after the other -/

/-- A session that does not stop early has gone through all its sections. -/
theorem conclude_eq {output : List Output} {sections : List Section}
    (h : ∀ fatal, (conclude o output passed sections).conclusion ≠ .stopped fatal) :
    ∃ verdicts : List Bool, sections.map (·.passed) = verdicts.map .ok ∧
      conclude o output passed sections =
        ⟨output ++ sections.flatMap (·.output) ++ verdictLines o (passed && verdicts.all id),
          .ofPassed (passed && verdicts.all id)⟩ := by
  induction sections generalizing output passed with
  | nil =>
    refine ⟨[], rfl, ?_⟩
    rw [conclude, List.flatMap_nil, List.append_nil, List.all_nil, Bool.and_true]
  | cons s rest ih =>
    rw [conclude] at h ⊢
    cases hs : s.passed with
    | error fatal =>
      rw [hs] at h
      exact absurd rfl (h fatal)
    | ok sectionPassed =>
      rw [hs] at h
      obtain ⟨verdicts, hverdicts, hrest⟩ := ih h
      refine ⟨sectionPassed :: verdicts, by rw [List.map_cons, hs, hverdicts, List.map_cons], ?_⟩
      dsimp only
      rw [hrest, List.flatMap_cons, List.all_cons, id, Bool.and_assoc, List.append_assoc output]

/-- The hand-crafted scenarios of a session, none where they are left out. -/
def handcraftedOf? (world : Surroundings) (o : Options) (settings : Settings) :
    Option (List ScenarioFile) :=
  if o.handcrafted then Discovery.handcrafted? world.files settings o.filter o.scenariosDirectory
  else some []

/-- The generated scenarios of a session, none where they are left out. -/
def generatedOf? (world : Surroundings) (o : Options) : Option (List ScenarioFile) :=
  if o.generated then Discovery.generated? world.files o.filter o.generatedDirectory else some []

/-- What comes of a section that is left out unless it is wanted. -/
structure PartConcludes (part : List Section) (wanted : Bool) (verdicts : List Bool) (clean : Prop)
    (summary : List String) : Prop where
  all_iff : verdicts.all id = true ↔ clean
  summary : wanted = true → summary <:+: (part.flatMap (·.output)).map Output.text
  silent : ∀ t ∈ (part.flatMap (·.output)).map Output.text, NoVerdict t

theorem exists_partConcludes {wanted : Bool} {s : Section} {verdicts : List Bool}
    {found : Option (List ScenarioFile)} {summaryOf : List ScenarioFile → List String}
    (hs : ∀ passed, s.passed = .ok passed →
      ∃ scenarios, found = some scenarios ∧
        s.Concludes passed (batch.Clean scenarios) (summaryOf scenarios))
    (h : (if wanted then [s] else []).map (·.passed) = verdicts.map .ok) :
    ∃ scenarios, (if wanted then found else some []) = some scenarios ∧
      PartConcludes (if wanted then [s] else []) wanted verdicts (batch.Clean scenarios)
        (summaryOf scenarios) := by
  cases wanted with
  | true =>
    obtain ⟨passed, rest, rfl, hpassed, hrest⟩ := List.map_eq_cons_iff.1 h.symm
    obtain rfl := List.map_eq_nil_iff.1 hrest
    obtain ⟨scenarios, hfound, hconcludes⟩ := hs passed hpassed.symm
    refine ⟨scenarios, hfound, ?_, fun _ => ?_, ?_⟩
    · simpa using hconcludes.passed_iff
    · simpa using hconcludes.summary
    · simpa using hconcludes.silent
  | false =>
    obtain rfl := List.map_eq_nil_iff.1 h.symm
    refine ⟨[], rfl, ?_, fun h => absurd h Bool.false_ne_true, ?_⟩
    · exact iff_of_true rfl fun scenario hscenario => absurd hscenario List.not_mem_nil
    · exact fun t ht => absurd ht List.not_mem_nil

/-! ## Whole sessions -/

variable {settings : Settings} {platform : Platform}

theorem noVerdict_of_mem_introduction
    (h : t ∈ (introduction world o settings).map Output.text) : NoVerdict t := by
  intro passed
  simp only [introduction, List.map_cons, List.map_nil, List.mem_cons, List.not_mem_nil, or_false] at h
  have hP : (verdictText passed).toList[0]? ≠ some 'P' := by cases passed <;> decide
  have hW : (verdictText passed).toList[0]? ≠ some 'W' := by cases passed <;> decide
  rcases h with rfl | rfl | rfl
  · exact ne_verdictText_of_getElem? (getElem?_append rfl) hP
  · exact ne_verdictText_of_getElem? (getElem?_append rfl) hP
  · exact ne_verdictText_of_getElem? (getElem?_append rfl) hW

theorem ofRecording_of_reportOn {r : Recording} {report : Report}
    (h : reportOn world o platform r = .ok report) :
    Report.ofRecording platform r.policy o.diagnoses r.scenario (world.files.look r.scenario)
      (world.files.look r.trace) = .ok report := by
  simp only [reportOn, bind, Except.bind] at h
  split at h
  · cases h
  · split at h
    · cases h
    · revert h
      cases Report.ofRecording platform r.policy o.diagnoses r.scenario (world.files.look r.scenario)
        (world.files.look r.trace) with
      | error e => exact fun h => by cases h
      | ok found => exact fun h => by cases h; rfl

theorem text_verdictLines (hboth : (o.handcrafted && o.generated) = true) :
    (verdictLines o passed).map Output.text = ["", verdictText passed] := by
  rw [verdictLines, if_pos hboth]
  rfl

/-- A verdict on both batches is printed if there are two, and no other one. -/
theorem verdictText_mem_iff {other : Bool} {before : List String} (h : ∀ t ∈ before, NoVerdict t) :
    verdictText other ∈ before ++ (verdictLines o passed).map Output.text ↔
      o.handcrafted = true ∧ o.generated = true ∧ passed = other := by
  rw [List.mem_append, ← and_assoc, ← Bool.and_eq_true]
  constructor
  · rintro (hbefore | hlast)
    · exact absurd rfl (h _ hbefore other)
    · by_cases hboth : (o.handcrafted && o.generated) = true
      · rw [text_verdictLines hboth, List.mem_pair] at hlast
        rcases hlast with hempty | hverdict
        · exact absurd hempty.symm empty_ne_verdictText
        · exact ⟨hboth, by revert hverdict; cases passed <;> cases other <;> decide⟩
      · rw [verdictLines, if_neg hboth] at hlast
        cases hlast
  · rintro ⟨hboth, rfl⟩
    rw [text_verdictLines hboth]
    exact .inr (List.mem_pair.2 (.inr rfl))

/-- The last line says whether all is well, in one of two ways. -/
structure LastTells (lines : List String) (well : Prop) (good bad : String) : Prop where
  good : well → lines.getLast? = some good
  bad : ¬well → lines.getLast? = some bad

/-- Lines that end in a verdict tell whether the batch passed. -/
theorem lastTells_of_suffix {lines : List String} {good bad : String}
    (h : [if RunResult.allPassed (batch.course scenarios).results then good else bad] <:+ lines) :
    LastTells lines (batch.Clean scenarios) good bad := by
  obtain ⟨before, rfl⟩ := h
  rw [← Batch.allPassed_course]
  constructor
  · intro hpassed
    rw [List.getLast?_concat, if_pos hpassed]
  · intro hfailed
    rw [List.getLast?_concat, if_neg hfailed]

theorem lastTells_handcrafted (h : (batch.course scenarios).results ≠ []) :
    LastTells (Summary.Handcrafted.lines (batch.course scenarios).results) (batch.Clean scenarios)
      "All invariants PASSED for all scenarios." "Some invariants FAILED. See details above." := by
  refine lastTells_of_suffix ?_
  cases hresults : (batch.course scenarios).results with
  | nil => exact absurd hresults h
  | cons r rest =>
    change [Summary.Handcrafted.verdict (r :: rest)] <:+
      _ ++ ["", Summary.Handcrafted.verdict (r :: rest)]
    exact (List.suffix_cons _ _).trans (List.suffix_append _ _)

theorem lastTells_generated {limit : Nat} (h : (batch.course scenarios).results ≠ []) :
    LastTells (Summary.Generated.lines limit (batch.course scenarios).results)
      (batch.Clean scenarios) "All generated scenario invariants PASSED."
      "Some generated scenario invariants FAILED. See details above." := by
  refine lastTells_of_suffix ?_
  cases hresults : (batch.course scenarios).results with
  | nil => exact absurd hresults h
  | cons r rest =>
    change [Summary.Generated.verdict (r :: rest)] <:+
      _ ++ ["", Summary.Generated.verdict (r :: rest)]
    exact (List.suffix_cons _ _).trans (List.suffix_append _ _)

/-- A session that came to its end, without a misuse or anything fatal. -/
def Session.Ends (s : Session) : Prop := s.conclusion = .passed ∨ s.conclusion = .failed

theorem Session.Ends.ne_stopped {s : Session} (h : s.Ends) (fatal : Fatal) :
    s.conclusion ≠ .stopped fatal := by
  intro hstopped
  rw [Ends, hstopped] at h
  rcases h with h | h <;> cases h

/-- The check of a recorded trace prints its report, and the status is that of the report. -/
theorem checkRecording_concludes {r : Recording} (h : (checkRecording world o platform r).Ends) :
    let session := checkRecording world o platform r
    let texts := session.output.map Output.text
    ∃ report, Report.ofRecording platform r.policy o.diagnoses r.scenario
          (world.files.look r.scenario) (world.files.look r.trace) = .ok report ∧
      (report.violations = [] → session.conclusion.status = 0 ∧ texts = report.diagnoses ++ ["PASS"]) ∧
      (report.violations ≠ [] → session.conclusion.status = 1 ∧
        texts = report.violations.map (·.text) ++ report.diagnoses ++
          [s!"FAIL ({report.violations.length} violations)"]) := by
  intro session texts
  cases hreport : reportOn world o platform r with
  | error fatal =>
    refine absurd ?_ (h.ne_stopped fatal)
    rw [checkRecording, hreport]
  | ok report =>
    have hsession : session = ⟨(reportLines report).map .line, .ofPassed report.passed⟩ := by
      change checkRecording world o platform r = _
      rw [checkRecording, hreport]
    have htexts : texts = reportLines report := by
      change session.output.map Output.text = _
      rw [hsession, List.map_map]
      exact List.map_id _
    refine ⟨report, ofRecording_of_reportOn hreport, fun hnone => ?_, fun hsome => ?_⟩
    · have hpassed : report.passed = true := List.isEmpty_iff.2 hnone
      rw [htexts, hsession, reportLines, reportVerdict, if_pos hpassed, hnone, hpassed]
      exact ⟨rfl, rfl⟩
    · have hpassed : report.passed = false := List.isEmpty_eq_false_iff.2 hsome
      rw [htexts, hsession, reportLines, reportVerdict, hpassed, if_neg Bool.false_ne_true]
      exact ⟨rfl, rfl⟩

/-- What a session says that has run the batches of two lists of scenarios, either of which may have been
left out. -/
structure BatchesConclude (o : Options) (batch : Batch) (hand gen : List ScenarioFile)
    (session : Session) : Prop where
  status : session.conclusion.status = 0 ∨ session.conclusion.status = 1
  status_iff : session.conclusion.status = 0 ↔ batch.Clean hand ∧ batch.Clean gen
  passed_iff : "=== ALL CHECKS PASSED ===" ∈ session.output.map Output.text ↔
    o.handcrafted = true ∧ o.generated = true ∧ session.conclusion.status = 0
  failed_iff : "=== SOME CHECKS FAILED ===" ∈ session.output.map Output.text ↔
    o.handcrafted = true ∧ o.generated = true ∧ session.conclusion.status = 1
  handcrafted : o.handcrafted = true →
    let lines := Summary.Handcrafted.lines (batch.course hand).results
    lines <:+: session.output.map Output.text ∧
      ((batch.course hand).results ≠ [] →
        LastTells lines (batch.Clean hand) "All invariants PASSED for all scenarios."
          "Some invariants FAILED. See details above.")
  generated : o.generated = true → gen ≠ [] →
    let lines := Summary.Generated.lines batch.settings.maxFailureDetails (batch.course gen).results
    lines <:+: session.output.map Output.text ∧
      ((batch.course gen).results ≠ [] →
        LastTells lines (batch.Clean gen) "All generated scenario invariants PASSED."
          "Some generated scenario invariants FAILED. See details above.")

/-- From what is printed about the two batches to what the session says. -/
theorem batchesConclude_of_parts {hand gen : List ScenarioFile} {intro ofHand ofGen : List Output}
    {status : Bool} (hstatus : status = true ↔ batch.Clean hand ∧ batch.Clean gen)
    (hintro : ∀ t ∈ intro.map Output.text, NoVerdict t)
    (hsilentHand : ∀ t ∈ ofHand.map Output.text, NoVerdict t)
    (hsilentGen : ∀ t ∈ ofGen.map Output.text, NoVerdict t)
    (hsummaryHand : o.handcrafted = true →
      Summary.Handcrafted.lines (batch.course hand).results <:+: ofHand.map Output.text)
    (hsummaryGen : o.generated = true → gen ≠ [] →
      Summary.Generated.lines batch.settings.maxFailureDetails (batch.course gen).results <:+:
        ofGen.map Output.text) :
    BatchesConclude o batch hand gen
      ⟨intro ++ (ofHand ++ ofGen) ++ verdictLines o status, .ofPassed status⟩ := by
  have hbefore : ∀ t ∈ (intro ++ (ofHand ++ ofGen)).map Output.text, NoVerdict t := by
    intro t ht
    simp only [List.map_append, List.mem_append] at ht
    rcases ht with ht | ht | ht
    · exact hintro t ht
    · exact hsilentHand t ht
    · exact hsilentGen t ht
  have hverdict (other : Bool) := @verdictText_mem_iff o status other _ hbefore
  have hzero : (Conclusion.ofPassed status).status = 0 ↔ status = true := by
    cases status <;> decide
  have hone : (Conclusion.ofPassed status).status = 1 ↔ status = false := by
    cases status <;> decide
  rw [← List.map_append] at hverdict
  constructor
  · rw [hzero, hone]
    exact (Bool.eq_false_or_eq_true status)
  · rw [hzero, hstatus]
  · rw [hzero]
    exact hverdict true
  · rw [hone]
    exact hverdict false
  · intro hwanted
    have hpart : ofHand <:+: intro ++ (ofHand ++ ofGen) ++ verdictLines o status :=
      ⟨intro, ofGen ++ verdictLines o status, by simp only [List.append_assoc]⟩
    exact ⟨(hsummaryHand hwanted).trans (hpart.map _), lastTells_handcrafted⟩
  · intro hwanted hsome
    have hpart : ofGen <:+: intro ++ (ofHand ++ ofGen) ++ verdictLines o status :=
      ⟨intro ++ ofHand, verdictLines o status, by simp only [List.append_assoc]⟩
    exact ⟨(hsummaryGen hwanted hsome).trans (hpart.map _), lastTells_generated⟩

theorem checkBatches_concludes (horder : ∀ runs, (order runs).Perm runs)
    (h : (checkBatches world order o settings platform).Ends) :
    ∃ hand gen, handcraftedOf? world o settings = some hand ∧ generatedOf? world o = some gen ∧
      BatchesConclude o (batchOf world o settings platform) hand gen
        (checkBatches world order o settings platform) := by
  unfold checkBatches at h ⊢
  cases hfiles : requireBatchFiles world o with
  | error fatal =>
    rw [hfiles] at h
    exact absurd rfl (h.ne_stopped fatal)
  | ok u =>
    rw [hfiles] at h
    dsimp only at h ⊢
    obtain ⟨verdicts, hverdicts, hsession⟩ := conclude_eq h.ne_stopped
    rw [sections, List.map_append] at hverdicts
    obtain ⟨ofHand, ofGen, rfl, hhand, hgen⟩ := List.map_eq_append_iff.1 hverdicts.symm
    obtain ⟨hand, hhandFound, partHand⟩ :=
      exists_partConcludes (fun p => handcraftedSection_concludes horder) hhand.symm
    obtain ⟨gen, hgenFound, partGen⟩ :=
      exists_partConcludes (fun p => generatedSection_concludes horder) hgen.symm
    refine ⟨hand, gen, hhandFound, hgenFound, ?_⟩
    rw [hsession, sections, List.flatMap_append]
    refine batchesConclude_of_parts ?_ (fun t => noVerdict_of_mem_introduction) partHand.silent
      partGen.silent partHand.summary fun hwanted hsome => ?_
    · rw [Bool.true_and, List.all_append, Bool.and_eq_true, partHand.all_iff, partGen.all_iff]
    · have hsummary := partGen.summary hwanted
      rwa [if_neg (by rwa [List.isEmpty_iff])] at hsummary

/-- **What a session concludes.** A session that meets neither a misuse nor anything fatal either checks
a recorded trace or runs batches, whose runs may finish in any order.

Of a recorded trace it prints the violations, their explanations, and the verdict, and the status is zero
just when there are no violations. Of batches, the status is zero just when no completed run of either
broke an invariant; a verdict on both is printed only when both are run, and it is the one that the
status tells; and the last line of a summary says whether its runs passed. -/
theorem session_concludes (world : Surroundings) {order : List PlannedRun → List PlannedRun}
    (horder : ∀ runs, (order runs).Perm runs) (arguments : List String)
    (h : (runIn world order arguments).Ends) :
    let session := runIn world order arguments
    ∃ o settings platform, Options.parse? arguments = some o ∧
      load world o = .ok (settings, platform) ∧
      (∀ r, o.recording = some r →
        ∃ report, Report.ofRecording platform r.policy o.diagnoses r.scenario
              (world.files.look r.scenario) (world.files.look r.trace) = .ok report ∧
          (report.violations = [] → session.conclusion.status = 0 ∧
            session.output.map Output.text = report.diagnoses ++ ["PASS"]) ∧
          (report.violations ≠ [] → session.conclusion.status = 1 ∧
            session.output.map Output.text = report.violations.map (·.text) ++ report.diagnoses ++
              [s!"FAIL ({report.violations.length} violations)"])) ∧
      (o.recording = none →
        ∃ hand gen, handcraftedOf? world o settings = some hand ∧ generatedOf? world o = some gen ∧
          BatchesConclude o (batchOf world o settings platform) hand gen session) := by
  intro session
  have hsession : session = runIn world order arguments := rfl
  rw [← hsession] at h
  rw [runIn] at hsession
  cases ho : Options.parse? arguments with
  | none =>
    rw [ho] at hsession
    rw [hsession] at h
    rcases h with h | h <;> cases h
  | some o =>
    rw [ho] at hsession
    dsimp only at hsession
    rw [runWith] at hsession
    cases hload : load world o with
    | error fatal =>
      rw [hload] at hsession
      exact absurd (congrArg Session.conclusion hsession) (h.ne_stopped fatal)
    | ok loaded =>
      obtain ⟨settings, platform⟩ := loaded
      rw [hload] at hsession
      dsimp only at hsession
      refine ⟨o, settings, platform, rfl, hload, fun r hr => ?_, fun hr => ?_⟩
      · rw [hr] at hsession
        rw [hsession] at h ⊢
        exact checkRecording_concludes h
      · rw [hr] at hsession
        rw [hsession] at h ⊢
        exact checkBatches_concludes horder h

/-- A platform of one cluster, as it is written. -/
def onePlatform : String :=
  "\x7b\"clusters\":[\x7b\"procs\":4,\"frequencies\":[600,1400],\"effective_freq\":0," ++
    "\"perf_score\":1\x7d]\x7d"

/-- The files of a scenario with a recorded trace under one of the policies only. -/
def onceRecordedFiles : Files :=
  .ofSeen
    [("platforms/exynos5422LITTLE.json", .file onePlatform.toUTF8),
      ("build/apps/schedsim-new", .file ByteArray.empty), ("tests/scenarios", .directory),
      ("tests/scenarios/generated", .directory),
      ("tests/scenarios/one.json", .file "\x7b\"tasks\":[]\x7d".toUTF8),
      ("tests/scenarios/traces/one.ffa.json", .file "[]".toUTF8)]
    [("tests/scenarios", ["one.json"]), ("tests/scenarios/generated", [])]

/-- What a session finds around itself that has these files, and a simulator that replays. -/
def onceRecordedWorld : Surroundings where
  files := onceRecordedFiles
  programAt _ arguments := (Recorded.program onceRecordedFiles arguments).lasting 7
  defaultWorkers := 1

/-- The options of a session without arguments. -/
def defaultOptions : Options where
  platform := "platforms/exynos5422LITTLE.json"
  scenariosDirectory := "tests/scenarios"
  generatedDirectory := "tests/scenarios/generated"
  simulator := "build/apps/schedsim-new"
  workers := none
  handcrafted := true
  generated := true
  diagnoses := false
  filter := none
  settings := none
  recording := none

theorem declares_onceRecordedFiles :
    Platform.Declares (onceRecordedFiles.look defaultOptions.platform)
      [⟨4, [600.0, 1400.0], 0.0, 1.0⟩] := by
  have hlook : onceRecordedFiles.look defaultOptions.platform = .file onePlatform.toUTF8 := by cbv
  rw [hlook]
  exact ⟨_, Found.text_toUTF8 _, by rfl⟩

theorem load_onceRecordedWorld :
    ∃ platform, load onceRecordedWorld defaultOptions = .ok (Settings.default, platform) := by
  have hbuilt : ∃ platform, Platform.ofDeclarations defaultOptions.platform
      [⟨4, [600.0, 1400.0], 0.0, 1.0⟩] = .ok platform :=
    Platform.exists_ofDeclarations_eq_ok_iff.2 ⟨by simp, by simp⟩
  obtain ⟨platform, hplatform⟩ := hbuilt
  rw [← Platform.load_of_declares declares_onceRecordedFiles] at hplatform
  refine ⟨platform, ?_⟩
  rw [load, onceRecordedWorld, hplatform]
  rfl

section OnceRecorded

variable (platform : Platform)

/-- The batch of such a session on some platform. -/
def onceRecordedBatch : Batch :=
  batchOf onceRecordedWorld defaultOptions Settings.default platform

/-- The run of its scenario under a policy. -/
def onceRecordedRun (policy : Policy) : PlannedRun :=
  ⟨0, ⟨"one", "tests/scenarios/one.json", none⟩, policy⟩

/-- The name by which the simulator is told a policy. -/
def simulatorName : Policy → String
  | .grub => "grub"
  | .pa => "power-aware"
  | .ffa => "ffa"
  | .csf => "csf"

theorem load_tasks_onceRecordedFiles :
    Task.load "tests/scenarios/one.json" (onceRecordedFiles.look "tests/scenarios/one.json") =
      .ok [] := by
  cbv

open Arguments in
theorem request?_onceRecordedBatch (policy : Policy) :
    Recorded.request? ((onceRecordedBatch platform).argumentsOf (onceRecordedRun policy)) =
      some ⟨"tests/scenarios/one.json", Simulator.outputName, some (simulatorName policy)⟩ := by
  change Recorded.request? (["-i", "tests/scenarios/one.json", "-p",
    "platforms/exynos5422LITTLE.json"] ++ policy.defaultFlags ++ ["-o", "trace.json"]) = _
  cases policy <;>
    simp [Recorded.request?, parse?, calls?, call?, isValue, Recorded.options, letterCall?,
      longCall?, Given.text?, path?, Recorded.tag?, List.lookup, Policy.defaultFlags,
      simulatorName, Simulator.outputName]

theorem replaysInTime_onceRecordedBatch (policy : Policy) :
    (onceRecordedBatch platform).ReplaysInTime (onceRecordedRun policy) :=
  ⟨7, (by decide : 7 ≤ 60000), rfl⟩

/-- Under the one policy the run completes. -/
theorem outcome_ffa_onceRecordedBatch :
    ((onceRecordedBatch platform).result (onceRecordedRun .ffa)).outcome = .completed ⟨[], []⟩ := by
  have hrecording : (onceRecordedBatch platform).recording (onceRecordedRun .ffa) (some "ffa") =
      .file "[]".toUTF8 := by cbv
  have hchecked : (onceRecordedBatch platform).checked (onceRecordedRun .ffa) (some "ffa") =
      .ok ⟨[], []⟩ := by
    rw [Batch.checked, hrecording]
    cbv
  refine (Batch.outcome_of_file (replaysInTime_onceRecordedBatch platform .ffa)
    (request?_onceRecordedBatch platform .ffa) hrecording).trans ?_
  rw [simulatorName, hchecked, Outcome.ofExcept]

/-- Under each other policy it is skipped. -/
theorem outcome_onceRecordedBatch {policy : Policy} (h : policy ≠ .ffa) :
    ∃ stderr, ((onceRecordedBatch platform).result (onceRecordedRun policy)).outcome =
      .skipped (.simulatorFailed "status 1" stderr) := by
  have hplaces : ∀ place ∈ Recorded.places "tests/scenarios/one.json" (some (simulatorName policy)),
      onceRecordedFiles.look place = .nothing := by
    have hlist : Recorded.places "tests/scenarios/one.json" (some (simulatorName policy)) =
        ["tests/scenarios/traces/one." ++ simulatorName policy ++ ".json",
          "tests/scenarios/traces/one.json"] := by
      cases policy <;> cbv
    rw [hlist]
    cases policy with
    | ffa => exact absurd rfl h
    | _ => simp [onceRecordedFiles, Files.ofSeen, List.lookup, simulatorName]
  have hrecording : (onceRecordedBatch platform).recording (onceRecordedRun policy)
      (some (simulatorName policy)) = .nothing := hplaces _ (Recorded.expected_mem_places ..)
  have hfails := Batch.fails_of_not_file (replaysInTime_onceRecordedBatch platform policy)
    (request?_onceRecordedBatch platform policy) fun content h => by cases hrecording.symm.trans h
  exact hfails.unreplayed [] load_tasks_onceRecordedFiles

/-- The scenario of the session. -/
def onceRecordedScenarios : List ScenarioFile := [⟨"one", "tests/scenarios/one.json", none⟩]

theorem clean_onceRecordedBatch : (onceRecordedBatch platform).Clean onceRecordedScenarios := by
  intro scenario hscenario policy _ report hreport
  obtain rfl := List.mem_singleton.1 hscenario
  have houtcome : ((onceRecordedBatch platform).result (onceRecordedRun policy)).outcome =
      .completed report := congrArg Outcome.ofExcept hreport
  by_cases hpolicy : policy = .ffa
  · subst hpolicy
    cases houtcome.symm.trans (outcome_ffa_onceRecordedBatch platform)
    rfl
  · obtain ⟨stderr, hskipped⟩ := outcome_onceRecordedBatch platform hpolicy
    cases houtcome.symm.trans hskipped

theorem status_onceRecordedBatch :
    ((onceRecordedBatch platform).course onceRecordedScenarios).results.map (·.status) =
      ["SKIP", "SKIP", "PASS", "SKIP"] := by
  have hskip {policy : Policy} (h : policy ≠ .ffa) :
      ((onceRecordedBatch platform).result (onceRecordedRun policy)).status = "SKIP" := by
    obtain ⟨stderr, houtcome⟩ := outcome_onceRecordedBatch platform h
    rw [RunResult.status, RunResult.violations?, houtcome]
  have hpass : ((onceRecordedBatch platform).result (onceRecordedRun .ffa)).status = "PASS" := by
    rw [RunResult.status, RunResult.violations?, outcome_ffa_onceRecordedBatch]
  let status (policy : Policy) := ((onceRecordedBatch platform).result (onceRecordedRun policy)).status
  rw [Batch.course, Batch.results_courseIn Batch.finishes_id]
  change [status .grub, status .pa, status .ffa, status .csf] = _
  simp only [status, hskip, hpass, ne_eq, reduceCtorEq, not_false_eq_true]

theorem checkBatches_onceRecordedWorld {order : List PlannedRun → List PlannedRun}
    (horder : ∀ runs, (order runs).Perm runs) :
    (checkBatches onceRecordedWorld order defaultOptions Settings.default platform).conclusion =
      .passed := by
  have hworkers : ¬maxWorkers < workers onceRecordedWorld defaultOptions := by decide
  have hfiles : requireBatchFiles onceRecordedWorld defaultOptions = .ok () := by cbv
  have hfound : Discovery.handcrafted? onceRecordedWorld.files Settings.default
      defaultOptions.filter defaultOptions.scenariosDirectory = some onceRecordedScenarios := by cbv
  have hpassed : RunResult.allPassed
      ((onceRecordedBatch platform).courseIn order onceRecordedScenarios).results = true := by
    rw [Batch.results_courseIn_eq (horder _)]
    exact Batch.allPassed_course.2 (clean_onceRecordedBatch platform)
  have hhand : (handcraftedSection onceRecordedWorld order defaultOptions
      (onceRecordedBatch platform)).passed = .ok true := by
    have hsettings : (onceRecordedBatch platform).settings = Settings.default := rfl
    rw [handcraftedSection, hsettings, hfound]
    dsimp only
    rw [runSection, if_neg hworkers]
    exact congrArg Except.ok hpassed
  have hgen : (generatedSection onceRecordedWorld order defaultOptions
      (onceRecordedBatch platform)).passed = .ok true := by cbv
  rw [checkBatches, hfiles]
  change (conclude _ _ true [handcraftedSection _ _ _ (onceRecordedBatch platform),
    generatedSection _ _ _ (onceRecordedBatch platform)]).conclusion = _
  simp only [conclude, hhand, hgen]
  rfl

end OnceRecorded

theorem session_concludes_onceRecordedWorld :
    let session := runIn onceRecordedWorld List.reverse []
    (∀ runs : List PlannedRun, runs.reverse.Perm runs) ∧ session.Ends ∧
      session.conclusion.status = 0 ∧
      "=== ALL CHECKS PASSED ===" ∈ session.output.map Output.text ∧
      "=== SOME CHECKS FAILED ===" ∉ session.output.map Output.text ∧
      ∃ platform hand,
        load onceRecordedWorld defaultOptions = .ok (Settings.default, platform) ∧
        handcraftedOf? onceRecordedWorld defaultOptions Settings.default = some hand ∧
        ((onceRecordedBatch platform).course hand).results.map (·.status) =
          ["SKIP", "SKIP", "PASS", "SKIP"] ∧
        Summary.Handcrafted.lines ((onceRecordedBatch platform).course hand).results <:+:
          session.output.map Output.text := by
  intro session
  have horder (runs : List PlannedRun) : runs.reverse.Perm runs := List.reverse_perm runs
  have hoptions : Options.parse? [] = some defaultOptions := by cbv
  obtain ⟨platform, hload⟩ := load_onceRecordedWorld
  have hpassed : session.conclusion = .passed := by
    have hsession : session =
        checkBatches onceRecordedWorld List.reverse defaultOptions Settings.default platform := by
      change runIn onceRecordedWorld List.reverse [] = _
      rw [runIn, hoptions]
      dsimp only
      rw [runWith, hload]
      rfl
    rw [hsession, checkBatches_onceRecordedWorld platform horder]
  have hstatus : session.conclusion.status = 0 := by rw [hpassed, Conclusion.status]
  obtain ⟨o, settings, platform', ho, hload', -, hbatches⟩ :=
    session_concludes onceRecordedWorld horder [] (.inl hpassed)
  obtain rfl := Option.some.inj (hoptions.symm.trans ho)
  cases hload.symm.trans hload'
  obtain ⟨hand, gen, hhand, -, hconcludes⟩ := hbatches rfl
  have hfound : handcraftedOf? onceRecordedWorld defaultOptions Settings.default =
      some onceRecordedScenarios := by cbv
  obtain rfl := Option.some.inj (hfound.symm.trans hhand)
  refine ⟨horder, .inl hpassed, hstatus, hconcludes.passed_iff.2 ⟨rfl, rfl, hstatus⟩,
    fun hfailed => ?_, platform, _, hload, hhand, status_onceRecordedBatch platform,
    (hconcludes.handcrafted rfl).1⟩
  have hone := (hconcludes.failed_iff.1 hfailed).2.2
  rw [hstatus] at hone
  exact absurd hone (by decide)

end CommandLine

end SchedAudit

import SchedAudit.CommandLine.Checking
import SchedAudit.Proofs.Audit.Recency

/-!
# What a session prints besides its verdict

The last line of a session with two batches is a verdict on both. Whoever looks for it in a log relies
on no other line being the same, although most lines hold names of files, which can be anything. Each
line gives itself away all the same: by one of its first characters (`ne_verdictText_of_getElem?`), or
by the mark between two columns of a table (`ne_verdictText_of_bar`).
-/

namespace SchedAudit.CommandLine

/-- The verdict on two batches. -/
def verdictText (passed : Bool) : String :=
  if passed then "=== ALL CHECKS PASSED ===" else "=== SOME CHECKS FAILED ==="

/-! ## Telling texts from the verdict -/

section Text

variable {t : String} {c : Char} {k : Nat} {passed : Bool}

theorem ne_verdictText_of_getElem? (h : t.toList[k]? = some c)
    (hc : (verdictText passed).toList[k]? ≠ some c) : t ≠ verdictText passed := by
  rintro rfl
  exact hc h

theorem ne_verdictText_of_blank (h : t.toList[0]? = some ' ') : t ≠ verdictText passed :=
  ne_verdictText_of_getElem? h (by cases passed <;> decide)

theorem ne_verdictText_of_bar (h : '|' ∈ t.toList) : t ≠ verdictText passed := by
  rintro rfl
  cases passed <;> revert h <;> decide

theorem empty_ne_verdictText : "" ≠ verdictText passed := by cases passed <;> decide

/-- A ruled line has one character only. -/
theorem ruled_ne_verdictText (n : Nat) : Column.ruled c n ≠ verdictText passed := by
  intro h
  have hall : ∀ x ∈ (verdictText passed).toList, x = c := by
    rw [← h, Column.ruled, String.toList_ofList]
    exact fun x => List.eq_of_mem_replicate
  have hmark : '=' = c := hall _ (by cases passed <;> decide)
  have hblank : ' ' = c := hall _ (by cases passed <;> decide)
  exact absurd (hmark.trans hblank.symm) (by decide)

end Text

/-! ## Diagnoses -/

section Diagnoses

variable {platform : Platform} {tasks : List Task} {policy : Policy} {diagnoses passed : Bool}
  {trace : Trace} {d : String}

/-- A text that is a diagnosis of something. -/
def IsDiagnosis (d : String) : Prop := ∃ σ s h time m, d = Diagnosis.text σ s h time m

theorem isDiagnosis_of_diagnose? {σ : Setting} {s : Schedule} {h : History} {e : Entry}
    (hd : diagnose? σ s h e = some d) : IsDiagnosis d := by
  obtain ⟨time, event⟩ := e
  cases event with
  | virtualTimeUpdate tid value bandwidth =>
    obtain ⟨m, -, rfl⟩ := Option.map_eq_some_iff.1 hd
    exact ⟨σ, s, h, time, m, rfl⟩
  | _ => cases hd

theorem isDiagnosis_of_mem_foldl {σ : Setting} {a : Audit}
    (ha : ∀ d ∈ a.report.diagnoses, IsDiagnosis d)
    (hd : d ∈ (trace.foldl (Audit.step σ policy diagnoses) a).report.diagnoses) :
    IsDiagnosis d := by
  induction trace generalizing a with
  | nil => exact ha d hd
  | cons e rest ih =>
    refine ih (fun d hd => ?_) hd
    rcases List.mem_append.1 hd with hd | hd
    · exact ha d hd
    · rw [Option.mem_toList] at hd
      exact isDiagnosis_of_diagnose? (Option.ite_none_right_eq_some.1 hd).2

theorem isDiagnosis_of_mem_report
    (hd : d ∈ (Report.ofTrace platform tasks policy diagnoses trace).diagnoses) :
    IsDiagnosis d := by
  rw [Audit.report_ofTrace] at hd
  exact isDiagnosis_of_mem_foldl (fun d hd => absurd hd List.not_mem_nil) hd

/-- The title of a diagnosis begins as a verdict does, but for one character. -/
theorem IsDiagnosis.ne_verdictText (h : IsDiagnosis d) : d ≠ verdictText passed := by
  obtain ⟨σ, s, h, time, m, rfl⟩ := h
  have htitle : (Diagnosis.title time m).toList[4]? = some 'v' := by
    unfold Diagnosis.title
    iterate 6 refine getElem?_append ?_
    rfl
  have htext : (Diagnosis.text σ s h time m).toList[4]? = some 'v' := by
    simp only [Diagnosis.text, Diagnosis.lines, List.cons_append, List.map_cons, String.join_cons]
    exact getElem?_append (getElem?_append htitle)
  have hverdict : (verdictText passed).toList[4]? ≠ some 'v' := by cases passed <;> decide
  exact ne_verdictText_of_getElem? htext hverdict

end Diagnoses

/-! ## Summaries -/

section Summaries

variable {results : List RunResult} {passed : Bool} {t : String}

open Summary

theorem bar_mem_handcraftedLine (width : Nat) (name : String) (content : Invariant → String) :
    '|' ∈ (Handcrafted.line width name content).toList := by
  simp [Handcrafted.line, Invariant.all, String.join]

theorem bar_mem_generatedLine (level policy runs done failed skipped broken : String) :
    '|' ∈ (Generated.line level policy runs done failed skipped broken).toList := by
  simp [Generated.line]

theorem ne_verdictText_of_mem_handcraftedDetail {d : Handcrafted.Detail} (h : t ∈ d.lines) :
    t ≠ verdictText passed := by
  rw [Handcrafted.Detail.lines, List.mem_pair] at h
  rcases h with rfl | rfl
  · refine ne_verdictText_of_blank ?_
    iterate 6 refine getElem?_append ?_
    rfl
  · exact ne_verdictText_of_blank (getElem?_append rfl)

theorem ne_verdictText_of_mem_handcraftedDetails (h : t ∈ Handcrafted.detailLines results) :
    t ≠ verdictText passed := by
  rw [Handcrafted.detailLines] at h
  split at h
  · cases h
  · simp only [List.mem_append, List.mem_cons, List.not_mem_nil, or_false, List.mem_flatMap] at h
    rcases h with (rfl | rfl | rfl) | ⟨d, -, hd⟩
    · exact empty_ne_verdictText
    · cases passed <;> decide
    · exact ruled_ne_verdictText _
    · exact ne_verdictText_of_mem_handcraftedDetail hd

/-- No line of the summary of hand-crafted scenarios is a verdict on both batches. -/
theorem ne_verdictText_of_mem_handcrafted (h : t ∈ Handcrafted.lines results) :
    t ≠ verdictText passed := by
  cases results with
  | nil =>
    obtain rfl := List.mem_singleton.1 h
    cases passed <;> decide
  | cons r rest =>
    simp only [Handcrafted.lines, Handcrafted.tableLines, List.mem_append, List.mem_cons,
      List.mem_map, List.not_mem_nil, or_false] at h
    rcases h with ((((rfl | rfl | rfl) | ⟨r, -, rfl⟩) | rfl) | hdetail) | rfl | rfl
    · exact ruled_ne_verdictText _
    · exact ne_verdictText_of_bar (bar_mem_handcraftedLine ..)
    · exact ruled_ne_verdictText _
    · exact ne_verdictText_of_bar (bar_mem_handcraftedLine ..)
    · exact ruled_ne_verdictText _
    · exact ne_verdictText_of_mem_handcraftedDetails hdetail
    · exact empty_ne_verdictText
    · rw [Handcrafted.verdict]
      split_ifs <;> cases passed <;> decide

theorem ne_verdictText_of_mem_block {limit : Nat} {k : Invariant} {found : List Generated.Failure}
    (h : t ∈ Generated.blockLines limit k found) : t ≠ verdictText passed := by
  cases found with
  | nil => cases h
  | cons f rest =>
    simp only [Generated.blockLines, List.mem_append, List.mem_cons, List.not_mem_nil, or_false,
      List.mem_map] at h
    rcases h with ((rfl | rfl) | ⟨f, -, rfl⟩) | hmore
    · exact empty_ne_verdictText
    · refine ne_verdictText_of_blank ?_
      iterate 4 refine getElem?_append ?_
      rfl
    · unfold Generated.Failure.line
      exact ne_verdictText_of_blank (getElem?_append (getElem?_append (getElem?_append rfl)))
    · split_ifs at hmore
      · obtain rfl := List.mem_singleton.1 hmore
        exact ne_verdictText_of_blank (getElem?_append (getElem?_append rfl))
      · cases hmore

theorem ne_verdictText_of_mem_generatedDetails {limit : Nat}
    (h : t ∈ Generated.detailLines limit results) : t ≠ verdictText passed := by
  rw [Generated.detailLines] at h
  split at h
  · cases h
  · simp only [List.mem_append, List.mem_cons, List.not_mem_nil, or_false] at h
    rcases h with (rfl | rfl | rfl) | hblock
    · exact empty_ne_verdictText
    · have htitle : (s!"FAILURE DETAILS (first {limit} per invariant):").toList[0]? = some 'F' :=
        getElem?_append (getElem?_append rfl)
      have hverdict : (verdictText passed).toList[0]? ≠ some 'F' := by cases passed <;> decide
      exact ne_verdictText_of_getElem? htitle hverdict
    · exact ruled_ne_verdictText _
    · obtain ⟨k, -, hk⟩ := List.mem_flatMap.1 hblock
      exact ne_verdictText_of_mem_block hk

/-- No line of the summary of generated scenarios is a verdict on both batches. -/
theorem ne_verdictText_of_mem_generated {limit : Nat} (h : t ∈ Generated.lines limit results) :
    t ≠ verdictText passed := by
  cases results with
  | nil =>
    obtain rfl := List.mem_singleton.1 h
    cases passed <;> decide
  | cons r rest =>
    simp only [Generated.lines, Generated.tableLines, List.mem_append, List.mem_cons,
      List.mem_map, List.not_mem_nil, or_false] at h
    rcases h with ((((rfl | rfl | rfl) | ⟨g, -, rfl⟩) | rfl) | hdetail) | rfl | rfl
    · exact ruled_ne_verdictText _
    · exact ne_verdictText_of_bar (bar_mem_generatedLine ..)
    · exact ruled_ne_verdictText _
    · exact ne_verdictText_of_bar (bar_mem_generatedLine ..)
    · exact ruled_ne_verdictText _
    · exact ne_verdictText_of_mem_generatedDetails hdetail
    · exact empty_ne_verdictText
    · rw [Generated.verdict]
      split_ifs <;> cases passed <;> decide

end Summaries

end SchedAudit.CommandLine

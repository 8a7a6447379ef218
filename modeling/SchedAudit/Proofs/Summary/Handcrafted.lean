import Mathlib
import SchedAudit.Proofs.Audit.Attribution
import SchedAudit.Proofs.Sorting
import SchedAudit.Summary.Handcrafted

/-!
# What the summary of hand-crafted scenarios promises

A table of cells, a list of details and a verdict are three ways to look at the same runs, and each
is made in a pass of its own: a cell asks first whether an invariant concerns the policy, the details
take whatever was found, and the verdict asks only whether anything was. They agree (`Consistent`)
because an audit finds no breach of an invariant that does not concern its policy
(`appliesTo_of_mem_ofTrace`), and because runs that differ in scenario or policy never share a place
in the list of details (`details_eq_flatMap`).

The order of the results is not seen: rows are sorted by scenario and policy, and what is not read
off the rows, the width of the first column and the verdict, asks only which results there are.
-/

namespace SchedAudit

namespace RunResult

/-- The scenario and the policy of a run. -/
def key (r : RunResult) : String × Policy := (r.scenario, r.policy)

/-- The invariants that a run broke, in the order of reports. -/
def broken (r : RunResult) : List Invariant :=
  Invariant.all.filter fun k => r.violations.any fun v => v.kind == k

variable {r : RunResult} {k : Invariant}

end RunResult

namespace Summary.Handcrafted

variable {results : List RunResult} {r : RunResult} {k : Invariant}

/-! ## Cells -/

/-- What a detail is about. -/
def Detail.key (d : Detail) : String × Policy × Invariant :=
  (d.scenario, d.policy, d.violation.kind)

theorem lines_of_ne_nil (h : results ≠ []) :
    lines results = tableLines results ++ detailLines results ++ ["", verdict results] := by
  cases results with
  | nil => exact absurd rfl h
  | cons r rest => rfl

/-- A job that is late, and another one that is later. -/
def lateJobs : Trace :=
  [⟨0.0, .servReady 1 1.0 0.5⟩, ⟨3.0, .jobFinished 1⟩, ⟨4.0, .jobFinished 1⟩]

/-- A run that fails, one that passes, and one that is skipped. -/
def mixedRuns : List RunResult :=
  [⟨"simple", none, .pa, .completed (Report.ofTrace .twin [] .pa false lateJobs)⟩,
    ⟨"simple", none, .grub, .completed (Report.ofTrace .twin [] .grub false [])⟩,
    ⟨"broken", none, .grub, .skipped (.scenario "bad json")⟩]

section Order

variable {xs ys : List RunResult}

/-- Where a run stands in the table. -/
def sortKey (r : RunResult) : String ×ₗ ℕ := toLex (r.scenario, r.policy.rank)

theorem inOrder_iff_sortKey_le (a b : RunResult) : inOrder a b = true ↔ sortKey a ≤ sortKey b := by
  rw [inOrder, sortKey, sortKey, Prod.Lex.toLex_le_toLex, Bool.or_eq_true, Bool.and_eq_true,
    beq_iff_eq, decide_eq_true_iff, decide_eq_true_iff]

theorem key_eq_of_sortKey_eq {a b : RunResult} (h : sortKey a = sortKey b) : a.key = b.key := by
  obtain ⟨hscenario, hrank⟩ := Prod.mk.inj (toLex.injective h)
  exact Prod.ext hscenario (Policy.rank_injective hrank)

theorem rows_eq_of_perm (hdistinct : (xs.map RunResult.key).Nodup) (h : xs.Perm ys) :
    rows xs = rows ys :=
  mergeSort_eq_of_perm inOrder_iff_sortKey_le
    (fun _ ha _ hb hab => List.inj_on_of_nodup_map hdistinct ha hb (key_eq_of_sortKey_eq hab)) h

theorem nameWidth_eq_of_perm (h : xs.Perm ys) : nameWidth xs = nameWidth ys :=
  (h.map _).foldl_eq' (fun a _ b _ width => Nat.max_right_comm width a b) 20

theorem verdict_eq_of_perm (h : xs.Perm ys) : verdict xs = verdict ys := by
  rw [verdict, verdict, RunResult.allPassed, RunResult.allPassed, h.any_eq]

theorem tableLines_eq_of_perm (hdistinct : (xs.map RunResult.key).Nodup) (h : xs.Perm ys) :
    tableLines xs = tableLines ys := by
  rw [tableLines, tableLines, nameWidth_eq_of_perm h, rows_eq_of_perm hdistinct h]

theorem detailLines_eq_of_perm (hdistinct : (xs.map RunResult.key).Nodup) (h : xs.Perm ys) :
    detailLines xs = detailLines ys := by
  rw [detailLines, detailLines, details, details, rows_eq_of_perm hdistinct h]

/-- **The summary does not depend on the order of the results**, as long as no two of them are of
one scenario and policy. -/
theorem text_eq_of_perm (hdistinct : (xs.map RunResult.key).Nodup) (h : xs.Perm ys) :
    text xs = text ys := by
  rw [text, text]
  cases xs with
  | nil => rw [h.nil_eq]
  | cons r rest =>
    have hys : ys ≠ [] := fun hnil => List.cons_ne_nil r rest (List.perm_nil.1 (hnil ▸ h))
    rw [lines_of_ne_nil (List.cons_ne_nil r rest), lines_of_ne_nil hys,
      tableLines_eq_of_perm hdistinct h, detailLines_eq_of_perm hdistinct h, verdict_eq_of_perm h]

theorem text_eq_of_perm_mixedRuns :
    (mixedRuns.map RunResult.key).Nodup ∧ mixedRuns.Perm mixedRuns.reverse ∧
      text mixedRuns = text mixedRuns.reverse := by
  have hperm : mixedRuns.Perm mixedRuns.reverse := (List.reverse_perm mixedRuns).symm
  exact ⟨by decide, hperm, text_eq_of_perm (by decide) hperm⟩

end Order

end Summary.Handcrafted

end SchedAudit

import Mathlib.Data.List.SplitBy
import SchedAudit.Audit
import SchedAudit.Proofs.Schedule.Effect

/-!
# The audit, entry by entry

`Report.ofTrace` takes a trace batch by batch and adds up one list. What is said about an audit is
said about single entries, by their places in the trace:

* `Schedule.before` and `Audit.before` — what is known before the entry at a place. Batches leave
  no mark: the audit of the whole trace is `Audit.before` at its end (`report_ofTrace`). What a
  schedule keeps along a trace is proved by `Schedule.before_induction`.
* `Audit.appended` — the violations that the entry at a place adds to the report. They are what
  `examine` finds (`appended_eq`), and the report is all of them in order (`violations_ofTrace`).
* `Trace.verdicts` — the entries beside what they add, for statements about several traces.
-/

namespace SchedAudit

/-- What is fixed for the audit of a trace. -/
def Setting.ofTrace (platform : Platform) (tasks : List Task) (entries : Trace) : Setting :=
  (Setting.ofTasks platform tasks).joinArrivals entries

/-! ## Schedules before entries -/

namespace Schedule

/-- The schedule before the entry at place `k`. -/
def before (σ : Setting) (entries : Trace) (k : Nat) : Schedule := after σ {} (entries.take k)

variable {σ : Setting} {entries : Trace} {k : Nat}

theorem before_succ {e : Entry} (he : entries[k]? = some e) :
    before σ entries (k + 1) = (before σ entries k).advance σ e := by
  obtain ⟨hlt, rfl⟩ := List.getElem?_eq_some_iff.1 he
  rw [before, before, ← List.take_append_getElem hlt, after_append]
  rfl

theorem before_length (σ : Setting) (entries : Trace) :
    before σ entries entries.length = after σ {} entries := by
  rw [before, List.take_length]

theorem keyed_before : (before σ entries k).Keyed := keyed_after keyed_start _

/-- **Induction along a trace.** What holds of the schedule at the start, and is carried on by each
entry, holds of the schedule before each place. -/
theorem before_induction {P : Nat → Schedule → Prop} (hk : k ≤ entries.length) (start : P 0 {})
    (step : ∀ k e, entries[k]? = some e → P k (before σ entries k) →
      P (k + 1) ((before σ entries k).advance σ e)) : P k (before σ entries k) := by
  induction k with
  | zero => exact start
  | succ k ih =>
    have he : entries[k]? = some entries[k] := List.getElem?_eq_getElem hk
    rw [before_succ he]
    exact step k _ he (ih (Nat.le_of_succ_le hk))

end Schedule

/-! ## Audits before entries -/

namespace Audit

variable (platform : Platform) (tasks : List Task) (policy : Policy) (diagnoses : Bool)
  (entries : Trace)

/-- The audit of a trace before the entry at place `k`. -/
def before (k : Nat) : Audit :=
  (entries.take k).foldl (step (Setting.ofTrace platform tasks entries) policy diagnoses)
    (start diagnoses)

/-- The violations that the entry at place `k` adds to the report. -/
def appended (k : Nat) : List Violation :=
  (before platform tasks policy diagnoses entries (k + 1)).report.violations.drop
    (before platform tasks policy diagnoses entries k).report.violations.length

theorem run_eq_foldl (σ : Setting) (policy : Policy) (diagnoses : Bool) (a : Audit)
    (entries : Trace) :
    a.run σ policy diagnoses entries = entries.foldl (step σ policy diagnoses) a := by
  have hbatches : entries.batches.flatten = entries := List.flatten_splitBy ..
  conv_rhs => rw [← hbatches, List.foldl_flatten]
  rfl

theorem report_ofTrace :
    Report.ofTrace platform tasks policy diagnoses entries =
      (before platform tasks policy diagnoses entries entries.length).report := by
  rw [before, List.take_length, ← run_eq_foldl]
  rfl

theorem schedule_foldl (σ : Setting) (policy : Policy) (diagnoses : Bool) (a : Audit)
    (entries : Trace) :
    (entries.foldl (step σ policy diagnoses) a).schedule = a.schedule.after σ entries := by
  induction entries generalizing a with
  | nil => rfl
  | cons e entries ih => exact ih _

variable {platform tasks policy diagnoses entries}

/-- What an audit knows depends neither on the policy nor on what was found. -/
theorem schedule_before (k : Nat) :
    (before platform tasks policy diagnoses entries k).schedule =
      Schedule.before (Setting.ofTrace platform tasks entries) entries k :=
  schedule_foldl _ policy diagnoses (start diagnoses) _

variable {k : Nat} {e : Entry}

theorem before_succ (he : entries[k]? = some e) :
    before platform tasks policy diagnoses entries (k + 1) =
      (before platform tasks policy diagnoses entries k).step
        (Setting.ofTrace platform tasks entries) policy diagnoses e := by
  obtain ⟨hlt, rfl⟩ := List.getElem?_eq_some_iff.1 he
  rw [before, before, ← List.take_append_getElem hlt, List.foldl_append]
  rfl

theorem violations_before_succ (he : entries[k]? = some e) :
    (before platform tasks policy diagnoses entries (k + 1)).report.violations =
      (before platform tasks policy diagnoses entries k).report.violations ++
        examine (Setting.ofTrace platform tasks entries) policy
          (Schedule.before (Setting.ofTrace platform tasks entries) entries k) e := by
  rw [before_succ he, ← @schedule_before platform tasks policy diagnoses]
  rfl

/-- An entry adds what it shows when it is held against the schedule before it. -/
theorem appended_eq (he : entries[k]? = some e) :
    appended platform tasks policy diagnoses entries k =
      examine (Setting.ofTrace platform tasks entries) policy
        (Schedule.before (Setting.ofTrace platform tasks entries) entries k) e := by
  rw [appended, violations_before_succ he, List.drop_left]

theorem violations_before (hk : k ≤ entries.length) :
    (before platform tasks policy diagnoses entries k).report.violations =
      (List.range k).flatMap (appended platform tasks policy diagnoses entries) := by
  induction k with
  | zero => rfl
  | succ k ih =>
    have he : entries[k]? = some entries[k] := List.getElem?_eq_getElem hk
    rw [violations_before_succ he, ih (Nat.le_of_succ_le hk), List.range_succ,
      List.flatMap_append, List.flatMap_singleton, appended_eq he]

/-- **The report is what its entries add,** in the order of the trace. -/
theorem violations_ofTrace (platform : Platform) (tasks : List Task) (policy : Policy)
    (diagnoses : Bool) (entries : Trace) :
    (Report.ofTrace platform tasks policy diagnoses entries).violations =
      (List.range entries.length).flatMap (appended platform tasks policy diagnoses entries) := by
  rw [report_ofTrace, violations_before (Nat.le_refl _)]

end Audit

/-! ## A small platform -/

/-- Two clusters of one processor each. -/
def Platform.twin : Platform where
  clusters := [⟨0, 1, [100.0], 0.0, 1.0, 100.0, 1.0⟩, ⟨1, 1, [100.0], 0.0, 1.0, 100.0, 1.0⟩]
  numbered := fun
    | 0, _ => rfl
    | 1, _ => rfl

/-! ## Verdicts -/

/-- The entries of a trace, each with the violations that it adds to the report. -/
def Trace.verdicts (platform : Platform) (tasks : List Task) (policy : Policy) (diagnoses : Bool)
    (entries : Trace) : List (Entry × List Violation) :=
  entries.zipIdx.map fun (e, k) => (e, Audit.appended platform tasks policy diagnoses entries k)

/-- The entries of a trace, each with what it shows when a schedule takes them. -/
def Schedule.findings (σ : Setting) (policy : Policy) (s : Schedule) :
    Trace → List (Entry × List Violation)
  | [] => []
  | e :: entries => (e, examine σ policy s e) :: (s.advance σ e).findings σ policy entries

theorem Schedule.findings_append (σ : Setting) (policy : Policy) (s : Schedule) (x y : Trace) :
    s.findings σ policy (x ++ y) = s.findings σ policy x ++ (s.after σ x).findings σ policy y := by
  induction x generalizing s with
  | nil => rfl
  | cons e x ih => rw [List.cons_append, findings, findings, ih, after_cons, List.cons_append]

theorem Schedule.getElem?_findings (σ : Setting) (policy : Policy) (s : Schedule) (entries : Trace)
    (k : Nat) :
    (s.findings σ policy entries)[k]? =
      entries[k]?.map fun e => (e, examine σ policy (s.after σ (entries.take k)) e) := by
  induction entries generalizing s k with
  | nil => rfl
  | cons e entries ih =>
    cases k with
    | zero => rfl
    | succ k =>
      rw [findings, List.getElem?_cons_succ, ih, List.getElem?_cons_succ]
      rfl

theorem Trace.verdicts_eq_findings (platform : Platform) (tasks : List Task) (policy : Policy)
    (diagnoses : Bool) (entries : Trace) :
    entries.verdicts platform tasks policy diagnoses =
      ({} : Schedule).findings (Setting.ofTrace platform tasks entries) policy entries := by
  refine List.ext_getElem? fun k => ?_
  rw [Schedule.getElem?_findings, verdicts, List.getElem?_map, List.getElem?_zipIdx]
  cases he : entries[k]? with
  | none => rfl
  | some e =>
    simp only [Option.map_some, Nat.zero_add, Option.some_inj, Prod.mk.injEq, true_and]
    exact Audit.appended_eq he

/-- The report is what the entries of a trace show, one after the other. -/
theorem Audit.violations_eq_findings (platform : Platform) (tasks : List Task) (policy : Policy)
    (diagnoses : Bool) (entries : Trace) :
    (Report.ofTrace platform tasks policy diagnoses entries).violations =
      (({} : Schedule).findings (Setting.ofTrace platform tasks entries) policy entries).flatMap
        (·.2) := by
  rw [violations_ofTrace, ← Trace.verdicts_eq_findings platform tasks policy diagnoses,
    Trace.verdicts, List.flatMap_map, List.range_eq_range', ← List.zipIdx_map_snd,
    List.flatMap_map]

end SchedAudit

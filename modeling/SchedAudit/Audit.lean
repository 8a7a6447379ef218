import SchedAudit.Diagnosis
import SchedAudit.Rule.Deadline
import SchedAudit.Rule.Frequency

/-!
# The audit of a trace

A trace is held against the rules entry by entry. Which rule looks at the schedule before and which
after an entry took effect is fixed for each kind of event, and stated by `examine`:

* a finished job and a replenished budget are examined before the entry takes effect;
* a sample of virtual time is examined for its rate before, and against the deadline after;
* a scheduled task and a new frequency are examined after.

`examine` only reads, and `Schedule.advance` is the same whatever the rules found, so the violations
of a trace are those of its entries one after the other. An `Audit` adds up the report on the way.
-/

namespace SchedAudit

/-! ## One entry -/

/-- The violations that one entry shows, given the schedule before it. -/
def examine (σ : Setting) (policy : Policy) (s : Schedule) (e : Entry) : List Violation :=
  match e.event with
  | .jobFinished tid => (Rule.deadlineMiss? s e.time tid).toList
  | .virtualTimeUpdate tid value _ =>
    ((Rule.rateMismatch? σ s e.time tid value).map (·.violation e.time)).toList ++
      (Rule.vtPastDeadline? (s.apply σ e) e.time tid value).toList
  | .servBudgetReplenished tid budget => (Rule.budgetMismatch? σ s e.time tid budget).toList
  | .frequencyUpdate c _ =>
    match policy.frequencyInvariant? with
    | some kind => (Rule.frequencyMismatch? kind σ (s.apply σ e) e.time c).toList
    | none => []
  | .taskScheduled tid _ => Rule.edfOrdering (s.apply σ e) e.time tid
  | _ => []

/-- The diagnosis that one entry asks for, given the schedule before it and the history up to it. -/
def diagnose? (σ : Setting) (s : Schedule) (h : History) (e : Entry) : Option String :=
  match e.event with
  | .virtualTimeUpdate tid value _ =>
    (Rule.rateMismatch? σ s e.time tid value).map (Diagnosis.text σ s h e.time)
  | _ => none

/-! ## Whole traces -/

/-- What an audit found. -/
structure Report where
  /-- violations in the order of the trace -/
  violations : List Violation
  /-- diagnoses of the rate violations, where they are wanted -/
  diagnoses : List String

namespace Report

/-- Nothing found. -/
def empty : Report := ⟨[], []⟩

/-- Whether nothing was found. -/
def passed (r : Report) : Bool := r.violations.isEmpty

/-- The violations of one invariant. -/
def ofKind (r : Report) (k : Invariant) : List Violation :=
  r.violations.filter fun v => v.kind == k

end Report

/-- An audit under way. -/
structure Audit where
  /-- what the entries so far have shown -/
  schedule : Schedule
  /-- the recent entries -/
  history : History
  /-- what was found so far -/
  report : Report

namespace Audit

/-- An audit before the first entry. -/
def start (diagnoses : Bool) : Audit := ⟨{}, History.start diagnoses, Report.empty⟩

/-- Takes one entry: it is recorded, examined, and takes effect. -/
def step (σ : Setting) (policy : Policy) (diagnoses : Bool) (a : Audit) (e : Entry) : Audit :=
  let history := a.history.record e
  let diagnosis := if diagnoses then diagnose? σ a.schedule history e else none
  { schedule := a.schedule.advance σ e
    history := history
    report :=
      { violations := a.report.violations ++ examine σ policy a.schedule e
        diagnoses := a.report.diagnoses ++ diagnosis.toList } }

/-- Takes the entries of a trace, batch by batch. -/
def run (σ : Setting) (policy : Policy) (diagnoses : Bool) (a : Audit) (trace : Trace) : Audit :=
  trace.batches.foldl (fun a batch => batch.foldl (step σ policy diagnoses) a) a

end Audit

/-- The report on a trace of a policy, on a platform and with declared tasks. Every audit starts
afresh, so the same trace always gives the same report. -/
def Report.ofTrace (platform : Platform) (tasks : List Task) (policy : Policy) (diagnoses : Bool)
    (trace : Trace) : Report :=
  let σ := (Setting.ofTasks platform tasks).joinArrivals trace
  ((Audit.start diagnoses).run σ policy diagnoses trace).report

end SchedAudit

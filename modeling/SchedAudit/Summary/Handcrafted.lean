import SchedAudit.Run
import SchedAudit.Text.Column

/-!
# The summary of hand-crafted scenarios

There are few hand-crafted scenarios, so each run has a row of its own, with a cell for every
invariant. Below the table stands the first violation of each scenario, policy and invariant, and
the last line is the verdict. Rows are in the order of scenario names and policies, whatever the
order of the results.

The summary is data first — `rows`, `cell`, `details` — and text last.
-/

namespace SchedAudit.Summary.Handcrafted

/-! ## What is shown -/

/-- The state of one invariant in one run. -/
inductive Cell where
  | pass
  | fail
  /-- the run is inconclusive -/
  | skip
  /-- the invariant does not concern the policy -/
  | notApplicable
deriving Repr, DecidableEq

/-- The text of a cell. -/
def Cell.text : Cell → String
  | .pass => "PASS"
  | .fail => "FAIL"
  | .skip => "SKIP"
  | .notApplicable => "N/A"

/-- The cell of a run and an invariant. -/
def cell (r : RunResult) (k : Invariant) : Cell :=
  match r.violations? with
  | none => .skip
  | some violations =>
    if !k.appliesTo r.policy then .notApplicable
    else if violations.any fun v => v.kind == k then .fail
    else .pass

/-- Whether two runs are of one scenario and policy. -/
def sameKey (a b : RunResult) : Bool := a.scenario == b.scenario && a.policy == b.policy

/-- The order of rows. -/
def inOrder (a b : RunResult) : Bool :=
  decide (a.scenario < b.scenario) ||
    (a.scenario == b.scenario && decide (a.policy.rank ≤ b.policy.rank))

/-- The runs in the order of rows. -/
def rows (results : List RunResult) : List RunResult := results.mergeSort inOrder

/-- The first violation of an invariant in the runs of one scenario and policy. -/
structure Detail where
  /-- the name of the scenario -/
  scenario : String
  /-- the policy -/
  policy : Policy
  /-- the violation -/
  violation : Violation

/-- The details of neighbouring rows of one scenario and policy. -/
def detailsOf (group : List RunResult) : List Detail :=
  match group with
  | [] => []
  | r :: _ =>
    let violations := group.flatMap (·.violations)
    Invariant.all.filterMap fun k =>
      (violations.find? fun v => v.kind == k).map fun v => ⟨r.scenario, r.policy, v⟩

/-- The details of all rows. -/
def details (results : List RunResult) : List Detail :=
  ((rows results).splitBy sameKey).flatMap detailsOf

/-! ## The text -/

/-- The width of the column of names: the longest label in bytes, but at least 20. -/
def nameWidth (results : List RunResult) : Nat :=
  (results.map fun r => r.label.utf8ByteSize).foldl max 20

/-- The width of the column of an invariant. -/
def cellWidth (k : Invariant) : Nat := max k.label.length 8

/-- One line of the table. -/
def line (width : Nat) (name : String) (content : Invariant → String) : String :=
  Column.left width name ++
    String.join (Invariant.all.map fun k => " | " ++ Column.right (cellWidth k) (content k))

/-- The lines of the table. -/
def tableLines (results : List RunResult) : List String :=
  let width := nameWidth results
  let header := line width "Scenario" (·.label)
  let rule := Column.ruled '=' header.length
  [rule, header, Column.ruled '-' header.length] ++
    (rows results).map (fun r => line width r.label fun k => (cell r k).text) ++ [rule]

/-- The lines of one detail. -/
def Detail.lines (d : Detail) : List String :=
  [s!"  [{d.scenario}:{d.policy.name}] {d.violation.kind.label}:", "    " ++ d.violation.text]

/-- The lines of all details, and their title unless there are none. -/
def detailLines (results : List RunResult) : List String :=
  match details results with
  | [] => []
  | found =>
    ["", "FAILURE DETAILS (first occurrence per scenario/policy/invariant):",
      Column.ruled '-' 80] ++ found.flatMap Detail.lines

/-- The verdict. -/
def verdict (results : List RunResult) : String :=
  if RunResult.allPassed results then "All invariants PASSED for all scenarios."
  else "Some invariants FAILED. See details above."

/-- The lines of the summary. -/
def lines (results : List RunResult) : List String :=
  match results with
  | [] => ["No results to display."]
  | _ => tableLines results ++ detailLines results ++ ["", verdict results]

/-- The summary. -/
def text (results : List RunResult) : String := Column.unlines (lines results)

end SchedAudit.Summary.Handcrafted

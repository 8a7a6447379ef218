import SchedAudit.Level
import SchedAudit.Run
import SchedAudit.Text.Column

/-!
# The summary of generated scenarios

There are many generated scenarios, so the table has one row for each utilization level and policy,
with the numbers of runs that passed, failed and were skipped. Below it the first violations of each
invariant are listed, up to a limit, and the last line is the verdict.

As with the other summary, `groups` and `failures` are the data, and the text comes last.
-/

namespace SchedAudit.Summary.Generated

/-! ## What is shown -/

/-- The runs of one level and policy. -/
structure Group where
  /-- the utilization level -/
  level : Float
  /-- the policy -/
  policy : Policy
  /-- the runs, in the order of the results -/
  members : List RunResult

/-- The level of a run, zero where there is none. -/
def levelOf (r : RunResult) : Float := r.level.getD 0.0

/-- Whether a run belongs to a group. The two zeros are one level, and a level that is not a number
belongs to no group. -/
def Group.accepts (g : Group) (r : RunResult) : Bool :=
  g.level == levelOf r && g.policy == r.policy

/-- Puts a run into the first group that accepts it, or into a new one at the end. -/
def insert (r : RunResult) : List Group → List Group
  | [] => [⟨levelOf r, r.policy, [r]⟩]
  | g :: rest =>
    if g.accepts r then { g with members := g.members ++ [r] } :: rest else g :: insert r rest

/-- The order of the table. -/
def inOrder (a b : Group) : Bool :=
  let x := Binary64.orderKey a.level
  let y := Binary64.orderKey b.level
  decide (x < y) || (x == y && decide (a.policy.rank ≤ b.policy.rank))

/-- The groups in the order of the table. -/
def groups (results : List RunResult) : List Group :=
  (results.foldl (fun found r => insert r found) []).mergeSort inOrder

namespace Group

/-- How many runs were completed without a violation. -/
def passed (g : Group) : Nat := g.members.countP fun r => !r.isFailure && !r.isSkipped

/-- How many runs were completed with a violation. -/
def failed (g : Group) : Nat := g.members.countP (·.isFailure)

/-- How many runs are inconclusive. -/
def skipped (g : Group) : Nat := g.members.countP (·.isSkipped)

/-- The names of all invariants in the order of the alphabet. -/
def sortedNames : List String := (Invariant.all.map (·.name)).mergeSort fun a b => a ≤ b

/-- The names of the invariants that a run of the group broke, in the order of the alphabet. -/
def brokenNames (g : Group) : List String :=
  sortedNames.filter fun name =>
    g.members.any fun r => r.violations.any fun v => v.kind.name == name

end Group

/-- A violation and the run that shows it. -/
structure Failure where
  /-- the run -/
  run : RunResult
  /-- the violation -/
  violation : Violation

/-- The violations of one invariant, in the order of the results. -/
def failures (results : List RunResult) (k : Invariant) : List Failure :=
  results.flatMap fun r => (r.violations.filter fun v => v.kind == k).map fun v => ⟨r, v⟩

/-! ## The text -/

/-- One line of the table. -/
def line (level policy runs passed failed skipped broken : String) : String :=
  Column.left 12 level ++ " | " ++ Column.left 5 policy ++ " | " ++ Column.right 4 runs ++ " | " ++
    Column.right 4 passed ++ " | " ++ Column.right 4 failed ++ " | " ++ Column.right 4 skipped ++
    " | " ++ broken

/-- The line of a group. -/
def Group.line (g : Group) : String :=
  Generated.line (Level.label g.level) g.policy.name
    (toString (g.passed + g.failed + g.skipped)) (toString g.passed) (toString g.failed)
    (toString g.skipped) (", ".intercalate g.brokenNames)

/-- The lines of the table. -/
def tableLines (results : List RunResult) : List String :=
  let header := line "Util Level" "Sched" "Runs" "Pass" "Fail" "Skip" "Failed Invariants"
  let rule := Column.ruled '=' header.length
  [rule, header, Column.ruled '-' header.length] ++ (groups results).map Group.line ++ [rule]

/-- The line of a failure. -/
def Failure.line (f : Failure) : String := "    [" ++ f.run.label ++ "] " ++ f.violation.text

/-- The lines about one invariant: how many violations there are, the first ones, and how many more
there are than shown. An invariant that nothing breaks has none. -/
def blockLines (limit : Nat) (k : Invariant) (found : List Failure) : List String :=
  match found with
  | [] => []
  | _ =>
    ["", s!"  {k.label} ({found.length} total failures):"] ++ (found.take limit).map Failure.line ++
      (if limit < found.length then [s!"    ... and {found.length - limit} more"] else [])

/-- The lines about all invariants, and their title unless nothing was broken. -/
def detailLines (limit : Nat) (results : List RunResult) : List String :=
  match Invariant.all.flatMap fun k => blockLines limit k (failures results k) with
  | [] => []
  | blocks =>
    ["", s!"FAILURE DETAILS (first {limit} per invariant):", Column.ruled '-' 80] ++ blocks

/-- The verdict. -/
def verdict (results : List RunResult) : String :=
  if RunResult.allPassed results then "All generated scenario invariants PASSED."
  else "Some generated scenario invariants FAILED. See details above."

/-- The lines of the summary, with at most `limit` violations of each invariant. -/
def lines (limit : Nat) (results : List RunResult) : List String :=
  match results with
  | [] => ["No generated results to display."]
  | _ => tableLines results ++ detailLines limit results ++ ["", verdict results]

/-- The summary. -/
def text (limit : Nat) (results : List RunResult) : String := Column.unlines (lines limit results)

end SchedAudit.Summary.Generated

/-!
# Policies and invariants

Every policy under audit is global earliest-deadline-first scheduling with GRUB reclaiming; three of
them also choose the frequency of a cluster from the utilizations of its servers, each by a rule of
its own. An **invariant** is one family of rules that a trace is held against. Five of them concern
every policy; the other three are the frequency rules, and each concerns its own policy only.
-/

namespace SchedAudit

/-- A scheduling policy under audit. -/
inductive Policy where
  /-- GRUB reclaiming at full frequency -/
  | grub
  /-- GRUB with power-aware frequencies -/
  | pa
  /-- GRUB with frequencies from the active servers -/
  | ffa
  /-- GRUB with frequencies from the active servers, on as few cores as they need -/
  | csf
deriving Repr, DecidableEq, Inhabited

/-- A family of rules. -/
inductive Invariant where
  /-- a job completes no later than the deadline of its server -/
  | noDeadlineMiss
  /-- the virtual time of a server does not pass its deadline -/
  | vtLeDeadline
  /-- a scheduled server has the earliest deadline among the ready ones -/
  | edfOrdering
  /-- a replenished budget follows from utilization, bandwidth and the time to the deadline -/
  | budgetFormula
  /-- virtual time advances with bandwidth over utilization -/
  | vtRate
  /-- the frequency rule of the power-aware policy -/
  | powerAwareFrequency
  /-- the frequency rule of FFA -/
  | ffaFrequency
  /-- the frequency rule of CSF -/
  | csfFrequency
deriving Repr, DecidableEq, Inhabited

namespace Policy

/-- All policies in the order of reports. -/
def all : List Policy := [.grub, .pa, .ffa, .csf]

/-- The name of a policy in configurations and tables. -/
def name : Policy → String
  | .grub => "grub"
  | .pa => "pa"
  | .ffa => "ffa"
  | .csf => "csf"

/-- The place of a policy in the order of reports. -/
def rank : Policy → Nat
  | .grub => 0
  | .pa => 1
  | .ffa => 2
  | .csf => 3

/-- The policy of a name, which must match letter by letter. -/
def ofName? (name : String) : Option Policy := all.find? fun p => p.name == name

/-- What is said about a name that is no policy. -/
def unknownMessage (name : String) : String :=
  s!"unknown policy '{name}' (valid: grub, pa, ffa, csf)"

/-- The arguments by which the simulator is told the policy, unless the settings give others. -/
def defaultFlags : Policy → List String
  | .grub => ["--reclaim", "grub"]
  | .pa => ["--reclaim", "grub", "--dvfs", "power-aware"]
  | .ffa => ["--reclaim", "grub", "--dvfs", "ffa"]
  | .csf => ["--reclaim", "grub", "--dvfs", "csf"]

/-- The frequency rule of a policy. -/
def frequencyInvariant? : Policy → Option Invariant
  | .grub => none
  | .pa => some .powerAwareFrequency
  | .ffa => some .ffaFrequency
  | .csf => some .csfFrequency

@[simp] theorem ofName?_name (p : Policy) : ofName? p.name = some p := by
  cases p <;> decide

theorem rank_injective {p q : Policy} (h : p.rank = q.rank) : p = q := by
  revert h
  cases p <;> cases q <;> decide

end Policy

namespace Invariant

/-- All invariants in the order of reports. -/
def all : List Invariant :=
  [.noDeadlineMiss, .vtLeDeadline, .edfOrdering, .budgetFormula, .vtRate,
    .powerAwareFrequency, .ffaFrequency, .csfFrequency]

/-- The name of an invariant, in front of each of its violations. -/
def name : Invariant → String
  | .noDeadlineMiss => "no_deadline_miss"
  | .vtLeDeadline => "vt_le_deadline"
  | .edfOrdering => "edf_ordering"
  | .budgetFormula => "budget_formula"
  | .vtRate => "vt_rate"
  | .powerAwareFrequency => "frequency_formula"
  | .ffaFrequency => "ffa_frequency"
  | .csfFrequency => "csf_frequency"

/-- The label of an invariant over a column of a table. -/
def label : Invariant → String
  | .noDeadlineMiss => "No Deadline Miss"
  | .vtLeDeadline => "VT <= Deadline"
  | .edfOrdering => "EDF Ordering"
  | .budgetFormula => "Budget Formula"
  | .vtRate => "VT Rate"
  | .powerAwareFrequency => "Frequency (PA)"
  | .ffaFrequency => "Frequency (FFA)"
  | .csfFrequency => "Frequency (CSF)"

/-- The place of an invariant in the order of reports. -/
def rank : Invariant → Nat
  | .noDeadlineMiss => 0
  | .vtLeDeadline => 1
  | .edfOrdering => 2
  | .budgetFormula => 3
  | .vtRate => 4
  | .powerAwareFrequency => 5
  | .ffaFrequency => 6
  | .csfFrequency => 7

/-- The invariant of a name. -/
def ofName? (name : String) : Option Invariant := all.find? fun k => k.name == name

/-- Whether an invariant is about frequencies. -/
def isFrequency : Invariant → Bool
  | .powerAwareFrequency | .ffaFrequency | .csfFrequency => true
  | _ => false

/-- Whether an invariant concerns the runs of a policy. -/
def appliesTo (k : Invariant) (p : Policy) : Bool :=
  !k.isFrequency || p.frequencyInvariant? == some k

@[simp] theorem ofName?_name (k : Invariant) : ofName? k.name = some k := by
  cases k <;> decide

theorem rank_injective {k l : Invariant} (h : k.rank = l.rank) : k = l := by
  revert h
  cases k <;> cases l <;> decide

theorem mem_all (k : Invariant) : k ∈ all := by
  cases k <;> decide

end Invariant

end SchedAudit

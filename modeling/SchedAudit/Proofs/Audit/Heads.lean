import Mathlib.Tactic.SplitIfs
import SchedAudit.Audit

/-!
# Who and what a violation names

Beside its numbers a violation names an invariant, a time and, unless it is about frequencies, a task.
All three are told by the entry that shows it: each kind of event is held against the invariants of
`Event.invariants`, and no rule reports another time or task than those of the entry
(`head_of_mem_examine`).
-/

namespace SchedAudit

/-- The invariants that an event is held against under a policy. -/
def Event.invariants (policy : Policy) : Event → List Invariant
  | .jobFinished _ => [.noDeadlineMiss]
  | .virtualTimeUpdate .. => [.vtRate, .vtLeDeadline]
  | .servBudgetReplenished .. => [.budgetFormula]
  | .frequencyUpdate .. => policy.frequencyInvariant?.toList
  | .taskScheduled .. => [.edfOrdering]
  | _ => []

/-- A violation of an invariant at a time, by a task or by none. -/
structure Violation.HasHead (x : Violation) (kind : Invariant) (time : Float)
    (tid : Option Nat) : Prop where
  kind : x.kind = kind
  time : x.time = time
  tid : x.tid = tid

namespace Rule

variable {σ : Setting} {s : Schedule} {time value : Float} {tid c : Nat} {x : Violation}

theorem head_of_deadlineMiss? (h : deadlineMiss? s time tid = some x) :
    x.HasHead .noDeadlineMiss time (some tid) := by
  obtain ⟨v, -, h⟩ := Option.bind_eq_some_iff.1 h
  split at h
  · cases h
  · cases h
    exact ⟨rfl, rfl, rfl⟩

theorem head_of_vtPastDeadline? (h : vtPastDeadline? s time tid value = some x) :
    x.HasHead .vtLeDeadline time (some tid) := by
  obtain ⟨v, -, h⟩ := Option.bind_eq_some_iff.1 h
  split at h
  · cases h
  · cases h
    exact ⟨rfl, rfl, rfl⟩

theorem head_of_mem_edfOrdering (h : x ∈ edfOrdering s time tid) :
    x.HasHead .edfOrdering time (some tid) := by
  rw [edfOrdering] at h
  split at h
  · obtain ⟨other, -, rfl⟩ := List.mem_map.1 h
    exact ⟨rfl, rfl, rfl⟩
  · cases h

theorem head_of_budgetMismatch? (h : budgetMismatch? σ s time tid value = some x) :
    x.HasHead .budgetFormula time (some tid) := by
  obtain ⟨v, -, h⟩ := Option.bind_eq_some_iff.1 h
  obtain ⟨c, -, h⟩ := Option.bind_eq_some_iff.1 h
  simp only at h
  split at h
  · cases h
  · split at h
    · cases h
    · cases h
      exact ⟨rfl, rfl, rfl⟩

theorem tid_of_rateMismatch? {m : RateMismatch} (h : rateMismatch? σ s time tid value = some m) :
    m.tid = tid := by
  rw [rateMismatch?] at h
  simp only [Option.bind_eq_bind, Option.bind_eq_some_iff] at h
  obtain ⟨v, -, c, -, h⟩ := h
  split at h
  · cases h
  · obtain ⟨first, -, h⟩ := Option.bind_eq_some_iff.1 h
    split_ifs at h
    cases h
    rfl

theorem head_of_frequencyMismatch? {kind : Invariant}
    (h : frequencyMismatch? kind σ s time c = some x) : x.HasHead kind time none := by
  obtain ⟨cluster, -, h⟩ := Option.bind_eq_some_iff.1 h
  obtain ⟨frequency, -, h⟩ := Option.bind_eq_some_iff.1 h
  obtain ⟨demand, -, h⟩ := Option.bind_eq_some_iff.1 h
  rw [FrequencyDemand.violation?] at h
  split at h
  · cases h
  · cases h
    exact ⟨rfl, rfl, rfl⟩

end Rule

/-- **A violation names what its entry is about.** -/
theorem head_of_mem_examine {σ : Setting} {policy : Policy} {s : Schedule} {e : Entry}
    {x : Violation} (h : x ∈ examine σ policy s e) :
    ∃ kind ∈ e.event.invariants policy, x.HasHead kind e.time e.event.task? := by
  obtain ⟨time, event⟩ := e
  cases event with
  | jobFinished tid =>
    exact ⟨_, List.mem_singleton_self _, Rule.head_of_deadlineMiss? (Option.mem_toList.1 h)⟩
  | virtualTimeUpdate tid value bandwidth =>
    rcases List.mem_append.1 h with h | h
    · obtain ⟨m, hm, rfl⟩ := Option.map_eq_some_iff.1 (Option.mem_toList.1 h)
      exact ⟨.vtRate, by simp [Event.invariants], rfl, rfl,
        congrArg some (Rule.tid_of_rateMismatch? hm)⟩
    · exact ⟨.vtLeDeadline, by simp [Event.invariants],
        Rule.head_of_vtPastDeadline? (Option.mem_toList.1 h)⟩
  | servBudgetReplenished tid budget =>
    exact ⟨_, List.mem_singleton_self _, Rule.head_of_budgetMismatch? (Option.mem_toList.1 h)⟩
  | frequencyUpdate c frequency =>
    cases hkind : policy.frequencyInvariant? with
    | none =>
      simp only [examine, hkind] at h
      cases h
    | some kind =>
      simp only [examine, hkind] at h
      exact ⟨kind, by simp [Event.invariants, hkind],
        Rule.head_of_frequencyMismatch? (Option.mem_toList.1 h)⟩
  | taskScheduled tid cpu =>
    exact ⟨_, List.mem_singleton_self _, Rule.head_of_mem_edfOrdering h⟩
  | _ => cases h

end SchedAudit

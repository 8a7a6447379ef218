import SchedAudit.Audit
import SchedAudit.Proofs.Schedule.Effect

/-!
# What the rules on a task can see

Five rules look at one task, and they ask a schedule for little: the server of the task, the cluster
where it is placed, and the servers that are attached there. Two schedules that agree on these look
the same from the task (`Schedule.SameView`), each of the five rules finds the same in both, and an
entry about the task shows the same (`examine_congr_of_sameView`), whatever else has happened before.
-/

namespace SchedAudit

namespace Schedule

/-- Two schedules that look the same to the rules on a task. -/
structure SameView (tid : Nat) (s t : Schedule) : Prop where
  server : s.server? tid = t.server? tid
  placement : s.placement? tid = t.placement? tid
  attached : ∀ c, t.placement? tid = some c → s.attachedOn c = t.attachedOn c

variable {σ τ : Setting} {s t : Schedule} {tid : Nat}

theorem clusterOf?_congr (hσ : σ.platform = τ.platform)
    (h : s.placement? tid = t.placement? tid) : s.clusterOf? σ tid = t.clusterOf? τ tid := by
  rw [clusterOf?, clusterOf?, h, hσ]

namespace SameView

/-! ## The rules on deadlines -/

section Deadlines

variable (h : SameView tid s t) (time value : Float)

include h

theorem deadlineMiss?_eq : Rule.deadlineMiss? s time tid = Rule.deadlineMiss? t time tid := by
  rw [Rule.deadlineMiss?, Rule.deadlineMiss?, h.server]

/-- A sample is examined after it has taken effect, and then both servers have taken it. -/
theorem vtPastDeadline?_apply_eq (σ τ : Setting) (bandwidth : Option Float) :
    let e : Entry := ⟨time, .virtualTimeUpdate tid value bandwidth⟩
    Rule.vtPastDeadline? (s.apply σ e) time tid value =
      Rule.vtPastDeadline? (t.apply τ e) time tid value := by
  intro e
  have hsampled (σ : Setting) (s : Schedule) :
      (s.apply σ e).server? tid = (s.server? tid).map (·.sample time value) :=
    (server?_modifyServer s tid tid _).trans (if_pos rfl)
  rw [Rule.vtPastDeadline?, Rule.vtPastDeadline?, hsampled, hsampled, h.server]

theorem edfOrdering_eq : Rule.edfOrdering s time tid = Rule.edfOrdering t time tid := by
  rw [Rule.edfOrdering, Rule.edfOrdering, h.server, h.placement]
  split
  · -- the rule compares with the servers on the cluster of the task
    next running c _ hplaced => rw [h.attached c hplaced]
  · rfl

end Deadlines

/-! ## The rules of reclaiming -/

section Reclaiming

variable (hσ : σ.platform = τ.platform) (h : SameView tid s t) (time value : Float)

include hσ h

theorem bandwidth_eq {c : Nat} (hplaced : t.placement? tid = some c) :
    s.bandwidth σ c = t.bandwidth τ c := by
  rw [bandwidth, bandwidth, hσ, h.attached c hplaced]

theorem scaledUtilization_eq : s.scaledUtilization σ tid = t.scaledUtilization τ tid := by
  rw [scaledUtilization, scaledUtilization, h.server, clusterOf?_congr hσ h.placement]

theorem rateMismatch?_eq :
    Rule.rateMismatch? σ s time tid value = Rule.rateMismatch? τ t time tid value := by
  rw [Rule.rateMismatch?, Rule.rateMismatch?, h.server, h.placement]
  simp only [Option.bind_eq_bind]
  refine Option.bind_congr fun v _ => Option.bind_congr fun c hplaced => ?_
  rw [bandwidth_eq hσ h hplaced, scaledUtilization_eq hσ h]

theorem budgetMismatch?_eq :
    Rule.budgetMismatch? σ s time tid value = Rule.budgetMismatch? τ t time tid value := by
  rw [Rule.budgetMismatch?, Rule.budgetMismatch?, h.server, h.placement]
  simp only [Option.bind_eq_bind]
  refine Option.bind_congr fun v _ => Option.bind_congr fun c hplaced => ?_
  rw [bandwidth_eq hσ h hplaced, scaledUtilization_eq hσ h]

end Reclaiming

end SameView

end Schedule

/-! ## An entry about a task -/

open Schedule (SameView) in
/-- **An entry about a task shows what can be seen from the task.** What the entry itself changes is
the server of the task, or nothing that the rules ask for. -/
theorem examine_congr_of_sameView {σ τ : Setting} {s t : Schedule} {e : Entry} {tid : Nat}
    (hσ : σ.platform = τ.platform) (policy : Policy) (h : SameView tid s t)
    (htask : e.event.task? = some tid) : examine σ policy s e = examine τ policy t e := by
  obtain ⟨time, event⟩ := e
  cases event with
  | jobFinished tid' =>
    obtain rfl := Option.some.inj htask
    exact congrArg Option.toList (h.deadlineMiss?_eq time)
  | virtualTimeUpdate tid' value bandwidth =>
    obtain rfl := Option.some.inj htask
    simp only [examine, SameView.rateMismatch?_eq hσ h,
      h.vtPastDeadline?_apply_eq time value σ τ bandwidth]
  | servBudgetReplenished tid' budget =>
    obtain rfl := Option.some.inj htask
    exact congrArg Option.toList (SameView.budgetMismatch?_eq hσ h time budget)
  | taskScheduled tid' cpu =>
    -- the entry takes effect on the processors alone
    obtain rfl := Option.some.inj htask
    exact h.edfOrdering_eq time
  | frequencyUpdate => cases htask
  | _ => rfl

end SchedAudit

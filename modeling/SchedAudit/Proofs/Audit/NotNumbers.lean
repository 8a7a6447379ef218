import SchedAudit.Proofs.Audit.Frequencies
import SchedAudit.Proofs.Tolerance.Matching

/-!
# Values that are not numbers

A budget or a frequency that is not a number is within no tolerance of what is due, so it should be
reported wherever it is judged. But two values match also where the larger magnitude is zero, and the
maximum passes over what is not a number: such a value matches a zero (`Tolerance.approxEq_of_isNaN`),
and there it goes unreported.

Zero is due as a budget when the share up to the deadline is not above zero
(`Rule.expectedBudget_beq_zero_eq_false_iff`), and as a frequency when it is the mode that is due.
Everywhere else what is not a number is reported (`notANumber_reportedIff`).
-/

namespace SchedAudit

/-- What an entry shows of one invariant: a violation just in case something is wrong. -/
structure ReportedIff (wrong : Prop) (kind : Invariant) (time : Float) (tid : Option Nat)
    (found : List Violation) : Prop where
  reported : wrong → ∃ x, found = [x] ∧ x.HasHead kind time tid
  silent : ¬wrong → found = []

section Judged

variable {σ : Setting} {policy : Policy} {s : Schedule} {tid c : Nat}

/-- A replenished budget is held against the formula. -/
theorem reportedIff_servBudgetReplenished {v : Server} (hv : s.server? tid = some v)
    (hc : s.placement? tid = some c) (hbandwidth : ¬s.bandwidth σ c ≤ 0.0) (time budget : Float) :
    ReportedIff
      (Tolerance.approxEq budget
        (Rule.expectedBudget (s.scaledUtilization σ tid) (s.bandwidth σ c) v) = false)
      .budgetFormula time (some tid)
      (examine σ policy s ⟨time, .servBudgetReplenished tid budget⟩) := by
  simp only [examine, Rule.budgetMismatch?, hv, hc, Option.bind_eq_bind, Option.bind_some,
    if_neg hbandwidth]
  refine ⟨fun hwrong => ?_, fun hmatch => ?_⟩
  · rw [if_neg (Bool.eq_false_iff.1 hwrong)]
    exact ⟨_, rfl, rfl, rfl, rfl⟩
  · rw [if_pos (Bool.not_eq_false _ ▸ hmatch)]
    rfl

/-- A frequency that is set is held against the mode that is due. -/
theorem reportedIff_frequencyUpdate {kind : Invariant} {cluster : Cluster}
    (hkind : policy.frequencyInvariant? = some kind)
    (hcluster : σ.platform.cluster? c = some cluster) (hcounted : Rule.counted kind s c ≠ [])
    (time frequency : Float) :
    ReportedIff
      (Tolerance.approxEq frequency
        (Rule.dueMode kind cluster (Rule.rawDemand kind s cluster)) = false)
      kind time none (examine σ policy s ⟨time, .frequencyUpdate c frequency⟩) := by
  obtain rfl := Platform.id_of_cluster? hcluster
  obtain ⟨inputs, hdemand⟩ :=
    Rule.exists_demand? (isFrequency_of_frequencyInvariant? hkind) hcounted
  rw [examine_frequencyUpdate hkind, hcluster, Option.bind_some, hdemand, Option.bind_some]
  obtain ⟨hwrong, hmatch⟩ := Rule.violation?_cases ⟨_, _, inputs⟩ kind time cluster.id frequency
  exact ⟨hwrong, fun h => hmatch (Bool.not_eq_false _ ▸ h)⟩

end Judged

/-- A budget is due where the share is above zero. -/
theorem Rule.expectedBudget_beq_zero_eq_false_iff (scaled bandwidth : Float) (v : Server) :
    (expectedBudget scaled bandwidth v == 0.0) = false ↔
      0.0 < scaled / bandwidth * (v.deadline - v.virtualTime) := by
  have hnum : (0.0 : Float).isNaN = false := by decide
  rw [expectedBudget, Binary64.larger, if_neg (Bool.eq_false_iff.1 hnum)]
  split_ifs with hshare
  · refine iff_of_true (Bool.eq_false_iff.2 fun hzero => ?_) hshare
    have hshare' := (Binary64.isNaN_eq_false_of_beq hzero).1
    have hkey := (Binary64.beq_iff hshare' hnum).1 hzero
    exact absurd ((Binary64.lt_iff hnum hshare').1 hshare) (not_lt.2 hkey.le)
  · exact iff_of_false (by decide) hshare

/-- **What is not a number is reported, unless zero is due.** It matches the two zeros and no other
double. So wherever a replenished budget is judged, one that is not a number is reported just in case a
share above zero is due; and wherever the frequency of a cluster is judged, one that is not a number is
reported just in case the mode that is due is not zero. -/
theorem notANumber_reportedIff {n : Float} (hn : n.isNaN = true) :
    (∀ x, Tolerance.approxEq n x = (x == 0.0) ∧ Tolerance.approxEq x n = (x == 0.0)) ∧
    (∀ (σ : Setting) (policy : Policy) (s : Schedule) (time : Float) (tid c : Nat) (v : Server),
      s.server? tid = some v → s.placement? tid = some c → ¬s.bandwidth σ c ≤ 0.0 →
        ReportedIff
          (0.0 < s.scaledUtilization σ tid / s.bandwidth σ c * (v.deadline - v.virtualTime))
          .budgetFormula time (some tid) (examine σ policy s ⟨time, .servBudgetReplenished tid n⟩)) ∧
    ∀ (σ : Setting) (policy : Policy) (kind : Invariant) (s : Schedule) (time : Float) (c : Nat)
      (cluster : Cluster), policy.frequencyInvariant? = some kind →
      σ.platform.cluster? c = some cluster → Rule.counted kind s c ≠ [] →
        ReportedIff ((Rule.dueMode kind cluster (Rule.rawDemand kind s cluster) == 0.0) = false)
          kind time none (examine σ policy s ⟨time, .frequencyUpdate c n⟩) := by
  have hmatch := Tolerance.approxEq_of_isNaN hn
  refine ⟨fun x => ⟨hmatch x, (Tolerance.approxEq_swap x n).trans (hmatch x)⟩, ?_, ?_⟩
  · intro σ policy s time tid c v hv hc hbandwidth
    rw [← Rule.expectedBudget_beq_zero_eq_false_iff, ← hmatch]
    exact reportedIff_servBudgetReplenished hv hc hbandwidth time n
  · intro σ policy kind s time c cluster hkind hcluster hcounted
    rw [← hmatch]
    exact reportedIff_frequencyUpdate hkind hcluster hcounted time n

/-- A server becomes ready, and its virtual time comes up to its deadline. -/
def spentTrace : Trace :=
  [⟨0.0, .taskPlaced 1 0⟩, ⟨0.0, .servReady 1 10.0 0.5⟩, ⟨10.0, .virtualTimeUpdate 1 10.0 none⟩]

/-- What is known of this trace beforehand. -/
def spentSetting : Setting := .ofTrace .floored [] spentTrace

/-- The schedule before an entry of it, or behind the last one. -/
def spentSchedule (k : Nat) : Schedule := .before spentSetting spentTrace k

/-- Before the virtual time has come up to the deadline, a budget that is not a number is reported, and
then no more. A frequency that is not a number is reported even then. -/
theorem notANumber_reportedIff_spentTrace :
    let n : Float := 0.0 / 0.0
    n.isNaN = true ∧ Tolerance.approxEq n 0.0 = true ∧ Tolerance.approxEq 1.0 n = false ∧
      (∃ x, examine spentSetting .csf (spentSchedule 2) ⟨10.0, .servBudgetReplenished 1 n⟩ = [x] ∧
        x.HasHead .budgetFormula 10.0 (some 1)) ∧
      examine spentSetting .csf (spentSchedule 3) ⟨10.0, .servBudgetReplenished 1 n⟩ = [] ∧
      ∃ x, examine spentSetting .csf (spentSchedule 3) ⟨10.0, .frequencyUpdate 0 n⟩ = [x] ∧
        x.HasHead .csfFrequency 10.0 none := by
  intro n
  have hn : n.isNaN = true := by decide
  obtain ⟨hmatch, hbudget, hfrequency⟩ := notANumber_reportedIff hn
  have hplacement (k : Fin 2) : (spentSchedule (k + 2)).placement? 1 = some 0 := by
    revert k
    decide +kernel
  have hbandwidth (k : Fin 2) : ¬(spentSchedule (k + 2)).bandwidth spentSetting 0 ≤ 0.0 := by
    revert k
    decide +kernel
  have hdue (k : Fin 2) : ((spentSchedule (k + 2)).server? 1).map (fun v => decide (0.0 <
      (spentSchedule (k + 2)).scaledUtilization spentSetting 1 /
        (spentSchedule (k + 2)).bandwidth spentSetting 0 * (v.deadline - v.virtualTime))) =
      some (k == 0) := by
    revert k
    decide +kernel
  refine ⟨hn, (hmatch 0.0).1.trans (by decide), (hmatch 1.0).2.trans (by decide), ?_, ?_, ?_⟩
  · obtain ⟨v, hv, hshare⟩ := Option.map_eq_some_iff.1 (hdue 0)
    exact (hbudget _ .csf _ 10.0 1 0 v hv (hplacement 0) (hbandwidth 0)).reported
      (of_decide_eq_true hshare)
  · obtain ⟨v, hv, hshare⟩ := Option.map_eq_some_iff.1 (hdue 1)
    exact (hbudget _ .csf _ 10.0 1 0 v hv (hplacement 1) (hbandwidth 1)).silent
      (of_decide_eq_false hshare)
  · have hjudged := hfrequency spentSetting .csf .csfFrequency (spentSchedule 3) 10.0 0 _ rfl rfl nofun
    exact hjudged.reported (by decide +kernel)

/-- What is not a number matches a zero, and is accepted as a budget where none is left. -/
theorem unreported_spentTrace :
    (¬∀ n x : Float, n.isNaN = true →
      Tolerance.approxEq n x = false ∧ Tolerance.approxEq x n = false) ∧
    ¬∀ (policy : Policy) (s : Schedule) (time n : Float) (tid c : Nat), n.isNaN = true →
      s.server? tid ≠ none → s.placement? tid = some c → ¬s.bandwidth spentSetting c ≤ 0.0 →
        examine spentSetting policy s ⟨time, .servBudgetReplenished tid n⟩ ≠ [] := by
  have hn : (0.0 / 0.0 : Float).isNaN = true := by decide
  refine ⟨fun h => absurd (h (0.0 / 0.0) 0.0 hn).1 (by decide), fun h => ?_⟩
  have hserver : ((spentSchedule 3).server? 1).isSome = true := by decide +kernel
  have hplacement : (spentSchedule 3).placement? 1 = some 0 := by decide +kernel
  have hbandwidth : ¬(spentSchedule 3).bandwidth spentSetting 0 ≤ 0.0 := by decide +kernel
  have hnone : (Rule.budgetMismatch? spentSetting (spentSchedule 3) 10.0 1 (0.0 / 0.0)).isNone =
      true := by
    decide +kernel
  have hsilent : examine spentSetting .csf (spentSchedule 3)
      ⟨10.0, .servBudgetReplenished 1 (0.0 / 0.0)⟩ = [] := by
    simp only [examine, Option.isNone_iff_eq_none.1 hnone, Option.toList_none]
  exact h .csf (spentSchedule 3) 10.0 (0.0 / 0.0) 1 0 hn (Option.isSome_iff_ne_none.1 hserver)
    hplacement hbandwidth hsilent

end SchedAudit

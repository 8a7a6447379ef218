import SchedAudit.Proofs.Audit.Attribution
import SchedAudit.Proofs.Platform.Modes

/-!
# What breaks the rules on frequencies

The three frequency rules count servers of a cluster, reckon a frequency from their utilizations, and
ask for a mode. This file says which mode that is, on a platform that was loaded:

* the power-aware rule rounds what it has reckoned, but at most the top frequency;
* the two others do the same, and where the cluster has an effective frequency they take the larger of
  that mode and the mode of the effective frequency. The rule compares before it rounds, so this rests
  on rounding being monotone (`modeAboveFloor_eq`).

The mode is always one of the cluster, and a frequency is a violation just in case it does not match it
(`frequency_verdict`). Where nothing is counted there is nothing to ask for.
-/

namespace SchedAudit

open Binary64 (numericKey larger smaller)

namespace Rule

/-! ## What a rule asks for -/

/-- The servers of a cluster that a frequency rule counts. -/
def counted (kind : Invariant) (s : Schedule) (c : Nat) : List Server :=
  if kind = .powerAwareFrequency then s.attachedOn c else s.activeOn c

/-- The utilization that a frequency rule takes for the largest: all that was ever admitted to the
cluster, or all that is placed there. -/
def largestCounted (kind : Invariant) (s : Schedule) (cluster : Cluster) : Float :=
  if kind = .powerAwareFrequency then s.watermark cluster.id
  else Binary64.largest 0.0 (Schedule.scaledOn cluster (s.serversOn cluster.id))

/-- The frequency that a rule reckons for the servers that it counts. -/
def rawDemand (kind : Invariant) (s : Schedule) (cluster : Cluster) : Float :=
  let total := Binary64.total (Schedule.scaledOn cluster (counted kind s cluster.id))
  let uMax := largestCounted kind s cluster
  let cores :=
    if kind = .csfFrequency then Formula.activeCores total uMax cluster.processors
    else cluster.processors
  Formula.rawFrequency cluster.topFrequency total uMax cores

/-- The mode to which a rule rounds the frequency that it has reckoned. -/
def dueMode (kind : Invariant) (cluster : Cluster) (raw : Float) : Float :=
  let target := smaller raw cluster.topFrequency
  if kind = .powerAwareFrequency then cluster.ceilToMode target
  else modeAboveFloor cluster target

/-- What is to be said of the mode that a rule asks for when it has reckoned a frequency. -/
structure IsDue (kind : Invariant) (cluster : Cluster) (raw due : Float) : Prop where
  /-- it is a mode of the cluster -/
  mode : due ∈ cluster.modes
  /-- what is not a number asks for the top frequency -/
  bounded : raw.isNaN = true → smaller raw cluster.topFrequency = cluster.topFrequency
  /-- without an effective frequency, it is the mode of what was reckoned -/
  unfloored : kind = .powerAwareFrequency ∨ cluster.effectiveFrequency ≤ 0.0 →
    due = cluster.ceilToMode (smaller raw cluster.topFrequency)
  /-- with one, it is the larger of this mode and that of the effective frequency -/
  floored : kind ≠ .powerAwareFrequency → 0.0 < cluster.effectiveFrequency →
    due = larger (cluster.ceilToMode (smaller raw cluster.topFrequency))
        (cluster.ceilToMode cluster.effectiveFrequency) ∧
      cluster.ceilToMode cluster.effectiveFrequency ≤ due

/-- What an entry should show that sets the frequency of a cluster. -/
structure FrequencyVerdict (platform : Platform) (kind : Invariant) (s : Schedule) (time : Float)
    (c : Nat) (frequency : Float) (found : List Violation) : Prop where
  /-- where servers are counted there is a mode that is due, and one violation of any frequency that
  does not match it -/
  judged : ∀ cluster, platform.cluster? c = some cluster → counted kind s c ≠ [] →
    ∃ due, IsDue kind cluster (rawDemand kind s cluster) due ∧
      (Tolerance.approxEq frequency due = false →
        ∃ x, found = [x] ∧ x.HasHead kind time none) ∧
      (Tolerance.approxEq frequency due = true → found = [])
  /-- otherwise nothing is said -/
  silent : (∀ cluster, platform.cluster? c = some cluster → counted kind s c = []) → found = []

/-! ## The mode above a floor -/

section Floor

variable {cluster : Cluster} {frequency : Float}
  (hfloor : cluster.effectiveFrequency.isNaN = false)

include hfloor

theorem modeAboveFloor_of_le_zero (hzero : cluster.effectiveFrequency ≤ 0.0) :
    modeAboveFloor cluster frequency = cluster.ceilToMode frequency := by
  have hnum : (0.0 : Float).isNaN = false := by decide
  rw [modeAboveFloor, if_neg]
  rintro ⟨hpositive, -⟩
  have hle := (Binary64.le_iff hfloor hnum).1 hzero
  exact absurd ((Binary64.lt_iff hnum hfloor).1 hpositive) (not_lt.2 hle)

variable (h : cluster.Ordered)

include h

/-- **The mode above a floor is the larger of two modes,** as long as the frequency is not above the
top one. -/
theorem modeAboveFloor_eq (hnum : frequency.isNaN = false)
    (htop : numericKey frequency ≤ numericKey cluster.topFrequency)
    (hpositive : 0.0 < cluster.effectiveFrequency) :
    modeAboveFloor cluster frequency =
      larger (cluster.ceilToMode frequency) (cluster.ceilToMode cluster.effectiveFrequency) := by
  have hnum' := h.isNaN_ceilToMode hnum
  have hfloor' := h.isNaN_ceilToMode hfloor
  rw [modeAboveFloor, larger, if_neg (Bool.eq_false_iff.1 hfloor')]
  by_cases hbelow : frequency < cluster.effectiveFrequency
  · -- The floor is the larger of the two, and so is its mode.
    have hle := h.numericKey_ceilToMode_mono hnum hfloor
      (le_of_lt ((Binary64.lt_iff hnum hfloor).1 hbelow))
    rw [if_pos ⟨hpositive, hbelow⟩, if_neg]
    exact fun hlt => absurd ((Binary64.lt_iff hfloor' hnum').1 hlt) (not_lt.2 hle)
  · have hle : numericKey cluster.effectiveFrequency ≤ numericKey frequency :=
      not_lt.1 fun hlt => hbelow ((Binary64.lt_iff hnum hfloor).2 hlt)
    rw [if_neg fun hboth => hbelow hboth.2]
    split_ifs with hlt
    · rfl
    · -- Modes that are equally large are the same mode.
      refine (h.ceilToMode_eq_of_numericKey_le hfloor hnum hle htop ?_).symm
      exact not_lt.1 fun hkey => hlt ((Binary64.lt_iff hfloor' hnum').2 hkey)

/-- **A rule rounds to the mode that is due.** -/
theorem isDue_dueMode (kind : Invariant) (raw : Float) :
    IsDue kind cluster raw (dueMode kind cluster raw) := by
  have htop : cluster.topFrequency.isNaN = false := h.isNaN _ h.top_mem
  have hnum : (smaller raw cluster.topFrequency).isNaN = false := Binary64.isNaN_smaller htop
  have hle : numericKey (smaller raw cluster.topFrequency) ≤ numericKey cluster.topFrequency :=
    Binary64.numericKey_smaller_le htop
  refine ⟨?_, fun hraw => Binary64.smaller_of_isNaN hraw htop, fun hcase => ?_,
    fun hkind hpositive => ?_⟩
  · rw [dueMode, modeAboveFloor]
    split_ifs
    · exact h.ceilToMode_mem hnum
    · exact h.ceilToMode_mem hfloor
    · exact h.ceilToMode_mem hnum
  · rw [dueMode]
    split_ifs with hkind
    · rfl
    · exact modeAboveFloor_of_le_zero hfloor (hcase.resolve_left hkind)
  · rw [dueMode, if_neg hkind, modeAboveFloor_eq hfloor h hnum hle hpositive]
    refine ⟨rfl, ?_⟩
    have hnum' := h.isNaN_ceilToMode hnum
    have hfloor' := h.isNaN_ceilToMode hfloor
    rw [Binary64.le_iff hfloor' (Binary64.isNaN_larger hnum'),
      Binary64.numericKey_larger hnum' hfloor']
    exact le_max_right _ _

end Floor

/-! ## One entry -/

section Entry

variable {kind : Invariant} {s : Schedule} {cluster : Cluster}

theorem activeInputs?_eq_none (hnone : s.activeOn cluster.id = []) :
    activeInputs? s cluster = none := by
  rw [activeInputs?, Schedule.scaledOn, hnone]
  rfl

theorem activeInputs?_eq_some (hsome : s.activeOn cluster.id ≠ []) :
    activeInputs? s cluster = some (Binary64.total (Schedule.scaledOn cluster (s.activeOn cluster.id)),
      Binary64.largest 0.0 (Schedule.scaledOn cluster (s.serversOn cluster.id))) := by
  rw [activeInputs?, if_neg]
  rw [Schedule.scaledOn, List.isEmpty_map, List.isEmpty_iff]
  exact hsome

theorem demand?_eq_none (hnone : counted kind s cluster.id = []) :
    demand? kind s cluster cluster.id = none := by
  cases kind with
  | powerAwareFrequency =>
    have hattached : s.attachedOn cluster.id = [] := hnone
    rw [demand?, powerAwareDemand?, Schedule.scaledOn, hattached]
    rfl
  | ffaFrequency =>
    rw [demand?, ffaDemand?, activeInputs?_eq_none hnone]
    rfl
  | csfFrequency =>
    rw [demand?, csfDemand?, activeInputs?_eq_none hnone]
    rfl
  | _ => rfl

/-- A rule that counts a server asks for the mode to which it rounds. -/
theorem exists_demand? (hkind : kind.isFrequency = true) (hsome : counted kind s cluster.id ≠ []) :
    ∃ inputs, demand? kind s cluster cluster.id =
      some ⟨rawDemand kind s cluster, dueMode kind cluster (rawDemand kind s cluster), inputs⟩ := by
  cases kind with
  | powerAwareFrequency =>
    have hattached : (Schedule.scaledOn cluster (s.attachedOn cluster.id)).isEmpty = false := by
      rw [Schedule.scaledOn, List.isEmpty_map, List.isEmpty_eq_false_iff]
      exact hsome
    simp only [demand?, powerAwareDemand?, hattached, Bool.false_eq_true, if_false]
    exact ⟨_, rfl⟩
  | ffaFrequency =>
    simp only [demand?, ffaDemand?, activeInputs?_eq_some hsome]
    exact ⟨_, rfl⟩
  | csfFrequency =>
    simp only [demand?, csfDemand?, activeInputs?_eq_some hsome]
    exact ⟨_, rfl⟩
  | _ => cases hkind

/-- The frequency that an entry sets is held against a demand. -/
theorem violation?_cases (demand : FrequencyDemand) (kind : Invariant) (time : Float) (c : Nat)
    (frequency : Float) :
    (Tolerance.approxEq frequency demand.expected = false →
      ∃ x, (demand.violation? kind time c frequency).toList = [x] ∧ x.HasHead kind time none) ∧
    (Tolerance.approxEq frequency demand.expected = true →
      (demand.violation? kind time c frequency).toList = []) := by
  rw [FrequencyDemand.violation?]
  constructor
  · intro hwrong
    rw [if_neg (Bool.eq_false_iff.1 hwrong)]
    exact ⟨_, rfl, rfl, rfl, rfl⟩
  · intro hmatch
    rw [if_pos hmatch]
    rfl

end Entry

end Rule

section Verdict

open Rule

variable {path : String} {declarations : List Cluster.Declaration} {platform : Platform}
  {policy : Policy} {kind : Invariant} {σ : Setting} {s : Schedule} {time frequency : Float} {c : Nat}

/-- The frequency of a cluster is held against what the servers ask for, which it does not change. -/
theorem examine_frequencyUpdate (hkind : policy.frequencyInvariant? = some kind) :
    examine σ policy s ⟨time, .frequencyUpdate c frequency⟩ =
      ((σ.platform.cluster? c).bind fun cluster =>
        (demand? kind s cluster c).bind fun demand =>
          demand.violation? kind time c frequency).toList := by
  simp only [examine, hkind, frequencyMismatch?, Schedule.apply]
  cases σ.platform.cluster? c with
  | none => rfl
  | some cluster =>
    have hset : Schedule.frequency? { s with frequencies := s.frequencies.insert c frequency } c =
        some frequency := (s.frequencies.find?_insert c c frequency).trans (if_pos rfl)
    simp only [Option.bind_eq_bind, Option.bind_some, hset]
    cases kind <;> rfl

theorem frequencyVerdict_examine
    (hload : Platform.ofDeclarations path declarations = .ok platform)
    (hmodes : ∀ d ∈ declarations, ∀ f ∈ d.frequencies, f.isNaN = false)
    (hfloors : ∀ d ∈ declarations, d.effectiveFrequency.isNaN = false)
    (hkind : policy.frequencyInvariant? = some kind) (hσ : σ.platform = platform) :
    FrequencyVerdict platform kind s time c frequency
      (examine σ policy s ⟨time, .frequencyUpdate c frequency⟩) where
  judged := by
    intro cluster hcluster hsome
    obtain ⟨hordered, hfloor⟩ :
        cluster.Ordered ∧ cluster.effectiveFrequency.isNaN = false := by
      obtain ⟨reference, d, hd, hnonempty, rfl⟩ := Platform.exists_declaration hload hcluster
      exact ⟨.ofDeclaration reference c hnonempty (hmodes d hd), hfloors d hd⟩
    obtain rfl := Platform.id_of_cluster? hcluster
    obtain ⟨inputs, hdemand⟩ := exists_demand? (isFrequency_of_frequencyInvariant? hkind) hsome
    refine ⟨_, isDue_dueMode hfloor hordered kind (rawDemand kind s cluster), ?_⟩
    rw [examine_frequencyUpdate hkind, hσ, hcluster, Option.bind_some, hdemand, Option.bind_some]
    exact violation?_cases ⟨_, _, inputs⟩ kind time cluster.id frequency
  silent := by
    intro hnone
    rw [examine_frequencyUpdate hkind, hσ]
    cases hcluster : platform.cluster? c with
    | none => rfl
    | some cluster =>
      obtain rfl := Platform.id_of_cluster? hcluster
      rw [Option.bind_some, demand?_eq_none (hnone cluster hcluster)]
      rfl

end Verdict

/-- **What breaks the rules on frequencies.** On a platform that was loaded from numbers, a frequency
that is set under a policy with a frequency rule is judged by the mode that is due, and by nothing
else: one violation where it does not match, and none where it does or where no server counts. So it is
for any schedule, and so for each entry of a trace. -/
theorem frequency_verdict {path : String} {declarations : List Cluster.Declaration}
    {platform : Platform} (hload : Platform.ofDeclarations path declarations = .ok platform)
    (hmodes : ∀ d ∈ declarations, ∀ f ∈ d.frequencies, f.isNaN = false)
    (hfloors : ∀ d ∈ declarations, d.effectiveFrequency.isNaN = false)
    {policy : Policy} {kind : Invariant} (hkind : policy.frequencyInvariant? = some kind) :
    (∀ σ s time c frequency, σ.platform = platform →
      Rule.FrequencyVerdict platform kind s time c frequency
        (examine σ policy s ⟨time, .frequencyUpdate c frequency⟩)) ∧
    ∀ tasks diagnoses entries i time c frequency,
      entries[i]? = some ⟨time, .frequencyUpdate c frequency⟩ →
      Rule.FrequencyVerdict platform kind
        (Audit.before platform tasks policy diagnoses entries i).schedule time c frequency
        (Audit.appended platform tasks policy diagnoses entries i) := by
  refine ⟨fun σ s time c frequency hσ => frequencyVerdict_examine hload hmodes hfloors hkind hσ, ?_⟩
  intro tasks diagnoses entries i time c frequency he
  rw [Audit.appended_eq he, Audit.schedule_before]
  exact frequencyVerdict_examine hload hmodes hfloors hkind rfl

/-- A cluster of two processors, whose effective frequency lies between its two modes. -/
def flooredDeclaration : Cluster.Declaration := ⟨2, [500.0, 1000.0], 600.0, 1.0⟩

/-- The platform of this cluster. -/
def Platform.floored : Platform where
  clusters := [⟨0, 2, [1000.0, 500.0], 600.0, 1.0, 1000.0, 1000.0 / 1000.0⟩]
  numbered := fun
    | 0, _ => rfl

theorem Platform.ofDeclarations_floored :
    ofDeclarations inMemory [flooredDeclaration] = .ok floored := by
  have hmodes : flooredDeclaration.modes = [1000.0, 500.0] := by
    have hfirst : decide (Binary64.orderKey 1000.0 ≤ Binary64.orderKey 500.0) = false := by decide
    simp [flooredDeclaration, Cluster.Declaration.modes, Binary64.sortDescending, List.mergeSort,
      List.MergeSort.Internal.splitInTwo, hfirst]
  have htop : flooredDeclaration.topFrequency = 1000.0 := by
    rw [Cluster.Declaration.topFrequency, hmodes]
    rfl
  have hclusters : [flooredDeclaration].mapIdx
      (Cluster.ofDeclaration flooredDeclaration.topFrequency) = floored.clusters := by
    simp only [List.mapIdx_cons, List.mapIdx_nil, Cluster.ofDeclaration, hmodes, htop]
    rfl
  change Except.ok (Platform.mk _ _) = _
  simp only [hclusters]

/-- A task asks for little, and the frequency is set below the effective one. -/
def flooredTrace : Trace :=
  [⟨0.0, .taskPlaced 1 0⟩, ⟨0.0, .servReady 1 10.0 0.125⟩, ⟨1.0, .frequencyUpdate 0 500.0⟩]

theorem frequency_verdict_flooredTrace :
    Platform.ofDeclarations Platform.inMemory [flooredDeclaration] = .ok .floored ∧
      (∀ d ∈ [flooredDeclaration], ∀ f ∈ d.frequencies, f.isNaN = false) ∧
      (∀ d ∈ [flooredDeclaration], d.effectiveFrequency.isNaN = false) ∧
      Policy.csf.frequencyInvariant? = some .csfFrequency ∧
      ∃ x, Audit.appended .floored [] .csf false flooredTrace 2 = [x] ∧
        x.HasHead .csfFrequency 1.0 none := by
  have hmodes : ∀ d ∈ [flooredDeclaration], ∀ f ∈ d.frequencies, f.isNaN = false := by
    simp only [flooredDeclaration, List.forall_mem_singleton, List.forall_mem_cons]
    decide
  have hfloors : ∀ d ∈ [flooredDeclaration], d.effectiveFrequency.isNaN = false := by
    simp only [List.forall_mem_singleton]
    decide
  have hload := Platform.ofDeclarations_floored
  have hkind : Policy.csf.frequencyInvariant? = some .csfFrequency := rfl
  refine ⟨hload, hmodes, hfloors, hkind, ?_⟩
  obtain ⟨due, hdue, hwrong, -⟩ := ((frequency_verdict hload hmodes hfloors hkind).2 [] false
    flooredTrace 2 1.0 0 500.0 rfl).judged _ rfl nofun
  refine hwrong ?_
  rw [(hdue.floored (by decide) (by decide)).1]
  decide +kernel

end SchedAudit

import SchedAudit.Proofs.Schedule.History
import SchedAudit.Proofs.Schedule.Membership
import SchedAudit.Proofs.Binary64.Arithmetic
import SchedAudit.Proofs.Binary64.Order

/-!
# What a watermark is, and what it bounds

The watermark of a cluster is raised when a task becomes ready there, to the utilization that it
becomes ready with, and is never lowered: not by servers that leave, not by those that move away. So
it is the greatest of these utilizations from the beginning of the trace (`watermark_isGreatest`), and
it bounds the utilization of every server on the cluster that has become ready there with the
utilization that it has (`scaledUtilization_le_watermark`), attached or not.

Placing a task raises nothing. A server that became ready before it was placed on a cluster counts
for its bandwidth, and need not be bounded by the watermark (`watermark_passed_lateTrace`).
-/

namespace SchedAudit

open Binary64 (larger numericKey)

/-- On a cluster with a finite scale a finite utilization is a number. -/
theorem Cluster.isNaN_scaleUtilization {cluster : Cluster} {utilization : Float}
    (hspeed : cluster.speedScale.isFinite = true) (hfinite : cluster.performance.isFinite = true)
    (hpositive : 0.0 < cluster.performance) (hutilization : utilization.isFinite = true) :
    (cluster.scaleUtilization utilization).isNaN = false :=
  Binary64.isNaN_div (Binary64.isNaN_mul hutilization hspeed) hfinite hpositive

namespace Schedule

variable {σ : Setting} {s : Schedule} {e : Entry} {entries : Trace} {c tid j k : Nat}

/-! ## One entry -/

/-- The utilization, in the unit of a cluster, that an entry admits to it. -/
def admitted? (σ : Setting) (s : Schedule) (c : Nat) (e : Entry) : Option Float :=
  match s.admission? σ e with
  | some (cluster, utilization) =>
    if c = cluster.id then some (cluster.scaleUtilization utilization) else none
  | none => none

/-- A task that becomes ready is admitted to the cluster that it is placed on. -/
theorem admitted?_of_ready {cluster : Cluster} (hcluster : σ.platform.cluster? c = some cluster)
    (hplaced : s.placement? tid = some c) (time deadline utilization : Float) :
    s.admitted? σ c ⟨time, .servReady tid deadline utilization⟩ =
      some (cluster.scaleUtilization utilization) := by
  have hof : s.clusterOf? σ tid = some cluster := by
    rw [clusterOf?, hplaced]
    exact hcluster
  simp only [admitted?, admission?, hof, Option.map_some, Platform.id_of_cluster? hcluster, if_true]

/-- **An entry raises a watermark to what it admits,** and does nothing else to it. -/
theorem watermark_advance (s : Schedule) (e : Entry) (c : Nat) :
    (s.advance σ e).watermark c =
      ((s.admitted? σ c e).map (larger (s.watermark c))).getD (s.watermark c) := by
  rw [watermark_advance_eq_apply, watermark_apply, admitted?]
  cases s.admission? σ e with
  | none => rfl
  | some admission =>
    simp only
    split_ifs <;> rfl

theorem isNaN_watermark_advance (h : (s.watermark c).isNaN = false) :
    ((s.advance σ e).watermark c).isNaN = false := by
  rw [watermark_advance]
  cases s.admitted? σ c e with
  | none => exact h
  | some utilization => exact Binary64.isNaN_larger h

theorem numericKey_watermark_le_advance (h : (s.watermark c).isNaN = false) :
    numericKey (s.watermark c) ≤ numericKey ((s.advance σ e).watermark c) := by
  rw [watermark_advance]
  cases s.admitted? σ c e with
  | none => exact le_refl _
  | some utilization => exact Binary64.numericKey_le_larger h

/-! ## A run -/

theorem isNaN_watermark_before (hk : k ≤ entries.length) :
    ((before σ entries k).watermark c).isNaN = false := by
  have hzero : (0.0 : Float).isNaN = false := by decide
  exact before_induction (P := fun _ s => (s.watermark c).isNaN = false) hk hzero
    fun k e _ ih => isNaN_watermark_advance ih

/-- A watermark never goes down. -/
theorem numericKey_watermark_mono (hjk : j ≤ k) (hk : k ≤ entries.length) :
    numericKey ((before σ entries j).watermark c) ≤
      numericKey ((before σ entries k).watermark c) := by
  induction k, hjk using Nat.le_induction with
  | base => exact le_refl _
  | succ k hjk ih =>
    have hnum := @isNaN_watermark_before σ entries c k (Nat.le_of_succ_le hk)
    rw [before_succ (List.getElem?_eq_getElem hk)]
    exact le_trans (ih (Nat.le_of_succ_le hk)) (numericKey_watermark_le_advance hnum)

/-- **A watermark stays above all that was ever admitted.** -/
theorem le_watermark_of_admitted {utilization : Float} (hjk : j < k) (hk : k ≤ entries.length)
    (he : entries[j]? = some e)
    (hadmitted : (before σ entries j).admitted? σ c e = some utilization)
    (hutilization : utilization.isNaN = false) :
    utilization ≤ (before σ entries k).watermark c := by
  -- The entry raises the watermark to the utilization, and it has not been lowered since.
  have hbefore := @isNaN_watermark_before σ entries c j (Nat.le_trans (Nat.le_of_lt hjk) hk)
  have hraised : numericKey utilization ≤ numericKey ((before σ entries (j + 1)).watermark c) := by
    rw [before_succ he, watermark_advance, hadmitted, Option.map_some, Option.getD_some,
      Binary64.numericKey_larger hbefore hutilization]
    exact le_max_right _ _
  rw [Binary64.le_iff hutilization (isNaN_watermark_before hk)]
  exact le_trans hraised (numericKey_watermark_mono hjk hk)

/-- Only a task that becomes ready can raise a watermark. -/
theorem watermark_advance_of_not_readies (h : ¬∃ tid, Readies e tid) :
    (s.advance σ e).watermark c = s.watermark c := by
  have hadmitted : s.admitted? σ c e = none := by
    obtain ⟨time, event⟩ := e
    cases event with
    | servReady tid deadline utilization => exact absurd ⟨tid, deadline, utilization, rfl⟩ h
    | _ => rfl
  rw [watermark_advance, hadmitted]
  rfl

/-- What an entry admits is one more number for the watermark to be the greatest of. -/
theorem isGreatest_watermark_advance {P : Float → Prop}
    (h : IsGreatest {u | u.isNaN = false ∧ P u} (s.watermark c)) :
    IsGreatest {u | u.isNaN = false ∧ (P u ∨ s.admitted? σ c e = some u)}
      ((s.advance σ e).watermark c) := by
  rw [watermark_advance]
  cases s.admitted? σ c e with
  | none =>
    simp only [reduceCtorEq, or_false]
    exact h
  | some utilization =>
    simp only [Option.some_inj, eq_comm (a := utilization)]
    exact Binary64.isGreatest_larger h

end Schedule

/-! ## Watermarks, told from the trace -/

/-- A utilization, in the unit of a cluster, with which a task that was placed there became ready
before place `k`. -/
def Trace.Admits (entries : Trace) (cluster : Cluster) (k : Nat) (utilization : Float) : Prop :=
  ∃ j time tid deadline nominal, j < k ∧
    entries[j]? = some ⟨time, .servReady tid deadline nominal⟩ ∧
    entries.latest? (fun _ e => e.event.placedAt? tid) j = some cluster.id ∧
    utilization = cluster.scaleUtilization nominal

section Admits

variable {σ : Setting} {entries : Trace} {cluster : Cluster} {c k : Nat} {e : Entry} {u : Float}

theorem Schedule.admitted?_eq_some_iff {s : Schedule}
    (hcluster : σ.platform.cluster? c = some cluster) :
    s.admitted? σ c e = some u ↔ ∃ time tid deadline nominal,
      e = ⟨time, .servReady tid deadline nominal⟩ ∧ s.placement? tid = some c ∧
        u = cluster.scaleUtilization nominal := by
  constructor
  · intro h
    rw [admitted?] at h
    split at h
    · next cluster' nominal hadmission =>
      obtain ⟨time, event⟩ := e
      cases event with
      | servReady tid deadline utilization =>
        obtain ⟨found, hof, hpair⟩ := Option.map_eq_some_iff.1 hadmission
        obtain ⟨rfl, rfl⟩ := Prod.mk.inj hpair
        obtain ⟨c', hplaced, hfound⟩ := Option.bind_eq_some_iff.1 hof
        split_ifs at h with hc
        -- The cluster that the task is placed on has the number `c`.
        obtain rfl : c' = c := (Platform.id_of_cluster? hfound).symm.trans hc.symm
        obtain rfl := Option.some.inj (hfound.symm.trans hcluster)
        exact ⟨time, tid, deadline, utilization, rfl, hplaced, (Option.some.inj h).symm⟩
      | _ => cases hadmission
    · cases h
  · rintro ⟨time, tid, deadline, nominal, rfl, hplaced, rfl⟩
    exact admitted?_of_ready hcluster hplaced time deadline nominal

/-- One more entry: what was admitted before it, and what it admits. -/
theorem Trace.admits_succ_iff (hcluster : σ.platform.cluster? c = some cluster)
    (he : entries[k]? = some e) :
    entries.Admits cluster (k + 1) u ↔
      entries.Admits cluster k u ∨ (Schedule.before σ entries k).admitted? σ c e = some u := by
  have hk : k ≤ entries.length := Nat.le_of_lt (List.getElem?_eq_some_iff.1 he).1
  rw [Schedule.admitted?_eq_some_iff hcluster]
  simp only [Schedule.placement?_before hk, ← Platform.id_of_cluster? hcluster]
  constructor
  · rintro ⟨j, time, tid, deadline, nominal, hj, hje, hplaced, hu⟩
    rcases Nat.lt_or_eq_of_le (Nat.le_of_lt_succ hj) with hj | rfl
    · exact .inl ⟨j, time, tid, deadline, nominal, hj, hje, hplaced, hu⟩
    · exact .inr ⟨time, tid, deadline, nominal, Option.some.inj (he.symm.trans hje), hplaced, hu⟩
  · rintro (⟨j, time, tid, deadline, nominal, hj, hje, hplaced, hu⟩ |
      ⟨time, tid, deadline, nominal, rfl, hplaced, hu⟩)
    · exact ⟨j, time, tid, deadline, nominal, Nat.lt_succ_of_lt hj, hje, hplaced, hu⟩
    · exact ⟨k, time, tid, deadline, nominal, Nat.lt_succ_self k, he, hplaced, hu⟩

theorem Schedule.isGreatest_watermark_before (hcluster : σ.platform.cluster? c = some cluster)
    (hk : k ≤ entries.length) :
    IsGreatest {u | u.isNaN = false ∧ (u = 0.0 ∨ entries.Admits cluster k u)}
      ((before σ entries k).watermark c) := by
  refine before_induction (P := fun k s =>
    IsGreatest {u | u.isNaN = false ∧ (u = 0.0 ∨ entries.Admits cluster k u)} (s.watermark c)) hk
    ?_ ?_
  · -- Nothing was admitted yet, and the watermark is zero.
    change IsGreatest _ (0.0 : Float)
    refine ⟨⟨by decide, .inl rfl⟩, ?_⟩
    rintro u ⟨-, rfl | ⟨j, time, tid, deadline, nominal, hj, -⟩⟩
    · decide
    · exact absurd hj (Nat.not_lt_zero j)
  · intro k e he ih
    simp only [Trace.admits_succ_iff hcluster he, ← or_assoc]
    exact isGreatest_watermark_advance ih

end Admits

/-- **What a watermark is.** After any prefix of a trace the watermark of a cluster is the greatest
of zero and of all utilizations, in the unit of the cluster, with which tasks that were placed there
became ready; those that are not numbers are passed over. So it never goes down, and only a task that
becomes ready changes it: no server that leaves, no migration, nothing else. -/
theorem watermark_isGreatest (platform : Platform) (tasks : List Task) (policy : Policy)
    (diagnoses : Bool) (entries : Trace) {c : Nat} {cluster : Cluster}
    (hcluster : platform.cluster? c = some cluster) :
    let watermark (k : Nat) :=
      (Audit.before platform tasks policy diagnoses entries k).schedule.watermark c
    (∀ k ≤ entries.length,
      IsGreatest {u | u.isNaN = false ∧ (u = 0.0 ∨ entries.Admits cluster k u)} (watermark k)) ∧
    (∀ j k, j ≤ k → k ≤ entries.length → watermark j ≤ watermark k) ∧
    ∀ k e, entries[k]? = some e → (¬∃ tid, Schedule.Readies e tid) →
      watermark (k + 1) = watermark k := by
  intro watermark
  simp only [watermark, Audit.schedule_before]
  refine ⟨fun k hk => Schedule.isGreatest_watermark_before hcluster hk, fun j k hjk hk => ?_,
    fun k e he hready => ?_⟩
  · rw [Binary64.le_iff (Schedule.isNaN_watermark_before (hjk.trans hk))
      (Schedule.isNaN_watermark_before hk)]
    exact Schedule.numericKey_watermark_mono hjk hk
  · rw [Schedule.before_succ he]
    exact Schedule.watermark_advance_of_not_readies hready

/-- Two tasks become ready on one cluster; the larger one leaves it, the other one moves away. -/
def vacatedTrace : Trace :=
  [⟨0.0, .taskPlaced 1 0⟩, ⟨0.0, .taskPlaced 2 0⟩, ⟨0.0, .servReady 1 10.0 0.5⟩,
    ⟨0.0, .servReady 2 10.0 0.25⟩, ⟨5.0, .servInactive 1⟩, ⟨6.0, .migrationCluster 2 1⟩]

theorem watermark_isGreatest_vacatedTrace :
    let watermark (k : Nat) := (Audit.before .twin [] .pa false vacatedTrace k).schedule.watermark 0
    (∃ cluster, Platform.twin.cluster? 0 = some cluster ∧ vacatedTrace.Admits cluster 6 0.5 ∧
      IsGreatest {u | u.isNaN = false ∧ (u = 0.0 ∨ vacatedTrace.Admits cluster 6 u)}
        (watermark 6)) ∧
    watermark 4 ≤ watermark 6 ∧ watermark 6 = watermark 5 := by
  intro watermark
  obtain ⟨hgreatest, hmono, hkept⟩ :=
    watermark_isGreatest .twin [] .pa false vacatedTrace (c := 0) rfl
  refine ⟨⟨_, rfl, ⟨2, 0.0, 1, 10.0, 0.5, by decide, rfl, rfl, ?_⟩, hgreatest 6 (by decide)⟩,
    hmono 4 6 (by decide) (by decide), hkept 5 _ rfl ?_⟩
  · decide +kernel
  · rintro ⟨tid, deadline, utilization, h⟩
    cases h

/-! ## Servers and watermarks -/

/-- **What a watermark bounds.** The utilization of a server on a cluster does not exceed the
watermark there, if the server has ever become ready on the cluster with the utilization that it has.
Neither leaving and coming back nor a lower utilization of others takes the bound away. -/
theorem scaledUtilization_le_watermark (platform : Platform) (tasks : List Task) (policy : Policy)
    (diagnoses : Bool) {entries : Trace} {k : Nat} (hk : k ≤ entries.length) {c : Nat}
    {cluster : Cluster} (hcluster : platform.cluster? c = some cluster)
    (hspeed : cluster.speedScale.isFinite = true) (hfinite : cluster.performance.isFinite = true)
    (hpositive : 0.0 < cluster.performance) :
    let schedule (k : Nat) := (Audit.before platform tasks policy diagnoses entries k).schedule
    ∀ tid v, (schedule k).server? tid = some v → (schedule k).placement? tid = some c →
      v.utilization.isFinite = true →
      (∃ j time deadline, j < k ∧ entries[j]? = some ⟨time, .servReady tid deadline v.utilization⟩ ∧
        (schedule j).placement? tid = some c) →
      (schedule k).scaledUtilization (.ofTrace platform tasks entries) tid ≤
        (schedule k).watermark c := by
  intro schedule tid v hv hplaced hutilization
  rintro ⟨j, time, deadline, hjk, he, hbefore⟩
  have hscaled : (schedule k).scaledUtilization (.ofTrace platform tasks entries) tid =
      cluster.scaleUtilization v.utilization := by
    have hof : (schedule k).clusterOf? (.ofTrace platform tasks entries) tid = some cluster := by
      rw [Schedule.clusterOf?, hplaced]
      exact hcluster
    simp only [Schedule.scaledUtilization, hv, hof]
  have hnum := Cluster.isNaN_scaleUtilization hspeed hfinite hpositive hutilization
  simp only [schedule, Audit.schedule_before] at hbefore ⊢ hscaled
  rw [hscaled]
  exact Schedule.le_watermark_of_admitted hjk hk he
    (Schedule.admitted?_of_ready hcluster hbefore time deadline v.utilization) hnum

/-- Two tasks become ready on one cluster, and the larger one leaves it. -/
def admittedTrace : Trace :=
  [⟨0.0, .taskPlaced 1 0⟩, ⟨0.0, .taskPlaced 2 0⟩, ⟨0.0, .servReady 1 10.0 0.5⟩,
    ⟨0.0, .servReady 2 10.0 0.25⟩, ⟨5.0, .servInactive 1⟩]

theorem scaledUtilization_le_watermark_admittedTrace :
    let schedule (k : Nat) := (Audit.before .twin [] .pa false admittedTrace k).schedule
    (schedule 5).scaledUtilization (.ofTrace .twin [] admittedTrace) 2 ≤
      (schedule 5).watermark 0 := by
  intro schedule
  exact scaledUtilization_le_watermark .twin [] .pa false (by decide) rfl (by decide) (by decide)
    (by decide) 2 _ rfl rfl (by decide) ⟨3, 0.0, 10.0, by decide, rfl, rfl⟩

-- A server keeps the utilization that was declared, and becoming ready with less admits less.
example :
    let tasks : List Task := [⟨1, 0.75, 10.0, [0.0]⟩]
    let entries : Trace :=
      [⟨0.0, .jobArrival 1⟩, ⟨0.0, .taskPlaced 1 0⟩, ⟨0.0, .servReady 1 10.0 0.5⟩]
    let s := Schedule.before (.ofTrace .twin tasks entries) entries 3
    ¬s.scaledUtilization (.ofTrace .twin tasks entries) 1 ≤ s.watermark 0 := by
  decide

/-- A task becomes ready before it is placed on a cluster. -/
def lateTrace : Trace := [⟨0.0, .servReady 1 10.0 0.5⟩, ⟨0.0, .taskPlaced 1 0⟩]

/-- The task is attached to the cluster where it is placed, and the watermark does not bound it. -/
theorem watermark_passed_lateTrace :
    let schedule := (Audit.before .twin [] .pa false lateTrace 2).schedule
    (∀ cluster ∈ Platform.twin.clusters,
        0.0 < cluster.performance ∧ ∀ mode ∈ cluster.modes, 0.0 < mode) ∧
      ¬∀ c cluster, Platform.twin.cluster? c = some cluster → ∀ tid ∈ schedule.members c,
        schedule.scaledUtilization (.ofTrace .twin [] lateTrace) tid ≤ schedule.watermark c := by
  intro schedule
  have hpositive : ∀ cluster ∈ Platform.twin.clusters,
      0.0 < cluster.performance ∧ ∀ mode ∈ cluster.modes, 0.0 < mode := by
    simp only [Platform.twin, List.forall_mem_cons, List.not_mem_nil, false_imp_iff, implies_true,
      and_true]
    decide
  refine ⟨hpositive, fun h => ?_⟩
  have hpassed : ¬schedule.scaledUtilization (.ofTrace .twin [] lateTrace) 1 ≤
      schedule.watermark 0 := by
    decide
  exact hpassed (h 0 _ rfl 1 (List.mem_singleton_self 1))

end SchedAudit

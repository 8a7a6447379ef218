import SchedAudit.Proofs.Schedule.Interval
import SchedAudit.Proofs.Setting.Arrivals

/-!
# What breaks the rule on rates

The rule on the rate of virtual time reads two flags and the last sample of a server. `RateBroken`
says without them, from the trace alone and the schedules along it, over which intervals the rule can
judge and when it finds fault; `rate_violation_iff` says that the audit finds fault just there.

Flags and trace are linked in `SchedAudit.Proofs.Schedule.Interval`. What is left is to read the
announcement of a change (`unsettles_iff`) and the arithmetic of the rule (`rateMismatch?_isSome_iff`).
-/

namespace SchedAudit

/-! ## Joining and leaving -/

/-- An entry by which another task joins or leaves the cluster of an attached task: it becomes ready
without having been, on a declared cluster, or it goes inactive and no job of it is known to come. -/
def Schedule.JoinsOrLeaves (platform : Platform) (tasks : List Task) (entries : Trace) (tid : Nat)
    (s : Schedule) (e : Entry) : Prop :=
  ∃ other c v, other ≠ tid ∧ s.placement? other = some c ∧ s.placement? tid = some c ∧
    s.server? tid = some v ∧ v.attached = true ∧
    ((∃ deadline utilization, e.event = .servReady other deadline utilization ∧
        (∀ w, s.server? other = some w → w.phase = .inactive) ∧
        (platform.cluster? c).isSome = true) ∨
      (e.event = .servInactive other ∧ (s.server? other).isSome = true ∧
        ∀ a ∈ knownArrivals tasks entries other, ¬e.time + Tolerance.futureArrival < a))

theorem Schedule.unsettles_iff {platform : Platform} {tasks : List Task} {entries : Trace}
    (hnum : ∀ tid, ∀ a ∈ knownArrivals tasks entries tid, a.isNaN = false) {tid : Nat}
    {s : Schedule} {e : Entry} :
    s.unsettles (Setting.ofTrace platform tasks entries) tid e = true ↔
      s.JoinsOrLeaves platform tasks entries tid e := by
  have hfuture (other : Nat) :=
    @Setting.hasFutureJob_ofTrace_eq_false_iff platform tasks entries other (hnum other) e.time
  rw [unsettles, Bool.and_eq_true, bne_iff_ne, hears_iff]
  simp only [announced?_eq_some_iff, isIdle_iff, hfuture]
  constructor
  · rintro ⟨htask, c, v, ⟨other, d, u, he, hidle, hc, hcluster⟩ | ⟨other, he, hsome, hgone, hc⟩,
      hv, hattached, hplaced⟩
    · refine ⟨other, c, v, ?_, hc, hplaced, hv, hattached, .inl ⟨d, u, he, hidle, hcluster⟩⟩
      rintro rfl
      exact htask (by rw [he]; rfl)
    · refine ⟨other, c, v, ?_, hc, hplaced, hv, hattached, .inr ⟨he, hsome, hgone⟩⟩
      rintro rfl
      exact htask (by rw [he]; rfl)
  · rintro ⟨other, c, v, hne, hc, hplaced, hv, hattached, ⟨d, u, he, hidle, hcluster⟩ |
      ⟨he, hsome, hgone⟩⟩
    · refine ⟨?_, c, v, .inl ⟨other, d, u, he, hidle, hc, hcluster⟩, hv, hattached, hplaced⟩
      rw [he]
      exact fun h => hne (Option.some.inj h)
    · refine ⟨?_, c, v, .inr ⟨other, he, hsome, hgone, hc⟩, hv, hattached, hplaced⟩
      rw [he]
      exact fun h => hne (Option.some.inj h)

/-! ## The arithmetic of the rule -/

/-- Virtual time has not advanced from one sample to another as bandwidth and utilization ask for. -/
def Schedule.RateWrong (σ : Setting) (s : Schedule) (tid : Nat) (first last : Sample) : Prop :=
  ∃ c, s.placement? tid = some c ∧
    ¬last.time - first.time ≤ Tolerance.shortestInterval ∧
    ¬s.bandwidth σ c ≤ 0.0 ∧ ¬s.scaledUtilization σ tid ≤ 0.0 ∧
    Tolerance.approxEq (last.value - first.value)
      (s.bandwidth σ c / s.scaledUtilization σ tid * (last.time - first.time)) = false

theorem Rule.rateMismatch?_isSome_iff {σ : Setting} {s : Schedule} {tid : Nat}
    {time value : Float} :
    (rateMismatch? σ s time tid value).isSome = true ↔
      ∃ v first, s.server? tid = some v ∧ v.continuous = true ∧ v.membershipChanged = false ∧
        v.latest = some first ∧ s.RateWrong σ tid first ⟨time, value⟩ := by
  rw [rateMismatch?]
  simp only [Schedule.RateWrong]
  cases hv : s.server? tid with
  | none => simp
  | some v =>
    cases hc : s.placement? tid with
    | none => simp
    | some c =>
      cases hlatest : v.latest with
      | none =>
        simp only [Option.bind_eq_bind, Option.bind_some]
        split_ifs <;> simp [hlatest]
      | some first =>
        simp only [Option.bind_eq_bind, Option.bind_some, hlatest]
        split_ifs with hflags hshort hzero hmatch
        · rw [Bool.or_eq_true, Bool.not_eq_true'] at hflags
          rcases hflags with h | h <;> simp [h]
        · simp [hlatest, hshort]
        · rcases hzero with h | h <;> simp [h]
        · simp [hlatest, hmatch]
        · simp_all

/-- Among the violations that a sample shows, the one of the rate is the mismatch. -/
theorem rate_mem_examine_iff {σ : Setting} {policy : Policy} {s : Schedule} {tid : Nat}
    {time value : Float} {bandwidth : Option Float} :
    (∃ x ∈ examine σ policy s ⟨time, .virtualTimeUpdate tid value bandwidth⟩, x.kind = .vtRate) ↔
      (Rule.rateMismatch? σ s time tid value).isSome = true := by
  have hdeadline : ∀ s' : Schedule, ∀ x ∈ Rule.vtPastDeadline? s' time tid value,
      x.kind = .vtLeDeadline := by
    intro s' x hx
    obtain ⟨v, -, hx⟩ := Option.bind_eq_some_iff.1 hx
    split at hx
    · cases hx
    · cases hx
      rfl
  constructor
  · rintro ⟨x, hx, hkind⟩
    rcases List.mem_append.1 hx with hx | hx
    · obtain ⟨m, hm, -⟩ := Option.map_eq_some_iff.1 (Option.mem_toList.1 hx)
      rw [hm]
      rfl
    · rw [hdeadline _ x (Option.mem_toList.1 hx)] at hkind
      cases hkind
  · intro h
    obtain ⟨m, hm⟩ := Option.isSome_iff_exists.1 h
    refine ⟨m.violation time, List.mem_append_left _ ?_, rfl⟩
    simp [hm]

/-! ## The rule over whole traces -/

/-- **What breaks the rule on rates.** The sample at place `j` is the last one of the task before
place `i`, nothing in between has interrupted the task or changed its cluster, and virtual time has
not advanced as it should from the one to the other. -/
structure RateBroken (platform : Platform) (tasks : List Task) (entries : Trace) (tid j i : Nat)
    (first last : Sample) : Prop where
  /-- the task had a server when it was last sampled -/
  sampled : Schedule.LastSample (.ofTrace platform tasks entries) entries tid j i first
  /-- it was not interrupted in between -/
  uninterrupted : Schedule.Between (.ofTrace platform tasks entries) entries j i
    fun s e => ¬s.Interrupts tid e
  /-- no other task joined or left its cluster in between, while it was attached -/
  settled : Schedule.Between (.ofTrace platform tasks entries) entries j i
    fun s e => ¬s.JoinsOrLeaves platform tasks entries tid e
  /-- the numbers do not match -/
  wrong : (Schedule.before (.ofTrace platform tasks entries) entries i).RateWrong
    (.ofTrace platform tasks entries) tid first last

/-- **The audit finds a wrong rate exactly where the rule is broken.** A sample adds a violation of
the rate just in case the interval since the last sample of its task breaks the rule. -/
theorem rate_violation_iff (platform : Platform) {tasks : List Task} (policy : Policy)
    (diagnoses : Bool) {entries : Trace}
    (htasks : ∀ task ∈ tasks, ∀ a ∈ task.arrivals, a.isNaN = false)
    (htimes : ∀ e ∈ entries, e.time.isNaN = false)
    {i tid : Nat} {time value : Float} {bandwidth : Option Float}
    (he : entries[i]? = some ⟨time, .virtualTimeUpdate tid value bandwidth⟩) :
    (∃ x ∈ Audit.appended platform tasks policy diagnoses entries i, x.kind = .vtRate) ↔
      ∃ j first, RateBroken platform tasks entries tid j i first ⟨time, value⟩ := by
  have hunsettles {s : Schedule} {e : Entry} :
      s.unsettles (.ofTrace platform tasks entries) tid e = false ↔
        ¬s.JoinsOrLeaves platform tasks entries tid e := by
    rw [← Bool.not_eq_true, Schedule.unsettles_iff (Setting.isNaN_knownArrivals htasks htimes)]
  rw [Audit.appended_eq he, rate_mem_examine_iff, Rule.rateMismatch?_isSome_iff]
  have hi : i ≤ entries.length := Nat.le_of_lt (List.getElem?_eq_some_iff.1 he).1
  constructor
  · -- The flag of continuity tells of a sample, and that nothing has happened since.
    rintro ⟨v, first, hv, hcontinuous, hunchanged, hlatest, hwrong⟩
    obtain ⟨j, sample, hlast, hwakes⟩ := Schedule.exists_lastSample hi hv (.inl hcontinuous)
    obtain ⟨v', hv', hquiet, hkept⟩ := Schedule.server_since hlast hi
    obtain rfl := Option.some.inj (hv.symm.trans hv')
    obtain ⟨hlatest', hsettled⟩ := hkept hwakes
    obtain rfl := Option.some.inj (hlatest.symm.trans hlatest')
    exact ⟨j, first, hlast, hquiet.1 hcontinuous,
      (hsettled.1 hunchanged).imp fun _ _ => hunsettles.1, hwrong⟩
  · -- Since the sample no entry has touched the marks that it set.
    rintro ⟨j, first, hlast, hquiet, hsettled, hwrong⟩
    obtain ⟨v, hv, hcontinuous, hkept⟩ := Schedule.server_since hlast hi
    obtain ⟨hlatest, hunchanged⟩ := hkept (hquiet.imp fun _ _ h hwakes => h hwakes.interrupts)
    exact ⟨v, first, hv, hcontinuous.2 hquiet,
      hunchanged.2 (hsettled.imp fun _ _ => hunsettles.2), hlatest, hwrong⟩

/-- Within a second the virtual time of a task of utilization one half advances by three instead of
two, while another task becomes ready on another cluster. -/
def hastyTrace : Trace :=
  [⟨0.0, .taskPlaced 1 0⟩, ⟨0.0, .taskPlaced 2 1⟩, ⟨0.0, .servReady 1 10.0 0.5⟩,
    ⟨0.0, .virtualTimeUpdate 1 0.0 none⟩, ⟨0.5, .servReady 2 9.0 0.25⟩,
    ⟨1.0, .virtualTimeUpdate 1 3.0 none⟩]

theorem rate_violation_hastyTrace :
    let tasks : List Task := [⟨2, 0.25, 9.0, [0.5]⟩]
    (∀ task ∈ tasks, ∀ a ∈ task.arrivals, a.isNaN = false) ∧
      (∀ e ∈ hastyTrace, e.time.isNaN = false) ∧
      hastyTrace[5]? = some ⟨1.0, .virtualTimeUpdate 1 3.0 none⟩ ∧
      ∃ x ∈ Audit.appended .twin tasks .grub false hastyTrace 5, x.kind = .vtRate := by
  intro tasks
  have htasks : ∀ task ∈ tasks, ∀ a ∈ task.arrivals, a.isNaN = false := by
    simp only [tasks, List.forall_mem_singleton]
    decide
  have htimes : ∀ e ∈ hastyTrace, e.time.isNaN = false := by
    simp only [hastyTrace, List.forall_mem_cons, List.not_mem_nil, false_imp_iff, implies_true,
      and_true]
    decide
  have hbetween {P : Schedule → Entry → Prop} (σ : Setting)
      (h : P (Schedule.before σ hastyTrace 4) ⟨0.5, .servReady 2 9.0 0.25⟩) :
      Schedule.Between σ hastyTrace 3 5 P := by
    intro k e hj hi he
    obtain rfl : k = 4 := by omega
    obtain rfl := Option.some.inj he
    exact h
  refine ⟨htasks, htimes, rfl, (rate_violation_iff _ .grub false htasks htimes rfl).2
    ⟨3, ⟨0.0, 0.0⟩, ⟨by omega, ⟨none, rfl⟩, ⟨_, rfl⟩, hbetween _ nofun⟩, hbetween _ nofun,
      hbetween _ ?_, 0, rfl, ?_⟩⟩
  · -- The task that becomes ready is on the other cluster.
    rintro ⟨other, c, v, -, hother, hown, -, -, ⟨d, u, he, -⟩ | ⟨he, -⟩⟩
    · cases he
      cases hown
      cases hother
    · cases he
  · decide +kernel

end SchedAudit

import SchedAudit.Proofs.Schedule.History
import SchedAudit.Proofs.Schedule.Membership
import SchedAudit.Proofs.Setting.Arrivals

/-!
# The members of a cluster, told from the trace

Bandwidths, budgets and frequencies all rest on who is attached to a cluster, and who of them is
active. A schedule keeps flags for that, and looks ahead to all arrivals of the trace. This file tells
the same from the trace alone (`members_before_iff`):

* a task is on the cluster where it was placed last;
* it is attached since it became ready last, unless it has gone inactive since then at a time after
  which no job of it was known to come (`Trace.ReadySince`);
* it is active if the last event in its life cycle left it ready or running.
-/

namespace SchedAudit

open Schedule (Readies Leaves)

/-! ## Staying attached -/

/-- A task became ready at place `j`, for the last time before place `k`, and has not left since:
whenever it went inactive, a job of it was known to come. -/
structure Trace.ReadySince (tasks : List Task) (entries : Trace) (tid j k : Nat) : Prop where
  /-- it became ready earlier -/
  earlier : j < k
  /-- it became ready by the entry at place `j` -/
  ready : ∃ e, entries[j]? = some e ∧ Readies e tid
  /-- no entry since has made it ready -/
  last : ∀ n e, j < n → n < k → entries[n]? = some e → ¬Readies e tid
  /-- each entry since by which it went inactive has a known arrival behind it -/
  kept : ∀ n time, j < n → n < k → entries[n]? = some ⟨time, .servInactive tid⟩ →
    ∃ a ∈ knownArrivals tasks entries tid, time + Tolerance.futureArrival < a

namespace Trace

variable {tasks : List Task} {entries : Trace} {tid j k : Nat} {e : Entry}

/-- One more entry: the task becomes ready, or it has been ready before and does not leave. -/
theorem exists_readySince_succ_iff (he : entries[k]? = some e) :
    (∃ j, ReadySince tasks entries tid j (k + 1)) ↔
      Readies e tid ∨ ((∃ j, ReadySince tasks entries tid j k) ∧
        (e.event = .servInactive tid →
          ∃ a ∈ knownArrivals tasks entries tid, e.time + Tolerance.futureArrival < a)) := by
  have hhere {e' : Entry} (he' : entries[k]? = some e') : e' = e :=
    Option.some.inj (he'.symm.trans he)
  by_cases hready : Readies e tid
  · -- Place `k` is the last one at which it becomes ready, and nothing has happened since.
    exact iff_of_true ⟨k, Nat.lt_succ_self k, ⟨e, he, hready⟩, fun n _ hkn hn => by omega,
      fun n _ hkn hn => by omega⟩ (.inl hready)
  rw [or_iff_right hready]
  constructor
  · rintro ⟨j, hjk, ⟨e', hej, hready'⟩, hlast, hkept⟩
    have hj : j < k := by
      refine lt_of_le_of_ne (Nat.le_of_lt_succ hjk) ?_
      rintro rfl
      exact hready (hhere hej ▸ hready')
    refine ⟨⟨j, hj, ⟨e', hej, hready'⟩, fun n e'' hjn hn => hlast n e'' hjn (by omega),
      fun n time hjn hn => hkept n time hjn (by omega)⟩, fun hevent => ?_⟩
    exact hkept k e.time hj (Nat.lt_succ_self k) (by rw [he, ← hevent])
  · rintro ⟨⟨j, hjk, hjready, hlast, hkept⟩, hstays⟩
    refine ⟨j, Nat.lt_succ_of_lt hjk, hjready, fun n e' hjn hn he' => ?_,
      fun n time hjn hn he' => ?_⟩
    · rcases Nat.lt_or_eq_of_le (Nat.le_of_lt_succ hn) with hn | rfl
      · exact hlast n e' hjn hn he'
      · exact hhere he' ▸ hready
    · rcases Nat.lt_or_eq_of_le (Nat.le_of_lt_succ hn) with hn | rfl
      · exact hkept n time hjn hn he'
      · obtain rfl := hhere he'
        exact hstays rfl

end Trace

namespace Schedule

variable {platform : Platform} {tasks : List Task} {entries : Trace} {k tid : Nat}

/-- A task is attached as long as it stays so by the trace. -/
theorem isAttached_before_iff (hnum : ∀ a ∈ knownArrivals tasks entries tid, a.isNaN = false)
    (hk : k ≤ entries.length) :
    (before (.ofTrace platform tasks entries) entries k).IsAttached tid ↔
      ∃ j, Trace.ReadySince tasks entries tid j k := by
  refine before_induction (P := fun k s =>
    s.IsAttached tid ↔ ∃ j, Trace.ReadySince tasks entries tid j k) hk ?_ ?_
  · constructor
    · rintro ⟨v, hv, -⟩
      cases hv
    · rintro ⟨j, hj, -⟩
      omega
  · intro k e he ih
    rw [isAttached_advance_iff keyed_before, ih, Trace.exists_readySince_succ_iff he, Leaves,
      not_and, Bool.not_eq_false, Setting.hasFutureJob_ofTrace_iff hnum]

/-- An attached server is in the phase in which its life cycle was left by the trace. -/
theorem phase_before {σ : Setting} {v : Server} (hk : k ≤ entries.length)
    (hv : (before σ entries k).server? tid = some v) (hattached : v.attached = true) :
    entries.latest? (fun _ e => e.event.phase? tid) k = some v.phase := by
  refine before_induction (P := fun k s => ∀ v, s.server? tid = some v → v.attached = true →
    entries.latest? (fun _ e => e.event.phase? tid) k = some v.phase) hk nofun ?_ v hv hattached
  intro k e he ih v hv hattached
  rw [Trace.latest?_succ he]
  rcases (isAttached_advance_iff keyed_before).1 ⟨v, hv, hattached⟩ with
    hready | ⟨⟨w, hw, hattached'⟩, -⟩
  · rw [hready.phase?, phase_of_readies keyed_before hready hv, Option.some_or]
  · -- It was attached before, and in its phase as far as the trace has told.
    rw [server?_advance_of_some keyed_before hw] at hv
    obtain rfl := Option.some.inj hv
    rw [phase_next_eq, ih w hw hattached']
    cases e.event.phase? tid <;> rfl

/-- So the trace tells whether it is active. -/
theorem isActive_before {σ : Setting} {v : Server} (hk : k ≤ entries.length)
    (hv : (before σ entries k).server? tid = some v) (hattached : v.attached = true) :
    entries.latest? (fun _ e => e.event.activates? tid) k = some v.isActive := by
  simp only [Event.activates?_eq]
  rw [Trace.latest?_map, phase_before hk hv hattached]
  rfl

end Schedule

/-! ## Members -/

/-- **Who is attached, and who is active.** After any prefix of a trace the members of a cluster are
enumerated in ascending order. They are the tasks that were placed there last and have stayed attached
since they became ready; active are those of them whose life cycle was left so. -/
theorem members_before_iff (platform : Platform) {tasks : List Task} (policy : Policy)
    (diagnoses : Bool) {entries : Trace}
    (htasks : ∀ task ∈ tasks, ∀ a ∈ task.arrivals, a.isNaN = false)
    (htimes : ∀ e ∈ entries, e.time.isNaN = false) {k : Nat} (hk : k ≤ entries.length) (c : Nat) :
    let s := (Audit.before platform tasks policy diagnoses entries k).schedule
    (s.members c).Pairwise (· < ·) ∧
      (∀ tid, tid ∈ s.members c ↔
        entries.latest? (fun _ e => e.event.placedAt? tid) k = some c ∧
          ∃ j, Trace.ReadySince tasks entries tid j k) ∧
      s.activeMembers c = (s.members c).filter fun tid =>
        entries.latest? (fun _ e => e.event.activates? tid) k == some true := by
  intro s
  have hs : s = Schedule.before (.ofTrace platform tasks entries) entries k :=
    Audit.schedule_before k
  have hkeyed : s.Keyed := hs ▸ Schedule.keyed_before
  refine ⟨Schedule.pairwise_members hkeyed c, fun tid => ?_, ?_⟩
  · have hnum := Setting.isNaN_knownArrivals htasks htimes tid
    rw [Schedule.mem_members_iff hkeyed, hs, Schedule.placement?_before hk,
      Schedule.isAttached_before_iff hnum hk, and_comm]
  · rw [Schedule.activeMembers, Schedule.activeOn, Schedule.members, List.filter_map]
    congr 1
    refine List.filter_congr fun v hv => ?_
    -- The servers that are tested are attached.
    obtain ⟨hplaced, hattached⟩ := List.mem_filter.1 hv
    have hfound := ((Schedule.mem_serversOn_iff hkeyed).1 hplaced).1
    rw [hs] at hfound
    rw [Function.comp_apply, Schedule.isActive_before hk hfound hattached]
    cases v.isActive <;> rfl

/-- Two tasks of one cluster go inactive, and a job of one of them is still to come. -/
def restingTrace : Trace :=
  [⟨0.0, .taskPlaced 1 0⟩, ⟨0.0, .taskPlaced 2 0⟩, ⟨0.0, .servReady 1 10.0 0.5⟩,
    ⟨0.0, .servReady 2 10.0 0.25⟩, ⟨5.0, .servInactive 1⟩, ⟨5.0, .servInactive 2⟩,
    ⟨8.0, .jobArrival 1⟩]

theorem members_restingTrace :
    let s := (Audit.before .twin [] .grub false restingTrace 6).schedule
    (∀ task ∈ ([] : List Task), ∀ a ∈ task.arrivals, a.isNaN = false) ∧
      (∀ e ∈ restingTrace, e.time.isNaN = false) ∧ 6 ≤ restingTrace.length ∧
      1 ∈ s.members 0 ∧ s.activeMembers 0 = (s.members 0).filter fun tid =>
        restingTrace.latest? (fun _ e => e.event.activates? tid) 6 == some true := by
  intro s
  have htasks : ∀ task ∈ ([] : List Task), ∀ a ∈ task.arrivals, a.isNaN = false := nofun
  have htimes : ∀ e ∈ restingTrace, e.time.isNaN = false := by
    simp only [restingTrace, List.forall_mem_cons, List.not_mem_nil, false_imp_iff, implies_true,
      and_true]
    decide
  have hk : 6 ≤ restingTrace.length := by decide
  obtain ⟨-, hmem, hactive⟩ := members_before_iff .twin .grub false htasks htimes hk 0
  refine ⟨htasks, htimes, hk, (hmem 1).2 ⟨rfl, 2, by decide, ⟨_, rfl, 10.0, 0.5, rfl⟩, ?_, ?_⟩,
    hactive⟩
  · -- No other place is one at which the task becomes ready.
    intro n e hjn hnk he
    obtain rfl | rfl | rfl : n = 3 ∨ n = 4 ∨ n = 5 := by omega
    all_goals
      obtain rfl := Option.some.inj he
      rintro ⟨deadline, utilization, h⟩
      cases h
  · intro n time hjn hnk he
    obtain rfl | rfl | rfl : n = 3 ∨ n = 4 ∨ n = 5 := by omega
    · cases he
    · obtain rfl : 5.0 = time := congrArg Entry.time (Option.some.inj he)
      exact ⟨8.0, List.mem_singleton_self _, by decide⟩
    · cases he

end SchedAudit

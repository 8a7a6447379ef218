import SchedAudit.Proofs.Audit.Heads
import SchedAudit.Proofs.Schedule.History
import SchedAudit.Proofs.Schedule.Membership

/-!
# What breaks the rules on deadlines

Two rules compare with the deadline of a server: a finished job with the time, a sample with the
virtual time that it reports. The server is a matter of the schedule, its deadline is not: it is what
the trace gave to the task last (`Schedule.deadline_before`). So both rules can be read off the trace
(`deadline_violations_iff`), and what the jobs of a task do to its deadline as well: nothing.
-/

namespace SchedAudit

open Schedule (Readies)

/-! ## The rules in terms of the trace -/

namespace Trace

/-- A job of a task finishes at place `i`, past the deadline that the task has. -/
def FinishesLate (tasks : List Task) (entries : Trace) (i : Nat) (e : Entry) (tid : Nat) : Prop :=
  e.event = .jobFinished tid ∧ entries.tracks tasks tid i = true ∧
    ¬e.time ≤ entries.deadline tasks tid i + Tolerance.absolute

/-- A sample at place `i` reports a virtual time of a task past the deadline that the task has. -/
def RunsPast (tasks : List Task) (entries : Trace) (i : Nat) (e : Entry) (tid : Nat) : Prop :=
  ∃ value bandwidth, e.event = .virtualTimeUpdate tid value bandwidth ∧
    entries.tracks tasks tid i = true ∧
    ¬value ≤ entries.deadline tasks tid i + Tolerance.deadline

end Trace

/-- For a task that breaks a rule there is one violation of the kind, and where no task breaks it
there is none. -/
structure OnePerBreach (found : List Violation) (kind : Invariant) (time : Float)
    (Breaks : Nat → Prop) : Prop where
  one : ∀ tid, Breaks tid → ∃ x, found.filter (·.kind == kind) = [x] ∧ x.HasHead kind time (some tid)
  none : (∀ tid, ¬Breaks tid) → found.filter (·.kind == kind) = []

namespace OnePerBreach

variable {found : List Violation} {kind : Invariant} {time : Float} {Breaks : Nat → Prop}

theorem of_eq_nil (hfound : found.filter (·.kind == kind) = []) (h : ∀ tid, ¬Breaks tid) :
    OnePerBreach found kind time Breaks where
  one := fun tid hbreaks => absurd hbreaks (h tid)
  none := fun _ => hfound

/-- A rule that looks at one task and answers when the task breaks it. -/
theorem of_eq_toList {answer : Option Violation} {tid : Nat}
    (hfound : found.filter (·.kind == kind) = answer.toList)
    (hhead : ∀ x, answer = some x → x.HasHead kind time (some tid))
    (h : ∀ tid', Breaks tid' ↔ tid' = tid ∧ answer.isSome = true) :
    OnePerBreach found kind time Breaks where
  one := by
    intro tid' hbreaks
    obtain ⟨rfl, hsome⟩ := (h tid').1 hbreaks
    obtain ⟨x, hx⟩ := Option.isSome_iff_exists.1 hsome
    exact ⟨x, by rw [hfound, hx, Option.toList_some], hhead x hx⟩
  none := by
    intro hnone
    have hanswer : answer = Option.none := by
      rw [← Option.not_isSome_iff_eq_none]
      exact fun hsome => hnone tid ((h tid).2 ⟨rfl, hsome⟩)
    rw [hfound, hanswer, Option.toList_none]

end OnePerBreach

/-! ## The violations of one entry -/

namespace Rule

variable {s : Schedule} {time value deadline : Float} {tid : Nat}

theorem deadlineMiss?_isSome_iff :
    (deadlineMiss? s time tid).isSome = true ↔
      ∃ v, s.server? tid = some v ∧ ¬time ≤ v.deadline + Tolerance.absolute := by
  rw [deadlineMiss?]
  cases s.server? tid with
  | none => simp
  | some v =>
    simp only [Option.bind_eq_bind, Option.bind_some, Option.some_inj, exists_eq_left']
    split_ifs with h <;> simp [h]

theorem vtPastDeadline?_isSome_iff :
    (vtPastDeadline? s time tid value).isSome = true ↔
      ∃ v, s.server? tid = some v ∧ ¬value ≤ v.deadline + Tolerance.deadline := by
  rw [vtPastDeadline?]
  cases s.server? tid with
  | none => simp
  | some v =>
    simp only [Option.bind_eq_bind, Option.bind_some, Option.some_inj, exists_eq_left']
    split_ifs with h <;> simp [h]

end Rule

section Examination

variable {σ : Setting} {policy : Policy} {s : Schedule} {e : Entry}

/-- An entry shows nothing of an invariant that it is not held against. -/
theorem filter_examine_eq_nil {kind : Invariant} (h : kind ∉ e.event.invariants policy) :
    (examine σ policy s e).filter (·.kind == kind) = [] := by
  rw [List.filter_eq_nil_iff]
  intro x hx hkind
  obtain ⟨kind', hmem, hhead⟩ := head_of_mem_examine hx
  rw [beq_iff_eq, hhead.kind] at hkind
  exact h (hkind ▸ hmem)

theorem noDeadlineMiss_mem_invariants_iff :
    .noDeadlineMiss ∈ e.event.invariants policy ↔ ∃ tid, e.event = .jobFinished tid := by
  cases e.event <;> cases policy <;> simp [Event.invariants, Policy.frequencyInvariant?]

theorem vtLeDeadline_mem_invariants_iff :
    .vtLeDeadline ∈ e.event.invariants policy ↔
      ∃ tid value bandwidth, e.event = .virtualTimeUpdate tid value bandwidth := by
  cases e.event <;> cases policy <;> simp [Event.invariants, Policy.frequencyInvariant?]

theorem filter_examine_jobFinished (time : Float) (tid : Nat) :
    (examine σ policy s ⟨time, .jobFinished tid⟩).filter (·.kind == .noDeadlineMiss) =
      (Rule.deadlineMiss? s time tid).toList := by
  refine List.filter_eq_self.2 fun x hx => ?_
  rw [(Rule.head_of_deadlineMiss? (Option.mem_toList.1 hx)).kind]
  rfl

/-- A sample leaves the deadline of its server as it is. -/
theorem Rule.vtPastDeadline?_apply (hs : s.Keyed) (time value : Float) (tid : Nat)
    (bandwidth : Option Float) :
    vtPastDeadline? (s.apply σ ⟨time, .virtualTimeUpdate tid value bandwidth⟩) time tid value =
      vtPastDeadline? s time tid value := by
  have hserver : (s.apply σ ⟨time, .virtualTimeUpdate tid value bandwidth⟩).server? tid =
      (s.server? tid).map (·.sample time value) := by
    rw [Schedule.server?_apply hs]
    exact (if_pos rfl).trans Option.or_none
  rw [vtPastDeadline?, hserver, vtPastDeadline?]
  cases s.server? tid <;> rfl

theorem filter_examine_virtualTimeUpdate (hs : s.Keyed) (time value : Float) (tid : Nat)
    (bandwidth : Option Float) :
    (examine σ policy s ⟨time, .virtualTimeUpdate tid value bandwidth⟩).filter
        (·.kind == .vtLeDeadline) = (Rule.vtPastDeadline? s time tid value).toList := by
  -- A wrong rate is a violation of another kind.
  have hrate : ((Rule.rateMismatch? σ s time tid value).map (·.violation time)).toList.filter
      (·.kind == .vtLeDeadline) = [] := by
    cases Rule.rateMismatch? σ s time tid value <;> rfl
  have hpast : ∀ x ∈ (Rule.vtPastDeadline? s time tid value).toList,
      (x.kind == .vtLeDeadline) = true := by
    intro x hx
    rw [(Rule.head_of_vtPastDeadline? (Option.mem_toList.1 hx)).kind]
    rfl
  rw [examine, List.filter_append, hrate, Rule.vtPastDeadline?_apply hs,
    List.filter_eq_self.2 hpast, List.nil_append]

end Examination

/-- A task has a server with a certain deadline just in case the trace tracks it and gave it such a
deadline last. -/
theorem Schedule.exists_deadline_before_iff {platform : Platform} {tasks : List Task}
    {entries : Trace} {k tid : Nat} (hk : k ≤ entries.length) {P : Float → Prop} :
    (∃ v, (before (.ofTrace platform tasks entries) entries k).server? tid = some v ∧ P v.deadline) ↔
      entries.tracks tasks tid k = true ∧ P (entries.deadline tasks tid k) := by
  rw [← @isSome_server?_before platform tasks entries tid k hk]
  constructor
  · rintro ⟨v, hv, h⟩
    rw [deadline_before hk hv] at h
    exact ⟨Option.isSome_of_eq_some hv, h⟩
  · rintro ⟨hsome, h⟩
    obtain ⟨v, hv⟩ := Option.isSome_iff_exists.1 hsome
    exact ⟨v, hv, by rwa [deadline_before hk hv]⟩

/-! ## Jobs and deadlines -/

namespace Trace

variable {tasks : List Task} {entries : Trace} {tid k : Nat} {e : Entry}

/-- The arrival of a job leaves all deadlines as they are. -/
theorem deadline_succ_of_jobArrival {other : Nat} (he : entries[k]? = some e)
    (harrival : e.event = .jobArrival other) (tid : Nat) :
    entries.deadline tasks tid (k + 1) = entries.deadline tasks tid k := by
  have hnone : entries.deadlineAt? tasks tid k e = none := by
    rw [deadlineAt?, harrival]
  rw [deadline, latest?_succ he, hnone, Option.none_or, deadline]

theorem introduces_of_readies (h : Readies e tid) : e.event.introduces tasks tid = true := by
  obtain ⟨deadline, utilization, h⟩ := h
  rw [h]
  exact beq_self_eq_true tid

/-- Once a task has become ready, its deadline is the one it was given last, whether or not a job of
it has arrived before. -/
theorem latest?_deadlineAt?_of_readies (hk : k ≤ entries.length)
    (hready : ∃ j e, j < k ∧ entries[j]? = some e ∧ Readies e tid) :
    entries.latest? (entries.deadlineAt? tasks tid) k =
      entries.latest? (fun _ e => e.event.deadline? tid) k := by
  induction k with
  | zero =>
    obtain ⟨j, -, hj, -⟩ := hready
    omega
  | succ k ih =>
    have he : entries[k]? = some entries[k] := List.getElem?_eq_getElem hk
    rw [latest?_succ he, latest?_succ he]
    by_cases hnow : Readies entries[k] tid
    · rw [deadlineAt?_of_introduces (introduces_of_readies hnow)]
      obtain ⟨deadline, utilization, hnow⟩ := hnow
      rw [hnow]
      simp [Event.deadline?]
    · -- It became ready before, so it is tracked.
      obtain ⟨j, e, hj, he', hready⟩ := hready
      have hjk : j ≠ k := by
        rintro rfl
        obtain rfl := Option.some.inj (he.symm.trans he')
        exact hnow hready
      have htracked : entries.tracks tasks tid k = true := by
        refine @tracks_mono tasks entries tid k (j + 1) (by omega) ?_
        rw [tracks_succ he', introduces_of_readies hready, Bool.or_true]
      rw [deadlineAt?_of_tracks htracked,
        ih (Nat.le_of_succ_le hk) ⟨j, e, by omega, he', hready⟩]

end Trace

/-! ## The rules over whole traces -/

section Whole

variable (platform : Platform) (tasks : List Task) (policy : Policy) (diagnoses : Bool)
  {entries : Trace} {i : Nat} {e : Entry}

theorem onePerBreach_finishesLate (he : entries[i]? = some e) :
    OnePerBreach (Audit.appended platform tasks policy diagnoses entries i) .noDeadlineMiss e.time
      (entries.FinishesLate tasks i e) := by
  have hi : i ≤ entries.length := Nat.le_of_lt (List.getElem?_eq_some_iff.1 he).1
  rw [Audit.appended_eq he]
  by_cases hevent : ∃ tid, e.event = .jobFinished tid
  · obtain ⟨time, event⟩ := e
    obtain ⟨tid, rfl⟩ := hevent
    refine .of_eq_toList (filter_examine_jobFinished time tid)
      (fun x => Rule.head_of_deadlineMiss?) fun tid' => ?_
    -- The deadline of the server is the one that the trace gave last.
    rw [Rule.deadlineMiss?_isSome_iff, Schedule.exists_deadline_before_iff hi
      (P := fun d => ¬time ≤ d + Tolerance.absolute)]
    constructor
    · rintro ⟨heq, h⟩
      obtain rfl := Event.jobFinished.inj heq
      exact ⟨rfl, h⟩
    · rintro ⟨rfl, h⟩
      exact ⟨rfl, h⟩
  · refine .of_eq_nil (filter_examine_eq_nil fun h => hevent ?_) fun tid h => hevent ⟨tid, h.1⟩
    exact noDeadlineMiss_mem_invariants_iff.1 h

theorem onePerBreach_runsPast (he : entries[i]? = some e) :
    OnePerBreach (Audit.appended platform tasks policy diagnoses entries i) .vtLeDeadline e.time
      (entries.RunsPast tasks i e) := by
  have hi : i ≤ entries.length := Nat.le_of_lt (List.getElem?_eq_some_iff.1 he).1
  rw [Audit.appended_eq he]
  by_cases hevent : ∃ tid value bandwidth, e.event = .virtualTimeUpdate tid value bandwidth
  · obtain ⟨time, event⟩ := e
    obtain ⟨tid, value, bandwidth, rfl⟩ := hevent
    refine .of_eq_toList
      (filter_examine_virtualTimeUpdate Schedule.keyed_before time value tid bandwidth)
      (fun x => Rule.head_of_vtPastDeadline?) fun tid' => ?_
    rw [Rule.vtPastDeadline?_isSome_iff, Schedule.exists_deadline_before_iff hi
      (P := fun d => ¬value ≤ d + Tolerance.deadline)]
    constructor
    · rintro ⟨value', bandwidth', heq, h⟩
      obtain ⟨rfl, rfl, -⟩ := Event.virtualTimeUpdate.inj heq
      exact ⟨rfl, h⟩
    · rintro ⟨rfl, h⟩
      exact ⟨value, bandwidth, rfl, h⟩
  · refine .of_eq_nil (filter_examine_eq_nil fun h => hevent ?_) ?_
    · exact vtLeDeadline_mem_invariants_iff.1 h
    · rintro tid ⟨value, bandwidth, h, -⟩
      exact hevent ⟨tid, value, bandwidth, h⟩

end Whole

/-- **What breaks the rules on deadlines.** At each entry there is one violation of a missed deadline
just in case a job finishes past the deadline that its task was given last, and one of a virtual time
past its deadline just in case a sample reports that. The arrival of a job gives no deadline, and has
no influence on it as soon as the task has become ready. -/
theorem deadline_violations_iff (platform : Platform) (tasks : List Task) (policy : Policy)
    (diagnoses : Bool) {entries : Trace} {i : Nat} {e : Entry} (he : entries[i]? = some e) :
    let found := Audit.appended platform tasks policy diagnoses entries i
    OnePerBreach found .noDeadlineMiss e.time (entries.FinishesLate tasks i e) ∧
      OnePerBreach found .vtLeDeadline e.time (entries.RunsPast tasks i e) ∧
      (∀ other, e.event = .jobArrival other → ∀ tid,
        entries.deadline tasks tid (i + 1) = entries.deadline tasks tid i) ∧
      ∀ tid, (∃ j e, j < i ∧ entries[j]? = some e ∧ Readies e tid) →
        entries.deadline tasks tid i =
          (entries.latest? (fun _ e => e.event.deadline? tid) i).getD 0.0 := by
  intro found
  have hi : i ≤ entries.length := Nat.le_of_lt (List.getElem?_eq_some_iff.1 he).1
  refine ⟨onePerBreach_finishesLate platform tasks policy diagnoses he,
    onePerBreach_runsPast platform tasks policy diagnoses he,
    fun other harrival => Trace.deadline_succ_of_jobArrival he harrival, fun tid hready => ?_⟩
  rw [Trace.deadline, Trace.latest?_deadlineAt?_of_readies hi hready]

/-- A declared task is put off before it is ready, and again: what counts is the deadline that it had
when its job finished. -/
def tardyTrace : Trace :=
  [⟨0.0, .servPostpone 1 20.0⟩, ⟨0.0, .jobArrival 1⟩, ⟨0.0, .servPostpone 1 8.0⟩,
    ⟨9.0, .jobFinished 1⟩, ⟨9.0, .servReady 1 16.0 0.5⟩]

theorem deadline_violation_tardyTrace :
    let found := Audit.appended .twin [⟨1, 0.5, 8.0, [0.0]⟩] .grub false tardyTrace 3
    tardyTrace[3]? = some ⟨9.0, .jobFinished 1⟩ ∧
      ∃ x, found.filter (·.kind == .noDeadlineMiss) = [x] ∧
        x.HasHead .noDeadlineMiss 9.0 (some 1) := by
  have he : tardyTrace[3]? = some ⟨9.0, .jobFinished 1⟩ := rfl
  exact ⟨he, (deadline_violations_iff .twin _ .grub false he).1.one 1 ⟨rfl, rfl, by decide⟩⟩

end SchedAudit

import SchedAudit.Proofs.Schedule.History

/-!
# Processors and the tasks that they run

An entry that schedules a task puts it on a processor, an idle processor runs nothing, and a task
that is preempted is taken off one processor, the first one that runs it (`runningOn?_apply`). What a
trace says is simpler: a task holds the processor on which it was scheduled until the trace speaks of
that processor again, or preempts the task (`Trace.Holds`).

Both are the same as long as preemptions free a task in full (`runningOn?_applied_iff`), and they do
so for as long as the task never holds two processors when it is preempted (`preempted_free_iff`).
-/

namespace SchedAudit

/-! ## What an entry does to the processors -/

/-- What an event says that a processor runs, be it nothing. -/
def Event.occupant? (event : Event) (cpu : Nat) : Option (Option Nat) :=
  match event with
  | .taskScheduled tid cpu' => if cpu' = cpu then some (some tid) else none
  | .procIdled cpu' => if cpu' = cpu then some none else none
  | _ => none

namespace Schedule

variable {σ : Setting} {s t : Schedule} {e : Entry} {tid cpu : Nat}

/-- The first processor that runs a task. -/
def firstRunning? (s : Schedule) (tid : Nat) : Option Nat :=
  s.processors.keyWhere? (· == some tid)

/-- The processor that an entry frees by a preemption. -/
def freed? (s : Schedule) (e : Entry) : Option Nat :=
  match e.event with
  | .taskPreempted tid => s.firstRunning? tid
  | _ => none

theorem firstRunning?_eq_some_iff : s.firstRunning? tid = some cpu ↔
    s.runningOn? cpu = some tid ∧ ∀ c < cpu, s.runningOn? c ≠ some tid := by
  rw [firstRunning?, Table.keyWhere?_eq_some_iff]
  simp only [runningOn?, Option.join_eq_some_iff, beq_iff_eq, exists_eq_right, beq_eq_false_iff_ne]
  refine and_congr_right fun _ => ⟨?_, ?_⟩
  · intro h c hc hrun
    exact h c _ hc (Option.join_eq_some_iff.1 hrun) rfl
  · rintro h c _ hc hfound rfl
    exact h c hc (Option.join_eq_some_iff.2 hfound)

theorem processors_onJobArrival (σ : Setting) (s : Schedule) (tid : Nat) :
    (s.onJobArrival σ tid).processors = s.processors := by
  rw [onJobArrival]
  split <;> rfl

theorem processors_onReady (σ : Setting) (s : Schedule) (time : Float) (tid : Nat)
    (deadline utilization : Float) :
    (s.onReady σ time tid deadline utilization).processors = s.processors := by
  rw [onReady_eq]
  cases s.clusterOf? σ tid with
  | none => rfl
  | some cluster =>
    simp only
    split_ifs <;> rfl

theorem processors_onInactive (σ : Setting) (s : Schedule) (time : Float) (tid : Nat) :
    (s.onInactive σ time tid).processors = s.processors := by
  rw [onInactive]
  split
  · rfl
  · simp only
    split <;> rfl

theorem runningOn?_insert (s : Schedule) (cpu cpu' : Nat) (occupant : Option Nat) :
    runningOn? { s with processors := s.processors.insert cpu' occupant } cpu =
      if cpu' = cpu then occupant else s.runningOn? cpu := by
  rw [runningOn?, Table.find?_insert]
  simp only [eq_comm (a := cpu)]
  split_ifs <;> rfl

theorem runningOn?_onPreempted (s : Schedule) (tid cpu : Nat) :
    (s.onPreempted tid).runningOn? cpu =
      if s.firstRunning? tid = some cpu then none else s.runningOn? cpu := by
  rw [onPreempted, firstRunning?]
  cases s.processors.keyWhere? (· == some tid) with
  | none => rfl
  | some first =>
    simp only [Option.some_inj]
    exact runningOn?_insert s cpu first none

/-- **What an entry makes of a processor.** -/
theorem runningOn?_apply (σ : Setting) (s : Schedule) (e : Entry) (cpu : Nat) :
    (s.apply σ e).runningOn? cpu =
      if s.freed? e = some cpu then none else (e.event.occupant? cpu).getD (s.runningOn? cpu) := by
  obtain ⟨time, event⟩ := e
  have hsame {s' : Schedule} (h : s'.processors = s.processors) :
      s'.runningOn? cpu = s.runningOn? cpu := congrArg (fun p => (p.find? cpu).join) h
  have hset (cpu' : Nat) (occupant : Option Nat) :
      runningOn? { s with processors := s.processors.insert cpu' occupant } cpu =
        (if cpu' = cpu then some occupant else none).getD (s.runningOn? cpu) := by
    rw [runningOn?_insert]
    split_ifs <;> rfl
  cases event with
  | taskScheduled tid' cpu' => exact hset cpu' (some tid')
  | procIdled cpu' => exact hset cpu' none
  | taskPreempted tid' => exact runningOn?_onPreempted s tid' cpu
  | jobArrival tid' => exact hsame (processors_onJobArrival σ s tid')
  | servReady tid' deadline utilization =>
    exact hsame (processors_onReady σ s time tid' deadline utilization)
  | servInactive tid' => exact hsame (processors_onInactive σ s time tid')
  | frequencyUpdate c frequency =>
    refine hsame ?_
    simp only [apply]
    split <;> rfl
  | _ => rfl

theorem runningOn?_advance (σ : Setting) (s : Schedule) (e : Entry) (cpu : Nat) :
    (s.advance σ e).runningOn? cpu = (s.apply σ e).runningOn? cpu := by
  rw [advance]
  split <;> rfl

/-- Processors go by processors alone. -/
theorem runningOn?_apply_congr (h : ∀ cpu, s.runningOn? cpu = t.runningOn? cpu) :
    (s.apply σ e).runningOn? cpu = (t.apply σ e).runningOn? cpu := by
  have hfirst (tid : Nat) : s.firstRunning? tid = t.firstRunning? tid := by
    refine Option.ext fun cpu => ?_
    simp only [firstRunning?_eq_some_iff, h]
  have hfreed : s.freed? e = t.freed? e := by
    rw [freed?, freed?]
    split
    · exact hfirst _
    · rfl
  rw [runningOn?_apply, runningOn?_apply, hfreed, h]

/-! ## One preemption -/

/-- A preempted task stays where another processor comes first. -/
theorem runningOn?_preempted_iff {time : Float} :
    (s.apply σ ⟨time, .taskPreempted tid⟩).runningOn? cpu = some tid ↔
      s.runningOn? cpu = some tid ∧ ∃ c < cpu, s.runningOn? c = some tid := by
  have happly : (s.apply σ ⟨time, .taskPreempted tid⟩).runningOn? cpu =
      if s.firstRunning? tid = some cpu then none else s.runningOn? cpu :=
    runningOn?_apply σ s _ cpu
  rw [happly, Option.ite_none_left_eq_some, firstRunning?_eq_some_iff]
  constructor
  · rintro ⟨hfirst, hrun⟩
    refine ⟨hrun, ?_⟩
    by_contra! hnone
    exact hfirst ⟨hrun, hnone⟩
  · rintro ⟨hrun, c, hc, hrun'⟩
    exact ⟨fun hfirst => hfirst.2 c hc hrun', hrun⟩

/-- It is nowhere, then, just in case no two processors ran it. -/
theorem forall_runningOn?_preempted_iff {time : Float} :
    (∀ cpu, (s.apply σ ⟨time, .taskPreempted tid⟩).runningOn? cpu ≠ some tid) ↔
      ∀ c c', s.runningOn? c = some tid → s.runningOn? c' = some tid → c = c' := by
  simp only [Ne, runningOn?_preempted_iff, not_and, not_exists]
  constructor
  · intro h c c' hc hc'
    rcases Nat.lt_trichotomy c c' with hlt | heq | hlt
    · exact absurd hc (h c' hc' c hlt)
    · exact heq
    · exact absurd hc' (h c hc c' hlt)
  · intro h cpu hcpu c hlt hc
    exact absurd (h c cpu hc hcpu) (Nat.ne_of_lt hlt)

/-! ## What a trace says of a task and a processor -/

end Schedule

/-- Whether a processor runs a task from an event on, if the event says so: one that speaks of the
processor, or that preempts the task. -/
def Event.runs? (event : Event) (tid cpu : Nat) : Option Bool :=
  match event with
  | .taskScheduled tid' cpu' => if cpu' = cpu then some (tid' == tid) else none
  | .procIdled cpu' => if cpu' = cpu then some false else none
  | .taskPreempted tid' => if tid' = tid then some false else none
  | _ => none

/-- By what a trace says before place `k`, a task holds a processor: it was scheduled there, and
since then the trace has neither spoken of the processor nor preempted the task. -/
def Trace.Holds (entries : Trace) (tid cpu k : Nat) : Prop :=
  entries.latest? (fun _ e => e.event.runs? tid cpu) k = some true

namespace Schedule

variable {σ : Setting} {s : Schedule} {e : Entry} {entries : Trace} {tid cpu k : Nat}

/-- The schedule after the entries before place `k` were applied one by one. -/
def applied (σ : Setting) (entries : Trace) (k : Nat) : Schedule :=
  (entries.take k).foldl (apply σ) {}

theorem applied_succ (he : entries[k]? = some e) :
    applied σ entries (k + 1) = (applied σ entries k).apply σ e := by
  obtain ⟨hlt, rfl⟩ := List.getElem?_eq_some_iff.1 he
  rw [applied, applied, ← List.take_append_getElem hlt, List.foldl_append]
  rfl

theorem runningOn?_before (cpu : Nat) :
    (before σ entries k).runningOn? cpu = (applied σ entries k).runningOn? cpu := by
  induction k generalizing cpu with
  | zero => rfl
  | succ k ih =>
    cases he : entries[k]? with
    | none =>
      have hend : entries.take (k + 1) = entries.take k := by
        rw [List.take_add_one, he, Option.toList_none, List.append_nil]
      rw [before, applied, hend]
      exact ih cpu
    | some e =>
      rw [before_succ he, applied_succ he, runningOn?_advance]
      exact runningOn?_apply_congr ih

/-- A schedule takes an entry as the trace means it, provided that a preemption of the task takes it
off the processor. -/
theorem runningOn?_apply_iff
    (hfrees : e.event = .taskPreempted tid → (s.apply σ e).runningOn? cpu ≠ some tid) :
    (s.apply σ e).runningOn? cpu = some tid ↔
      (e.event.runs? tid cpu).or (some (s.runningOn? cpu == some tid)) = some true := by
  obtain ⟨time, event⟩ := e
  have happly := runningOn?_apply σ s ⟨time, event⟩ cpu
  cases event with
  | taskScheduled tid' cpu' =>
    rw [happly, if_neg (by nofun)]
    simp only [Event.occupant?, Event.runs?]
    split_ifs <;> simp
  | procIdled cpu' =>
    rw [happly, if_neg (by nofun)]
    simp only [Event.occupant?, Event.runs?]
    split_ifs <;> simp
  | taskPreempted tid' =>
    simp only [Event.runs?]
    split_ifs with htid
    · subst htid
      simpa using hfrees rfl
    · -- The processor that is freed runs another task.
      have hother : s.firstRunning? tid' = some cpu → s.runningOn? cpu ≠ some tid := by
        intro hfirst hrun
        rw [(firstRunning?_eq_some_iff.1 hfirst).1] at hrun
        exact htid (Option.some.inj hrun)
      change _ = if s.firstRunning? tid' = some cpu then none else s.runningOn? cpu at happly
      rw [happly, Option.ite_none_left_eq_some]
      simpa using fun hrun hfirst => hother hfirst hrun
  | _ =>
    rw [happly, if_neg (by nofun)]
    simp [Event.occupant?, Event.runs?]

/-- As long as preemptions free a task in full, it runs where it holds a processor by what the trace
says. -/
theorem runningOn?_applied_iff (hk : k ≤ entries.length)
    (hfree : ∀ j < k, ∀ time, entries[j]? = some ⟨time, .taskPreempted tid⟩ →
      ∀ cpu, (applied σ entries (j + 1)).runningOn? cpu ≠ some tid) :
    (applied σ entries k).runningOn? cpu = some tid ↔ entries.Holds tid cpu k := by
  induction k with
  | zero => simp [Trace.Holds, applied, runningOn?, Table.empty, Table.find?, Table.lookup?]
  | succ k ih =>
    have he : entries[k]? = some entries[k] := List.getElem?_eq_getElem hk
    have hbefore := ih (Nat.le_of_succ_le hk) fun j hj => hfree j (Nat.lt_succ_of_lt hj)
    rw [applied_succ he, Trace.Holds, Trace.latest?_succ he, runningOn?_apply_iff]
    · cases entries[k].event.runs? tid cpu with
      | some b => rfl
      | none =>
        rw [Option.none_or, Option.none_or, ← Trace.Holds, ← hbefore]
        simp
    · intro hpreempted
      rw [← applied_succ he]
      refine hfree k (Nat.lt_succ_self k) entries[k].time ?_ cpu
      rw [he, ← hpreempted]

/-! ## All preemptions of a task -/

/-- What preemptions of a task do to the processors. -/
structure Preemptions (σ : Setting) (entries : Trace) (tid : Nat) : Prop where
  /-- the first processor that runs the task is free then -/
  first : ∀ k time cpu, (applied σ entries k).firstRunning? tid = some cpu →
    ((applied σ entries k).apply σ ⟨time, .taskPreempted tid⟩).runningOn? cpu = none
  /-- all others go on as they were -/
  others : ∀ k time cpu, (applied σ entries k).firstRunning? tid ≠ some cpu →
    ((applied σ entries k).apply σ ⟨time, .taskPreempted tid⟩).runningOn? cpu =
      (applied σ entries k).runningOn? cpu
  /-- so the task is off all processors just in case it was on no two of them -/
  frees_iff : ∀ k time,
    (∀ cpu, ((applied σ entries k).apply σ ⟨time, .taskPreempted tid⟩).runningOn? cpu ≠ some tid) ↔
      ∀ c c', (applied σ entries k).runningOn? c = some tid →
        (applied σ entries k).runningOn? c' = some tid → c = c'
  /-- each preemption in a trace frees the task just in case the task never holds two processors
  when it is preempted -/
  all_free_iff :
    (∀ k time, entries[k]? = some ⟨time, .taskPreempted tid⟩ →
      ∀ cpu, (applied σ entries (k + 1)).runningOn? cpu ≠ some tid) ↔
    ∀ k time, entries[k]? = some ⟨time, .taskPreempted tid⟩ →
      ∀ c c', entries.Holds tid c k → entries.Holds tid c' k → c = c'
  /-- an audit knows the same of the processors -/
  audited : ∀ k cpu, (before σ entries k).runningOn? cpu = (applied σ entries k).runningOn? cpu

theorem preempted_free_iff (σ : Setting) (entries : Trace) (tid : Nat) :
    (∀ k time, entries[k]? = some ⟨time, .taskPreempted tid⟩ →
      ∀ cpu, (applied σ entries (k + 1)).runningOn? cpu ≠ some tid) ↔
    ∀ k time, entries[k]? = some ⟨time, .taskPreempted tid⟩ →
      ∀ c c', entries.Holds tid c k → entries.Holds tid c' k → c = c' := by
  have hlength {k : Nat} {e : Entry} (he : entries[k]? = some e) : k ≤ entries.length :=
    Nat.le_of_lt (List.getElem?_eq_some_iff.1 he).1
  constructor
  · intro hfree k time he c c' hc hc'
    have hrun {cpu : Nat} (hcpu : entries.Holds tid cpu k) :
        (applied σ entries k).runningOn? cpu = some tid :=
      (runningOn?_applied_iff (hlength he) fun j _ => hfree j).2 hcpu
    have hnone := hfree k time he
    rw [applied_succ he] at hnone
    exact forall_runningOn?_preempted_iff.1 hnone c c' (hrun hc) (hrun hc')
  · intro hsingle k
    -- All earlier preemptions have freed the task, so it runs where it holds a processor.
    induction k using Nat.strong_induction_on with
    | _ k ih =>
      intro time he
      rw [applied_succ he]
      refine forall_runningOn?_preempted_iff.2 fun c c' hc hc' => ?_
      rw [runningOn?_applied_iff (hlength he) ih] at hc hc'
      exact hsingle k time he c c' hc hc'

/-- **What preemptions free.** A preemption takes its task off the first processor that runs it, and
leaves all others alone. -/
theorem preemptions_free_first (σ : Setting) (entries : Trace) (tid : Nat) :
    Preemptions σ entries tid where
  first _ _ cpu h := (runningOn?_onPreempted _ tid cpu).trans (if_pos h)
  others _ _ cpu h := (runningOn?_onPreempted _ tid cpu).trans (if_neg h)
  frees_iff _ _ := forall_runningOn?_preempted_iff
  all_free_iff := preempted_free_iff σ entries tid
  audited _ cpu := runningOn?_before cpu

/-- A task that is scheduled on a second processor before it is preempted. -/
def doubledTrace : Trace :=
  [⟨0.0, .taskScheduled 1 0⟩, ⟨0.0, .taskScheduled 1 1⟩, ⟨1.0, .taskPreempted 1⟩]

/-- The second processor still runs the task after the preemption. -/
theorem still_running_doubledTrace :
    ¬∀ (σ : Setting) (entries : Trace) (k : Nat) (time : Float) (tid cpu : Nat),
      entries[k]? = some ⟨time, .taskPreempted tid⟩ →
      (applied σ entries (k + 1)).runningOn? cpu ≠ some tid :=
  fun h => h (.ofTrace .twin [] doubledTrace) doubledTrace 2 1.0 1 1 rfl rfl

end Schedule

end SchedAudit

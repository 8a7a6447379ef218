import SchedAudit.Proofs.Audit.Entries
import SchedAudit.Proofs.Audit.View

/-!
# Entries that only observe

Some entries are there to be examined, or to be read by people: finished jobs, budgets, frequencies,
and what the processors do. They may be left out of a trace, and none of the others is judged in
another way (`verdicts_keepAt`).

That is not because they do nothing. A schedule notes which task runs on which processor, and the
frequency of each cluster. But these notes are never asked for later: processors by no rule at all, and
a frequency only by the entry that sets it. `Schedule.bare` takes both away. What is left of a schedule
makes its way through a trace without the notes (`bare_advance`), observations do not touch it
(`bare_advance_of_isObservation`), and it is all that an entry is held against (`examine_bare`).
-/

namespace SchedAudit

/-- An event that the schedule takes note of at most. -/
def Event.isObservation : Event → Bool
  | .jobFinished .. | .taskScheduled .. | .taskRejected .. | .servBudgetReplenished ..
  | .servBudgetExhausted .. | .frequencyUpdate .. | .procActivated .. | .procIdled .. | .procSleep ..
  | .procChange .. | .resched | .simFinished => true
  | _ => false

variable {σ : Setting} {s t : Schedule} {e : Entry} {entries : Trace}

namespace Schedule

/-- A schedule without its notes on processors and frequencies. -/
def bare (s : Schedule) : Schedule :=
  { s with processors := Table.empty, frequencies := Table.empty }

@[simp] theorem bare_bare (s : Schedule) : s.bare.bare = s.bare := rfl

@[simp] theorem server?_bare (s : Schedule) (tid : Nat) : s.bare.server? tid = s.server? tid := rfl

@[simp] theorem placement?_bare (s : Schedule) (tid : Nat) :
    s.bare.placement? tid = s.placement? tid := rfl

@[simp] theorem clusterOf?_bare (σ : Setting) (s : Schedule) (tid : Nat) :
    s.bare.clusterOf? σ tid = s.clusterOf? σ tid := rfl

@[simp] theorem isIdle_bare (s : Schedule) (tid : Nat) : s.bare.isIdle tid = s.isIdle tid := rfl

/-! ## Effects without notes -/

theorem bare_onJobArrival (σ : Setting) (s : Schedule) (tid : Nat) :
    (s.onJobArrival σ tid).bare = s.bare.onJobArrival σ tid := by
  rw [onJobArrival, onJobArrival, server?_bare]
  split <;> rfl

/-- Which processor is freed does not matter. -/
theorem bare_onPreempted (s : Schedule) (tid : Nat) :
    (s.onPreempted tid).bare = s.bare.modifyServer tid (·.interrupt .ready) := by
  rw [onPreempted]
  cases s.processors.keyWhere? (· == some tid) <;> rfl

theorem bare_onReady (σ : Setting) (s : Schedule) (time : Float) (tid : Nat)
    (deadline utilization : Float) :
    (s.onReady σ time tid deadline utilization).bare =
      s.bare.onReady σ time tid deadline utilization := by
  rw [onReady_eq, onReady_eq, clusterOf?_bare, isIdle_bare]
  cases s.clusterOf? σ tid with
  | none => rfl
  | some cluster =>
    simp only
    split_ifs <;> rfl

theorem bare_onInactive (σ : Setting) (s : Schedule) (time : Float) (tid : Nat) :
    (s.onInactive σ time tid).bare = s.bare.onInactive σ time tid := by
  rw [onInactive, onInactive, server?_bare, placement?_bare]
  cases s.server? tid with
  | none => rfl
  | some v =>
    simp only
    split <;> rfl

theorem bare_apply (σ : Setting) (s : Schedule) (e : Entry) :
    (s.apply σ e).bare = (s.bare.apply σ e).bare := by
  obtain ⟨time, event⟩ := e
  cases event with
  | jobArrival tid =>
    change (s.onJobArrival σ tid).bare = (s.bare.onJobArrival σ tid).bare
    rw [← bare_onJobArrival, bare_bare]
  | taskPreempted tid =>
    change (s.onPreempted tid).bare = (s.bare.onPreempted tid).bare
    rw [bare_onPreempted, bare_onPreempted, bare_bare]
  | servReady tid deadline utilization =>
    change (s.onReady σ time tid deadline utilization).bare =
      (s.bare.onReady σ time tid deadline utilization).bare
    rw [← bare_onReady, bare_bare]
  | servInactive tid =>
    change (s.onInactive σ time tid).bare = (s.bare.onInactive σ time tid).bare
    rw [← bare_onInactive, bare_bare]
  | frequencyUpdate c frequency =>
    simp only [apply]
    split <;> rfl
  | _ => rfl

/-- **A schedule gets on without its notes.** -/
theorem bare_advance (σ : Setting) (s : Schedule) (e : Entry) :
    (s.advance σ e).bare = (s.bare.advance σ e).bare := by
  have hrestart (s : Schedule) (tid : Nat) :
      (s.restartInterval tid).bare = s.bare.restartInterval tid := rfl
  rw [advance, advance]
  split
  · rw [hrestart, hrestart, bare_apply]
  · exact bare_apply σ s e

/-- **Observations make notes only.** -/
theorem bare_advance_of_isObservation (h : e.event.isObservation = true) :
    (s.advance σ e).bare = s.bare := by
  obtain ⟨time, event⟩ := e
  cases event with
  | frequencyUpdate c frequency =>
    simp only [advance, apply]
    split <;> rfl
  | jobFinished | taskScheduled | taskRejected | servBudgetReplenished | servBudgetExhausted
  | procActivated | procIdled | procSleep | procChange | resched | simFinished => rfl
  | _ => cases h

/-! ## Rules without notes -/

theorem sameView_bare (tid : Nat) (s : Schedule) : SameView tid s.bare s where
  server := rfl
  placement := rfl
  attached := fun _ _ => rfl

theorem demand?_bare (kind : Invariant) (s : Schedule) (cluster : Cluster) (c : Nat) :
    Rule.demand? kind s.bare cluster c = Rule.demand? kind s cluster c := by
  cases kind <;> rfl

theorem demand?_congr_of_bare (kind : Invariant) (h : s.bare = t.bare) (cluster : Cluster) (c : Nat) :
    Rule.demand? kind s cluster c = Rule.demand? kind t cluster c := by
  rw [← demand?_bare, h, demand?_bare]

/-- A new frequency is held against the servers, and was not noted before. -/
theorem frequencyMismatch?_bare (kind : Invariant) (σ : Setting) (s : Schedule) (time : Float)
    (c : Nat) (frequency : Float) :
    let e : Entry := ⟨time, .frequencyUpdate c frequency⟩
    Rule.frequencyMismatch? kind σ (s.bare.apply σ e) time c =
      Rule.frequencyMismatch? kind σ (s.apply σ e) time c := by
  intro e
  rw [Rule.frequencyMismatch?, Rule.frequencyMismatch?]
  simp only [Option.bind_eq_bind]
  refine Option.bind_congr fun cluster hcluster => ?_
  have hset (s : Schedule) : (s.apply σ e).frequency? c = some frequency := by
    rw [frequency?_apply]
    exact if_pos ⟨rfl, Option.isSome_of_eq_some hcluster⟩
  rw [hset, hset, demand?_congr_of_bare kind (bare_apply σ s e).symm]

end Schedule

open Schedule in
/-- **No entry is held against notes.** -/
theorem examine_bare (σ : Setting) (policy : Policy) (s : Schedule) (e : Entry) :
    examine σ policy s.bare e = examine σ policy s e := by
  cases htask : e.event.task? with
  | some tid => exact examine_congr_of_sameView rfl policy (sameView_bare tid s) htask
  | none =>
    obtain ⟨time, event⟩ := e
    cases event with
    | frequencyUpdate c frequency => simp only [examine, frequencyMismatch?_bare]
    | procActivated | procIdled | procSleep | procChange | resched | simFinished => rfl
    | _ => cases htask

/-! ## Leaving entries out -/

/-- What stands at the places that are kept. -/
def keepAt {α : Type} (keep : Nat → Bool) : List α → List α
  | [] => []
  | a :: l =>
    if keep 0 then a :: keepAt (fun k => keep (k + 1)) l else keepAt (fun k => keep (k + 1)) l

theorem Setting.addArrival_of_isObservation (arrivals : Table (List Float))
    (h : e.event.isObservation = true) : addArrival arrivals e = arrivals := by
  obtain ⟨time, event⟩ := e
  cases event <;> first | rfl | cases h

/-- The entries at the places that are not kept only observe. -/
def Trace.DropsObservations (keep : Nat → Bool) (entries : Trace) : Prop :=
  ∀ k e, entries[k]? = some e → keep k = false → e.event.isObservation = true

namespace Trace.DropsObservations

variable {keep : Nat → Bool}

theorem head (h : DropsObservations keep (e :: entries)) (hkeep : ¬keep 0) :
    e.event.isObservation = true :=
  h 0 e rfl (eq_false_of_ne_true hkeep)

theorem tail (h : DropsObservations keep (e :: entries)) :
    DropsObservations (fun k => keep (k + 1)) entries :=
  fun k e' he' => h (k + 1) e' he'

theorem foldl_addArrival (h : DropsObservations keep entries) (arrivals : Table (List Float)) :
    (keepAt keep entries).foldl Setting.addArrival arrivals =
      entries.foldl Setting.addArrival arrivals := by
  induction entries generalizing keep arrivals with
  | nil => rfl
  | cons e entries ih =>
    rw [keepAt, List.foldl_cons]
    split_ifs with hkeep
    · exact ih h.tail _
    · rw [ih h.tail, Setting.addArrival_of_isObservation arrivals (h.head hkeep)]

/-- Observations are no arrivals. -/
theorem ofTrace_eq (h : DropsObservations keep entries) (platform : Platform) (tasks : List Task) :
    Setting.ofTrace platform tasks (keepAt keep entries) =
      Setting.ofTrace platform tasks entries := by
  simp only [Setting.ofTrace, Setting.joinArrivals, h.foldl_addArrival]

theorem findings_eq (h : DropsObservations keep entries) (policy : Policy) (hst : s.bare = t.bare) :
    keepAt keep (s.findings σ policy entries) = t.findings σ policy (keepAt keep entries) := by
  induction entries generalizing keep s t with
  | nil => rfl
  | cons e entries ih =>
    rw [Schedule.findings, keepAt, keepAt]
    split_ifs with hkeep
    · -- Kept: both schedules take the entry, and see the same in it.
      have hnext : (s.advance σ e).bare = (t.advance σ e).bare := by
        rw [Schedule.bare_advance, hst, ← Schedule.bare_advance]
      rw [Schedule.findings, ih h.tail hnext, ← examine_bare σ policy s, hst, examine_bare]
    · -- Left out: only the left schedule takes it, as a note.
      refine ih h.tail ?_
      rw [Schedule.bare_advance_of_isObservation (h.head hkeep), hst]

end Trace.DropsObservations

/-! ## Verdicts -/

/-- **Observations may be left out.** Whichever of them a trace leaves out, each entry that is kept adds
the same violations to the report. For what an entry adds depends on nothing that they note: whatever
tasks the processors are said to run, and whatever frequencies were set before, it would add the same. -/
theorem verdicts_keepAt (platform : Platform) (tasks : List Task) (policy : Policy)
    (diagnoses : Bool) {entries : Trace} {keep : Nat → Bool}
    (hdropped : entries.DropsObservations keep) :
    keepAt keep (entries.verdicts platform tasks policy diagnoses) =
        Trace.verdicts platform tasks policy diagnoses (keepAt keep entries) ∧
      ∀ k e, entries[k]? = some e → ∀ processors frequencies,
        let s := (Audit.before platform tasks policy diagnoses entries k).schedule
        examine (.ofTrace platform tasks entries) policy
            { s with processors := processors, frequencies := frequencies } e =
          Audit.appended platform tasks policy diagnoses entries k := by
  refine ⟨?_, fun k e he processors frequencies => ?_⟩
  · rw [Trace.verdicts_eq_findings, Trace.verdicts_eq_findings, hdropped.ofTrace_eq]
    exact hdropped.findings_eq policy rfl
  · intro s
    have hbare : Schedule.bare { s with processors := processors, frequencies := frequencies } =
        s.bare := rfl
    rw [Audit.appended_eq he, ← examine_bare, hbare, examine_bare]
    exact congrArg (examine _ policy · e) (Audit.schedule_before k)

/-- A frequency is set too low after a better one, and a task finishes late. -/
def notedTrace : Trace :=
  [⟨0.0, .taskPlaced 1 0⟩, ⟨0.0, .servReady 1 1.0 0.5⟩, ⟨0.0, .taskScheduled 1 0⟩,
    ⟨0.0, .frequencyUpdate 0 100.0⟩, ⟨0.5, .frequencyUpdate 0 50.0⟩, ⟨2.0, .jobFinished 1⟩]

theorem verdicts_keepAt_notedTrace :
    let keep : Nat → Bool := fun k => !(k == 2 || k == 3)
    notedTrace.DropsObservations keep ∧
      keepAt keep (notedTrace.verdicts .twin [] .pa false) =
        Trace.verdicts .twin [] .pa false (keepAt keep notedTrace) ∧
      (keepAt keep notedTrace).length = 4 ∧
      (Report.ofTrace .twin [] .pa false (keepAt keep notedTrace)).violations.length = 2 := by
  intro keep
  have hdropped : notedTrace.DropsObservations keep := by
    intro k e he hk
    obtain rfl | rfl : k = 2 ∨ k = 3 := by
      simpa [keep, or_iff_not_imp_left] using hk
    · cases he
      rfl
    · cases he
      rfl
  exact ⟨hdropped, (verdicts_keepAt .twin [] .pa false hdropped).1, rfl, by decide +kernel⟩

end SchedAudit

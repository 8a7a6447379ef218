import Mathlib.Data.List.Forall2
import SchedAudit.Proofs.Audit.Deadlines

/-!
# Diagnoses only watch

An audit with diagnoses keeps a history and writes texts, and an audit without does neither. That is
all the difference between them: what is found depends on the schedules alone, and these know nothing
of a history. The texts go with the violations of the rate, one by one and in their order
(`diagnoses_only_watch`), since a sample shows such a violation exactly when it asks for a diagnosis
(`ofOneMismatch_examine`), and both are made of one mismatch.
-/

namespace SchedAudit

open List (Forall₂)

/-- A violation and the text of a diagnosis give an account of one mismatch. The violation names the
task and the numbers; the text opens with a line that names the time of the violation and the task,
and a line with the same numbers. -/
structure Rule.RateMismatch.ToldBy (m : RateMismatch) (x : Violation) (text : String) :
    Prop where
  head : x.HasHead .vtRate x.time (some m.tid)
  detail :
    let vt := Decimal.fixed 6 m.deltaVt
    let due := Decimal.fixed 6 m.expected
    let wall := Decimal.fixed 6 m.deltaWall
    let bw := Decimal.fixed 4 m.bandwidth
    let u := Decimal.fixed 4 m.scaled
    x.detail = s!"delta_vt={vt} expected={due} over delta_wall={wall} (bw={bw} scaled_u={u})"
  opening :
    let time := Decimal.fixed 6 x.time
    let wall := Decimal.fixed 6 m.deltaWall
    let vt := Decimal.fixed 6 m.deltaVt
    let due := Decimal.fixed 6 m.expected
    let bw := Decimal.fixed 6 m.bandwidth
    let u := Decimal.fixed 6 m.scaled
    ∃ rest, text =
      s!"=== vt_rate violation t={time} tid={m.tid} cluster={m.cluster} ===" ++ "\n" ++
        (s!"  delta_wall={wall} delta_vt={vt} expected={due} bw={bw} scaled_u={u}" ++ "\n" ++ rest)

/-- A violation and the text of a diagnosis go back to one sample of a trace: its rate is the mismatch
that both give an account of. -/
def Trace.OfOneMismatch (σ : Setting) (entries : Trace) (x : Violation) (text : String) : Prop :=
  ∃ i value bandwidth m,
    entries[i]? = some ⟨x.time, .virtualTimeUpdate m.tid value bandwidth⟩ ∧
      Rule.rateMismatch? σ (Schedule.before σ entries i) x.time m.tid value = some m ∧
      m.ToldBy x text

/-! ## One entry -/

section Entry

variable {σ : Setting} {policy : Policy} {s : Schedule}

theorem toldBy_text (σ : Setting) (s : Schedule) (h : History) (time : Float)
    (m : Rule.RateMismatch) :
    m.ToldBy (m.violation time) (Diagnosis.text σ s h time m) where
  head := ⟨rfl, rfl, rfl⟩
  detail := rfl
  opening := by
    simp only [Diagnosis.text, Diagnosis.lines, List.cons_append, List.map_cons, String.join_cons]
    exact ⟨_, rfl⟩

theorem filter_vtRate_examine (time value : Float) (tid : Nat) (bandwidth : Option Float) :
    (examine σ policy s ⟨time, .virtualTimeUpdate tid value bandwidth⟩).filter
        (·.kind == .vtRate) =
      ((Rule.rateMismatch? σ s time tid value).map (·.violation time)).toList := by
  -- A virtual time past the deadline is a violation of another kind.
  have hpast : ∀ s' : Schedule, (Rule.vtPastDeadline? s' time tid value).toList.filter
      (·.kind == .vtRate) = [] := by
    intro s'
    rw [List.filter_eq_nil_iff]
    intro x hx
    rw [(Rule.head_of_vtPastDeadline? (Option.mem_toList.1 hx)).kind]
    decide
  rw [examine, List.filter_append, hpast, List.append_nil]
  cases Rule.rateMismatch? σ s time tid value <;> rfl

theorem vtRate_mem_invariants_iff {event : Event} :
    .vtRate ∈ event.invariants policy ↔
      ∃ tid value bandwidth, event = .virtualTimeUpdate tid value bandwidth := by
  cases event <;> cases policy <;> simp [Event.invariants, Policy.frequencyInvariant?]

/-- **A violation of the rate and a diagnosis come together or not at all.** -/
theorem ofOneMismatch_examine {entries : Trace} {k : Nat} {e : Entry} (he : entries[k]? = some e)
    (policy : Policy) (h : History) :
    Forall₂ (entries.OfOneMismatch σ)
      ((examine σ policy (Schedule.before σ entries k) e).filter (·.kind == .vtRate))
      (diagnose? σ (Schedule.before σ entries k) h e).toList := by
  by_cases hsample : ∃ tid value bandwidth, e.event = .virtualTimeUpdate tid value bandwidth
  · obtain ⟨time, event⟩ := e
    obtain ⟨tid, value, bandwidth, rfl⟩ := hsample
    simp only [filter_vtRate_examine, diagnose?]
    cases hm : Rule.rateMismatch? σ (Schedule.before σ entries k) time tid value with
    | none => exact .nil
    | some m =>
      obtain rfl := Rule.tid_of_rateMismatch? hm
      exact .cons ⟨k, value, bandwidth, m, he, hm, toldBy_text ..⟩ .nil
  · -- No other entry is held against the rule, and none asks for a diagnosis.
    have hquiet : diagnose? σ (Schedule.before σ entries k) h e = none := by
      rw [diagnose?]
      split
      · next tid value bandwidth hevent => exact absurd ⟨tid, value, bandwidth, hevent⟩ hsample
      · rfl
    rw [filter_examine_eq_nil fun h => hsample (vtRate_mem_invariants_iff.1 h), hquiet]
    exact .nil

end Entry

/-! ## Whole traces -/

namespace Audit

variable {platform : Platform} {tasks : List Task} {policy : Policy} {diagnoses : Bool}
  {entries : Trace} {k : Nat} {e : Entry}

theorem diagnoses_before_succ (he : entries[k]? = some e) :
    (before platform tasks policy diagnoses entries (k + 1)).report.diagnoses =
      (before platform tasks policy diagnoses entries k).report.diagnoses ++
        (if diagnoses then
          diagnose? (.ofTrace platform tasks entries)
            (Schedule.before (.ofTrace platform tasks entries) entries k)
            ((before platform tasks policy diagnoses entries k).history.record e) e
        else none).toList := by
  rw [before_succ he, ← @schedule_before platform tasks policy diagnoses]
  rfl

/-- Without being asked, an audit writes no diagnosis. -/
theorem diagnoses_before_unwanted (hk : k ≤ entries.length) :
    (before platform tasks policy false entries k).report.diagnoses = [] := by
  induction k with
  | zero => rfl
  | succ k ih =>
    rw [diagnoses_before_succ (List.getElem?_eq_getElem hk), ih (Nat.le_of_succ_le hk)]
    rfl

/-- So far each violation of the rate has its diagnosis. -/
theorem ofOneMismatch_before (hk : k ≤ entries.length) :
    Forall₂ (entries.OfOneMismatch (.ofTrace platform tasks entries))
      ((before platform tasks policy true entries k).report.ofKind .vtRate)
      (before platform tasks policy true entries k).report.diagnoses := by
  induction k with
  | zero => exact .nil
  | succ k ih =>
    have he : entries[k]? = some entries[k] := List.getElem?_eq_getElem hk
    rw [Report.ofKind, violations_before_succ he, List.filter_append, diagnoses_before_succ he,
      if_pos rfl]
    exact List.rel_append (ih (Nat.le_of_succ_le hk)) (ofOneMismatch_examine he policy _)

end Audit

/-- **Diagnoses only watch.** Whether they are wanted or not, the same violations are found. Nothing is
written where they are not wanted; where they are, each violation of the rate has its diagnosis, in
the same order, and the two give an account of one mismatch. -/
theorem diagnoses_only_watch (platform : Platform) (tasks : List Task) (policy : Policy)
    (entries : Trace) :
    let report (diagnoses : Bool) := Report.ofTrace platform tasks policy diagnoses entries
    (report true).violations = (report false).violations ∧
      (report false).diagnoses = [] ∧
      Forall₂ (entries.OfOneMismatch (.ofTrace platform tasks entries)) ((report true).ofKind .vtRate)
        (report true).diagnoses := by
  intro report
  refine ⟨?_, ?_, ?_⟩
  · simp only [report, Audit.violations_eq_findings]
  · simp only [report, Audit.report_ofTrace]
    exact Audit.diagnoses_before_unwanted (Nat.le_refl _)
  · simp only [report, Audit.report_ofTrace]
    exact Audit.ofOneMismatch_before (Nat.le_refl _)

end SchedAudit

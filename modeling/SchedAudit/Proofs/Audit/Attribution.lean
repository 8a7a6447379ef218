import SchedAudit.Proofs.Audit.Entries
import SchedAudit.Proofs.Audit.Heads

/-!
# Where violations come from

A report is one list, and nothing in it is anonymous. It is what the entries add, in the order of the
trace, and what an entry can add is known from its event (`Attributed`): violations of the invariants
that the event is held against, at the time of the entry and by its task.

* Each of these invariants comes at most once and in a fixed order, except where a task is scheduled:
  every server that should run first is a violation of its own.
* The policy of a run decides which frequency rule there is, and nothing else. Without the frequency
  rules all policies find what the one finds that has none (`filter_isFrequency_examine`), so the five
  invariants that concern every policy are broken alike under all of them (`common_ofTrace`).
-/

namespace SchedAudit

/-- What an entry may add to the report on a run of a policy. -/
structure Attributed (policy : Policy) (e : Entry) (found : List Violation) : Prop where
  /-- each violation is of an invariant that the event is held against, and names time and task of the
  entry -/
  head : ∀ x ∈ found, ∃ kind ∈ e.event.invariants policy, x.HasHead kind e.time e.event.task?
  /-- unless a task is scheduled, no invariant comes twice or out of order -/
  once : (∀ tid cpu, e.event ≠ .taskScheduled tid cpu) →
    (found.map (·.kind)).Sublist (e.event.invariants policy)

/-- The violations of the invariants that concern every policy. -/
def Report.common (r : Report) : List Violation := r.violations.filter fun x => !x.kind.isFrequency

variable {σ : Setting} {policy : Policy} {s : Schedule} {e : Entry} {x : Violation}

/-! ## Events and policies -/

/-- An event is held against invariants that concern the policy of the run. -/
theorem Event.appliesTo_of_mem_invariants {event : Event} {kind : Invariant}
    (h : kind ∈ event.invariants policy) : kind.appliesTo policy = true := by
  cases event with
  | jobFinished | servBudgetReplenished | taskScheduled =>
    obtain rfl := List.mem_singleton.1 h
    rfl
  | virtualTimeUpdate =>
    rcases List.mem_pair.1 h with rfl | rfl <;> rfl
  | frequencyUpdate =>
    have hkind : policy.frequencyInvariant? = some kind := Option.mem_toList.1 h
    simp [Invariant.appliesTo, hkind]
  | _ => cases h

theorem isFrequency_of_mem_examine_grub (h : x ∈ examine σ .grub s e) :
    x.kind.isFrequency = false := by
  obtain ⟨kind, hkind, hhead⟩ := head_of_mem_examine h
  have happlies := Event.appliesTo_of_mem_invariants hkind
  rw [hhead.kind]
  simpa [Invariant.appliesTo, Policy.frequencyInvariant?] using happlies

theorem isFrequency_of_frequencyInvariant? {kind : Invariant}
    (h : policy.frequencyInvariant? = some kind) : kind.isFrequency = true := by
  cases policy with
  | grub => cases h
  | pa | ffa | csf =>
    obtain rfl := Option.some.inj h
    rfl

theorem examine_eq_grub (h : ∀ c frequency, e.event ≠ .frequencyUpdate c frequency) :
    examine σ policy s e = examine σ .grub s e := by
  obtain ⟨time, event⟩ := e
  cases event with
  | frequencyUpdate c frequency => exact absurd rfl (h c frequency)
  | _ => rfl

/-- **A policy decides about frequencies alone.** Apart from them, an entry shows under every policy
what it shows under the one without a frequency rule. -/
theorem filter_isFrequency_examine (σ : Setting) (policy : Policy) (s : Schedule) (e : Entry) :
    (examine σ policy s e).filter (fun x => !x.kind.isFrequency) = examine σ .grub s e := by
  by_cases hclock : ∃ c frequency, e.event = .frequencyUpdate c frequency
  · -- All that the entry shows is of the frequency rule of the policy.
    obtain ⟨time, event⟩ := e
    obtain ⟨c, frequency, rfl⟩ := hclock
    refine List.filter_eq_nil_iff.2 fun x hx => ?_
    obtain ⟨kind, hkind, hhead⟩ := head_of_mem_examine hx
    rw [hhead.kind, isFrequency_of_frequencyInvariant? (Option.mem_toList.1 hkind)]
    exact Bool.noConfusion
  · -- The policy is not looked at.
    rw [examine_eq_grub fun c frequency h => hclock ⟨c, frequency, h⟩]
    refine List.filter_eq_self.2 fun x hx => ?_
    rw [isFrequency_of_mem_examine_grub hx]
    rfl

/-! ## The violations of one entry -/

/-- A rule that answers at most once. -/
theorem sublist_kinds_toList {found : Option Violation} {kind : Invariant}
    (h : ∀ x, found = some x → x.kind = kind) : (found.toList.map (·.kind)).Sublist [kind] := by
  cases found with
  | none => exact List.nil_sublist _
  | some x =>
    rw [Option.toList_some, List.map_singleton, h x rfl]

theorem sublist_kinds_examine (h : ∀ tid cpu, e.event ≠ .taskScheduled tid cpu) :
    ((examine σ policy s e).map (·.kind)).Sublist (e.event.invariants policy) := by
  obtain ⟨time, event⟩ := e
  cases event with
  | jobFinished tid =>
    exact sublist_kinds_toList fun x hx => (Rule.head_of_deadlineMiss? hx).kind
  | virtualTimeUpdate tid value bandwidth =>
    rw [examine, List.map_append]
    refine (@sublist_kinds_toList _ .vtRate fun x hx => ?_).append
      (sublist_kinds_toList fun x hx => (Rule.head_of_vtPastDeadline? hx).kind)
    obtain ⟨m, -, rfl⟩ := Option.map_eq_some_iff.1 hx
    rfl
  | servBudgetReplenished tid budget =>
    exact sublist_kinds_toList fun x hx => (Rule.head_of_budgetMismatch? hx).kind
  | frequencyUpdate c frequency =>
    cases hkind : policy.frequencyInvariant? with
    | none =>
      simp only [examine, hkind]
      exact List.nil_sublist _
    | some kind =>
      simp only [examine, Event.invariants, hkind]
      exact sublist_kinds_toList fun x hx => (Rule.head_of_frequencyMismatch? hx).kind
  | taskScheduled tid cpu => exact absurd rfl (h tid cpu)
  | _ => exact List.nil_sublist _

theorem attributed_examine (σ : Setting) (policy : Policy) (s : Schedule) (e : Entry) :
    Attributed policy e (examine σ policy s e) where
  head := fun _ => head_of_mem_examine
  once := sublist_kinds_examine

/-! ## Whole traces -/

variable (platform : Platform) (tasks : List Task) (policy : Policy) (diagnoses : Bool)
  (entries : Trace)

/-- Under every policy the common invariants are broken as under the one that has no other. -/
theorem common_ofTrace :
    (Report.ofTrace platform tasks policy diagnoses entries).common =
      (Report.ofTrace platform tasks .grub diagnoses entries).violations := by
  rw [Report.common, Audit.violations_ofTrace, Audit.violations_ofTrace, List.filter_flatMap]
  refine List.flatMap_congr fun k hk => ?_
  have hlt : k < entries.length := List.mem_range.1 hk
  have he : entries[k]? = some entries[k] := List.getElem?_eq_getElem hlt
  rw [Audit.appended_eq he, Audit.appended_eq he, filter_isFrequency_examine]

/-- **Every violation is attributed.** The report is what the entries add, one after the other, and
each adds only what its event is answerable for. So it names no invariant that does not concern the
policy, and what concerns all policies is broken alike under any two of them. -/
theorem violations_attributed :
    let report (policy : Policy) := Report.ofTrace platform tasks policy diagnoses entries
    let added := Audit.appended platform tasks policy diagnoses entries
    (report policy).violations = (List.range entries.length).flatMap added ∧
      (∀ k e, entries[k]? = some e → Attributed policy e (added k)) ∧
      (∀ x ∈ (report policy).violations, x.kind.appliesTo policy = true) ∧
      ∀ other, (report policy).common = (report other).common := by
  intro report added
  have hadded : ∀ k e, entries[k]? = some e → Attributed policy e (added k) := by
    intro k e he
    simp only [added, Audit.appended_eq he]
    exact attributed_examine _ policy _ e
  have hreport : (report policy).violations = (List.range entries.length).flatMap added :=
    Audit.violations_ofTrace platform tasks policy diagnoses entries
  refine ⟨hreport, hadded, fun x hx => ?_, fun other => ?_⟩
  · -- The violation was added by some entry, and names an invariant of its event.
    rw [hreport, List.mem_flatMap] at hx
    obtain ⟨k, hk, hx⟩ := hx
    have hlt : k < entries.length := List.mem_range.1 hk
    obtain ⟨kind, hkind, hhead⟩ := (hadded k _ (List.getElem?_eq_getElem hlt)).head x hx
    rw [hhead.kind]
    exact Event.appliesTo_of_mem_invariants hkind
  · rw [common_ofTrace platform tasks policy, common_ofTrace platform tasks other]

end SchedAudit

import SchedAudit.Proofs.Audit.Entries
import SchedAudit.Proofs.Binary64.Sorting
import SchedAudit.Proofs.Table

/-!
# Known arrivals

A setting keeps the known arrivals of a task in order and looks at the last one only. That is as good
as looking at all of them (`hasFutureJob_ofTrace_iff`), as long as they are numbers: an arrival that
is not a number would stand at an end of the list and hide the others.

What is kept is a normal form of the known arrivals. So it matters neither in which order a trace
shows them nor whether the declared ones name them too, and to join a trace twice is to join it once
(`arrivals_settled`).
-/

namespace SchedAudit

/-- The time of an entry, if it is the arrival of a job of the task. -/
def Entry.arrivalOf? (tid : Nat) (e : Entry) : Option Float :=
  match e.event with
  | .jobArrival tid' => if tid' = tid then some e.time else none
  | _ => none

theorem Entry.arrivalOf?_of_task?_ne {e : Entry} {tid : Nat} (h : e.event.task? ≠ some tid) :
    e.arrivalOf? tid = none := by
  obtain ⟨time, event⟩ := e
  cases event <;> first | rfl | exact if_neg fun heq => h (congrArg some heq)

/-- The arrivals of a task that are known during the audit of a trace: those of the last declaration
of the task, and those that the trace shows anywhere. -/
def knownArrivals (tasks : List Task) (entries : Trace) (tid : Nat) : List Float :=
  ((tasks.reverse.find? (·.id == tid)).map (·.arrivals)).getD [] ++
    entries.filterMap (Entry.arrivalOf? tid)

namespace Setting

/-- The arrivals of a task in a table of arrivals. -/
def timesIn (arrivals : Table (List Float)) (tid : Nat) : List Float :=
  (arrivals.find? tid).getD []

theorem find?_addArrival (arrivals : Table (List Float)) (e : Entry) (tid : Nat) :
    (addArrival arrivals e).find? tid =
      ((Entry.arrivalOf? tid e).map (· :: timesIn arrivals tid)).or (arrivals.find? tid) := by
  obtain ⟨time, event⟩ := e
  cases event with
  | jobArrival tid' =>
    change (arrivals.insert tid' _).find? tid = _
    rw [Table.find?_insert, Entry.arrivalOf?]
    by_cases h : tid' = tid
    · subst h
      simp [timesIn]
    · simp [h, Ne.symm h]
  | _ => rfl

/-- The arrivals of a task in a trace are added one by one, and no others to its list. -/
theorem find?_foldl_addArrival (arrivals : Table (List Float)) (entries : Trace) (tid : Nat) :
    (entries.foldl addArrival arrivals).find? tid =
      (entries.filterMap (Entry.arrivalOf? tid)).foldl (fun times a => some (a :: times.getD []))
        (arrivals.find? tid) := by
  induction entries generalizing arrivals with
  | nil => rfl
  | cons e entries ih =>
    rw [List.foldl_cons, ih, find?_addArrival, List.filterMap_cons]
    cases Entry.arrivalOf? tid e <;> rfl

theorem timesIn_addArrival (arrivals : Table (List Float)) (e : Entry) (tid : Nat) :
    timesIn (addArrival arrivals e) tid =
      (Entry.arrivalOf? tid e).toList ++ timesIn arrivals tid := by
  rw [timesIn, find?_addArrival]
  cases Entry.arrivalOf? tid e <;> rfl

theorem mem_timesIn_foldl {entries : Trace} {tid : Nat} {a : Float}
    (arrivals : Table (List Float)) :
    a ∈ timesIn (entries.foldl addArrival arrivals) tid ↔
      a ∈ timesIn arrivals tid ∨ a ∈ entries.filterMap (Entry.arrivalOf? tid) := by
  induction entries generalizing arrivals with
  | nil => simp
  | cons e entries ih =>
    rw [List.foldl_cons, ih, timesIn_addArrival, List.mem_append, Option.mem_toList,
      List.mem_filterMap, List.mem_filterMap]
    simp only [List.mem_cons, exists_eq_or_imp]
    tauto

theorem timesIn_ofTasks (platform : Platform) (tasks : List Task) (tid : Nat) :
    timesIn (ofTasks platform tasks).arrivals tid =
      ((tasks.reverse.find? (·.id == tid)).map (·.arrivals)).getD [] := by
  rw [timesIn, ofTasks, Table.find?_ofList_map]

/-- The times that a setting puts in order are the known arrivals. -/
theorem mem_times_iff (platform : Platform) {tasks : List Task} {entries : Trace} {tid : Nat}
    {a : Float} :
    a ∈ timesIn (entries.foldl addArrival (ofTasks platform tasks).arrivals) tid ↔
      a ∈ knownArrivals tasks entries tid := by
  rw [mem_timesIn_foldl, timesIn_ofTasks, knownArrivals, List.mem_append]

/-- The arrivals of each task, once all are added, are brought to their normal form. -/
theorem arrivals_joinArrivals (σ : Setting) (entries : Trace) :
    (σ.joinArrivals entries).arrivals =
      (entries.foldl addArrival σ.arrivals).map fun _ => Binary64.distinct :=
  rfl

theorem timesIn_joinArrivals (σ : Setting) (entries : Trace) (tid : Nat) :
    timesIn (σ.joinArrivals entries).arrivals tid =
      Binary64.distinct (timesIn (entries.foldl addArrival σ.arrivals) tid) := by
  rw [arrivals_joinArrivals, timesIn, Table.find?_map, timesIn]
  cases (entries.foldl addArrival σ.arrivals).find? tid with
  | none => exact Binary64.distinct_nil.symm
  | some times => rfl

/-- A task without a list of arrivals is as good as one with an empty list. -/
theorem hasFutureJob_iff {σ : Setting} {tid : Nat} {after : Float} :
    σ.hasFutureJob tid after = true ↔
      ∃ last, (timesIn σ.arrivals tid).getLast? = some last ∧
        after + Tolerance.futureArrival < last := by
  rw [hasFutureJob, timesIn]
  cases σ.arrivals.find? tid with
  | none => simp
  | some times =>
    rw [Option.bind_some, Option.getD_some]
    cases times.getLast? <;> simp

/-- **A task has a job to come** just in case one of its known arrivals is late enough. -/
theorem hasFutureJob_ofTrace_iff {platform : Platform} {tasks : List Task} {entries : Trace}
    {tid : Nat} (hnum : ∀ a ∈ knownArrivals tasks entries tid, a.isNaN = false) (after : Float) :
    (ofTrace platform tasks entries).hasFutureJob tid after = true ↔
      ∃ a ∈ knownArrivals tasks entries tid, after + Tolerance.futureArrival < a := by
  rw [hasFutureJob_iff, ofTrace, timesIn_joinArrivals, Binary64.exists_getLast?_gt_iff
    fun a ha => hnum a ((mem_times_iff platform).1 ha)]
  simp only [mem_times_iff]

theorem hasFutureJob_ofTrace_eq_false_iff {platform : Platform} {tasks : List Task}
    {entries : Trace} {tid : Nat} (hnum : ∀ a ∈ knownArrivals tasks entries tid, a.isNaN = false)
    (after : Float) :
    (ofTrace platform tasks entries).hasFutureJob tid after = false ↔
      ∀ a ∈ knownArrivals tasks entries tid, ¬after + Tolerance.futureArrival < a := by
  rw [← Bool.not_eq_true, hasFutureJob_ofTrace_iff hnum]
  simp only [not_exists, not_and]

/-- Nothing but numbers in tasks and trace makes all known arrivals numbers. -/
theorem isNaN_knownArrivals {tasks : List Task} {entries : Trace}
    (htasks : ∀ task ∈ tasks, ∀ a ∈ task.arrivals, a.isNaN = false)
    (htimes : ∀ e ∈ entries, e.time.isNaN = false) (tid : Nat) :
    ∀ a ∈ knownArrivals tasks entries tid, a.isNaN = false := by
  intro a ha
  rcases List.mem_append.1 ha with ha | ha
  · cases htask : tasks.reverse.find? (·.id == tid) with
    | none =>
      rw [htask] at ha
      cases ha
    | some task =>
      rw [htask] at ha
      exact htasks task (List.mem_reverse.1 (List.mem_of_find?_eq_some htask)) a ha
  · obtain ⟨e, he, harrival⟩ := List.mem_filterMap.1 ha
    rw [Entry.arrivalOf?] at harrival
    split at harrival
    · split_ifs at harrival
      cases harrival
      exact htimes e he
    · cases harrival

/-! ## The normal form of arrivals -/

/-- A task has a list of arrivals if it had one before, or if some entry adds one. -/
theorem isSome_find?_foldl_addArrival (arrivals : Table (List Float)) (entries : Trace) (tid : Nat) :
    ((entries.foldl addArrival arrivals).find? tid).isSome =
      ((arrivals.find? tid).isSome || entries.any fun e => (e.arrivalOf? tid).isSome) := by
  induction entries generalizing arrivals with
  | nil => rw [List.foldl_nil, List.any_nil, Bool.or_false]
  | cons e entries ih =>
    rw [List.foldl_cons, ih, find?_addArrival, Option.isSome_or, Option.isSome_map, List.any_cons,
      Bool.or_assoc, Bool.or_left_comm]

/-- Tables that hold the same numbers for each task come to the same normal form, even if some lack
what the normal form leaves out. -/
theorem map_distinct_eq {t u : Table (List Float)}
    (hsome : ∀ tid, (u.find? tid).isSome = (t.find? tid).isSome)
    (hnum : ∀ tid, ∀ a ∈ timesIn t tid, a.isNaN = false)
    (hkept : ∀ tid, Binary64.distinct (timesIn t tid) ⊆ timesIn u tid)
    (hsub : ∀ tid, timesIn u tid ⊆ timesIn t tid) :
    (u.map fun _ => Binary64.distinct) = t.map fun _ => Binary64.distinct := by
  refine Table.ext_find? fun tid => ?_
  have hsame := hsome tid
  have hdistinct := Binary64.distinct_eq_of_subset (hnum tid) (hkept tid) (hsub tid)
  rw [timesIn, timesIn] at hdistinct
  rw [Table.find?_map, Table.find?_map]
  cases ht : t.find? tid with
  | none =>
    rw [ht, Option.isSome_none, Option.isSome_eq_false_iff, Option.isNone_iff_eq_none] at hsame
    rw [hsame]
  | some times =>
    rw [ht, Option.isSome_some, Option.isSome_iff_exists] at hsame
    obtain ⟨times', hu⟩ := hsame
    rw [ht, hu] at hdistinct
    rw [hu]
    exact congrArg some hdistinct

section Joining

variable {σ : Setting} {entries entries' : Trace}

variable (hnum : ∀ tid, ∀ a ∈ timesIn (entries.foldl addArrival σ.arrivals) tid, a.isNaN = false)

include hnum

/-- The order of a trace does not matter. -/
theorem joinArrivals_eq_of_perm (hperm : entries'.Perm entries) :
    σ.joinArrivals entries' = σ.joinArrivals entries := by
  have hmem (tid : Nat) (a : Float) : a ∈ timesIn (entries'.foldl addArrival σ.arrivals) tid ↔
      a ∈ timesIn (entries.foldl addArrival σ.arrivals) tid := by
    rw [mem_timesIn_foldl, mem_timesIn_foldl, (hperm.filterMap _).mem_iff]
  have harrivals : (σ.joinArrivals entries').arrivals = (σ.joinArrivals entries).arrivals := by
    refine map_distinct_eq (fun tid => ?_) hnum (fun tid a ha => ?_) fun tid a => (hmem tid a).1
    · rw [isSome_find?_foldl_addArrival, isSome_find?_foldl_addArrival, hperm.any_eq]
    · exact (hmem tid a).2 (Binary64.mem_of_mem_distinct ha)
  exact congrArg (fun arrivals => { σ with arrivals := arrivals }) harrivals

/-- To join a trace a second time changes nothing. -/
theorem joinArrivals_joinArrivals :
    (σ.joinArrivals entries).joinArrivals entries = σ.joinArrivals entries := by
  have harrivals : ((σ.joinArrivals entries).joinArrivals entries).arrivals =
      (σ.joinArrivals entries).arrivals := by
    refine map_distinct_eq (fun tid => ?_) hnum (fun tid a ha => ?_) fun tid a ha => ?_
    · rw [isSome_find?_foldl_addArrival, arrivals_joinArrivals, Table.find?_map, Option.isSome_map,
        isSome_find?_foldl_addArrival, Bool.or_assoc, Bool.or_self]
    · exact (mem_timesIn_foldl _).2 (.inl (timesIn_joinArrivals σ entries tid ▸ ha))
    · -- What is there the second time was kept, or is added by the trace once more.
      rw [mem_timesIn_foldl, timesIn_joinArrivals] at ha
      rcases ha with ha | ha
      · exact Binary64.mem_of_mem_distinct ha
      · exact (mem_timesIn_foldl _).2 (.inr ha)
  exact congrArg (fun arrivals => { σ with arrivals := arrivals }) harrivals

end Joining

/-- **Known arrivals.** A job of a task is known to come just in case one of its known arrivals is
late enough, be it declared or shown by the trace. The arrivals that are kept ascend strictly,
whatever the order of the entries, and joining the trace a second time changes nothing at all. -/
theorem arrivals_settled (platform : Platform) {tasks : List Task} {entries : Trace}
    (htasks : ∀ task ∈ tasks, ∀ a ∈ task.arrivals, a.isNaN = false)
    (htimes : ∀ e ∈ entries, e.time.isNaN = false) :
    let σ := ofTrace platform tasks entries
    (∀ tid after, σ.hasFutureJob tid after = true ↔
      ∃ a ∈ knownArrivals tasks entries tid, after + Tolerance.futureArrival < a) ∧
    (∀ tid times, σ.arrivals.find? tid = some times → times.Pairwise (· < ·)) ∧
    (∀ entries' : Trace, entries'.Perm entries → ofTrace platform tasks entries' = σ) ∧
    σ.joinArrivals entries = σ := by
  intro σ
  have hknown := isNaN_knownArrivals htasks htimes
  have hnum : ∀ tid, ∀ a ∈ timesIn (entries.foldl addArrival (ofTasks platform tasks).arrivals) tid,
      a.isNaN = false :=
    fun tid a ha => hknown tid a ((mem_times_iff platform).1 ha)
  refine ⟨fun tid after => hasFutureJob_ofTrace_iff (hknown tid) after, fun tid times h => ?_,
    fun entries' hperm => joinArrivals_eq_of_perm hnum hperm, joinArrivals_joinArrivals hnum⟩
  have hfound : ((ofTrace platform tasks entries).arrivals.find? tid) = some times := h
  rw [ofTrace, arrivals_joinArrivals, Table.find?_map, Option.map_eq_some_iff] at hfound
  obtain ⟨added, hadded, rfl⟩ := hfound
  have htimesIn : timesIn (entries.foldl addArrival (ofTasks platform tasks).arrivals) tid = added := by
    rw [timesIn, hadded]
    rfl
  exact Binary64.pairwise_lt_distinct (htimesIn ▸ hnum tid)

/-- A task that is declared twice, with its arrivals in no order, and both zeros among them. -/
def redeclaredTasks : List Task := [⟨1, 0.5, 10.0, [40.0]⟩, ⟨1, 0.5, 10.0, [20.0, 0.0, 20.0]⟩]

/-- Arrivals of that task and of one that is not declared, the later one first. -/
def arrivingTrace : Trace := [⟨5.0, .jobArrival 2⟩, ⟨10.0, .jobArrival 1⟩, ⟨-0.0, .jobArrival 1⟩]

theorem arrivals_settled_arrivingTrace :
    let σ := ofTrace .twin redeclaredTasks arrivingTrace
    (∀ task ∈ redeclaredTasks, ∀ a ∈ task.arrivals, a.isNaN = false) ∧
      (∀ e ∈ arrivingTrace, e.time.isNaN = false) ∧
      σ.hasFutureJob 1 15.0 = true ∧ ¬σ.hasFutureJob 1 30.0 = true ∧
      (∀ times, σ.arrivals.find? 1 = some times → times.Pairwise (· < ·)) ∧
      ofTrace .twin redeclaredTasks arrivingTrace.reverse = σ ∧ σ.joinArrivals arrivingTrace = σ := by
  intro σ
  have htasks : ∀ task ∈ redeclaredTasks, ∀ a ∈ task.arrivals, a.isNaN = false := by
    simp only [redeclaredTasks, List.forall_mem_cons]
    decide
  have htimes : ∀ e ∈ arrivingTrace, e.time.isNaN = false := by
    simp only [arrivingTrace, List.forall_mem_cons]
    decide
  obtain ⟨hfuture, hascending, horder, hagain⟩ := arrivals_settled .twin htasks htimes
  refine ⟨htasks, htimes, (hfuture 1 15.0).2 ⟨20.0, ?_, by decide⟩, fun h => ?_, hascending 1,
    horder _ (List.reverse_perm _), hagain⟩
  · exact List.mem_cons_self
  · -- The last declaration counts, so nothing is known of an arrival at forty.
    have hearly : ∀ a ∈ knownArrivals redeclaredTasks arrivingTrace 1,
        ¬30.0 + Tolerance.futureArrival < a := by
      change ∀ a ∈ [20.0, 0.0, 20.0, 10.0, -0.0], _
      simp only [List.forall_mem_cons]
      decide
    obtain ⟨a, ha, hlate⟩ := (hfuture 1 30.0).1 h
    exact hearly a ha hlate

end Setting

end SchedAudit

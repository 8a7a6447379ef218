import SchedAudit.Proofs.Audit.Attribution
import SchedAudit.Proofs.Audit.Locality
import SchedAudit.Proofs.Schedule.Membership

/-!
# One trace after another

Let two traces have no task in common, and let no server be attached when the first one ends. Then the
second one is audited as if nothing had been before (`violations_append`), even on the same clusters.
The schedule is full of what the first trace left behind: servers, placements and watermarks are all
still there, and both traces have added to the known arrivals. But a rule on a task asks only for that
task and for the servers attached beside it (`Schedule.SameAmong`), and the servers that are left
behind cannot attach any more. The frequency rules are another matter, because a watermark stays.
-/

namespace SchedAudit

/-- The tasks that a trace names. -/
def Trace.named (entries : Trace) : List Nat := entries.filterMap (·.event.task?)

/-- An event that names a task of `A`, or no task at all. -/
def Event.NamesOnly (A : Set Nat) (event : Event) : Prop :=
  ∀ tid, event.task? = some tid → tid ∈ A

variable {A : Set Nat} {σ τ : Setting} {s t : Schedule} {e : Entry} {tid : Nat} {x y : Trace}

/-! ## Tasks that a trace does not name -/

namespace Trace

theorem mem_named_iff : tid ∈ x.named ↔ ∃ e ∈ x, e.event.task? = some tid := List.mem_filterMap

theorem about_eq_nil (h : tid ∉ x.named) : x.about tid = [] := by
  refine List.filter_eq_nil_iff.2 fun e he htask => h ?_
  rw [beq_iff_eq] at htask
  exact mem_named_iff.2 ⟨e, he, htask⟩

theorem filterMap_arrivalOf?_eq_nil (h : tid ∉ x.named) :
    x.filterMap (Entry.arrivalOf? tid) = [] := by
  refine List.filterMap_eq_nil_iff.2 fun e he => ?_
  exact Entry.arrivalOf?_of_task?_ne fun htask => h (mem_named_iff.2 ⟨e, he, htask⟩)

end Trace

namespace Setting

variable (platform : Platform) (tasks : List Task)

/-- The arrivals of the second trace do not concern the tasks of the first. -/
theorem agree_append_left (x y : Trace) :
    Agree {tid | tid ∉ y.named} (ofTrace platform tasks (x ++ y)) (ofTrace platform tasks x) := by
  refine agree_ofTrace platform tasks fun tid htid => ?_
  rw [List.filterMap_append, Trace.filterMap_arrivalOf?_eq_nil htid, List.append_nil]

/-- The arrivals of the first trace do not concern the tasks of the second. -/
theorem agree_append_right (x y : Trace) :
    Agree {tid | tid ∉ x.named} (ofTrace platform tasks (x ++ y)) (ofTrace platform tasks y) := by
  refine agree_ofTrace platform tasks fun tid htid => ?_
  rw [List.filterMap_append, Trace.filterMap_arrivalOf?_eq_nil htid, List.nil_append]

end Setting

namespace Schedule

/-- A task that a trace does not name is neither placed nor given a server. -/
theorem untouched_of_not_named (σ : Setting) (h : tid ∉ x.named) :
    (after σ {} x).server? tid = none ∧ (after σ {} x).placement? tid = none := by
  have hσ : σ.Agree {tid} σ := ⟨rfl, rfl, fun _ _ _ => rfl⟩
  have hstart : Alike tid {} {} := ⟨keyed_start, keyed_start, rfl, rfl⟩
  have halike : Alike tid (after σ {} x) (after σ {} (x.about tid)) := hstart.after hσ
  rw [Trace.about_eq_nil h, after_nil] at halike
  exact ⟨Option.map_eq_none_iff.1 halike.server, halike.placement⟩

/-! ## Schedules that are the same among some tasks -/

/-- Two schedules with the same servers and placements of the tasks of `A`. There may be other servers,
but none of them is attached. -/
structure SameAmong (A : Set Nat) (s t : Schedule) : Prop where
  left : s.Keyed
  right : t.Keyed
  servers : ∀ tid ∈ A, s.server? tid = t.server? tid
  placements : ∀ tid ∈ A, s.placement? tid = t.placement? tid
  aloneLeft : ∀ tid, s.IsAttached tid → tid ∈ A
  aloneRight : ∀ tid, t.IsAttached tid → tid ∈ A

theorem not_isAttached_start : ¬({} : Schedule).IsAttached tid := by
  rintro ⟨v, hv, -⟩
  cases hv

theorem sameAmong_start (A : Set Nat) : SameAmong A {} {} where
  left := keyed_start
  right := keyed_start
  servers := fun _ _ => rfl
  placements := fun _ _ => rfl
  aloneLeft := fun _ hattached => absurd hattached not_isAttached_start
  aloneRight := fun _ hattached => absurd hattached not_isAttached_start

/-- Only a task that an entry names can attach. -/
theorem isAttached_of_advance (hs : s.Keyed) (hnames : e.event.NamesOnly A)
    (halone : ∀ tid, s.IsAttached tid → tid ∈ A) (h : (s.advance σ e).IsAttached tid) : tid ∈ A := by
  rcases (isAttached_advance_iff hs).1 h with hready | ⟨hattached, -⟩
  · exact hnames tid hready.task?
  · exact halone tid hattached

namespace SameAmong

theorem symm (h : SameAmong A s t) : SameAmong A t s where
  left := h.right
  right := h.left
  servers := fun tid htid => (h.servers tid htid).symm
  placements := fun tid htid => (h.placements tid htid).symm
  aloneLeft := h.aloneRight
  aloneRight := h.aloneLeft

/-! ### The view of a task -/

/-- An attached server that is placed on a cluster is so in the other schedule, too. -/
theorem attached_placed (h : SameAmong A s t) {c : Nat} {v : Server}
    (hv : s.server? tid = some v) (hon : (v.attached && s.placement? v.tid == some c) = true) :
    t.server? tid = some v ∧ (v.attached && t.placement? v.tid == some c) = true := by
  obtain ⟨hattached, -⟩ := Bool.and_eq_true_iff.1 hon
  have htid : tid ∈ A := h.aloneLeft tid ⟨v, hv, hattached⟩
  refine ⟨(h.servers tid htid).symm.trans hv, ?_⟩
  rw [h.left tid v hv] at hon ⊢
  rwa [← h.placements tid htid]

theorem attachedOn_eq (h : SameAmong A s t) (c : Nat) : s.attachedOn c = t.attachedOn c := by
  rw [attachedOn, attachedOn, serversOn, serversOn, List.filter_filter, List.filter_filter]
  refine Table.filter_values_congr fun tid v => ?_
  constructor
  · rintro ⟨hv, hon⟩
    exact h.attached_placed hv hon
  · rintro ⟨hv, hon⟩
    exact h.symm.attached_placed hv hon

theorem sameView (h : SameAmong A s t) (htid : tid ∈ A) : SameView tid s t where
  server := h.servers tid htid
  placement := h.placements tid htid
  attached := fun c _ => h.attachedOn_eq c

/-! ### Entries that name tasks of `A` only -/

theorem announced?_eq (hσ : σ.Agree A τ) (h : SameAmong A s t)
    (hnames : e.event.NamesOnly A) : s.announced? σ e = t.announced? τ e := by
  cases htask : e.event.task? with
  | some tid =>
    have htid : tid ∈ A := hnames tid htask
    exact announced?_congr_of_task? hσ htid htask (h.servers tid htid) (h.placements tid htid)
  | none =>
    -- Nothing is announced without a task.
    obtain ⟨time, event⟩ := e
    cases event <;> first | rfl | cases htask

theorem advance (hσ : σ.Agree A τ) (h : SameAmong A s t)
    (hnames : e.event.NamesOnly A) :
    SameAmong A (s.advance σ e) (t.advance τ e) where
  left := keyed_advance h.left e
  right := keyed_advance h.right e
  servers := by
    intro tid htid
    exact server?_advance_congr hσ htid h.left h.right (announced?_eq hσ h hnames)
      (h.servers tid htid) (h.placements tid htid)
  placements := by
    intro tid htid
    rw [placement?_advance, placement?_advance, h.placements tid htid]
  aloneLeft := fun _ => isAttached_of_advance h.left hnames h.aloneLeft
  aloneRight := fun _ => isAttached_of_advance h.right hnames h.aloneRight

theorem after (hσ : σ.Agree A τ) (h : SameAmong A s t) {entries : Trace}
    (hnames : ∀ e ∈ entries, e.event.NamesOnly A) :
    SameAmong A (s.after σ entries) (t.after τ entries) := by
  induction entries generalizing s t with
  | nil => exact h
  | cons e entries ih =>
    obtain ⟨hfirst, hrest⟩ := List.forall_mem_cons.1 hnames
    exact ih (h.advance hσ hfirst) hrest

/-- Without a frequency rule an entry that names no task shows nothing. -/
theorem examine_eq (hσ : σ.Agree A τ) (h : SameAmong A s t)
    (hnames : e.event.NamesOnly A) :
    examine σ .grub s e = examine τ .grub t e := by
  cases htask : e.event.task? with
  | some tid => exact examine_congr_of_sameView hσ.platform .grub (h.sameView (hnames tid htask)) htask
  | none =>
    obtain ⟨time, event⟩ := e
    cases event <;> first | rfl | cases htask

theorem findings_eq (hσ : σ.Agree A τ) (h : SameAmong A s t) {entries : Trace}
    (hnames : ∀ e ∈ entries, e.event.NamesOnly A) :
    s.findings σ .grub entries = t.findings τ .grub entries := by
  induction entries generalizing s t with
  | nil => rfl
  | cons e entries ih =>
    obtain ⟨hfirst, hrest⟩ := List.forall_mem_cons.1 hnames
    rw [findings, findings, h.examine_eq hσ hfirst, ih (h.advance hσ hfirst) hrest]

end SameAmong

end Schedule

/-! ## Two traces -/

/-- Entries name the tasks of their trace, and so none of a trace that has no task in common. -/
theorem Trace.namesOnly_of_disjoint (h : x.named.Disjoint y.named) :
    ∀ e ∈ x, e.event.NamesOnly {tid | tid ∉ y.named} := by
  intro e he tid htask
  exact h (mem_named_iff.2 ⟨e, he, htask⟩)

section Succession

variable (platform : Platform) (tasks : List Task)

open Schedule (SameAmong sameAmong_start after)

/-- The first trace is not concerned with the second one, even though its arrivals are known. -/
theorem findings_append_left (hdisjoint : x.named.Disjoint y.named) :
    ({} : Schedule).findings (.ofTrace platform tasks (x ++ y)) .grub x =
      ({} : Schedule).findings (.ofTrace platform tasks x) .grub x :=
  (sameAmong_start _).findings_eq (Setting.agree_append_left platform tasks x y)
    (Trace.namesOnly_of_disjoint hdisjoint)

/-- After the first trace the schedule is as good as new for all tasks but those of that trace. -/
theorem sameAmong_between (hdisjoint : x.named.Disjoint y.named)
    (hdetached : ∀ tid, ¬(after (.ofTrace platform tasks x) {} x).IsAttached tid) :
    SameAmong {tid | tid ∉ x.named} (after (.ofTrace platform tasks (x ++ y)) {} x) {} where
  left := Schedule.keyed_after Schedule.keyed_start x
  right := Schedule.keyed_start
  servers := fun _ htid => (Schedule.untouched_of_not_named _ htid).1
  placements := fun _ htid => (Schedule.untouched_of_not_named _ htid).2
  aloneLeft := by
    -- An attached server would be attached after the first trace alone, too.
    intro tid hattached
    have hfirst := (sameAmong_start _).after (Setting.agree_append_left platform tasks x y)
      (Trace.namesOnly_of_disjoint hdisjoint)
    have htid := hfirst.aloneLeft tid hattached
    obtain ⟨v, hv, hv'⟩ := hattached
    rw [hfirst.servers tid htid] at hv
    exact absurd ⟨v, hv, hv'⟩ (hdetached tid)
  aloneRight := fun _ hattached => absurd hattached Schedule.not_isAttached_start

/-- What the first trace leaves behind is nothing to the second one, as long as it is detached. -/
theorem findings_append_right (hdisjoint : x.named.Disjoint y.named)
    (hdetached : ∀ tid, ¬(after (.ofTrace platform tasks x) {} x).IsAttached tid) :
    (after (.ofTrace platform tasks (x ++ y)) {} x).findings (.ofTrace platform tasks (x ++ y)) .grub
        y =
      ({} : Schedule).findings (.ofTrace platform tasks y) .grub y := by
  refine (sameAmong_between platform tasks hdisjoint hdetached).findings_eq
    (Setting.agree_append_right platform tasks x y) ?_
  exact Trace.namesOnly_of_disjoint hdisjoint.symm

/-- **One trace after another.** If two traces have no task in common, and no server is attached after
the first one, then what is found in both together is what is found in each. This is said of all
violations without a frequency rule, and of the violations of the common invariants with any. -/
theorem violations_append (policy : Policy) (diagnoses : Bool)
    (hdisjoint : x.named.Disjoint y.named)
    (hdetached : ∀ tid,
      ¬(Audit.before platform tasks policy diagnoses x x.length).schedule.IsAttached tid) :
    let report := Report.ofTrace platform tasks policy diagnoses
    (policy = .grub →
      (report (x ++ y)).violations = (report x).violations ++ (report y).violations) ∧
      (report (x ++ y)).common = (report x).common ++ (report y).common := by
  intro report
  rw [Audit.schedule_before, Schedule.before_length] at hdetached
  have hgrub : (Report.ofTrace platform tasks .grub diagnoses (x ++ y)).violations =
      (Report.ofTrace platform tasks .grub diagnoses x).violations ++
        (Report.ofTrace platform tasks .grub diagnoses y).violations := by
    simp only [Audit.violations_eq_findings]
    rw [Schedule.findings_append, List.flatMap_append, findings_append_left platform tasks hdisjoint,
      findings_append_right platform tasks hdisjoint hdetached]
  refine ⟨?_, ?_⟩
  · rintro rfl
    exact hgrub
  · simp only [report, common_ofTrace]
    exact hgrub

end Succession

/-- A task runs late and leaves, -/
def earlierTrace : Trace :=
  [⟨0.0, .taskPlaced 1 0⟩, ⟨0.0, .servReady 1 10.0 0.5⟩, ⟨12.0, .jobFinished 1⟩,
    ⟨12.0, .servInactive 1⟩]

/-- and another one runs late on the same cluster. -/
def laterTrace : Trace :=
  [⟨20.0, .taskPlaced 2 0⟩, ⟨20.0, .servReady 2 30.0 0.25⟩, ⟨31.0, .jobFinished 2⟩]

theorem violations_append_laterTrace :
    earlierTrace.named.Disjoint laterTrace.named ∧
      (∀ tid, ¬(Audit.before .twin [] .grub false earlierTrace
        earlierTrace.length).schedule.IsAttached tid) ∧
      (Report.ofTrace .twin [] .grub false (earlierTrace ++ laterTrace)).violations =
        (Report.ofTrace .twin [] .grub false earlierTrace).violations ++
          (Report.ofTrace .twin [] .grub false laterTrace).violations ∧
      (Report.ofTrace .twin [] .grub false earlierTrace).passed = false ∧
      (Report.ofTrace .twin [] .grub false laterTrace).passed = false := by
  have hdisjoint : earlierTrace.named.Disjoint laterTrace.named := by
    simp [earlierTrace, laterTrace, Trace.named, Event.task?]
  have hdetached : ∀ tid, ¬(Audit.before .twin [] .grub false earlierTrace
      earlierTrace.length).schedule.IsAttached tid := by
    rintro tid ⟨v, hv, hattached⟩
    by_cases htid : tid = 1
    · subst htid
      cases hv
      cases hattached
    · rw [Audit.schedule_before, Schedule.before_length,
        (Schedule.untouched_of_not_named _ (by simp [earlierTrace, Trace.named, Event.task?, htid])).1]
        at hv
      cases hv
  obtain ⟨hviolations, -⟩ := violations_append .twin [] .grub false hdisjoint hdetached
  exact ⟨hdisjoint, hdetached, hviolations rfl, rfl, rfl⟩

end SchedAudit

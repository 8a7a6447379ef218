import SchedAudit.Proofs.Audit.Membership

/-!
# Which tasks should have been scheduled

The scheduler prefers the earliest deadline. Whoever it passes over can be told from the trace: of the
other tasks that are attached to the cluster, those whose life cycle was left ready, with a deadline
that is earlier by more than the tolerance (`Trace.Overtakes`). A scheduled task gives one violation for each of them
and no other (`precedence_violations`), so nobody who was passed over is missed or counted twice.
-/

namespace SchedAudit

/-! ## Tasks that are passed over -/

/-- At place `i` another task on a cluster should run before a task: it is attached, it was left ready,
and its deadline is earlier, by more than the tolerance. -/
structure Trace.Overtakes (tasks : List Task) (entries : Trace) (s : Schedule) (c tid i other : Nat) :
    Prop where
  /-- it is another task -/
  ne : other ≠ tid
  /-- it has an attached server -/
  attached : s.IsAttached other
  /-- it was placed last on the cluster -/
  placed : entries.latest? (fun _ e => e.event.placedAt? other) i = some c
  /-- the last event in its life cycle has left it ready -/
  ready : entries.latest? (fun _ e => e.event.phase? other) i = some .ready
  /-- its deadline is earlier -/
  earlier : entries.deadline tasks other i < entries.deadline tasks tid i - Tolerance.absolute

/-- The violation that a task gives when it is scheduled before one with an earlier deadline. -/
def Trace.overtaking (tasks : List Task) (entries : Trace) (time : Float) (tid i other : Nat) :
    Violation :=
  let scheduled := Decimal.fixed 6 (entries.deadline tasks tid i)
  let earlier := Decimal.fixed 6 (entries.deadline tasks other i)
  ⟨.edfOrdering, time, some tid,
    s!"scheduled deadline={scheduled} but tid={other} is Ready with earlier deadline={earlier}"⟩

namespace Schedule

variable {s : Schedule} {tid c : Nat} {running : Server}

/-- The attached servers of a cluster that should run before a task. -/
def overtakers (s : Schedule) (c tid : Nat) (running : Server) : List Server :=
  (s.attachedOn c).filter fun other => other.tid != tid && Rule.overtaken running other

theorem mem_overtakers_iff (hs : s.Keyed) {v : Server} :
    v ∈ s.overtakers c tid running ↔
      (s.server? v.tid = some v ∧ s.placement? v.tid = some c) ∧ v.attached = true ∧
        v.tid ≠ tid ∧ v.phase = .ready ∧ v.deadline < running.deadline - Tolerance.absolute := by
  rw [overtakers, attachedOn, List.mem_filter, List.mem_filter, mem_serversOn_iff hs, and_assoc]
  simp only [Rule.overtaken, Bool.and_eq_true, bne_iff_ne, beq_iff_eq, decide_eq_true_eq]

/-- They come in the order of their tasks. -/
theorem pairwise_overtakers (hs : s.Keyed) :
    ((s.overtakers c tid running).map (·.tid)).Pairwise (· < ·) :=
  (pairwise_members hs c).sublist (List.filter_sublist.map _)

theorem edfOrdering_eq_map (time : Float) (hrunning : s.server? tid = some running)
    (hplaced : s.placement? tid = some c) :
    Rule.edfOrdering s time tid =
      (s.overtakers c tid running).map (Rule.edfViolation time tid running) := by
  rw [Rule.edfOrdering, hrunning, hplaced]
  rfl

/-- Without a server or a cluster there is nobody to pass over. -/
theorem edfOrdering_eq_nil (time : Float) (h : s.server? tid = none ∨ s.placement? tid = none) :
    Rule.edfOrdering s time tid = [] := by
  rw [Rule.edfOrdering]
  split
  · rename_i hrunning hplaced
    simp [hrunning, hplaced] at h
  · rfl

section Before

variable {platform : Platform} {tasks : List Task} {entries : Trace} {i : Nat}

/-- Whom the rule finds is told by the trace. -/
theorem mem_overtakers_before_iff (hi : i ≤ entries.length)
    (hrunning : (before (.ofTrace platform tasks entries) entries i).server? tid = some running)
    {other : Nat} :
    let s := before (.ofTrace platform tasks entries) entries i
    other ∈ (s.overtakers c tid running).map (·.tid) ↔ entries.Overtakes tasks s c tid i other := by
  intro s
  have hs : s.Keyed := keyed_before
  rw [List.mem_map]
  constructor
  · rintro ⟨v, hv, rfl⟩
    obtain ⟨⟨hserver, hplaced⟩, hattached, hne, hready, hearlier⟩ := (mem_overtakers_iff hs).1 hv
    refine ⟨hne, ⟨v, hserver, hattached⟩, ?_, ?_, ?_⟩
    · rwa [← placement?_before hi]
    · rw [phase_before hi hserver hattached, hready]
    · rwa [← deadline_before hi hserver, ← deadline_before hi hrunning]
  · rintro ⟨hne, ⟨v, hserver, hattached⟩, hplaced, hready, hearlier⟩
    obtain rfl := hs other v hserver
    rw [← placement?_before hi] at hplaced
    rw [phase_before hi hserver hattached, Option.some_inj] at hready
    rw [← deadline_before hi hserver, ← deadline_before hi hrunning] at hearlier
    exact ⟨v, (mem_overtakers_iff hs).2 ⟨⟨hserver, hplaced⟩, hattached, hne, hready, hearlier⟩, rfl⟩

/-- What the rule says of them has the deadlines that the trace gave last. -/
theorem edfViolation_before (hi : i ≤ entries.length) (time : Float)
    (hrunning : (before (.ofTrace platform tasks entries) entries i).server? tid = some running)
    {v : Server} (hv : (before (.ofTrace platform tasks entries) entries i).server? v.tid = some v) :
    Rule.edfViolation time tid running v = entries.overtaking tasks time tid i v.tid := by
  rw [Rule.edfViolation, Trace.overtaking, deadline_before hi hrunning, deadline_before hi hv]

end Before

end Schedule

/-! ## The rule over whole traces -/

/-- **What breaks the rule on precedence.** A task that is tracked and placed gives, when it is
scheduled, one violation for each other task on its cluster that should have run before it, in
ascending order. A task that is not gives none. -/
theorem precedence_violations (platform : Platform) (tasks : List Task) (policy : Policy)
    (diagnoses : Bool) {entries : Trace} {i tid cpu : Nat} {time : Float}
    (he : entries[i]? = some ⟨time, .taskScheduled tid cpu⟩) :
    let s := (Audit.before platform tasks policy diagnoses entries i).schedule
    let placed? := entries.latest? (fun _ e => e.event.placedAt? tid) i
    let found := Audit.appended platform tasks policy diagnoses entries i
    (∀ c, entries.tracks tasks tid i = true → placed? = some c →
      ∃ others : List Nat, others.Pairwise (· < ·) ∧
        (∀ other, other ∈ others ↔ entries.Overtakes tasks s c tid i other) ∧
        found = others.map (entries.overtaking tasks time tid i)) ∧
      (entries.tracks tasks tid i = false ∨ placed? = none → found = []) := by
  intro s placed? found
  have hi : i ≤ entries.length := Nat.le_of_lt (List.getElem?_eq_some_iff.1 he).1
  have hs : s = Schedule.before (.ofTrace platform tasks entries) entries i :=
    Audit.schedule_before i
  have htracked : (s.server? tid).isSome = entries.tracks tasks tid i :=
    hs ▸ Schedule.isSome_server?_before hi
  have hplaced : s.placement? tid = placed? := hs ▸ Schedule.placement?_before hi
  have hfound : found = Rule.edfOrdering s time tid := by
    rw [hs]
    exact Audit.appended_eq he
  constructor
  · intro c htrue hc
    obtain ⟨running, hrunning⟩ := Option.isSome_iff_exists.1 (htracked.trans htrue)
    refine ⟨(s.overtakers c tid running).map (·.tid), ?_, fun other => ?_, ?_⟩
    · exact Schedule.pairwise_overtakers (hs ▸ Schedule.keyed_before)
    · rw [hs] at hrunning ⊢
      exact Schedule.mem_overtakers_before_iff hi hrunning
    · rw [hfound, Schedule.edfOrdering_eq_map time hrunning (hplaced.trans hc), List.map_map]
      refine List.map_congr_left fun v hv => ?_
      obtain ⟨⟨hserver, -⟩, -⟩ :=
        (Schedule.mem_overtakers_iff (hs ▸ Schedule.keyed_before)).1 hv
      rw [hs] at hrunning hserver
      exact Schedule.edfViolation_before hi time hrunning hserver
  · intro h
    rw [hfound]
    refine Schedule.edfOrdering_eq_nil time (h.imp (fun hfalse => ?_) hplaced.trans)
    rw [← Option.not_isSome_iff_eq_none, htracked, hfalse]
    exact Bool.false_ne_true

/-- Task 1 is scheduled while tasks 2 and 3 of its cluster are ready, with deadlines before the one to
which it has been put off. Task 4 has an earlier deadline as well, but is on no cluster. -/
def passedOverTrace : Trace :=
  [⟨0.0, .taskPlaced 3 0⟩, ⟨0.0, .taskPlaced 2 0⟩, ⟨0.0, .taskPlaced 1 0⟩,
    ⟨0.0, .servReady 3 10.0 0.25⟩, ⟨0.0, .servReady 2 20.0 0.25⟩, ⟨0.0, .servReady 1 15.0 0.25⟩,
    ⟨0.0, .servReady 4 5.0 0.25⟩, ⟨1.0, .servPostpone 3 25.0⟩, ⟨1.0, .servPostpone 1 30.0⟩,
    ⟨2.0, .taskScheduled 1 0⟩]

theorem precedence_violations_passedOverTrace :
    let found := Audit.appended .twin [] .grub false passedOverTrace 9
    passedOverTrace[9]? = some ⟨2.0, .taskScheduled 1 0⟩ ∧
      found = [2, 3].map (passedOverTrace.overtaking [] 2.0 1 9) := by
  intro found
  have he : passedOverTrace[9]? = some ⟨2.0, .taskScheduled 1 0⟩ := rfl
  obtain ⟨others, hpairwise, hmem, hfound⟩ :=
    (precedence_violations .twin [] .grub false he).1 0 rfl rfl
  have hothers : others = [2, 3] := by
    refine hpairwise.eq_of_mem_iff (by decide) fun other => (hmem other).trans ?_
    constructor
    · intro h
      have hplaced : 1 = other ∨ ¬1 = other ∧ (2 = other ∨ ¬2 = other ∧ 3 = other) := by
        simpa [passedOverTrace, Trace.latest?, Event.placedAt?] using h.placed
      have hne := h.ne
      rw [List.mem_pair]
      omega
    · intro h
      obtain rfl | rfl : other = 2 ∨ other = 3 := by simpa using h
      all_goals exact ⟨by decide, ⟨_, rfl, rfl⟩, rfl, rfl, by decide +kernel⟩
  exact ⟨he, hothers ▸ hfound⟩

end SchedAudit

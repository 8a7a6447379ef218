import SchedAudit.Proofs.Schedule.Interval
import SchedAudit.Proofs.Table

/-!
# Who is attached to a cluster

The members of a cluster are the tasks that are placed on it and have an attached server. Placing is
one thing, attaching another: a server attaches when its task becomes ready, and detaches when its
task leaves, whatever its cluster (`isAttached_advance_iff`).
-/

namespace SchedAudit

/-- The phase in which an event leaves the life cycle of a task; none where it stays as it is. -/
def Event.phase? (event : Event) (tid : Nat) : Option Phase :=
  match event with
  | .servReady tid' .. | .taskPreempted tid' => if tid' = tid then some .ready else none
  | .servRunning tid' => if tid' = tid then some .running else none
  | .servNonCont tid' => if tid' = tid then some .nonContinuing else none
  | .servInactive tid' => if tid' = tid then some .inactive else none
  | _ => none

/-- Whether the life cycle of a task goes on, by an event, with the task ready or running; none where
it stays as it is. -/
def Event.activates? (event : Event) (tid : Nat) : Option Bool :=
  match event with
  | .servReady tid' .. | .servRunning tid' | .taskPreempted tid' =>
    if tid' = tid then some true else none
  | .servNonCont tid' | .servInactive tid' => if tid' = tid then some false else none
  | _ => none

theorem Event.activates?_eq (event : Event) (tid : Nat) :
    event.activates? tid = (event.phase? tid).map fun phase => phase == .ready || phase == .running := by
  cases event with
  | servReady tid' | taskPreempted tid' | servRunning tid' | servNonCont tid' | servInactive tid' =>
    rw [activates?, phase?]
    split_ifs <;> rfl
  | _ => rfl

namespace Schedule

/-! ## Members of a cluster -/

/-- The tasks whose servers are attached and placed on a cluster. -/
def members (s : Schedule) (c : Nat) : List Nat := (s.attachedOn c).map (·.tid)

/-- Those of them that are ready or running. -/
def activeMembers (s : Schedule) (c : Nat) : List Nat := (s.activeOn c).map (·.tid)

/-- A task with an attached server. -/
def IsAttached (s : Schedule) (tid : Nat) : Prop := ∃ v, s.server? tid = some v ∧ v.attached = true

variable {σ : Setting} {s : Schedule} {e : Entry} {tid other : Nat} {v : Server}

theorem mem_serversOn_iff (hs : s.Keyed) {c : Nat} :
    v ∈ s.serversOn c ↔ s.server? v.tid = some v ∧ s.placement? v.tid = some c := by
  have hvalues : v ∈ s.servers.values ↔ s.server? v.tid = some v := by
    rw [Table.mem_values_iff]
    exact ⟨fun ⟨key, h⟩ => by rw [hs key v h]; exact h, fun h => ⟨v.tid, h⟩⟩
  rw [serversOn, List.mem_filter, hvalues, beq_iff_eq]

theorem mem_members_iff (hs : s.Keyed) {c : Nat} :
    other ∈ s.members c ↔ s.IsAttached other ∧ s.placement? other = some c := by
  simp only [members, attachedOn, List.mem_map, List.mem_filter, mem_serversOn_iff hs]
  constructor
  · rintro ⟨v, ⟨⟨hv, hplaced⟩, hattached⟩, rfl⟩
    exact ⟨⟨v, hv, hattached⟩, hplaced⟩
  · rintro ⟨⟨v, hv, hattached⟩, hplaced⟩
    obtain rfl := hs other v hv
    exact ⟨v, ⟨⟨hv, hplaced⟩, hattached⟩, rfl⟩

/-- Servers come in the order of their tasks. -/
theorem pairwise_tid_values (hs : s.Keyed) : (s.servers.values.map (·.tid)).Pairwise (· < ·) := by
  have hkeys : s.servers.values.map (·.tid) = s.servers.entries.map (·.1) := by
    rw [Table.values, List.map_map]
    refine List.map_congr_left fun e he => ?_
    obtain ⟨key, v⟩ := e
    exact hs key v (Table.mem_entries_iff.1 he)
  rw [hkeys]
  exact s.servers.ascending

theorem pairwise_members (hs : s.Keyed) (c : Nat) : (s.members c).Pairwise (· < ·) := by
  have hsublist : (s.attachedOn c).Sublist s.servers.values :=
    List.filter_sublist.trans List.filter_sublist
  exact (pairwise_tid_values hs).sublist (hsublist.map _)

/-- An entry by which a task becomes ready. -/
def Readies (e : Entry) (tid : Nat) : Prop :=
  ∃ deadline utilization, e.event = .servReady tid deadline utilization

/-- An entry by which a task goes inactive without a job to come. -/
def Leaves (σ : Setting) (e : Entry) (tid : Nat) : Prop :=
  e.event = .servInactive tid ∧ σ.hasFutureJob tid e.time = false

theorem Readies.task? (h : Readies e tid) : e.event.task? = some tid := by
  obtain ⟨deadline, utilization, h⟩ := h
  rw [h]
  rfl

theorem Leaves.task? (h : Leaves σ e tid) : e.event.task? = some tid := by
  rw [h.1]
  rfl

theorem Readies.placedAt? (h : Readies e tid) : e.event.placedAt? other = none := by
  obtain ⟨deadline, utilization, h⟩ := h
  rw [h]
  rfl

theorem Leaves.placedAt? (h : Leaves σ e tid) : e.event.placedAt? other = none := by
  rw [h.1]
  rfl

theorem attached_react (htask : e.event.task? = some tid) :
    (v.react σ e).attached = true ↔ Readies e tid ∨ (v.attached = true ∧ ¬Leaves σ e tid) := by
  obtain ⟨time, event⟩ := e
  cases event with
  | servReady tid' deadline utilization =>
    obtain rfl := Option.some.inj htask
    exact ⟨fun _ => .inl ⟨deadline, utilization, rfl⟩, fun _ => v.attached_ready time deadline⟩
  | servInactive tid' =>
    obtain rfl := Option.some.inj htask
    change (v.deactivate (!σ.hasFutureJob tid' time)).attached = true ↔ _
    cases hfuture : σ.hasFutureJob tid' time <;>
      simp [Server.deactivate, Server.interrupt, Readies, Leaves, hfuture]
  | _ =>
    simp only [Readies, Leaves, reduceCtorEq, exists_false, false_and, not_false_eq_true, and_true,
      false_or]
    exact Iff.rfl

theorem attached_newcomer? (h : σ.newcomer? e = some v) :
    v.attached = true ↔ ∃ deadline utilization, e.event = .servReady v.tid deadline utilization := by
  obtain ⟨time, event⟩ := e
  cases event with
  | jobArrival tid' =>
    obtain ⟨task, -, rfl⟩ := Option.map_eq_some_iff.1 h
    simp
  | servReady tid' deadline utilization =>
    cases h
    exact ⟨fun _ => ⟨deadline, utilization, rfl⟩, fun _ => rfl⟩
  | _ => cases h

/-- Servers attach by becoming ready, and detach by leaving. -/
theorem isAttached_advance_iff (hs : s.Keyed) :
    (s.advance σ e).IsAttached other ↔
      Readies e other ∨ (s.IsAttached other ∧ ¬Leaves σ e other) := by
  rw [IsAttached, IsAttached]
  cases hv : s.server? other with
  | some v =>
    rw [server?_advance_of_some hs hv, next]
    simp only [Option.some_inj, exists_eq_left']
    split_ifs with htask
    · exact attached_react htask
    · have hready : ¬Readies e other := fun h => htask h.task?
      have hleaves : ¬Leaves σ e other := fun h => htask h.task?
      simp [hready, hleaves, Server.noted]
  | none =>
    rw [server?_advance_of_none hs hv]
    simp only [reduceCtorEq, false_and, exists_false, or_false]
    split_ifs with htask
    · constructor
      · rintro ⟨v, hnew, hattached⟩
        have hready := (attached_newcomer? hnew).1 hattached
        rwa [Setting.tid_newcomer? hnew htask] at hready
      · rintro ⟨deadline, utilization, hready⟩
        have hnew : σ.newcomer? e = some (Server.ready
            { tid := other, utilization := utilization, period := σ.periodOf other }
            e.time deadline) := by
          rw [Setting.newcomer?, hready]
        exact ⟨_, hnew, rfl⟩
    · constructor
      · rintro ⟨v, h, -⟩
        cases h
      · exact fun h => absurd h.task? htask

/-! ## Activity -/

theorem phase?_of_task?_ne {event : Event} (htask : event.task? ≠ some tid) :
    event.phase? tid = none := by
  cases event with
  | servReady | taskPreempted | servRunning | servNonCont | servInactive =>
    exact if_neg fun h => htask (congrArg some h)
  | _ => rfl

/-- A server is in the phase in which the last event in its life cycle has left it. -/
theorem phase_next_eq : (s.next σ e tid v).phase = (e.event.phase? tid).getD v.phase := by
  rw [next]
  split_ifs with htask
  · obtain ⟨time, event⟩ := e
    cases event with
    | servReady tid' deadline utilization =>
      obtain rfl := Option.some.inj htask
      simp only [Event.phase?, if_true, Option.getD_some]
      exact v.phase_ready time deadline
    | servInactive tid' =>
      obtain rfl := Option.some.inj htask
      simp only [Event.phase?, if_true, Option.getD_some]
      exact v.phase_deactivate _
    | taskPreempted tid' | servRunning tid' | servNonCont tid' =>
      obtain rfl := Option.some.inj htask
      simp only [Event.phase?, if_true, Option.getD_some]
      rfl
    | _ => rfl
  · rw [phase?_of_task?_ne htask]
    rfl

theorem Readies.phase? (h : Readies e tid) : e.event.phase? tid = some .ready := by
  obtain ⟨deadline, utilization, h⟩ := h
  rw [h]
  exact if_pos rfl

/-- Who becomes ready is so, whether there was a server before or not. -/
theorem phase_of_readies (hs : s.Keyed) (hready : Readies e tid)
    (hv : (s.advance σ e).server? tid = some v) : v.phase = .ready := by
  cases hold : s.server? tid with
  | some w =>
    rw [server?_advance_of_some hs hold] at hv
    obtain rfl := Option.some.inj hv
    rw [phase_next_eq, hready.phase?, Option.getD_some]
  | none =>
    rw [server?_advance_of_none hs hold, if_pos hready.task?] at hv
    obtain ⟨deadline, utilization, hready⟩ := hready
    rw [Setting.newcomer?, hready] at hv
    cases hv
    rfl

end Schedule

end SchedAudit

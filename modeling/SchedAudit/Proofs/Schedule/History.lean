import SchedAudit.Proofs.Schedule.Interval
import SchedAudit.Proofs.Table

/-!
# What a trace said last

Much of what is known at a place of a trace is what the last entry before it said that says anything
on the matter at all: where a task was placed, which phase its server is in, which deadline it has.
`Trace.latest?` is that notion for any matter; `latest?_eq_some_iff` spells it out. A schedule agrees
with a trace on some matter when each entry changes the schedule just as it says, which is one
induction along the trace (`placement?_before` is the first).
-/

namespace SchedAudit

/-! ## The last word -/

namespace Trace

universe u

variable {α : Type u}

/-- What the last entry before place `k` says, of those that say anything. What an entry says may
depend on its place. -/
def latest? (entries : Trace) (word : Nat → Entry → Option α) : Nat → Option α
  | 0 => none
  | k + 1 => (entries[k]?.bind (word k)).or (entries.latest? word k)

variable {entries : Trace} {word : Nat → Entry → Option α} {k : Nat} {e : Entry}

@[simp] theorem latest?_zero : entries.latest? word 0 = none := rfl

/-- The entry at a place has the last word, if it says anything. -/
theorem latest?_succ (he : entries[k]? = some e) :
    entries.latest? word (k + 1) = (word k e).or (entries.latest? word k) := by
  rw [latest?, he, Option.bind_some]

/-- What follows from each word follows from the last one. -/
theorem latest?_map {β : Type u} (f : α → β) :
    entries.latest? (fun j e => (word j e).map f) k = (entries.latest? word k).map f := by
  induction k with
  | zero => rfl
  | succ k ih => rw [latest?, ih, latest?, Option.map_or, Option.map_bind]; rfl

/-- **The last word is had by one entry,** and none behind it says anything. -/
theorem latest?_eq_some_iff {a : α} :
    entries.latest? word k = some a ↔
      ∃ j e, j < k ∧ entries[j]? = some e ∧ word j e = some a ∧
        ∀ n e', j < n → n < k → entries[n]? = some e' → word n e' = none := by
  induction k with
  | zero => simp
  | succ k ih =>
    rw [latest?]
    cases hsaid : entries[k]?.bind (word k) with
    | some b =>
      -- The entry at place `k` says something, so nothing before it counts.
      obtain ⟨e, he, hb⟩ := Option.bind_eq_some_iff.1 hsaid
      rw [Option.some_or]
      constructor
      · intro h
        exact ⟨k, e, Nat.lt_succ_self k, he, hb.trans h, fun n _ hkn hn => by omega⟩
      · rintro ⟨j, e', hj, he', ha, hlast⟩
        rcases Nat.lt_or_eq_of_le (Nat.le_of_lt_succ hj) with hj | rfl
        · rw [hlast k e hj (Nat.lt_succ_self k) he] at hb
          cases hb
        · obtain rfl := Option.some.inj (he.symm.trans he')
          rw [← hb, ha]
    | none =>
      rw [Option.none_or, ih]
      constructor
      · rintro ⟨j, e, hj, he, ha, hlast⟩
        refine ⟨j, e, Nat.lt_succ_of_lt hj, he, ha, fun n e' hjn hn he' => ?_⟩
        rcases Nat.lt_or_eq_of_le (Nat.le_of_lt_succ hn) with hn | rfl
        · exact hlast n e' hjn hn he'
        · rwa [he'] at hsaid
      · rintro ⟨j, e, hj, he, ha, hlast⟩
        have hjk : j ≠ k := by
          rintro rfl
          rw [he, Option.bind_some, ha] at hsaid
          cases hsaid
        exact ⟨j, e, by omega, he, ha, fun n e' hjn hn => hlast n e' hjn (by omega)⟩

/-- What the entries from place `start` up to place `k` say, the last word first. -/
def words (entries : Trace) (word : Nat → Entry → Option α) (start k : Nat) : List α :=
  ((entries.zipIdx.take k).drop start).reverse.filterMap fun (e, j) => word j e

@[simp] theorem words_self : entries.words word k k = [] := by
  rw [words, List.drop_eq_nil_of_le (List.length_take_le _ _)]
  rfl

/-- What one more entry says comes first. -/
theorem words_succ {start : Nat} (hstart : start ≤ k) (he : entries[k]? = some e) :
    entries.words word start (k + 1) = (word k e).toList ++ entries.words word start k := by
  have hlt : k < entries.length := (List.getElem?_eq_some_iff.1 he).1
  have htake : entries.zipIdx.take (k + 1) = entries.zipIdx.take k ++ [(e, k)] := by
    rw [List.take_add_one, List.getElem?_zipIdx, he, Nat.zero_add]
    rfl
  have hlength : start ≤ (entries.zipIdx.take k).length := by
    rw [List.length_take, List.length_zipIdx]
    omega
  rw [words, htake, List.drop_append_of_le_length hlength, List.reverse_append,
    List.filterMap_append, words]
  rfl

end Trace

/-! ## Placements -/

/-- A task is placed where the last entry that places it says. -/
theorem Schedule.placement?_before {σ : Setting} {entries : Trace} {k tid : Nat}
    (hk : k ≤ entries.length) :
    (before σ entries k).placement? tid = entries.latest? (fun _ e => e.event.placedAt? tid) k := by
  refine before_induction (P := fun k s =>
    s.placement? tid = entries.latest? (fun _ e => e.event.placedAt? tid) k) hk rfl ?_
  intro k e he ih
  rw [placement?_advance, Trace.latest?_succ he, ih]

/-! ## Tracked tasks -/

/-- Whether an event gives a task a server, unless it has one: the task becomes ready, or it is
declared and a job of it arrives. -/
def Event.introduces (tasks : List Task) (event : Event) (tid : Nat) : Bool :=
  match event with
  | .servReady tid' .. => tid' == tid
  | .jobArrival tid' => tid' == tid && tasks.any (·.id == tid)
  | _ => false

/-- Whether a task has got a server before place `k`. -/
def Trace.tracks (tasks : List Task) (entries : Trace) (tid k : Nat) : Bool :=
  (entries.take k).any fun e => e.event.introduces tasks tid

namespace Trace

variable {tasks : List Task} {entries : Trace} {tid k : Nat} {e : Entry}

theorem tracks_succ (he : entries[k]? = some e) :
    entries.tracks tasks tid (k + 1) =
      (entries.tracks tasks tid k || e.event.introduces tasks tid) := by
  obtain ⟨hlt, rfl⟩ := List.getElem?_eq_some_iff.1 he
  rw [tracks, ← List.take_append_getElem hlt, List.any_append, List.any_cons, List.any_nil,
    Bool.or_false, tracks]

/-- A task that is tracked stays tracked. -/
theorem tracks_mono {j : Nat} (hjk : j ≤ k) (h : entries.tracks tasks tid j = true) :
    entries.tracks tasks tid k = true := by
  obtain ⟨e, he, hintroduces⟩ := List.any_eq_true.1 h
  exact List.any_eq_true.2 ⟨e, (List.take_sublist_take_left hjk).subset he, hintroduces⟩

end Trace

theorem Setting.find?_tasks_ofTrace (platform : Platform) (tasks : List Task) (entries : Trace)
    (tid : Nat) :
    (ofTrace platform tasks entries).tasks.find? tid = tasks.reverse.find? (·.id == tid) := by
  change (Table.ofList (tasks.map fun t => (t.id, t))).find? tid = _
  rw [Table.find?_ofList_map, Option.map_id']

theorem Setting.isSome_newcomer? (platform : Platform) {tasks : List Task} (entries : Trace)
    {e : Entry} {tid : Nat} (htask : e.event.task? = some tid) :
    ((ofTrace platform tasks entries).newcomer? e).isSome = e.event.introduces tasks tid := by
  obtain ⟨time, event⟩ := e
  cases event with
  | jobArrival tid' =>
    obtain rfl := Option.some.inj htask
    rw [newcomer?, Option.isSome_map, find?_tasks_ofTrace, Bool.eq_iff_iff, List.find?_isSome]
    simp [Event.introduces]
  | servReady tid' deadline utilization =>
    obtain rfl := Option.some.inj htask
    simp [newcomer?, Event.introduces]
  | _ => rfl

theorem Event.task?_of_introduces {tasks : List Task} {event : Event} {tid : Nat}
    (h : event.introduces tasks tid = true) : event.task? = some tid := by
  cases event with
  | jobArrival tid' | servReady tid' =>
    simp only [introduces, Bool.and_eq_true, beq_iff_eq] at h
    simp [task?, h]
  | _ => cases h

namespace Schedule

variable {platform : Platform} {tasks : List Task} {entries : Trace} {tid k : Nat}

/-- A schedule has servers of the tasks that are tracked. -/
theorem isSome_server?_before (hk : k ≤ entries.length) :
    ((before (.ofTrace platform tasks entries) entries k).server? tid).isSome =
      entries.tracks tasks tid k := by
  refine before_induction (P := fun k s => (s.server? tid).isSome = entries.tracks tasks tid k) hk
    rfl ?_
  intro k e he ih
  rw [server?_advance keyed_before, Trace.tracks_succ he, ← ih]
  split_ifs with htask
  · rw [Option.isSome_or, Option.isSome_map, Setting.isSome_newcomer? _ _ htask]
  · have hforeign : e.event.introduces tasks tid = false := by
      rw [← Bool.not_eq_true]
      exact fun h => htask (Event.task?_of_introduces h)
    rw [Option.isSome_map, hforeign, Bool.or_false]

end Schedule

/-! ## Deadlines -/

/-- The deadline that an event gives to a task with a server. -/
def Event.deadline? (event : Event) (tid : Nat) : Option Float :=
  match event with
  | .servReady tid' deadline _ | .servPostpone tid' deadline =>
    if tid' = tid then some deadline else none
  | _ => none

/-- The deadline that the entry at place `k` gives to a task: the one with which the task becomes
ready, or the one to which it is put off, if the task is tracked by then. -/
def Trace.deadlineAt? (tasks : List Task) (entries : Trace) (tid k : Nat) (e : Entry) :
    Option Float :=
  match e.event with
  | .servReady tid' deadline _ => if tid' = tid then some deadline else none
  | .servPostpone tid' deadline =>
    if tid' = tid ∧ entries.tracks tasks tid k = true then some deadline else none
  | _ => none

/-- The deadline of a task before place `k`: the one given last, and zero where none was given. -/
def Trace.deadline (tasks : List Task) (entries : Trace) (tid k : Nat) : Float :=
  (entries.latest? (entries.deadlineAt? tasks tid) k).getD 0.0

namespace Trace

variable {tasks : List Task} {entries : Trace} {tid k : Nat} {e : Entry}

theorem deadlineAt?_of_tracks (h : entries.tracks tasks tid k = true) :
    entries.deadlineAt? tasks tid k e = e.event.deadline? tid := by
  obtain ⟨time, event⟩ := e
  cases event <;> simp [deadlineAt?, Event.deadline?, h]

/-- An entry that introduces a task does not put its deadline off. -/
theorem deadlineAt?_of_introduces (h : e.event.introduces tasks tid = true) :
    entries.deadlineAt? tasks tid k e = e.event.deadline? tid := by
  obtain ⟨time, event⟩ := e
  cases event <;> first | rfl | cases h

/-- A task that is not tracked has been given no deadline. -/
theorem latest?_deadlineAt?_eq_none (h : entries.tracks tasks tid k = false) :
    entries.latest? (entries.deadlineAt? tasks tid) k = none := by
  rw [Option.eq_none_iff_forall_ne_some]
  intro a ha
  obtain ⟨j, e, hj, he, hgiven, -⟩ := latest?_eq_some_iff.1 ha
  have htracked : entries.tracks tasks tid (j + 1) = true := by
    rw [tracks_succ he]
    obtain ⟨time, event⟩ := e
    cases event with
    | servReady tid' deadline utilization =>
      simp only [deadlineAt?, Option.ite_none_right_eq_some] at hgiven
      simp [Event.introduces, hgiven.1]
    | servPostpone tid' deadline =>
      simp only [deadlineAt?, Option.ite_none_right_eq_some] at hgiven
      simp [hgiven.1.2]
    | _ => cases hgiven
  rw [tracks_mono hj htracked] at h
  cases h

end Trace

namespace Schedule

variable {σ : Setting} {s : Schedule} {e : Entry} {v : Server} {tid : Nat}

theorem deadline?_of_task?_ne {event : Event} (htask : event.task? ≠ some tid) :
    event.deadline? tid = none := by
  cases event <;> first | rfl | exact if_neg fun h => htask (congrArg some h)

theorem deadline_next : (s.next σ e tid v).deadline = (e.event.deadline? tid).getD v.deadline := by
  rw [next]
  split_ifs with htask
  · obtain ⟨time, event⟩ := e
    cases event with
    | servReady tid' deadline utilization =>
      obtain rfl := Option.some.inj htask
      simp only [Event.deadline?, if_true, Option.getD_some]
      exact v.deadline_ready time deadline
    | servPostpone tid' deadline =>
      obtain rfl := Option.some.inj htask
      simp only [Event.deadline?, if_true, Option.getD_some]
      rfl
    | servInactive tid' => exact v.deadline_deactivate _
    | _ => rfl
  · rw [deadline?_of_task?_ne htask]
    rfl

theorem deadline_newcomer? (htask : e.event.task? = some tid) (h : σ.newcomer? e = some v) :
    v.deadline = (e.event.deadline? tid).getD 0.0 := by
  obtain ⟨time, event⟩ := e
  cases event with
  | jobArrival tid' =>
    obtain ⟨task, -, rfl⟩ := Option.map_eq_some_iff.1 h
    rfl
  | servReady tid' deadline utilization =>
    obtain rfl := Option.some.inj htask
    cases h
    simp only [Event.deadline?, if_true, Option.getD_some]
    rfl
  | _ => cases h

/-- **A server has the deadline that its task was given last.** -/
theorem deadline_before {platform : Platform} {tasks : List Task} {entries : Trace} {k : Nat}
    (hk : k ≤ entries.length)
    (hv : (before (.ofTrace platform tasks entries) entries k).server? tid = some v) :
    v.deadline = entries.deadline tasks tid k := by
  refine before_induction (P := fun k s =>
    ∀ v, s.server? tid = some v → v.deadline = entries.deadline tasks tid k) hk nofun ?_ v hv
  intro k e he ih v hv
  have hk : k ≤ entries.length := Nat.le_of_lt (List.getElem?_eq_some_iff.1 he).1
  have htracked := @isSome_server?_before platform tasks entries tid k hk
  rw [Trace.deadline, Trace.latest?_succ he]
  cases hold : (before (.ofTrace platform tasks entries) entries k).server? tid with
  | some w =>
    rw [hold] at htracked
    rw [server?_advance_of_some keyed_before hold] at hv
    obtain rfl := Option.some.inj hv
    rw [deadline_next, ih w hold, Trace.deadlineAt?_of_tracks htracked.symm, Trace.deadline]
    cases e.event.deadline? tid <;> rfl
  | none =>
    -- A new server has no deadline but the one with which its task becomes ready.
    rw [hold] at htracked
    rw [server?_advance_of_none keyed_before hold] at hv
    split_ifs at hv with htask
    have hintroduces : e.event.introduces tasks tid = true := by
      rw [← Setting.isSome_newcomer? platform entries htask, hv]
      rfl
    rw [deadline_newcomer? htask hv, Trace.latest?_deadlineAt?_eq_none htracked.symm,
      Option.or_none, Trace.deadlineAt?_of_introduces hintroduces]

end Schedule

end SchedAudit

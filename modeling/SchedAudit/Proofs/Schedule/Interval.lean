import SchedAudit.Proofs.Audit.Entries

/-!
# Intervals since a sample

A server keeps its last sample and two flags, which say what has happened since. This file says it in
terms of the trace: which entry took the sample, and what the entries between had to be like.

* `Schedule.Interrupts`, `Schedule.Wakes`, `Schedule.unsettles` — what an entry can do to the interval
  of a task, given the schedule before it.
* `Schedule.Between` — what holds of all entries strictly between two places.
* `Schedule.LastSample` — which entry has sampled a task last.
* `exists_lastSample` — a server that runs without a break, or has a last sample, was sampled, and
  has not woken since.
* `server_since` — the server after a sample: its flags are exactly what the entries since have made
  of them.
-/

namespace SchedAudit

/-! ## Entries and the interval of a task -/

/-- An event that samples the virtual time of a task. -/
def Event.Samples (event : Event) (tid : Nat) : Prop :=
  match event with
  | .virtualTimeUpdate tid' .. => tid' = tid
  | _ => False

namespace Schedule

/-- An entry by which a task that was inactive becomes ready. -/
def Wakes (tid : Nat) (s : Schedule) (e : Entry) : Prop :=
  match e.event with
  | .servReady tid' .. => tid' = tid ∧ ∃ v, s.server? tid = some v ∧ v.phase = .inactive
  | _ => False

/-- An entry that ends the continuous interval of a task. -/
def Interrupts (tid : Nat) (s : Schedule) (e : Entry) : Prop :=
  match e.event with
  | .servRunning tid' | .servNonCont tid' | .servInactive tid' | .taskPreempted tid' => tid' = tid
  | _ => s.Wakes tid e

/-- Whether the attached server of a task hears what an entry announces about another task. -/
def unsettles (σ : Setting) (tid : Nat) (s : Schedule) (e : Entry) : Bool :=
  e.event.task? != some tid && s.hears σ e tid

/-- The server of a task after an entry, given the one before. -/
def next (σ : Setting) (s : Schedule) (e : Entry) (tid : Nat) (v : Server) : Server :=
  if e.event.task? = some tid then v.react σ e else v.noted (s.hears σ e tid)

variable {σ : Setting} {s : Schedule} {e : Entry} {tid : Nat} {v : Server}

theorem server?_advance_of_some (hs : s.Keyed) (hv : s.server? tid = some v) :
    (s.advance σ e).server? tid = some (s.next σ e tid v) := by
  rw [server?_advance hs, hv, next]
  split_ifs <;> rfl

theorem server?_advance_of_none (hs : s.Keyed) (hv : s.server? tid = none) :
    (s.advance σ e).server? tid = if e.event.task? = some tid then σ.newcomer? e else none := by
  rw [server?_advance hs, hv]
  rfl

theorem Wakes.interrupts (h : s.Wakes tid e) : s.Interrupts tid e := by
  obtain ⟨time, event⟩ := e
  cases event <;> first | exact h | exact h.elim

theorem Interrupts.task? (h : s.Interrupts tid e) : e.event.task? = some tid := by
  obtain ⟨time, event⟩ := e
  cases event with
  | servReady => exact congrArg some h.1
  | servRunning | servNonCont | servInactive | taskPreempted => exact congrArg some h
  | _ => exact h.elim

theorem unsettles_of_task? (h : e.event.task? = some tid) : s.unsettles σ tid e = false := by
  rw [unsettles, bne_eq_false_iff_eq.2 h, Bool.false_and]

theorem next_of_sample (time value : Float) (bandwidth : Option Float) :
    s.next σ ⟨time, .virtualTimeUpdate tid value bandwidth⟩ tid v =
      (v.sample time value).restartInterval :=
  if_pos rfl

/-- **What an entry does to a server that it does not sample.** The server becomes ready, or it is
interrupted, or it keeps everything but its deadline and the flag of an announcement. -/
theorem next_cases (σ : Setting) (s : Schedule) (e : Entry) (v : Server)
    (hsample : ¬e.event.Samples tid) :
    (∃ deadline utilization, e.event = .servReady tid deadline utilization ∧
      s.next σ e tid v = v.ready e.time deadline) ∨
    (s.Interrupts tid e ∧ ¬s.Wakes tid e ∧ ∃ phase attached,
      s.next σ e tid v = { v with phase := phase, attached := attached, continuous := false }) ∨
    (¬s.Interrupts tid e ∧ (∀ deadline utilization, e.event ≠ .servReady tid deadline utilization) ∧
      ∃ deadline, s.next σ e tid v = { v with
        deadline := deadline
        membershipChanged := v.membershipChanged || s.unsettles σ tid e }) := by
  obtain ⟨time, event⟩ := e
  have hinterrupt (phase : Phase) : v.interrupt phase =
      { v with phase := phase, attached := v.attached, continuous := false } := rfl
  by_cases htask : event.task? = some tid
  · have hnext : s.next σ ⟨time, event⟩ tid v = v.react σ ⟨time, event⟩ := if_pos htask
    have hunsettles : s.unsettles σ tid ⟨time, event⟩ = false := unsettles_of_task? htask
    cases event with
    | virtualTimeUpdate tid' value bandwidth => exact absurd (Option.some.inj htask) hsample
    | servReady tid' deadline utilization =>
      obtain rfl := Option.some.inj htask
      exact .inl ⟨deadline, utilization, rfl, hnext⟩
    | servInactive tid' =>
      refine .inr (.inl ⟨Option.some.inj htask, id, .inactive, ?_⟩)
      rw [hnext]
      change ∃ attached, v.deactivate (!σ.hasFutureJob tid' time) = _
      rw [Server.deactivate]
      split_ifs
      · exact ⟨false, rfl⟩
      · exact ⟨v.attached, rfl⟩
    | taskPreempted tid' => exact .inr (.inl ⟨Option.some.inj htask, id, .ready, v.attached, hnext⟩)
    | servRunning tid' => exact .inr (.inl ⟨Option.some.inj htask, id, .running, v.attached, hnext⟩)
    | servNonCont tid' =>
      exact .inr (.inl ⟨Option.some.inj htask, id, .nonContinuing, v.attached, hnext⟩)
    | servPostpone tid' deadline =>
      refine .inr (.inr ⟨id, (by rintro _ _ ⟨⟩), deadline, ?_⟩)
      rw [hnext, hunsettles, Bool.or_false]
      rfl
    | _ =>
      refine .inr (.inr ⟨id, (by rintro _ _ ⟨⟩), v.deadline, ?_⟩)
      rw [hnext, hunsettles, Bool.or_false]
      rfl
  · have hnext : s.next σ ⟨time, event⟩ tid v = v.noted (s.hears σ ⟨time, event⟩ tid) := if_neg htask
    refine .inr (.inr ⟨fun h => htask h.task?, ?_, v.deadline, ?_⟩)
    · rintro deadline utilization rfl
      exact htask rfl
    · rw [hnext, unsettles, bne_iff_ne.2 htask, Bool.true_and]
      rfl

/-! ## The fields of a server after an entry -/

theorem wakes_of_ready (hv : s.server? tid = some v) {deadline utilization : Float}
    (hready : e.event = .servReady tid deadline utilization) :
    s.Wakes tid e ↔ v.phase = .inactive := by
  obtain ⟨time, event⟩ := e
  subst hready
  simp [Wakes, hv]

theorem interrupts_of_ready {deadline utilization : Float}
    (hready : e.event = .servReady tid deadline utilization) :
    s.Interrupts tid e ↔ s.Wakes tid e := by
  obtain ⟨time, event⟩ := e
  subst hready
  exact Iff.rfl

/-- The interval stays continuous unless the entry ends it. -/
theorem continuous_next (hv : s.server? tid = some v) (hsample : ¬e.event.Samples tid) :
    (s.next σ e tid v).continuous = true ↔ v.continuous = true ∧ ¬s.Interrupts tid e := by
  rcases next_cases σ s e v hsample with ⟨d, u, hready, hw⟩ | ⟨hint, -, p, a, hw⟩ | ⟨hint, -, d, hw⟩
  · rw [hw, interrupts_of_ready hready, wakes_of_ready hv hready, Server.ready]
    split_ifs with hidle <;> simp [hidle]
  · simp [hw, hint]
  · simp [hw, hint]

/-- The last sample is kept unless the task wakes, and the flag of membership only rises. -/
theorem latest_next (hv : s.server? tid = some v) (hsample : ¬e.event.Samples tid)
    (hwakes : ¬s.Wakes tid e) :
    (s.next σ e tid v).latest = v.latest ∧ (s.next σ e tid v).membershipChanged =
      (v.membershipChanged || s.unsettles σ tid e) := by
  rcases next_cases σ s e v hsample with ⟨d, u, hready, hw⟩ | ⟨hint, -, p, a, hw⟩ | ⟨-, -, d, hw⟩
  · rw [wakes_of_ready hv hready] at hwakes
    have hunsettles : s.unsettles σ tid e = false := unsettles_of_task? (by rw [hready]; rfl)
    rw [hw, hunsettles, Bool.or_false, Server.ready, if_neg hwakes]
    exact ⟨rfl, rfl⟩
  · rw [hw, unsettles_of_task? hint.task?, Bool.or_false]
    exact ⟨rfl, rfl⟩
  · rw [hw]
    exact ⟨rfl, rfl⟩

/-- So are the sample before it and the virtual time. -/
theorem previous_next (hv : s.server? tid = some v) (hsample : ¬e.event.Samples tid)
    (hwakes : ¬s.Wakes tid e) :
    (s.next σ e tid v).previous = v.previous ∧
      (s.next σ e tid v).virtualTime = v.virtualTime := by
  rcases next_cases σ s e v hsample with ⟨d, u, hready, hw⟩ | ⟨-, -, p, a, hw⟩ | ⟨-, -, d, hw⟩
  · rw [wakes_of_ready hv hready] at hwakes
    rw [hw, Server.ready, if_neg hwakes]
    exact ⟨rfl, rfl⟩
  · rw [hw]
    exact ⟨rfl, rfl⟩
  · rw [hw]
    exact ⟨rfl, rfl⟩

/-- A task that wakes has an inactive server, which becomes ready. -/
theorem next_of_wakes (hv : s.server? tid = some v) (hwakes : s.Wakes tid e) :
    v.phase = .inactive ∧ ∃ deadline, s.next σ e tid v = v.ready e.time deadline := by
  obtain ⟨time, event⟩ := e
  cases event with
  | servReady tid' deadline utilization =>
    obtain rfl := hwakes.1
    exact ⟨(wakes_of_ready hv rfl).1 hwakes, deadline, if_pos rfl⟩
  | _ => exact hwakes.elim

/-- It has neither a sample nor a continuous interval. -/
theorem latest_next_of_wakes (hv : s.server? tid = some v) (hwakes : s.Wakes tid e) :
    (s.next σ e tid v).latest = none ∧ (s.next σ e tid v).continuous = false := by
  obtain ⟨hidle, deadline, hnext⟩ := @next_of_wakes σ _ _ _ _ hv hwakes
  rw [hnext, Server.ready, if_pos hidle]
  exact ⟨rfl, rfl⟩

/-- The phase is kept, unless the entry interrupts the task or makes it ready. -/
theorem phase_next (hsample : ¬e.event.Samples tid) (hquiet : ¬s.Interrupts tid e)
    (hready : ∀ deadline utilization, e.event ≠ .servReady tid deadline utilization) :
    (s.next σ e tid v).phase = v.phase := by
  rcases next_cases σ s e v hsample with ⟨d, u, h, -⟩ | ⟨hint, -⟩ | ⟨-, -, d, hw⟩
  · exact absurd h (hready d u)
  · exact absurd hint hquiet
  · rw [hw]

/-! ## Intervals of a run -/

/-- What holds of all entries strictly between two places of a trace, each with the schedule before
it. -/
def Between (σ : Setting) (entries : Trace) (j i : Nat) (P : Schedule → Entry → Prop) : Prop :=
  ∀ k e, j < k → k < i → entries[k]? = some e → P (before σ entries k) e

variable {entries : Trace} {i j : Nat} {P Q : Schedule → Entry → Prop}

theorem Between.imp (h : Between σ entries j i P) (hPQ : ∀ s e, P s e → Q s e) :
    Between σ entries j i Q :=
  fun k e hj hi he => hPQ _ _ (h k e hj hi he)

theorem between_self : Between σ entries j (j + 1) P := fun _ _ hj hi => by omega

theorem between_succ (hji : j < i) (he : entries[i]? = some e) :
    Between σ entries j (i + 1) P ↔ Between σ entries j i P ∧ P (before σ entries i) e := by
  constructor
  · intro h
    exact ⟨fun k e hj hi => h k e hj (by omega), h i e hji (by omega) he⟩
  · rintro ⟨h, hP⟩ k e' hj hi he'
    rcases Nat.lt_or_eq_of_le (Nat.le_of_lt_succ hi) with hi | rfl
    · exact h k e' hj hi he'
    · obtain rfl := Option.some.inj (he.symm.trans he')
      exact hP

theorem samples_iff : e.event.Samples tid ↔
    ∃ time value bandwidth, e = ⟨time, .virtualTimeUpdate tid value bandwidth⟩ := by
  obtain ⟨time, event⟩ := e
  constructor
  · intro h
    cases event with
    | virtualTimeUpdate tid' value bandwidth =>
      obtain rfl : tid' = tid := h
      exact ⟨time, value, bandwidth, rfl⟩
    | _ => exact h.elim
  · rintro ⟨_, _, _, h⟩
    cases h
    rfl

theorem newcomer?_unmarked (h : σ.newcomer? e = some v) :
    v.latest = none ∧ v.continuous = false := by
  obtain ⟨time, event⟩ := e
  cases event with
  | jobArrival tid' =>
    obtain ⟨task, -, rfl⟩ := Option.map_eq_some_iff.1 h
    exact ⟨rfl, rfl⟩
  | servReady tid' deadline utilization =>
    cases h
    exact ⟨rfl, rfl⟩
  | _ => cases h

/-- The entry at place `j` samples a server, and is the last to do so before place `i`. -/
structure LastSample (σ : Setting) (entries : Trace) (tid j i : Nat) (sample : Sample) : Prop where
  /-- the sample is earlier -/
  earlier : j < i
  /-- it is what the entry at place `j` reports -/
  reported : ∃ bandwidth,
    entries[j]? = some ⟨sample.time, .virtualTimeUpdate tid sample.value bandwidth⟩
  /-- the task had a server by then -/
  tracked : ∃ w, (before σ entries j).server? tid = some w
  /-- no entry in between samples the task -/
  last : Between σ entries j i fun _ e => ¬e.event.Samples tid

variable {sample : Sample}

theorem LastSample.succ (h : LastSample σ entries tid j i sample) (he : entries[i]? = some e)
    (hsample : ¬e.event.Samples tid) : LastSample σ entries tid j (i + 1) sample :=
  ⟨Nat.lt_succ_of_lt h.earlier, h.reported, h.tracked,
    (between_succ h.earlier he).2 ⟨h.last, hsample⟩⟩

/-- A server right after a sample. -/
theorem server?_before_succ_of_sample {bandwidth : Option Float} {w : Server}
    (he : entries[j]? = some ⟨sample.time, .virtualTimeUpdate tid sample.value bandwidth⟩)
    (hw : (before σ entries j).server? tid = some w) :
    (before σ entries (j + 1)).server? tid =
      some (w.sample sample.time sample.value).restartInterval := by
  rw [before_succ he, server?_advance_of_some keyed_before hw, next_of_sample]

/-- **Marks come from samples.** A server with a last sample, or with the flag of continuity, was
sampled, and has not woken since. -/
theorem exists_lastSample (hi : i ≤ entries.length)
    (hv : (before σ entries i).server? tid = some v)
    (hmark : v.continuous = true ∨ v.latest ≠ none) :
    ∃ j sample, LastSample σ entries tid j i sample ∧
      Between σ entries j i fun s e => ¬s.Wakes tid e := by
  induction i generalizing v with
  | zero => cases hv
  | succ i ih =>
    have he : entries[i]? = some entries[i] := List.getElem?_eq_getElem hi
    rw [before_succ he] at hv
    cases hold : (before σ entries i).server? tid with
    | none =>
      -- A server that is created by the entry has no mark yet.
      rw [server?_advance_of_none keyed_before hold] at hv
      split_ifs at hv
      obtain ⟨hlatest, hcontinuous⟩ := newcomer?_unmarked hv
      simp [hlatest, hcontinuous] at hmark
    | some w =>
      rw [server?_advance_of_some keyed_before hold] at hv
      obtain rfl := Option.some.inj hv
      by_cases hsample : entries[i].event.Samples tid
      · -- This is the last sample.
        obtain ⟨time, value, bandwidth, heq⟩ := samples_iff.1 hsample
        exact ⟨i, ⟨time, value⟩, ⟨Nat.lt_succ_self i, ⟨bandwidth, he.trans (congrArg some heq)⟩,
          ⟨w, hold⟩, between_self⟩, between_self⟩
      · by_cases hwakes : (before σ entries i).Wakes tid entries[i]
        · -- A task that wakes has lost its marks.
          obtain ⟨hlatest, hcontinuous⟩ := @latest_next_of_wakes σ _ _ _ _ hold hwakes
          simp [hlatest, hcontinuous] at hmark
        · -- Any other entry adds no mark, so the server had one before.
          rw [continuous_next hold hsample, (latest_next hold hsample hwakes).1] at hmark
          obtain ⟨j, sample, hlast, hbetween⟩ :=
            ih (Nat.le_of_succ_le hi) hold (hmark.imp_left And.left)
          exact ⟨j, sample, hlast.succ he hsample,
            (between_succ hlast.earlier he).2 ⟨hbetween, hwakes⟩⟩

/-- **Flags say what has happened.** After a sample, and up to the next one, the flag of continuity
stands until an entry interrupts the task. As long as the task does not wake, the sample is kept and
the flag of membership is down until an entry unsettles it. -/
theorem server_since (h : LastSample σ entries tid j i sample) (hi : i ≤ entries.length) :
    ∃ v, (before σ entries i).server? tid = some v ∧
      (v.continuous = true ↔ Between σ entries j i fun s e => ¬s.Interrupts tid e) ∧
      ((Between σ entries j i fun s e => ¬s.Wakes tid e) →
        v.latest = some sample ∧ (v.membershipChanged = false ↔
          Between σ entries j i fun s e => s.unsettles σ tid e = false)) := by
  obtain ⟨hji, ⟨bandwidth, hej⟩, ⟨w, hw⟩, hlast⟩ := h
  -- The induction starts at the sample, which sets all marks, and adds one entry at a time.
  induction i, hji using Nat.le_induction with
  | base =>
    exact ⟨_, server?_before_succ_of_sample hej hw, ⟨fun _ => between_self, fun _ => rfl⟩,
      fun _ => ⟨rfl, ⟨fun _ => between_self, fun _ => rfl⟩⟩⟩
  | succ i hji ih =>
    have he : entries[i]? = some entries[i] := List.getElem?_eq_getElem hi
    obtain ⟨hlast, hsample⟩ := (between_succ hji he).1 hlast
    obtain ⟨v, hv, hcontinuous, hkept⟩ := ih (Nat.le_of_succ_le hi) hlast
    refine ⟨_, by rw [before_succ he, server?_advance_of_some keyed_before hv], ?_, fun hwakes => ?_⟩
    · rw [continuous_next hv hsample, between_succ hji he, hcontinuous]
    · obtain ⟨hbefore, hnow⟩ := (between_succ hji he).1 hwakes
      obtain ⟨hlatest, hchanged⟩ := hkept hbefore
      obtain ⟨hlatest', hchanged'⟩ := @latest_next σ _ _ _ _ hv hsample hnow
      rw [hlatest', hchanged', Bool.or_eq_false_iff, hchanged, between_succ hji he]
      exact ⟨hlatest, Iff.rfl⟩

end Schedule

end SchedAudit

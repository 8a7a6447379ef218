import SchedAudit.Proofs.Schedule.History

/-!
# Samples of virtual time

A server keeps two samples and a virtual time, which samples shift, which becoming ready clears, and
which nothing else touches. What they mean can be told from the trace: a task starts when it becomes
ready without a server or with an inactive one, and its samples are those taken of it since it
started last (`Trace.samples`). The server remembers the last two of them (`Server.Remembers`).
-/

namespace SchedAudit

open Schedule (before)

/-! ## What a server remembers -/

/-- A server remembers the last two of some samples, the last one first, and that its task started at
some time before them, if it has. -/
structure Server.Remembers (v : Server) (samples : List Sample) (start? : Option Float) : Prop where
  /-- the last sample -/
  latest : v.latest = samples[0]?
  /-- the last but one -/
  previous : v.previous = samples[1]?
  /-- virtual time goes on from the last sample, or else from the start of the task -/
  virtualTime : v.virtualTime = ((v.latest.map (·.value)).or start?).getD 0.0
  /-- a continuous interval begins with a sample -/
  continuous : v.continuous = true → v.latest ≠ none

namespace Server.Remembers

variable {v w : Server} {samples : List Sample} {start? : Option Float}

/-- Where there was a last but one sample there was a last one. -/
theorem latest_ne_none (h : v.Remembers samples start?) (hprevious : v.previous ≠ none) :
    v.latest ≠ none := by
  rw [h.previous] at hprevious
  rw [h.latest]
  cases samples with
  | nil => exact absurd rfl hprevious
  | cons sample samples => exact Option.some_ne_none sample

theorem sample (h : v.Remembers samples start?) (time value : Float) :
    (v.sample time value).restartInterval.Remembers (⟨time, value⟩ :: samples) start? where
  latest := rfl
  previous := h.latest
  virtualTime := rfl
  continuous := fun _ => Option.some_ne_none _

/-- A server that wakes has forgotten its samples. -/
theorem ready (hidle : v.phase = .inactive) (time deadline : Float) :
    (v.ready time deadline).Remembers [] (some time) := by
  rw [Server.ready, if_pos hidle]
  exact ⟨rfl, rfl, rfl, fun h => absurd h Bool.false_ne_true⟩

/-- What an entry may change about a server that it neither samples nor wakes. -/
theorem keep (h : v.Remembers samples start?) (hlatest : w.latest = v.latest)
    (hprevious : w.previous = v.previous) (hvirtual : w.virtualTime = v.virtualTime)
    (hcontinuous : w.continuous = true → v.continuous = true) : w.Remembers samples start? where
  latest := hlatest.trans h.latest
  previous := hprevious.trans h.previous
  virtualTime := by rw [hvirtual, h.virtualTime, hlatest]
  continuous := fun hw => hlatest ▸ h.continuous (hcontinuous hw)

end Server.Remembers

/-! ## Samples in a trace -/

/-- Whether a task starts by an entry: it becomes ready, and has had no server or an inactive one. -/
def Schedule.starts (tid : Nat) (s : Schedule) (e : Entry) : Bool :=
  match e.event with
  | .servReady tid' .. => tid' == tid && s.isIdle tid
  | _ => false

namespace Trace

/-- The place and the time at which a task started last before place `k`. -/
def started? (platform : Platform) (tasks : List Task) (entries : Trace) (tid k : Nat) :
    Option (Nat × Float) :=
  entries.latest? (fun j e =>
    if (before (.ofTrace platform tasks entries) entries j).starts tid e then some (j, e.time)
    else none) k

/-- The sample that the entry at place `k` takes of a task, if the task is tracked by then. -/
def sampleAt? (tasks : List Task) (entries : Trace) (tid k : Nat) (e : Entry) : Option Sample :=
  match e.event with
  | .virtualTimeUpdate tid' value _ =>
    if tid' = tid ∧ entries.tracks tasks tid k = true then some ⟨e.time, value⟩ else none
  | _ => none

/-- The samples that were taken of a task before place `k`, the last one first: those since it started
last, and all of them where it has not started. -/
def samples (platform : Platform) (tasks : List Task) (entries : Trace) (tid k : Nat) : List Sample :=
  let since := ((entries.started? platform tasks tid k).map (·.1 + 1)).getD 0
  entries.words (entries.sampleAt? tasks tid) since k

section Step

variable {platform : Platform} {tasks : List Task} {entries : Trace} {tid k : Nat} {e : Entry}

theorem started?_succ (he : entries[k]? = some e) :
    entries.started? platform tasks tid (k + 1) =
      if (before (.ofTrace platform tasks entries) entries k).starts tid e then some (k, e.time)
      else entries.started? platform tasks tid k := by
  rw [started?, latest?_succ he]
  split_ifs <;> rfl

/-- A task that starts has no samples yet. -/
theorem samples_succ_of_starts (he : entries[k]? = some e)
    (hstarts : (before (.ofTrace platform tasks entries) entries k).starts tid e = true) :
    entries.samples platform tasks tid (k + 1) = [] := by
  rw [samples, started?_succ he, if_pos hstarts]
  exact words_self

/-- Any other entry can only add one. -/
theorem samples_succ_of_not_starts (he : entries[k]? = some e)
    (hstarts : ¬(before (.ofTrace platform tasks entries) entries k).starts tid e = true) :
    entries.samples platform tasks tid (k + 1) =
      (entries.sampleAt? tasks tid k e).toList ++ entries.samples platform tasks tid k := by
  have hsince : ((entries.started? platform tasks tid k).map (·.1 + 1)).getD 0 ≤ k := by
    cases hstarted : entries.started? platform tasks tid k with
    | none => exact Nat.zero_le k
    | some start =>
      -- It started at an earlier place.
      obtain ⟨j, e', hj, -, hsaid, -⟩ := latest?_eq_some_iff.1 hstarted
      obtain ⟨-, hstart⟩ := Option.ite_none_right_eq_some.1 hsaid
      obtain rfl := Option.some.inj hstart
      exact hj
  rw [samples, started?_succ he, if_neg hstarts]
  exact words_succ hsince he

theorem sampleAt?_of_not_samples (hsample : ¬e.event.Samples tid) :
    entries.sampleAt? tasks tid k e = none := by
  obtain ⟨time, event⟩ := e
  cases event with
  | virtualTimeUpdate tid' value bandwidth => exact if_neg fun h => hsample h.1
  | _ => rfl

/-- No sample is taken of a task that is not tracked. -/
theorem sampleAt?_of_not_tracks (h : entries.tracks tasks tid k = false) :
    entries.sampleAt? tasks tid k e = none := by
  obtain ⟨time, event⟩ := e
  cases event with
  | virtualTimeUpdate tid' value bandwidth => simp [sampleAt?, h]
  | _ => rfl

end Step

end Trace

namespace Schedule

variable {σ : Setting} {s : Schedule} {e : Entry} {tid : Nat} {v : Server}

/-- A task with a server starts by waking. -/
theorem starts_iff_wakes (hv : s.server? tid = some v) : s.starts tid e = true ↔ s.Wakes tid e := by
  obtain ⟨time, event⟩ := e
  cases event with
  | servReady tid' deadline utilization => simp [starts, Wakes, isIdle, hv]
  | _ => simp [starts, Wakes]

/-- What an entry does to a server, it does to what the server remembers: the task starts afresh, or
a sample is added, or neither. -/
theorem remembers_next {samples : List Sample} {start? : Option Float}
    (h : v.Remembers samples start?) (hv : s.server? tid = some v) :
    (s.starts tid e = true → (s.next σ e tid v).Remembers [] (some e.time)) ∧
    (∀ time value bandwidth, e = ⟨time, .virtualTimeUpdate tid value bandwidth⟩ →
      (s.next σ e tid v).Remembers (⟨time, value⟩ :: samples) start?) ∧
    (¬s.starts tid e = true → ¬e.event.Samples tid →
      (s.next σ e tid v).Remembers samples start?) := by
  rw [starts_iff_wakes hv]
  refine ⟨fun hwakes => ?_, ?_, fun hwakes hsample => ?_⟩
  · obtain ⟨hidle, deadline, hnext⟩ := @next_of_wakes σ _ _ _ _ hv hwakes
    rw [hnext]
    exact .ready hidle e.time deadline
  · rintro time value bandwidth rfl
    rw [next_of_sample]
    exact h.sample time value
  · obtain ⟨hlatest, -⟩ := @latest_next σ _ _ _ _ hv hsample hwakes
    obtain ⟨hprevious, hvirtual⟩ := @previous_next σ _ _ _ _ hv hsample hwakes
    exact h.keep hlatest hprevious hvirtual fun hc => ((continuous_next hv hsample).1 hc).1

/-- A new server remembers the start of its task, if that has become ready. -/
theorem remembers_newcomer? (hnone : s.server? tid = none) (htask : e.event.task? = some tid)
    (h : σ.newcomer? e = some v) :
    v.Remembers [] (if s.starts tid e then some e.time else none) := by
  obtain ⟨time, event⟩ := e
  cases event with
  | jobArrival tid' =>
    obtain ⟨task, -, rfl⟩ := Option.map_eq_some_iff.1 h
    exact ⟨rfl, rfl, rfl, fun h => absurd h Bool.false_ne_true⟩
  | servReady tid' deadline utilization =>
    obtain rfl := Option.some.inj htask
    have hstarts : s.starts tid' ⟨time, .servReady tid' deadline utilization⟩ = true := by
      simp [starts, isIdle, hnone]
    cases h
    rw [if_pos hstarts]
    exact .ready rfl time deadline
  | _ => cases h

/-- A task that starts has a server from then on. -/
theorem exists_newcomer? (σ : Setting) (hstarts : s.starts tid e = true) :
    e.event.task? = some tid ∧ ∃ v, σ.newcomer? e = some v := by
  obtain ⟨time, event⟩ := e
  cases event with
  | servReady tid' deadline utilization =>
    obtain ⟨htid, -⟩ := Bool.and_eq_true_iff.1 hstarts
    exact ⟨congrArg some (beq_iff_eq.1 htid), _, rfl⟩
  | _ => cases hstarts

variable {platform : Platform} {tasks : List Task} {entries : Trace} {k : Nat}

/-- A schedule agrees with a trace on the samples of a task: its server remembers those that were taken
since it started, and without a server there is nothing to remember. -/
def AgreesOn (platform : Platform) (tasks : List Task) (entries : Trace) (tid k : Nat)
    (s : Schedule) : Prop :=
  match s.server? tid with
  | none => entries.samples platform tasks tid k = [] ∧ entries.started? platform tasks tid k = none
  | some v => v.Remembers (entries.samples platform tasks tid k)
      ((entries.started? platform tasks tid k).map (·.2))

/-- One more entry: a task that had no server. -/
theorem agreesOn_advance_of_none (he : entries[k]? = some e)
    (hnone : (before (.ofTrace platform tasks entries) entries k).server? tid = none)
    (h : AgreesOn platform tasks entries tid k (before (.ofTrace platform tasks entries) entries k)) :
    AgreesOn platform tasks entries tid (k + 1)
      ((before (.ofTrace platform tasks entries) entries k).advance
        (.ofTrace platform tasks entries) e) := by
  have hk : k ≤ entries.length := Nat.le_of_lt (List.getElem?_eq_some_iff.1 he).1
  have htracks : entries.tracks tasks tid k = false := by
    rw [← @isSome_server?_before platform tasks entries tid k hk, hnone]
    rfl
  rw [AgreesOn, hnone] at h
  obtain ⟨hsamples, hstarted⟩ := h
  -- Without a server no sample is taken, so there is none yet.
  have hsamples' : entries.samples platform tasks tid (k + 1) = [] := by
    by_cases hstarts : (before (.ofTrace platform tasks entries) entries k).starts tid e = true
    · exact Trace.samples_succ_of_starts he hstarts
    · rw [Trace.samples_succ_of_not_starts he hstarts, Trace.sampleAt?_of_not_tracks htracks,
        hsamples, Option.toList_none, List.append_nil]
  rw [AgreesOn, server?_advance_of_none keyed_before hnone, hsamples', Trace.started?_succ he,
    hstarted]
  split
  · rename_i hnew
    refine ⟨rfl, if_neg fun hstarts => ?_⟩
    obtain ⟨htask, v, hv⟩ := exists_newcomer? (.ofTrace platform tasks entries) hstarts
    rw [if_pos htask, hv] at hnew
    cases hnew
  · rename_i v hnew
    obtain ⟨htask, hnew⟩ := Option.ite_none_right_eq_some.1 hnew
    have hremembers := remembers_newcomer? hnone htask hnew
    split_ifs at hremembers ⊢
    · exact hremembers
    · exact hremembers

/-- One more entry: a task with a server. -/
theorem agreesOn_advance_of_some (he : entries[k]? = some e)
    (hv : (before (.ofTrace platform tasks entries) entries k).server? tid = some v)
    (h : AgreesOn platform tasks entries tid k (before (.ofTrace platform tasks entries) entries k)) :
    AgreesOn platform tasks entries tid (k + 1)
      ((before (.ofTrace platform tasks entries) entries k).advance
        (.ofTrace platform tasks entries) e) := by
  have hk : k ≤ entries.length := Nat.le_of_lt (List.getElem?_eq_some_iff.1 he).1
  have htracks : entries.tracks tasks tid k = true := by
    rw [← @isSome_server?_before platform tasks entries tid k hk, hv]
    rfl
  rw [AgreesOn, hv] at h
  obtain ⟨hfresh, hsampled, hkept⟩ := @remembers_next (.ofTrace platform tasks entries) _ e _ _ _ _ h hv
  rw [AgreesOn, server?_advance_of_some keyed_before hv, Trace.started?_succ he]
  by_cases hstarts : (before (.ofTrace platform tasks entries) entries k).starts tid e = true
  · rw [Trace.samples_succ_of_starts he hstarts, if_pos hstarts]
    exact hfresh hstarts
  rw [Trace.samples_succ_of_not_starts he hstarts, if_neg hstarts]
  by_cases hsample : e.event.Samples tid
  · obtain ⟨time, value, bandwidth, rfl⟩ := samples_iff.1 hsample
    have htaken : entries.sampleAt? tasks tid k ⟨time, .virtualTimeUpdate tid value bandwidth⟩ =
        some ⟨time, value⟩ := if_pos ⟨rfl, htracks⟩
    rw [htaken]
    exact hsampled time value bandwidth rfl
  · rw [Trace.sampleAt?_of_not_samples hsample]
    exact hkept hstarts hsample

/-- So the schedule agrees with the trace at every place. -/
theorem agreesOn_before (hk : k ≤ entries.length) :
    AgreesOn platform tasks entries tid k (before (.ofTrace platform tasks entries) entries k) := by
  refine before_induction (P := AgreesOn platform tasks entries tid) hk ⟨Trace.words_self, rfl⟩ ?_
  intro k e he ih
  cases hold : (before (.ofTrace platform tasks entries) entries k).server? tid with
  | none => exact agreesOn_advance_of_none he hold ih
  | some v => exact agreesOn_advance_of_some he hold ih

end Schedule

/-! ## Whole traces -/

/-- **What a server remembers of its virtual time.** Before each place of a trace, the server of a
task has the last two samples that were taken of it since it started last, and its virtual time is the
last of them, or else the time at which it started, or else zero. There is no last but one sample, and
no continuous interval, without a last one. -/
theorem server_remembers (platform : Platform) (tasks : List Task) (policy : Policy)
    (diagnoses : Bool) {entries : Trace} {i tid : Nat} {v : Server} (hi : i ≤ entries.length)
    (hv : (Audit.before platform tasks policy diagnoses entries i).schedule.server? tid = some v) :
    v.Remembers (entries.samples platform tasks tid i)
        ((entries.started? platform tasks tid i).map (·.2)) ∧
      (v.previous ≠ none → v.latest ≠ none) := by
  rw [Audit.schedule_before] at hv
  have h : Schedule.AgreesOn platform tasks entries tid i _ := Schedule.agreesOn_before hi
  rw [Schedule.AgreesOn, hv] at h
  exact ⟨h, h.latest_ne_none⟩

/-- A task is sampled before it is tracked, before it starts, and three times since. It becomes ready
again in between, which is no new start. -/
def sampledTrace : Trace :=
  [⟨0.0, .virtualTimeUpdate 1 9.0 none⟩, ⟨0.0, .jobArrival 1⟩, ⟨1.0, .virtualTimeUpdate 1 1.0 none⟩,
    ⟨2.0, .servReady 1 10.0 0.5⟩, ⟨3.0, .virtualTimeUpdate 1 4.0 none⟩,
    ⟨4.0, .virtualTimeUpdate 1 6.0 none⟩, ⟨5.0, .servReady 1 20.0 0.5⟩,
    ⟨6.0, .virtualTimeUpdate 1 8.0 none⟩]

theorem server_remembers_sampledTrace :
    8 ≤ sampledTrace.length ∧
      ∃ v, (Audit.before .twin [⟨1, 0.5, 8.0, [0.0]⟩] .grub false sampledTrace 8).schedule.server? 1 =
          some v ∧
        v.latest = some ⟨6.0, 8.0⟩ ∧ v.previous = some ⟨4.0, 6.0⟩ ∧ v.virtualTime = 8.0 := by
  have hi : 8 ≤ sampledTrace.length := by decide
  refine ⟨hi, _, rfl, ?_⟩
  obtain ⟨h, -⟩ :=
    @server_remembers .twin [⟨1, 0.5, 8.0, [0.0]⟩] .grub false sampledTrace 8 1 _ hi rfl
  have hsamples : sampledTrace.samples .twin [⟨1, 0.5, 8.0, [0.0]⟩] 1 8 =
      [⟨6.0, 8.0⟩, ⟨4.0, 6.0⟩, ⟨3.0, 4.0⟩] := rfl
  rw [hsamples] at h
  exact ⟨h.latest, h.previous, h.virtualTime.trans (by rw [h.latest]; rfl)⟩

end SchedAudit

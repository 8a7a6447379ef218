import SchedAudit.Proofs.Audit.Entries
import SchedAudit.Proofs.Schedule.Membership

/-!
# The life cycle of a server

A server is awake as long as it is not inactive, and attached as long as it counts for its cluster.
These are two fields, and each event sets them as it likes: becoming ready attaches, leaving detaches,
and three events wake a server up without attaching it. Still, whether a server starts afresh when it
becomes ready is decided by its phase alone, and so is whether the others on its cluster hear of it.

That is right as long as the simulator wakes servers up only by letting them become ready
(`Trace.WakesByReadiness`). Then who is awake is attached, along the whole trace, and so who attaches was
inactive: it starts with the time of day and nothing else, and all the others on its cluster hear of it
(`life_cycle`).
-/

namespace SchedAudit

/-- The task whose server an event finds awake, if the simulator is right. -/
def Event.resumed? : Event → Option Nat
  | .servRunning tid | .servNonCont tid | .taskPreempted tid => some tid
  | _ => none

/-- A server that has just started: its virtual time is the time of day, and there are neither samples
nor anything that is said about the time since a sample. -/
structure Server.IsFresh (v : Server) (time : Float) : Prop where
  virtualTime : v.virtualTime = time
  previous : v.previous = none
  latest : v.latest = none
  continuous : v.continuous = false
  membershipChanged : v.membershipChanged = false

variable {σ : Setting} {s : Schedule} {e : Entry} {entries : Trace} {tid other : Nat} {v w : Server}

theorem Event.task?_of_resumed? {event : Event} (h : event.resumed? = some tid) :
    event.task? = some tid := by
  cases event <;> first | exact h | cases h

namespace Server

theorem isFresh_ready (h : v.phase = .inactive) (time deadline : Float) :
    (v.ready time deadline).IsFresh time := by
  rw [ready, if_pos h]
  exact ⟨rfl, rfl, rfl, rfl, rfl⟩

/-- A server that is attached whenever it is awake. -/
def AttachedIfAwake (v : Server) : Prop := v.phase ≠ .inactive → v.attached = true

theorem AttachedIfAwake.noted (h : v.AttachedIfAwake) (announced : Bool) :
    (v.noted announced).AttachedIfAwake := h

/-- Only the three events that expect a server to be awake could wake it up without attaching it. -/
theorem AttachedIfAwake.react (h : v.AttachedIfAwake)
    (hresumed : e.event.resumed?.isSome = true → v.phase ≠ .inactive) :
    (v.react σ e).AttachedIfAwake := by
  obtain ⟨time, event⟩ := e
  intro hawake
  cases event with
  | servReady tid deadline utilization => exact v.attached_ready time deadline
  | servInactive tid =>
    refine absurd ?_ hawake
    change (v.deactivate _).phase = .inactive
    rw [deactivate]
    split_ifs <;> rfl
  | servRunning | servNonCont | taskPreempted => exact h (hresumed rfl)
  | _ => exact h hawake

end Server

theorem Setting.attachedIfAwake_newcomer? (h : σ.newcomer? e = some v) : v.AttachedIfAwake := by
  obtain ⟨time, event⟩ := e
  intro hawake
  cases event with
  | jobArrival tid =>
    obtain ⟨task, -, rfl⟩ := Option.map_eq_some_iff.1 h
    exact absurd rfl hawake
  | servReady tid deadline utilization =>
    cases h
    rfl
  | _ => cases h

namespace Schedule

/-- Who is awake is attached. -/
def AwakeAttached (s : Schedule) : Prop := ∀ tid v, s.server? tid = some v → v.AttachedIfAwake

theorem awakeAttached_start : ({} : Schedule).AwakeAttached := fun _ _ hv => nomatch hv

/-- An entry finds the server that it expects to be awake so, if there is one. -/
def FindsAwake (s : Schedule) (e : Entry) : Prop :=
  ∀ tid v, e.event.resumed? = some tid → s.server? tid = some v → v.phase ≠ .inactive

theorem AwakeAttached.advance (hs : s.Keyed) (h : s.AwakeAttached) (he : s.FindsAwake e) :
    (s.advance σ e).AwakeAttached := by
  intro tid w hw
  cases hv : s.server? tid with
  | some v =>
    rw [server?_advance_of_some hs hv, next] at hw
    obtain rfl := Option.some.inj hw
    split_ifs with htask
    · refine (h tid v hv).react fun hresumed => ?_
      obtain ⟨tid', htid'⟩ := Option.isSome_iff_exists.1 hresumed
      obtain rfl : tid' = tid := Option.some.inj ((Event.task?_of_resumed? htid').symm.trans htask)
      exact he tid' v htid' hv
    · exact (h tid v hv).noted _
  | none =>
    rw [server?_advance_of_none hs hv] at hw
    split_ifs at hw
    exact Setting.attachedIfAwake_newcomer? hw

/-! ## Attaching -/

theorem isIdle_of_not_isAttached (h : s.AwakeAttached) (hdetached : ¬s.IsAttached tid) :
    s.isIdle tid = true := by
  rw [isIdle_iff]
  intro v hv
  by_contra hawake
  exact hdetached ⟨v, hv, h tid v hv hawake⟩

/-- Who was inactive starts afresh. -/
theorem isFresh_advance (hs : s.Keyed) (hready : Readies e tid) (hidle : s.isIdle tid = true) :
    ∃ v, (s.advance σ e).server? tid = some v ∧ v.IsFresh e.time := by
  have htask := hready.task?
  obtain ⟨time, event⟩ := e
  obtain ⟨deadline, utilization, rfl⟩ := hready
  cases hv : s.server? tid with
  | some v =>
    rw [server?_advance_of_some hs hv, next, if_pos htask]
    exact ⟨_, rfl, Server.isFresh_ready (isIdle_iff.1 hidle v hv) time deadline⟩
  | none =>
    rw [server?_advance_of_none hs hv, if_pos htask]
    exact ⟨_, rfl, Server.isFresh_ready rfl time deadline⟩

/-- When a server joins a declared cluster, all the others there hear of it. -/
theorem membershipChanged_of_readies (hs : s.Keyed) (hready : Readies e tid)
    (hidle : s.isIdle tid = true) {c : Nat} (hplaced : s.placement? tid = some c)
    (hdeclared : (σ.platform.cluster? c).isSome = true) (hother : other ≠ tid)
    (hw : (s.advance σ e).server? other = some w) (hattached : w.attached = true)
    (hbeside : s.placement? other = some c) : w.membershipChanged = true := by
  obtain ⟨deadline, utilization, hevent⟩ := hready
  have htask : e.event.task? ≠ some other := by
    rw [hevent]
    exact fun h => hother (Option.some.inj h).symm
  rw [server?_advance hs, if_neg htask] at hw
  obtain ⟨v, hv, rfl⟩ := Option.map_eq_some_iff.1 hw
  have hannounced : s.announced? σ e = some c :=
    announced?_eq_some_iff.2 (.inl ⟨tid, deadline, utilization, hevent, hidle, hplaced, hdeclared⟩)
  have hhears : s.hears σ e other = true := hears_iff.2 ⟨c, v, hannounced, hv, hattached, hbeside⟩
  rw [hhears]
  exact Bool.or_true _

end Schedule

/-! ## Whole traces -/

/-- A simulator that wakes servers up by letting them become ready, and in no other way. -/
def Trace.WakesByReadiness (σ : Setting) (entries : Trace) : Prop :=
  ∀ k e, entries[k]? = some e → (Schedule.before σ entries k).FindsAwake e

theorem Schedule.awakeAttached_before (h : entries.WakesByReadiness σ) {k : Nat}
    (hk : k ≤ entries.length) : (before σ entries k).AwakeAttached :=
  before_induction (P := fun _ s => s.AwakeAttached) hk awakeAttached_start
    fun k e he ih => ih.advance keyed_before (h k e he)

/-- **Who is awake is attached, and who attaches starts afresh.** If servers are woken up by becoming
ready only, then before each place of a trace the servers that are awake are attached. A server attaches
by becoming ready, and then it has the time of day as its virtual time, no samples, and neither flag;
where it is placed on a declared cluster, all the others attached there have heard of it. -/
theorem life_cycle (platform : Platform) (tasks : List Task) (policy : Policy) (diagnoses : Bool)
    {entries : Trace} (hwakes : entries.WakesByReadiness (.ofTrace platform tasks entries)) :
    let schedule (k : Nat) := (Audit.before platform tasks policy diagnoses entries k).schedule
    (∀ k tid v, k ≤ entries.length → (schedule k).server? tid = some v → v.phase ≠ .inactive →
      v.attached = true) ∧
      ∀ k e tid, entries[k]? = some e → ¬(schedule k).IsAttached tid →
        (schedule (k + 1)).IsAttached tid →
          Schedule.Readies e tid ∧
            (∃ v, (schedule (k + 1)).server? tid = some v ∧ v.IsFresh e.time) ∧
            ∀ c, (schedule (k + 1)).placement? tid = some c → (platform.cluster? c).isSome = true →
              ∀ other w, other ≠ tid → (schedule (k + 1)).server? other = some w →
                w.attached = true → (schedule (k + 1)).placement? other = some c →
                w.membershipChanged = true := by
  intro schedule
  have hschedule (k : Nat) : schedule k =
      Schedule.before (.ofTrace platform tasks entries) entries k := Audit.schedule_before k
  refine ⟨?_, ?_⟩
  · intro k tid v hk hv
    rw [hschedule] at hv
    exact Schedule.awakeAttached_before hwakes hk tid v hv
  · intro k e tid he hdetached hattached
    have hk : k ≤ entries.length := Nat.le_of_lt (List.getElem?_eq_some_iff.1 he).1
    have hkeyed : (Schedule.before (.ofTrace platform tasks entries) entries k).Keyed :=
      Schedule.keyed_before
    rw [hschedule] at hdetached
    simp only [hschedule, Schedule.before_succ he] at hattached ⊢
    have hready : Schedule.Readies e tid :=
      ((Schedule.isAttached_advance_iff hkeyed).1 hattached).resolve_right
        fun h => hdetached h.1
    have hidle := Schedule.isIdle_of_not_isAttached (Schedule.awakeAttached_before hwakes hk) hdetached
    refine ⟨hready, Schedule.isFresh_advance hkeyed hready hidle, ?_⟩
    intro c hplaced hdeclared other w hother hw hattached' hbeside
    -- Becoming ready places nobody.
    rw [Schedule.placement?_advance, hready.placedAt?, Option.none_or] at hplaced hbeside
    exact Schedule.membershipChanged_of_readies hkeyed hready hidle hplaced hdeclared hother hw
      hattached' hbeside

/-- A task runs, and another one joins it on its cluster. -/
def wakingTrace : Trace :=
  [⟨0.0, .taskPlaced 1 0⟩, ⟨0.0, .taskPlaced 2 0⟩, ⟨0.0, .servReady 1 10.0 0.5⟩,
    ⟨0.0, .servRunning 1⟩, ⟨1.0, .servReady 2 9.0 0.25⟩]

theorem life_cycle_wakingTrace :
    let schedule (k : Nat) := (Audit.before .twin [] .grub false wakingTrace k).schedule
    wakingTrace.WakesByReadiness (.ofTrace .twin [] wakingTrace) ∧
      ¬(schedule 4).IsAttached 2 ∧ (schedule 5).IsAttached 2 ∧
      (∃ v, (schedule 5).server? 2 = some v ∧ v.IsFresh 1.0) ∧
      ∃ w, (schedule 5).server? 1 = some w ∧ w.phase = .running ∧ w.attached = true ∧
        w.membershipChanged = true := by
  intro schedule
  have hwakes : wakingTrace.WakesByReadiness (.ofTrace .twin [] wakingTrace) := by
    intro k e he tid v hresumed hv
    match k with
    | 0 | 1 | 2 | 4 =>
      cases he
      cases hresumed
    | 3 =>
      cases he
      cases hresumed
      cases hv
      decide
    | k + 5 => cases he
  have hdetached : ¬(schedule 4).IsAttached 2 := by
    rintro ⟨v, hv, -⟩
    cases hv
  have hattached : (schedule 5).IsAttached 2 := ⟨_, rfl, rfl⟩
  obtain ⟨hawake, hattach⟩ := life_cycle .twin [] .grub false hwakes
  obtain ⟨-, hfresh, hheard⟩ := hattach 4 _ 2 rfl hdetached hattached
  obtain ⟨w, hw, hphase⟩ : ∃ w, (schedule 5).server? 1 = some w ∧ w.phase = .running :=
    ⟨_, rfl, rfl⟩
  have hattached' : w.attached = true :=
    hawake 5 1 w (Nat.le_refl _) hw (by rw [hphase]; exact Phase.noConfusion)
  exact ⟨hwakes, hdetached, hattached, hfresh, w, hw, hphase, hattached',
    hheard 0 rfl rfl 1 w (by decide) hw hattached' rfl⟩

end SchedAudit

import Mathlib.Tactic.SplitIfs
import SchedAudit.Schedule

/-!
# What one entry does

An entry names at most one task, and there are three ways in which it reaches the servers:

* the server of the task that it names answers it (`Server.answer`), whatever else there is;
* a task without a server gets one from an arrival or from becoming ready (`Setting.newcomer?`);
* an entry that lets a task join or leave a cluster is announced there (`Schedule.announced?`), and
  the announcement sets the flag `membershipChanged` of the *other* attached servers, nothing more.

`server?_apply` puts these together, and the equations for placements, watermarks and frequencies
stand beside it. All later proofs read what an entry does from here and unfold no effect.
-/

namespace SchedAudit

/-! ## Servers and their tasks -/

/-- The cluster that an event puts a task on. -/
def Event.placedAt? (event : Event) (tid : Nat) : Option Nat :=
  match event with
  | .taskPlaced tid' c | .migrationCluster tid' c => if tid' = tid then some c else none
  | _ => none

/-- Each server stands at the number of its task. -/
def Schedule.Keyed (s : Schedule) : Prop := ∀ tid v, s.server? tid = some v → v.tid = tid

namespace Server

variable (v : Server)

@[simp] theorem tid_interrupt (p : Phase) : (v.interrupt p).tid = v.tid := rfl

@[simp] theorem tid_postpone (deadline : Float) : (v.postpone deadline).tid = v.tid := rfl

@[simp] theorem tid_sample (time value : Float) : (v.sample time value).tid = v.tid := rfl

@[simp] theorem tid_restartInterval : v.restartInterval.tid = v.tid := rfl

@[simp] theorem tid_noteMembership : v.noteMembership.tid = v.tid := rfl

@[simp] theorem tid_ready (time deadline : Float) : (v.ready time deadline).tid = v.tid := by
  rw [ready]
  split_ifs <;> rfl

@[simp] theorem tid_deactivate (leaves : Bool) : (v.deactivate leaves).tid = v.tid := by
  rw [deactivate]
  split_ifs <;> rfl

@[simp] theorem deadline_ready (time deadline : Float) :
    (v.ready time deadline).deadline = deadline := by
  rw [ready]
  split_ifs <;> rfl

@[simp] theorem attached_ready (time deadline : Float) :
    (v.ready time deadline).attached = true := by
  rw [ready]
  split_ifs <;> rfl

@[simp] theorem phase_ready (time deadline : Float) : (v.ready time deadline).phase = .ready := by
  rw [ready]
  split_ifs <;> rfl

@[simp] theorem deadline_deactivate (leaves : Bool) :
    (v.deactivate leaves).deadline = v.deadline := by
  rw [deactivate]
  split_ifs <;> rfl

@[simp] theorem phase_deactivate (leaves : Bool) : (v.deactivate leaves).phase = .inactive := by
  rw [deactivate]
  split_ifs <;> rfl

/-- What a server makes of an entry that names its task. -/
def answer (σ : Setting) (e : Entry) : Server :=
  match e.event with
  | .taskPreempted _ => v.interrupt .ready
  | .servReady _ deadline _ => v.ready e.time deadline
  | .servRunning _ => v.interrupt .running
  | .servNonCont _ => v.interrupt .nonContinuing
  | .servInactive tid => v.deactivate (!σ.hasFutureJob tid e.time)
  | .servPostpone _ deadline => v.postpone deadline
  | .virtualTimeUpdate _ value _ => v.sample e.time value
  | _ => v

@[simp] theorem tid_answer (σ : Setting) (e : Entry) : (v.answer σ e).tid = v.tid := by
  rw [answer]
  split <;> simp

/-- What a server makes of it all in all: after a sample it also starts a new interval. -/
def react (σ : Setting) (e : Entry) : Server :=
  match e.event with
  | .virtualTimeUpdate .. => (v.answer σ e).restartInterval
  | _ => v.answer σ e

@[simp] theorem tid_react (σ : Setting) (e : Entry) : (v.react σ e).tid = v.tid := by
  rw [react]
  split <;> simp

/-- A server with the flag of an announcement, where there was one. -/
def noted (announced : Bool) : Server :=
  { v with membershipChanged := v.membershipChanged || announced }

@[simp] theorem tid_noted (announced : Bool) : (v.noted announced).tid = v.tid := rfl

@[simp] theorem noted_false : v.noted false = v := by
  simp [noted]

end Server

/-- The server that an entry gives to a task without one. -/
def Setting.newcomer? (σ : Setting) (e : Entry) : Option Server :=
  match e.event with
  | .jobArrival tid =>
    (σ.tasks.find? tid).map fun task =>
      { tid := tid, utilization := task.utilization, period := task.period }
  | .servReady tid deadline utilization =>
    some (Server.ready { tid := tid, utilization := utilization, period := σ.periodOf tid }
      e.time deadline)
  | _ => none

theorem Setting.tid_newcomer? {σ : Setting} {e : Entry} {v : Server} {tid : Nat}
    (h : σ.newcomer? e = some v) (htask : e.event.task? = some tid) : v.tid = tid := by
  obtain ⟨time, event⟩ := e
  cases event with
  | jobArrival tid' =>
    cases htask
    obtain ⟨task, -, rfl⟩ := Option.map_eq_some_iff.1 h
    rfl
  | servReady tid' deadline utilization =>
    cases htask
    cases h
    rw [Server.tid_ready]
  | _ => cases h

namespace Schedule

variable {σ : Setting} {s : Schedule}

/-! ## Announcements and admissions -/

/-- Whether a task becomes ready afresh: it has no server, or an inactive one. -/
def isIdle (s : Schedule) (tid : Nat) : Bool := (s.server? tid).all (·.phase == .inactive)

/-- The cluster whose attached servers hear that the task of an entry joins or leaves it. -/
def announced? (σ : Setting) (s : Schedule) (e : Entry) : Option Nat :=
  match e.event with
  | .servReady tid _ _ => if s.isIdle tid then (s.clusterOf? σ tid).map (·.id) else none
  | .servInactive tid =>
    if (s.server? tid).isSome && !σ.hasFutureJob tid e.time then s.placement? tid else none
  | _ => none

/-- The cluster that an entry admits a server to, and the utilization of that server. -/
def admission? (σ : Setting) (s : Schedule) (e : Entry) : Option (Cluster × Float) :=
  match e.event with
  | .servReady tid _ utilization => (s.clusterOf? σ tid).map (·, utilization)
  | _ => none

/-- Whether the server of a task hears the announcement of an entry about another task. -/
def hears (σ : Setting) (s : Schedule) (e : Entry) (tid : Nat) : Bool :=
  match s.announced? σ e, s.server? tid with
  | some c, some v => v.attached && s.placement? tid == some c
  | _, _ => false

/-! ## Single effects -/

theorem server?_insert (s : Schedule) (tid tid' : Nat) (v : Server) :
    Schedule.server? { s with servers := s.servers.insert tid v } tid' =
      if tid' = tid then some v else s.server? tid' :=
  s.servers.find?_insert tid tid' v

theorem server?_modifyServer (s : Schedule) (tid tid' : Nat) (f : Server → Server) :
    (s.modifyServer tid f).server? tid' =
      if tid' = tid then (s.server? tid).map f else s.server? tid' :=
  s.servers.find?_modify tid tid' f

@[simp] theorem server?_raiseWatermark (s : Schedule) (c tid : Nat) (u : Float) :
    (s.raiseWatermark c u).server? tid = s.server? tid := rfl

@[simp] theorem placement?_raiseWatermark (s : Schedule) (c tid : Nat) (u : Float) :
    (s.raiseWatermark c u).placement? tid = s.placement? tid := rfl

theorem Keyed.insert (hs : s.Keyed) {tid : Nat} {v : Server} (hv : v.tid = tid) :
    Keyed { s with servers := s.servers.insert tid v } := by
  intro tid' w hw
  rw [server?_insert] at hw
  split_ifs at hw with h
  · cases hw
    rw [hv, h]
  · exact hs tid' w hw

theorem Keyed.raiseWatermark (hs : s.Keyed) (c : Nat) (u : Float) :
    (s.raiseWatermark c u).Keyed := hs

/-- Only the other attached servers of the cluster hear of a change. -/
theorem server?_noteMembership (hs : s.Keyed) (c changed tid : Nat) :
    (s.noteMembership c changed).server? tid = (s.server? tid).map fun v =>
      v.noted (decide (tid ≠ changed ∧ v.attached ∧ s.placement? tid = some c)) := by
  rw [server?, noteMembership, Table.find?_map]
  refine Option.map_congr fun v hv => ?_
  rw [hs tid v hv]
  split_ifs with h
  · simp [Server.noted, Server.noteMembership, h]
  · rw [decide_eq_false h, Server.noted_false]

/-! ## The effect on servers -/

theorem server?_onJobArrival (σ : Setting) (s : Schedule) (tid tid' : Nat) :
    (s.onJobArrival σ tid).server? tid' =
      if tid' = tid then (s.server? tid).or ((σ.tasks.find? tid).map fun task =>
        { tid := tid, utilization := task.utilization, period := task.period })
      else s.server? tid' := by
  rw [onJobArrival]
  split
  · next task hv htask =>
    rw [server?_insert, hv, htask]
    rfl
  · next hnew =>
    split_ifs with h
    · subst h
      cases hv : s.server? tid' with
      | some v => rfl
      | none =>
        cases htask : σ.tasks.find? tid' with
        | some task => exact absurd htask (hnew task hv)
        | none => rfl
    · rfl

theorem server?_onPreempted (s : Schedule) (tid tid' : Nat) :
    (s.onPreempted tid).server? tid' =
      if tid' = tid then (s.server? tid).map (·.interrupt .ready) else s.server? tid' := by
  rw [onPreempted, server?_modifyServer]
  cases s.processors.keyWhere? (· == some tid) <;> rfl

theorem isIdle_iff {tid : Nat} :
    s.isIdle tid = true ↔ ∀ v, s.server? tid = some v → v.phase = .inactive := by
  rw [isIdle]
  cases s.server? tid <;> simp

theorem hears_iff {e : Entry} {tid : Nat} :
    s.hears σ e tid = true ↔ ∃ c v, s.announced? σ e = some c ∧ s.server? tid = some v ∧
      v.attached = true ∧ s.placement? tid = some c := by
  rw [hears]
  cases s.announced? σ e <;> cases s.server? tid <;> simp

theorem hears_eq_decide {e : Entry} {tid c : Nat} {v : Server} (hc : s.announced? σ e = some c)
    (hv : s.server? tid = some v) :
    s.hears σ e tid = decide (v.attached ∧ s.placement? tid = some c) := by
  rw [Bool.eq_iff_iff, hears_iff, decide_eq_true_iff, hc, hv]
  simp

/-- **What is announced:** that a task without an active server becomes ready on a declared cluster,
or that a server goes inactive for good. -/
theorem announced?_eq_some_iff {e : Entry} {c : Nat} :
    s.announced? σ e = some c ↔
      (∃ tid deadline utilization, e.event = .servReady tid deadline utilization ∧
        s.isIdle tid = true ∧ s.placement? tid = some c ∧ (σ.platform.cluster? c).isSome = true) ∨
      ∃ tid, e.event = .servInactive tid ∧ (s.server? tid).isSome = true ∧
        σ.hasFutureJob tid e.time = false ∧ s.placement? tid = some c := by
  obtain ⟨time, event⟩ := e
  cases event with
  | servReady tid deadline utilization =>
    have hcluster : (s.clusterOf? σ tid).map (·.id) = some c ↔
        s.placement? tid = some c ∧ (σ.platform.cluster? c).isSome = true := by
      rw [clusterOf?, Option.map_eq_some_iff]
      constructor
      · rintro ⟨cluster, hcluster, rfl⟩
        obtain ⟨c', hc', hfound⟩ := Option.bind_eq_some_iff.1 hcluster
        rw [Platform.id_of_cluster? hfound]
        exact ⟨hc', Option.isSome_of_eq_some hfound⟩
      · rintro ⟨hc, hsome⟩
        obtain ⟨cluster, hfound⟩ := Option.isSome_iff_exists.1 hsome
        exact ⟨cluster, by rw [hc]; exact hfound, Platform.id_of_cluster? hfound⟩
    simp only [announced?, Event.servReady.injEq, reduceCtorEq, false_and, exists_false, or_false]
    split_ifs with hidle
    · -- the task becomes ready afresh
      rw [hcluster]
      constructor
      · intro h
        exact ⟨tid, deadline, utilization, ⟨rfl, rfl, rfl⟩, hidle, h⟩
      · rintro ⟨_, _, _, ⟨rfl, -, -⟩, -, h⟩
        exact h
    · constructor
      · rintro ⟨⟩
      · rintro ⟨_, _, _, ⟨rfl, -, -⟩, h, -⟩
        exact absurd h hidle
  | servInactive tid =>
    simp only [announced?, reduceCtorEq, false_and, exists_false, false_or, Event.servInactive.injEq,
      exists_eq_left']
    split_ifs with h
    · simp_all
    · constructor
      · rintro ⟨⟩
      · rintro ⟨hsome, hfuture, -⟩
        simp [hsome, hfuture] at h
  | _ =>
    constructor
    · rintro ⟨⟩
    · rintro (⟨_, _, _, h, -⟩ | ⟨_, h, -⟩) <;> cases h

/-- The server that becomes ready: the one of the task, or a new one. -/
def readyServer (σ : Setting) (s : Schedule) (tid : Nat) (utilization : Float) : Server :=
  (s.server? tid).getD { tid := tid, utilization := utilization, period := σ.periodOf tid }

theorem tid_readyServer (hs : s.Keyed) (tid : Nat) (utilization : Float) :
    (s.readyServer σ tid utilization).tid = tid := by
  rw [readyServer]
  cases hv : s.server? tid with
  | none => rfl
  | some v => exact hs tid v hv

theorem phase_readyServer (tid : Nat) (utilization : Float) :
    (s.readyServer σ tid utilization).phase = .inactive ↔ s.isIdle tid = true := by
  rw [readyServer, isIdle]
  cases s.server? tid <;> simp

/-- A schedule in which a server has become ready, and nobody has heard of it yet. -/
def joined (σ : Setting) (s : Schedule) (time : Float) (tid : Nat) (deadline utilization : Float) :
    Schedule :=
  { s with
    servers := s.servers.insert tid ((s.readyServer σ tid utilization).ready time deadline) }

theorem keyed_joined (hs : s.Keyed) (time : Float) (tid : Nat) (deadline utilization : Float) :
    (s.joined σ time tid deadline utilization).Keyed := by
  refine hs.insert ?_
  rw [Server.tid_ready, tid_readyServer hs]

theorem server?_joined (time : Float) (tid tid' : Nat) (deadline utilization : Float) :
    (s.joined σ time tid deadline utilization).server? tid' =
      if tid' = tid then some ((s.readyServer σ tid utilization).ready time deadline)
      else s.server? tid' :=
  server?_insert s tid tid' _

@[simp] theorem placement?_joined (time : Float) (tid tid' : Nat) (deadline utilization : Float) :
    (s.joined σ time tid deadline utilization).placement? tid' = s.placement? tid' := rfl

theorem onReady_eq (σ : Setting) (s : Schedule) (time : Float) (tid : Nat)
    (deadline utilization : Float) :
    s.onReady σ time tid deadline utilization =
      match s.clusterOf? σ tid with
      | none => s.joined σ time tid deadline utilization
      | some cluster =>
        if s.isIdle tid then
          ((s.joined σ time tid deadline utilization).raiseWatermark cluster.id
            (cluster.scaleUtilization utilization)).noteMembership cluster.id tid
        else
          (s.joined σ time tid deadline utilization).raiseWatermark cluster.id
            (cluster.scaleUtilization utilization) := by
  change (match s.clusterOf? σ tid with
    | none => _
    | some cluster => if (s.readyServer σ tid utilization).phase = Phase.inactive then _ else _) = _
  cases s.clusterOf? σ tid with
  | none => rfl
  | some cluster =>
    simp only [phase_readyServer]
    rfl

theorem server?_onReady (hs : s.Keyed) (time : Float) (tid tid' : Nat)
    (deadline utilization : Float) :
    (s.onReady σ time tid deadline utilization).server? tid' =
      if tid' = tid then some ((s.readyServer σ tid utilization).ready time deadline)
      else (s.server? tid').map
        (·.noted (s.hears σ ⟨time, .servReady tid deadline utilization⟩ tid')) := by
  have hkeyed (c : Nat) (u : Float) := (keyed_joined (σ := σ) hs time tid deadline
    utilization).raiseWatermark c u
  rw [onReady_eq]
  cases hcluster : s.clusterOf? σ tid with
  | none =>
    -- Without a declared cluster nothing is announced.
    simp only [server?_joined]
    split_ifs with h
    · rfl
    · simp [hears, announced?, hcluster]
  | some cluster =>
    simp only
    split_ifs with hidle h
    · -- a server that joins does not hear of itself
      rw [server?_noteMembership (hkeyed _ _), server?_raiseWatermark, server?_joined, if_pos h]
      simp [h]
    · rw [server?_noteMembership (hkeyed _ _), server?_raiseWatermark, server?_joined, if_neg h]
      refine Option.map_congr fun v hv => ?_
      rw [hears_eq_decide (c := cluster.id) (by simp [announced?, hidle, hcluster]) hv]
      simp [h]
    · rw [server?_raiseWatermark, server?_joined, if_pos (by assumption)]
    · rw [server?_raiseWatermark, server?_joined, if_neg (by assumption)]
      simp [hears, announced?, hidle]

theorem server?_onInactive (hs : s.Keyed) (time : Float) (tid tid' : Nat) :
    (s.onInactive σ time tid).server? tid' =
      if tid' = tid then (s.server? tid).map (·.deactivate (!σ.hasFutureJob tid time))
      else (s.server? tid').map (·.noted (s.hears σ ⟨time, .servInactive tid⟩ tid')) := by
  rw [onInactive]
  cases hv : s.server? tid with
  | none =>
    split_ifs with h
    · rw [h, hv]
      rfl
    · simp [hears, announced?, hv]
  | some v =>
    have hidle := hs.insert (v := v.deactivate (!σ.hasFutureJob tid time))
      (by rw [Server.tid_deactivate, hs tid v hv])
    simp only
    split
    · -- the server leaves, and its cluster hears of it
      next c hleaves hc =>
      rw [hleaves] at hidle ⊢
      rw [server?_noteMembership hidle, server?_insert]
      split_ifs with h
      · simp [h]
      · refine Option.map_congr fun w hw => ?_
        rw [hears_eq_decide (c := c) (by simp_all [announced?]) hw]
        simp only [h, ne_eq, not_false_eq_true, true_and]
        rfl
    · -- it stays, or it is on no cluster
      next hstay =>
      rw [server?_insert]
      split_ifs with h
      · rfl
      · have hnone : s.announced? σ ⟨time, .servInactive tid⟩ = none := by
          cases hfuture : σ.hasFutureJob tid time with
          | true => simp [announced?, hfuture]
          | false =>
            cases hc : s.placement? tid with
            | none => simp [announced?, hc]
            | some c => exact absurd hc (hstay c (by rw [hfuture]; rfl))
        simp [hears, hnone]

/-- **What an entry makes of the servers.** The server of the task that it names answers, or is
created; any other server at most hears of a change in its cluster. -/
theorem server?_apply (hs : s.Keyed) (e : Entry) (tid : Nat) :
    (s.apply σ e).server? tid =
      if e.event.task? = some tid then ((s.server? tid).map (·.answer σ e)).or (σ.newcomer? e)
      else (s.server? tid).map (·.noted (s.hears σ e tid)) := by
  obtain ⟨time, event⟩ := e
  -- An entry without an announcement is heard by nobody.
  have hquiet (hnone : s.announced? σ ⟨time, event⟩ = none) :
      (s.server? tid).map (·.noted (s.hears σ ⟨time, event⟩ tid)) = s.server? tid := by
    have hfalse : s.hears σ ⟨time, event⟩ tid = false := by
      simp only [hears, hnone]
    simp [hfalse]
  -- The server of the named task changes, or stays away.
  have hmodify {tid' : Nat} (f : Server → Server) (htask : event.task? = some tid')
      (hanswer : ∀ v : Server, v.answer σ ⟨time, event⟩ = f v)
      (hnew : σ.newcomer? ⟨time, event⟩ = none) (hnone : s.announced? σ ⟨time, event⟩ = none) :
      (if tid = tid' then (s.server? tid').map f else s.server? tid) =
        if event.task? = some tid then
          ((s.server? tid).map (·.answer σ ⟨time, event⟩)).or (σ.newcomer? ⟨time, event⟩)
        else (s.server? tid).map (·.noted (s.hears σ ⟨time, event⟩ tid)) := by
    rw [hquiet hnone, htask, hnew, Option.or_none]
    simp only [hanswer, Option.some_inj, eq_comm (a := tid')]
    split_ifs with h
    · rw [h]
    · rfl
  cases event with
  | jobArrival tid' =>
    change (s.onJobArrival σ tid').server? tid = _
    rw [server?_onJobArrival, hquiet rfl]
    simp only [Event.task?, Option.some_inj, eq_comm (a := tid')]
    split_ifs with h
    · subst h
      simp [Server.answer, Setting.newcomer?]
    · rfl
  | servReady tid' deadline utilization =>
    change (s.onReady σ time tid' deadline utilization).server? tid = _
    rw [server?_onReady hs]
    simp only [Event.task?, Option.some_inj, eq_comm (a := tid')]
    split_ifs with h
    · subst h
      rw [readyServer]
      cases s.server? tid <;> rfl
    · rfl
  | servInactive tid' =>
    change (s.onInactive σ time tid').server? tid = _
    rw [server?_onInactive hs]
    simp only [Event.task?, Option.some_inj, eq_comm (a := tid')]
    split_ifs with h
    · subst h
      simp [Server.answer, Setting.newcomer?]
    · rfl
  | taskPreempted tid' =>
    exact (server?_onPreempted s tid' tid).trans
      (hmodify (·.interrupt .ready) rfl (fun _ => rfl) rfl rfl)
  | servRunning tid' =>
    exact (server?_modifyServer s tid' tid _).trans
      (hmodify (·.interrupt .running) rfl (fun _ => rfl) rfl rfl)
  | servNonCont tid' =>
    exact (server?_modifyServer s tid' tid _).trans
      (hmodify (·.interrupt .nonContinuing) rfl (fun _ => rfl) rfl rfl)
  | servPostpone tid' deadline =>
    exact (server?_modifyServer s tid' tid _).trans
      (hmodify (·.postpone deadline) rfl (fun _ => rfl) rfl rfl)
  | virtualTimeUpdate tid' value bandwidth =>
    exact (server?_modifyServer s tid' tid _).trans
      (hmodify (·.sample time value) rfl (fun _ => rfl) rfl rfl)
  | frequencyUpdate c frequency =>
    rw [hquiet rfl]
    simp only [apply, Event.task?, reduceCtorEq, if_false]
    split <;> rfl
  | _ =>
    rw [hquiet rfl]
    simp only [Server.answer, Setting.newcomer?, Option.map_id', Option.or_none, ite_self]
    rfl

/-- A sample also starts a new interval, of the server of its task alone. -/
theorem server?_advance (hs : s.Keyed) (e : Entry) (tid : Nat) :
    (s.advance σ e).server? tid =
      if e.event.task? = some tid then ((s.server? tid).map (·.react σ e)).or (σ.newcomer? e)
      else (s.server? tid).map (·.noted (s.hears σ e tid)) := by
  obtain ⟨time, event⟩ := e
  have happly := server?_apply (σ := σ) hs ⟨time, event⟩ tid
  cases event with
  | virtualTimeUpdate tid' value bandwidth =>
    change ((s.apply σ _).modifyServer tid' Server.restartInterval).server? tid = _
    rw [server?_modifyServer]
    simp only [Event.task?, Option.some_inj, eq_comm (a := tid')] at happly ⊢
    split_ifs with h
    · subst h
      rw [if_pos rfl] at happly
      rw [happly]
      cases s.server? tid <;> rfl
    · rw [happly, if_neg h]
  | _ => exact happly

theorem keyed_apply (hs : s.Keyed) (e : Entry) : (s.apply σ e).Keyed := by
  intro tid v hv
  rw [server?_apply hs] at hv
  split_ifs at hv with htask
  · cases hold : s.server? tid with
    | some w =>
      rw [hold] at hv
      obtain rfl : w.answer σ e = v := by simpa using hv
      rw [Server.tid_answer, hs tid w hold]
    | none =>
      rw [hold] at hv
      exact Setting.tid_newcomer? (by simpa using hv) htask
  · obtain ⟨w, hw, rfl⟩ := Option.map_eq_some_iff.1 hv
    exact hs tid w hw

theorem keyed_modifyServer (hs : s.Keyed) (tid : Nat) {f : Server → Server}
    (hf : ∀ v, (f v).tid = v.tid) : (s.modifyServer tid f).Keyed := by
  intro tid' v hv
  rw [server?_modifyServer] at hv
  split_ifs at hv with h
  · obtain ⟨w, hw, rfl⟩ := Option.map_eq_some_iff.1 hv
    rw [hf, hs tid w hw, h]
  · exact hs tid' v hv

theorem keyed_advance (hs : s.Keyed) (e : Entry) : (s.advance σ e).Keyed := by
  have happly := keyed_apply (σ := σ) hs e
  rw [advance]
  split
  · exact keyed_modifyServer happly _ fun _ => rfl
  · exact happly

theorem keyed_after (hs : s.Keyed) (trace : Trace) : (s.after σ trace).Keyed := by
  induction trace generalizing s with
  | nil => exact hs
  | cons e trace ih => exact ih (keyed_advance hs e)

theorem keyed_start : ({} : Schedule).Keyed := fun _ _ h => nomatch h

/-! ## The effect on placements, watermarks and frequencies -/

theorem others_onPreempted (s : Schedule) (tid : Nat) :
    (s.onPreempted tid).placements = s.placements ∧
      (s.onPreempted tid).watermarks = s.watermarks ∧
      (s.onPreempted tid).frequencies = s.frequencies := by
  rw [onPreempted]
  cases s.processors.keyWhere? (· == some tid) <;> exact ⟨rfl, rfl, rfl⟩

theorem others_onJobArrival (σ : Setting) (s : Schedule) (tid : Nat) :
    (s.onJobArrival σ tid).placements = s.placements ∧
      (s.onJobArrival σ tid).watermarks = s.watermarks ∧
      (s.onJobArrival σ tid).frequencies = s.frequencies := by
  rw [onJobArrival]
  split <;> exact ⟨rfl, rfl, rfl⟩

theorem others_onInactive (σ : Setting) (s : Schedule) (time : Float) (tid : Nat) :
    (s.onInactive σ time tid).placements = s.placements ∧
      (s.onInactive σ time tid).watermarks = s.watermarks ∧
      (s.onInactive σ time tid).frequencies = s.frequencies := by
  rw [onInactive]
  split
  · exact ⟨rfl, rfl, rfl⟩
  · simp only
    split <;> exact ⟨rfl, rfl, rfl⟩

theorem others_onReady (σ : Setting) (s : Schedule) (time : Float) (tid : Nat)
    (deadline utilization : Float) :
    (s.onReady σ time tid deadline utilization).placements = s.placements ∧
      (s.onReady σ time tid deadline utilization).frequencies = s.frequencies := by
  rw [onReady_eq]
  cases s.clusterOf? σ tid with
  | none => exact ⟨rfl, rfl⟩
  | some cluster =>
    simp only
    split_ifs <;> exact ⟨rfl, rfl⟩

/-- Only a placing entry moves a task. -/
theorem placement?_apply (s : Schedule) (e : Entry) (tid : Nat) :
    (s.apply σ e).placement? tid = (e.event.placedAt? tid).or (s.placement? tid) := by
  obtain ⟨time, event⟩ := e
  have hplace (tid' c : Nat) :
      Schedule.placement? { s with placements := s.placements.insert tid' c } tid =
        (if tid' = tid then some c else none).or (s.placement? tid) := by
    rw [placement?, Table.find?_insert]
    simp only [eq_comm (a := tid)]
    split_ifs <;> rfl
  cases event with
  | taskPlaced tid' c => exact hplace tid' c
  | migrationCluster tid' c => exact hplace tid' c
  | taskPreempted tid' =>
    exact congrArg (·.find? tid) (others_onPreempted s tid').1
  | jobArrival tid' => exact congrArg (·.find? tid) (others_onJobArrival σ s tid').1
  | servInactive tid' => exact congrArg (·.find? tid) (others_onInactive σ s time tid').1
  | servReady tid' deadline utilization =>
    exact congrArg (·.find? tid) (others_onReady σ s time tid' deadline utilization).1
  | frequencyUpdate c frequency =>
    simp only [apply, Event.placedAt?, Option.none_or]
    split <;> rfl
  | _ => rfl

/-- Only a server that becomes ready on a declared cluster can raise its watermark. -/
theorem watermark_apply (s : Schedule) (e : Entry) (c : Nat) :
    (s.apply σ e).watermark c =
      match s.admission? σ e with
      | some (cluster, utilization) =>
        if c = cluster.id then
          Binary64.larger (s.watermark c) (cluster.scaleUtilization utilization)
        else s.watermark c
      | none => s.watermark c := by
  obtain ⟨time, event⟩ := e
  have hsame {s' : Schedule} (h : s'.watermarks = s.watermarks) : s'.watermark c = s.watermark c := by
    rw [watermark, h, watermark]
  cases event with
  | servReady tid deadline utilization =>
    change (s.onReady σ time tid deadline utilization).watermark c = _
    have hraise (cluster : Cluster) (u : Float) (s' : Schedule) :
        (s'.raiseWatermark cluster.id u).watermark c =
          if c = cluster.id then Binary64.larger (s'.watermark c) u else s'.watermark c := by
      rw [watermark, raiseWatermark, Table.find?_insert]
      split_ifs with h
      · rw [h]
        rfl
      · rfl
    have hadmission : s.admission? σ ⟨time, .servReady tid deadline utilization⟩ =
        (s.clusterOf? σ tid).map (·, utilization) := rfl
    rw [onReady_eq, hadmission]
    cases s.clusterOf? σ tid with
    | none => rfl
    | some cluster =>
      simp only [Option.map_some]
      split_ifs with hidle hc hc
      · exact (hraise ..).trans (if_pos hc)
      · exact (hraise ..).trans (if_neg hc)
      · exact (hraise ..).trans (if_pos hc)
      · exact (hraise ..).trans (if_neg hc)
  | taskPreempted tid => exact hsame (others_onPreempted s tid).2.1
  | jobArrival tid => exact hsame (others_onJobArrival σ s tid).2.1
  | servInactive tid => exact hsame (others_onInactive σ s time tid).2.1
  | frequencyUpdate c' frequency =>
    refine hsame ?_
    simp only [apply]
    split <;> rfl
  | _ => rfl

/-- A declared cluster has the frequency of its last update. -/
theorem frequency?_apply (s : Schedule) (e : Entry) (c : Nat) :
    (s.apply σ e).frequency? c =
      match e.event with
      | .frequencyUpdate c' frequency =>
        if c = c' ∧ (σ.platform.cluster? c').isSome then some frequency else s.frequency? c
      | _ => s.frequency? c := by
  obtain ⟨time, event⟩ := e
  cases event with
  | frequencyUpdate c' frequency =>
    simp only [apply]
    cases σ.platform.cluster? c' with
    | none => simp
    | some cluster =>
      simp only [Option.isSome_some, and_true]
      exact s.frequencies.find?_insert c' c frequency
  | taskPreempted tid => exact congrArg (·.find? c) (others_onPreempted s tid).2.2
  | jobArrival tid => exact congrArg (·.find? c) (others_onJobArrival σ s tid).2.2
  | servInactive tid => exact congrArg (·.find? c) (others_onInactive σ s time tid).2.2
  | servReady tid deadline utilization =>
    exact congrArg (·.find? c) (others_onReady σ s time tid deadline utilization).2
  | _ => rfl

/-- Beyond the servers, a sample does nothing more than any other entry. -/
theorem others_advance (s : Schedule) (e : Entry) :
    (s.advance σ e).placements = (s.apply σ e).placements ∧
      (s.advance σ e).watermarks = (s.apply σ e).watermarks ∧
      (s.advance σ e).frequencies = (s.apply σ e).frequencies := by
  rw [advance]
  split <;> exact ⟨rfl, rfl, rfl⟩

theorem placement?_advance (s : Schedule) (e : Entry) (tid : Nat) :
    (s.advance σ e).placement? tid = (e.event.placedAt? tid).or (s.placement? tid) := by
  rw [placement?, (others_advance s e).1]
  exact placement?_apply s e tid

theorem watermark_advance_eq_apply (s : Schedule) (e : Entry) (c : Nat) :
    (s.advance σ e).watermark c = (s.apply σ e).watermark c := by
  rw [watermark, (others_advance s e).2.1, watermark]

theorem frequency?_advance (s : Schedule) (e : Entry) (c : Nat) :
    (s.advance σ e).frequency? c =
      match e.event with
      | .frequencyUpdate c' frequency =>
        if c = c' ∧ (σ.platform.cluster? c').isSome then some frequency else s.frequency? c
      | _ => s.frequency? c := by
  rw [frequency?, (others_advance s e).2.2]
  exact frequency?_apply s e c

end Schedule

end SchedAudit

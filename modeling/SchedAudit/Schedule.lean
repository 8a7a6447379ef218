import SchedAudit.Event
import SchedAudit.Formula
import SchedAudit.Platform
import SchedAudit.Server
import SchedAudit.Table
import SchedAudit.Task
import SchedAudit.Tolerance

/-!
# The schedule that a trace shows

Two layers, cut by what changes during a run:

* `Setting` — what is fixed before the first entry: the platform, the declared tasks, and all
  arrivals of jobs that are known. Simulator and generator need not agree on arrivals, so the
  declared ones are joined with those of the whole trace.
* `Schedule` — what the entries so far have shown: servers, placements, processors, and for each
  cluster the last frequency and a **watermark**, the largest utilization ever admitted. A server
  that leaves does not lower it, because the power-aware policy keeps it too.

`Schedule.apply` is the effect of one entry. It decides nothing about right and wrong; the rules
read a schedule and never change it. All tables enumerate in ascending order, so what is found
depends on the trace alone.
-/

namespace SchedAudit

/-! ## Settings -/

/-- What is fixed for a run. -/
structure Setting where
  /-- the platform -/
  platform : Platform
  /-- the declared tasks -/
  tasks : Table Task
  /-- known arrivals of the jobs of each task, ascending -/
  arrivals : Table (List Float)

namespace Setting

/-- A platform and declared tasks. Of several declarations of one task the last counts. -/
def ofTasks (platform : Platform) (tasks : List Task) : Setting where
  platform := platform
  tasks := Table.ofList (tasks.map fun t => (t.id, t))
  arrivals := Table.ofList (tasks.map fun t => (t.id, t.arrivals))

/-- Adds one arrival, at no particular place. -/
def addArrival (arrivals : Table (List Float)) (e : Entry) : Table (List Float) :=
  match e.event with
  | .jobArrival tid => arrivals.insert tid (e.time :: (arrivals.find? tid).getD [])
  | _ => arrivals

/-- Joins the arrivals of a trace with those known, and puts all of them in order. -/
def joinArrivals (σ : Setting) (trace : Trace) : Setting :=
  { σ with
    arrivals := (trace.foldl addArrival σ.arrivals).map fun _ times =>
      Binary64.dropRepeats (Binary64.sortAscending times) }

/-- Whether a job of the task is known to arrive after a time. -/
def hasFutureJob (σ : Setting) (tid : Nat) (after : Float) : Bool :=
  match (σ.arrivals.find? tid).bind List.getLast? with
  | some last => after + Tolerance.futureArrival < last
  | none => false

/-- The declared period of a task; zero without a declaration. -/
def periodOf (σ : Setting) (tid : Nat) : Float :=
  ((σ.tasks.find? tid).map (·.period)).getD 0.0

end Setting

/-! ## Schedules -/

/-- What the entries so far have shown. -/
structure Schedule where
  /-- the servers by task -/
  servers : Table Server := Table.empty
  /-- the cluster each task was last placed on, which may happen before it has a server -/
  placements : Table Nat := Table.empty
  /-- the task that each processor runs, as far as it was mentioned -/
  processors : Table (Option Nat) := Table.empty
  /-- the largest utilization ever admitted to each cluster -/
  watermarks : Table Float := Table.empty
  /-- the last frequency of each cluster -/
  frequencies : Table Float := Table.empty

namespace Schedule

/-! ### Questions -/

/-- The server of a task. -/
def server? (s : Schedule) (tid : Nat) : Option Server := s.servers.find? tid

/-- The number of the cluster that a task is placed on. -/
def placement? (s : Schedule) (tid : Nat) : Option Nat := s.placements.find? tid

/-- The cluster that a task is placed on, if the platform has it. -/
def clusterOf? (σ : Setting) (s : Schedule) (tid : Nat) : Option Cluster :=
  (s.placement? tid).bind σ.platform.cluster?

/-- The servers placed on a cluster. -/
def serversOn (s : Schedule) (c : Nat) : List Server :=
  s.servers.values.filter fun v => s.placement? v.tid == some c

/-- The servers placed on a cluster that count for its bandwidth. -/
def attachedOn (s : Schedule) (c : Nat) : List Server :=
  (s.serversOn c).filter (·.attached)

/-- The attached servers of a cluster that are ready or running. -/
def activeOn (s : Schedule) (c : Nat) : List Server :=
  (s.attachedOn c).filter (·.isActive)

/-- The utilization of a task's server in the unit of its cluster; the declared one while the
cluster is unknown. -/
def scaledUtilization (σ : Setting) (s : Schedule) (tid : Nat) : Float :=
  match s.server? tid with
  | none => 0.0
  | some v =>
    match s.clusterOf? σ tid with
    | some cluster => cluster.scaleUtilization v.utilization
    | none => v.utilization

/-- The utilizations of some servers in the unit of a cluster. -/
def scaledOn (cluster : Cluster) (servers : List Server) : List Float :=
  servers.map fun v => cluster.scaleUtilization v.utilization

/-- The bandwidth of a cluster; one where the platform has no such cluster. -/
def bandwidth (σ : Setting) (s : Schedule) (c : Nat) : Float :=
  match σ.platform.cluster? c with
  | none => 1.0
  | some cluster => Formula.bandwidth cluster.processors (scaledOn cluster (s.attachedOn c))

/-- The watermark of a cluster, zero before the first server. -/
def watermark (s : Schedule) (c : Nat) : Float := (s.watermarks.find? c).getD 0.0

/-- The last frequency of a cluster. -/
def frequency? (s : Schedule) (c : Nat) : Option Float := s.frequencies.find? c

/-- The task that runs on a processor. -/
def runningOn? (s : Schedule) (cpu : Nat) : Option Nat := (s.processors.find? cpu).join

/-! ### Effects -/

/-- Changes the server of a task, if it has one. -/
def modifyServer (s : Schedule) (tid : Nat) (f : Server → Server) : Schedule :=
  { s with servers := s.servers.modify tid f }

/-- Tells the attached servers of a cluster, except `changed` itself, that `changed` joined or left
it. -/
def noteMembership (s : Schedule) (c changed : Nat) : Schedule :=
  { s with
    servers := s.servers.map fun _ v =>
      if v.tid ≠ changed ∧ v.attached ∧ s.placement? v.tid = some c then v.noteMembership else v }

/-- Raises the watermark of a cluster to a utilization. -/
def raiseWatermark (s : Schedule) (c : Nat) (utilization : Float) : Schedule :=
  { s with watermarks := s.watermarks.insert c (Binary64.larger (s.watermark c) utilization) }

/-- A job arrives: a declared task gets its server. -/
def onJobArrival (σ : Setting) (s : Schedule) (tid : Nat) : Schedule :=
  match s.server? tid, σ.tasks.find? tid with
  | none, some task =>
    { s with
      servers := s.servers.insert tid
        { tid := tid, utilization := task.utilization, period := task.period } }
  | _, _ => s

/-- A task is preempted: the first processor that runs it is free, and its server is ready. -/
def onPreempted (s : Schedule) (tid : Nat) : Schedule :=
  let freed :=
    match s.processors.keyWhere? (· == some tid) with
    | some cpu => { s with processors := s.processors.insert cpu none }
    | none => s
  freed.modifyServer tid (·.interrupt .ready)

/-- A server becomes ready, and is created where there is none. -/
def onReady (σ : Setting) (s : Schedule) (time : Float) (tid : Nat) (deadline utilization : Float) :
    Schedule :=
  let server := (s.server? tid).getD
    { tid := tid, utilization := utilization, period := σ.periodOf tid }
  let joined := { s with servers := s.servers.insert tid (server.ready time deadline) }
  match joined.clusterOf? σ tid with
  | none => joined
  | some cluster =>
    let raised := joined.raiseWatermark cluster.id (cluster.scaleUtilization utilization)
    if server.phase = .inactive then raised.noteMembership cluster.id tid else raised

/-- A server goes inactive, and leaves its cluster when no job is to come. -/
def onInactive (σ : Setting) (s : Schedule) (time : Float) (tid : Nat) : Schedule :=
  match s.server? tid with
  | none => s
  | some v =>
    let leaves := !σ.hasFutureJob tid time
    let idle := { s with servers := s.servers.insert tid (v.deactivate leaves) }
    match leaves, s.placement? tid with
    | true, some c => idle.noteMembership c tid
    | _, _ => idle

/-- The effect of one entry. -/
def apply (σ : Setting) (s : Schedule) (e : Entry) : Schedule :=
  match e.event with
  | .jobArrival tid => s.onJobArrival σ tid
  | .taskPlaced tid c | .migrationCluster tid c =>
    { s with placements := s.placements.insert tid c }
  | .taskScheduled tid cpu => { s with processors := s.processors.insert cpu (some tid) }
  | .taskPreempted tid => s.onPreempted tid
  | .servReady tid deadline utilization => s.onReady σ e.time tid deadline utilization
  | .servRunning tid => s.modifyServer tid (·.interrupt .running)
  | .servNonCont tid => s.modifyServer tid (·.interrupt .nonContinuing)
  | .servInactive tid => s.onInactive σ e.time tid
  | .servPostpone tid deadline => s.modifyServer tid (·.postpone deadline)
  | .virtualTimeUpdate tid value _ => s.modifyServer tid (·.sample e.time value)
  | .frequencyUpdate c frequency =>
    match σ.platform.cluster? c with
    | some _ => { s with frequencies := s.frequencies.insert c frequency }
    | none => s
  | .procIdled cpu => { s with processors := s.processors.insert cpu none }
  | .jobFinished .. | .taskRejected .. | .servBudgetReplenished .. | .servBudgetExhausted ..
  | .procActivated .. | .procSleep .. | .procChange .. | .resched | .simFinished => s

/-- Starts a new continuous interval of a server, after a sample has been examined. -/
def restartInterval (s : Schedule) (tid : Nat) : Schedule :=
  s.modifyServer tid (·.restartInterval)

/-- All that one entry does: a sample also starts a new interval. -/
def advance (σ : Setting) (s : Schedule) (e : Entry) : Schedule :=
  match e.event with
  | .virtualTimeUpdate tid .. => (s.apply σ e).restartInterval tid
  | _ => s.apply σ e

/-- The schedule after a trace. -/
def after (σ : Setting) (s : Schedule) (trace : Trace) : Schedule := trace.foldl (advance σ) s

@[simp] theorem after_nil (σ : Setting) (s : Schedule) : s.after σ [] = s := rfl

@[simp] theorem after_cons (σ : Setting) (s : Schedule) (e : Entry) (trace : Trace) :
    s.after σ (e :: trace) = (s.advance σ e).after σ trace := rfl

theorem after_append (σ : Setting) (s : Schedule) (x y : Trace) :
    s.after σ (x ++ y) = (s.after σ x).after σ y :=
  List.foldl_append

end Schedule

end SchedAudit

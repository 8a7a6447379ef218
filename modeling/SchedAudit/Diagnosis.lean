import SchedAudit.Decimal.Shortest
import SchedAudit.Rule.Reclaiming

/-!
# Diagnoses

Where virtual time does not advance as it should, the reason lies before the sample that shows it. A
diagnosis puts together the numbers of the mismatch, the server, the attached servers of its
cluster, and the recent entries. A recent sample that carries the simulator's own bandwidth is
marked where it does not match the one recomputed.

`History` keeps the recent entries. Its capacity is zero when no diagnoses are asked for.
-/

namespace SchedAudit

/-! ## Recent entries -/

/-- The last entries of a run, at most `capacity` of them. -/
structure History where
  /-- how many entries are kept -/
  capacity : Nat
  /-- the entries kept, in the order of the trace -/
  entries : List Entry

namespace History

/-- How many entries a diagnosis looks back. -/
def span : Nat := 30

/-- An empty history; nothing is ever kept where no diagnoses are wanted. -/
def start (wanted : Bool) : History := ⟨if wanted then span else 0, []⟩

/-- Keeps an entry, and forgets the oldest one beyond the capacity. -/
def record (h : History) (e : Entry) : History :=
  let all := h.entries ++ [e]
  { h with entries := all.drop (all.length - h.capacity) }

end History

/-! ## The text of a diagnosis -/

namespace Diagnosis

/-- A truth value in words. -/
def truth (b : Bool) : String := if b then "true" else "false"

/-- A sample in full. -/
def sample : Option Sample → String
  | none => "None"
  | some s =>
    "Some(VtSample \x7b time: " ++ Decimal.full s.time ++ ", value: " ++ Decimal.full s.value ++
      " \x7d)"

/-- The line that names the mismatch. -/
def title (time : Float) (m : Rule.RateMismatch) : String :=
  let t := Decimal.fixed 6 time
  s!"=== vt_rate violation t={t} tid={m.tid} cluster={m.cluster} ==="

/-- The line with the numbers of the mismatch. -/
def numbers (m : Rule.RateMismatch) : String :=
  let wall := Decimal.fixed 6 m.deltaWall
  let vt := Decimal.fixed 6 m.deltaVt
  let due := Decimal.fixed 6 m.expected
  let bw := Decimal.fixed 6 m.bandwidth
  let u := Decimal.fixed 6 m.scaled
  s!"  delta_wall={wall} delta_vt={vt} expected={due} bw={bw} scaled_u={u}"

/-- The line about the server itself. -/
def server (v : Server) : String :=
  let phase := v.phase.name
  let deadline := Decimal.fixed 6 v.deadline
  let vt := Decimal.fixed 6 v.virtualTime
  let previous := sample v.previous
  let latest := sample v.latest
  let attached := truth v.attached
  let continuous := truth v.continuous
  let changed := truth v.membershipChanged
  s!"  server: state={phase} deadline={deadline} vt={vt} prev_vt={previous} cur_vt={latest} " ++
    s!"in_scheduler={attached} ran_continuously={continuous} bw_may_changed={changed}"

/-- The line about an attached server. -/
def attachedServer (σ : Setting) (s : Schedule) (v : Server) : String :=
  let u := Decimal.fixed 4 v.utilization
  let scaled := Decimal.fixed 4 (s.scaledUtilization σ v.tid)
  let phase := v.phase.name
  s!"    tid={v.tid} u={u} scaled_u={scaled} state={phase}"

/-- The bandwidth that a sample carries, marked unless it matches `bandwidth`. -/
def carriedBandwidth (bandwidth : Float) : Option Float → String
  | none => ""
  | some carried =>
    " trace_bw=" ++ Decimal.fixed 6 carried ++
      (if Tolerance.approxEq carried bandwidth then "" else "  <-- bandwidth mismatch")

/-- The line about a recent entry. -/
def recentEntry (bandwidth : Float) (e : Entry) : String :=
  let line := "    t=" ++ Decimal.fixed 6 e.time ++ " " ++ e.event.kind
  match e.event with
  | .virtualTimeUpdate tid value carried =>
    let vt := Decimal.fixed 6 value
    s!"{line} tid={tid} vt={vt}" ++ carriedBandwidth bandwidth carried
  | _ => line

/-- The lines of a diagnosis. -/
def lines (σ : Setting) (s : Schedule) (h : History) (time : Float) (m : Rule.RateMismatch) :
    List String :=
  [title time m, numbers m] ++
    ((s.server? m.tid).map server).toList ++
    ["  attached servers:"] ++ (s.attachedOn m.cluster).map (attachedServer σ s) ++
    ["  recent events:"] ++ h.entries.map (recentEntry m.bandwidth)

/-- A diagnosis, each line ended. -/
def text (σ : Setting) (s : Schedule) (h : History) (time : Float) (m : Rule.RateMismatch) :
    String :=
  String.join ((lines σ s h time m).map (· ++ "\n"))

end Diagnosis

end SchedAudit

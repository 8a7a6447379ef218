import SchedAudit.Proofs.Audit.Deadlines
import SchedAudit.Proofs.Audit.Separation

/-!
# What other tasks cannot touch

All servers stand in one table, and each entry goes through all of it. Still, what an entry about
another task can do to the server of a task is to raise one flag, `membershipChanged`. But for that
flag, server and placement are what the entries about the task itself have made of them: an audit of
nothing but these entries ends with the same (`audit_about`). The rules on deadlines do not read the
flag, so they find the same too. Arrivals are collected from the whole trace in advance, and again
only those of the task itself count.

What is given to a server once and for all — its number, its utilization, its period — not even the
entries about its task can touch (`Server.Continues`).
-/

namespace SchedAudit

/-- The entries that name a task. -/
def Trace.about (tid : Nat) (entries : Trace) : Trace :=
  entries.filter fun e => e.event.task? == some tid

/-- Of the arrivals in a trace, a task is only concerned with its own. -/
theorem Setting.agree_about (platform : Platform) (tasks : List Task) (entries : Trace)
    (tid : Nat) :
    Agree {tid} (ofTrace platform tasks entries)
      (ofTrace platform tasks (entries.about tid)) := by
  have habout : entries.about tid = entries.filter fun e => e.event.Concerns {tid} ∅ := by
    refine List.filter_congr fun e _ => ?_
    rw [Bool.eq_iff_iff, beq_iff_eq, decide_eq_true_iff, Event.Concerns]
    simp
  rw [habout]
  exact agree_ofTrace_filter platform tasks entries

/-! ## Servers without the flag -/

namespace Server

variable (v : Server)

/-- A server without the flag that others can raise. -/
def unflagged : Server := { v with membershipChanged := false }

@[simp] theorem unflagged_noted (announced : Bool) : (v.noted announced).unflagged = v.unflagged :=
  rfl

/-- What a server makes of an entry does not depend on the flag, unless it is the flag. -/
theorem unflagged_react (σ : Setting) (e : Entry) :
    (v.react σ e).unflagged = (v.unflagged.react σ e).unflagged := by
  obtain ⟨time, event⟩ := e
  cases event with
  | servReady tid deadline utilization =>
    change (v.ready time deadline).unflagged = (v.unflagged.ready time deadline).unflagged
    have hphase : v.unflagged.phase = v.phase := rfl
    rw [ready, ready, hphase]
    split_ifs <;> rfl
  | servInactive tid =>
    change (v.deactivate _).unflagged = (v.unflagged.deactivate _).unflagged
    rw [deactivate, deactivate]
    split_ifs <;> rfl
  | _ => rfl

/-- The server of the same task, with what was given to it once and for all. -/
structure Continues (v w : Server) : Prop where
  tid : w.tid = v.tid
  utilization : w.utilization = v.utilization
  period : w.period = v.period

variable {v}

theorem Continues.refl (v : Server) : v.Continues v := ⟨rfl, rfl, rfl⟩

theorem Continues.trans {w u : Server} (hvw : v.Continues w) (hwu : w.Continues u) :
    v.Continues u :=
  ⟨hwu.tid.trans hvw.tid, hwu.utilization.trans hvw.utilization, hwu.period.trans hvw.period⟩

theorem continues_react (σ : Setting) (e : Entry) : v.Continues (v.react σ e) := by
  obtain ⟨time, event⟩ := e
  cases event with
  | servReady tid deadline utilization =>
    change v.Continues (v.ready time deadline)
    rw [ready]
    split_ifs <;> exact ⟨rfl, rfl, rfl⟩
  | servInactive tid =>
    change v.Continues (v.deactivate _)
    rw [deactivate]
    split_ifs <;> exact ⟨rfl, rfl, rfl⟩
  | _ => exact ⟨rfl, rfl, rfl⟩

end Server

namespace Schedule

variable {σ τ : Setting} {s t : Schedule} {e : Entry} {entries : Trace} {tid : Nat}

theorem continues_next (v : Server) : v.Continues (s.next σ e tid v) := by
  rw [next]
  split_ifs
  · exact Server.continues_react σ e
  · exact ⟨rfl, rfl, rfl⟩

/-- **A server once there remains,** and remains the same. -/
theorem exists_continues_before {j k : Nat} {v : Server} (hjk : j ≤ k) (hk : k ≤ entries.length)
    (hv : (before σ entries j).server? tid = some v) :
    ∃ w, (before σ entries k).server? tid = some w ∧ v.Continues w := by
  induction k, hjk using Nat.le_induction with
  | base => exact ⟨v, hv, .refl v⟩
  | succ k hjk ih =>
    have he : entries[k]? = some entries[k] := List.getElem?_eq_getElem hk
    obtain ⟨w, hw, hcontinues⟩ := ih (Nat.le_of_succ_le hk)
    rw [before_succ he, server?_advance_of_some keyed_before hw]
    exact ⟨_, rfl, hcontinues.trans (continues_next w)⟩

/-! ## Schedules that are alike -/

/-- The server of a task without the flag that others can raise. -/
def unflagged? (s : Schedule) (tid : Nat) : Option Server := (s.server? tid).map (·.unflagged)

/-- **What an entry makes of a server without the flag:** nothing, unless it names the task. -/
theorem unflagged?_advance (hs : s.Keyed) (e : Entry) (tid : Nat) :
    (s.advance σ e).unflagged? tid =
      if e.event.task? = some tid then
        ((s.unflagged? tid).map fun v => (v.react σ e).unflagged).or
          ((σ.newcomer? e).map (·.unflagged))
      else s.unflagged? tid := by
  rw [unflagged?, server?_advance hs, unflagged?]
  split_ifs
  · rw [Option.map_or, Option.map_map, Option.map_map]
    congr 2
    exact funext fun v => v.unflagged_react σ e
  · simp only [Option.map_map, Function.comp_def, Server.unflagged_noted]

/-- Two schedules with the same placement of a task and, but for the flag, the same server. -/
structure Alike (tid : Nat) (s t : Schedule) : Prop where
  left : s.Keyed
  right : t.Keyed
  placement : s.placement? tid = t.placement? tid
  server : s.unflagged? tid = t.unflagged? tid

namespace Alike

theorem advance (hσ : σ.Agree {tid} τ) (h : Alike tid s t) (htask : e.event.task? = some tid) :
    Alike tid (s.advance σ e) (t.advance τ e) where
  left := keyed_advance h.left e
  right := keyed_advance h.right e
  placement := by rw [placement?_advance, placement?_advance, h.placement]
  server := by
    have hreact (v : Server) : v.react σ e = v.react τ e := react_congr hσ rfl htask v
    simp only [unflagged?_advance h.left, unflagged?_advance h.right, h.server,
      hσ.newcomer?_eq, hreact]

theorem advance_left (h : Alike tid s t) (htask : e.event.task? ≠ some tid) :
    Alike tid (s.advance σ e) t where
  left := keyed_advance h.left e
  right := h.right
  placement := by
    have hplaced : e.event.placedAt? tid = none := by
      rw [Option.eq_none_iff_forall_ne_some]
      exact fun c hc => htask (Event.task?_of_placedAt? hc)
    rw [placement?_advance, hplaced, Option.none_or, h.placement]
  server := by rw [unflagged?_advance h.left, if_neg htask, h.server]

/-- All entries of a trace on the one side, those about the task on the other. -/
theorem after (hσ : σ.Agree {tid} τ) (h : Alike tid s t) :
    Alike tid (s.after σ entries) (t.after τ (entries.about tid)) := by
  induction entries generalizing s t with
  | nil => exact h
  | cons e entries ih =>
    rw [after_cons, Trace.about, List.filter_cons]
    split_ifs with htask
    · rw [after_cons]
      exact ih (h.advance hσ (beq_iff_eq.1 htask))
    · exact ih (h.advance_left fun h => htask (beq_iff_eq.2 h))

/-! ### What the rules on deadlines find -/

theorem server_cases (h : Alike tid s t) :
    (s.server? tid = none ∧ t.server? tid = none) ∨
      ∃ v w, s.server? tid = some v ∧ t.server? tid = some w ∧ v.deadline = w.deadline := by
  have hdeadline := congrArg (Option.map (·.deadline)) h.server
  rw [unflagged?, unflagged?, Option.map_map, Option.map_map] at hdeadline
  cases hs : s.server? tid <;> cases ht : t.server? tid <;> rw [hs, ht] at hdeadline
  · exact .inl ⟨rfl, rfl⟩
  · cases hdeadline
  · cases hdeadline
  · exact .inr ⟨_, _, rfl, rfl, Option.some.inj hdeadline⟩

theorem deadlineMiss?_eq (h : Alike tid s t) (time : Float) :
    Rule.deadlineMiss? s time tid = Rule.deadlineMiss? t time tid := by
  rw [Rule.deadlineMiss?, Rule.deadlineMiss?]
  obtain ⟨hs, ht⟩ | ⟨v, w, hs, ht, hdeadline⟩ := h.server_cases
  · rw [hs, ht]
  · simp only [hs, ht, Option.bind_eq_bind, Option.bind_some, hdeadline]

theorem vtPastDeadline?_eq (h : Alike tid s t) (time value : Float) :
    Rule.vtPastDeadline? s time tid value = Rule.vtPastDeadline? t time tid value := by
  rw [Rule.vtPastDeadline?, Rule.vtPastDeadline?]
  obtain ⟨hs, ht⟩ | ⟨v, w, hs, ht, hdeadline⟩ := h.server_cases
  · rw [hs, ht]
  · simp only [hs, ht, Option.bind_eq_bind, Option.bind_some, hdeadline]

end Alike

end Schedule

/-! ## Violations of the rules on deadlines -/

open Schedule (Alike)

variable {σ τ : Setting} {s t : Schedule} {e : Entry} {tid : Nat} {kind : Invariant}

/-- Of some violations, those of an invariant by a task. -/
def violationsBy (tid : Nat) (kind : Invariant) (found : List Violation) : List Violation :=
  (found.filter (·.kind == kind)).filter (·.tid == some tid)

theorem violationsBy_append (found found' : List Violation) :
    violationsBy tid kind (found ++ found') =
      violationsBy tid kind found ++ violationsBy tid kind found' := by
  rw [violationsBy, List.filter_append, List.filter_append]
  rfl

/-- An entry about a task shows the same of its deadline in both schedules. -/
theorem filter_examine_congr (policy : Policy) (h : Alike tid s t)
    (hkind : kind = .noDeadlineMiss ∨ kind = .vtLeDeadline) (htask : e.event.task? = some tid) :
    (examine σ policy s e).filter (·.kind == kind) =
      (examine τ policy t e).filter (·.kind == kind) := by
  rcases hkind with rfl | rfl
  · by_cases hevent : ∃ tid', e.event = .jobFinished tid'
    · obtain ⟨time, event⟩ := e
      obtain ⟨tid', rfl⟩ := hevent
      obtain rfl := Option.some.inj htask
      rw [filter_examine_jobFinished, filter_examine_jobFinished, h.deadlineMiss?_eq]
    · have hkept : .noDeadlineMiss ∉ e.event.invariants policy :=
        mt noDeadlineMiss_mem_invariants_iff.1 hevent
      rw [filter_examine_eq_nil hkept, filter_examine_eq_nil hkept]
  · by_cases hevent : ∃ tid' value bandwidth, e.event = .virtualTimeUpdate tid' value bandwidth
    · obtain ⟨time, event⟩ := e
      obtain ⟨tid', value, bandwidth, rfl⟩ := hevent
      obtain rfl := Option.some.inj htask
      rw [filter_examine_virtualTimeUpdate h.left, filter_examine_virtualTimeUpdate h.right,
        h.vtPastDeadline?_eq]
    · have hkept : .vtLeDeadline ∉ e.event.invariants policy :=
        mt vtLeDeadline_mem_invariants_iff.1 hevent
      rw [filter_examine_eq_nil hkept, filter_examine_eq_nil hkept]

/-- An entry that does not name a task shows nothing of it. -/
theorem violationsBy_examine_eq_nil (policy : Policy) (htask : e.event.task? ≠ some tid) :
    violationsBy tid kind (examine σ policy s e) = [] := by
  rw [violationsBy, List.filter_eq_nil_iff]
  intro x hx htid
  obtain ⟨kind', -, hhead⟩ := head_of_mem_examine (List.mem_filter.1 hx).1
  rw [beq_iff_eq, hhead.tid] at htid
  exact htask htid

theorem violationsBy_findings (hσ : σ.Agree {tid} τ) (policy : Policy) {entries : Trace}
    (hkind : kind = .noDeadlineMiss ∨ kind = .vtLeDeadline) (h : Alike tid s t) :
    violationsBy tid kind ((s.findings σ policy entries).flatMap (·.2)) =
      violationsBy tid kind ((t.findings τ policy (entries.about tid)).flatMap (·.2)) := by
  induction entries generalizing s t with
  | nil => rfl
  | cons e entries ih =>
    rw [Schedule.findings, List.flatMap_cons, violationsBy_append, Trace.about, List.filter_cons]
    split_ifs with htask
    · -- about the task: both schedules take the entry
      rw [beq_iff_eq] at htask
      rw [Schedule.findings, List.flatMap_cons, violationsBy_append, ih (h.advance hσ htask),
        violationsBy, filter_examine_congr policy h hkind htask]
      rfl
    · -- about another one, or none: only the left schedule takes it
      rw [beq_iff_eq] at htask
      rw [violationsBy_examine_eq_nil policy htask, List.nil_append, ih (h.advance_left htask)]
      rfl

/-! ## Whole traces -/

/-- **What other tasks cannot touch.** After a whole trace the placement of a task, and its server
but for one flag, are those of the audit of nothing but the entries about the task, and so are its
violations of the rules on deadlines. On the way, a server once there remains, with the number,
utilization and period that it came with. -/
theorem audit_about (platform : Platform) (tasks : List Task) (policy : Policy) (diagnoses : Bool)
    (entries : Trace) (tid : Nat) :
    let schedule (entries : Trace) (k : Nat) : Schedule :=
      (Audit.before platform tasks policy diagnoses entries k).schedule
    let report := Report.ofTrace platform tasks policy diagnoses
    let own := entries.about tid
    (schedule entries entries.length).placement? tid = (schedule own own.length).placement? tid ∧
      (schedule entries entries.length).unflagged? tid =
        (schedule own own.length).unflagged? tid ∧
      (∀ kind, kind = .noDeadlineMiss ∨ kind = .vtLeDeadline →
        violationsBy tid kind (report entries).violations =
          violationsBy tid kind (report own).violations) ∧
      ∀ j k, j ≤ k → k ≤ entries.length → ∀ v, (schedule entries j).server? tid = some v →
        v.tid = tid ∧ ∃ w, (schedule entries k).server? tid = some w ∧ v.Continues w := by
  intro schedule report own
  have hσ := Setting.agree_about platform tasks entries tid
  have hstart : Alike tid {} {} := ⟨Schedule.keyed_start, Schedule.keyed_start, rfl, rfl⟩
  have hschedule (entries : Trace) (k : Nat) : schedule entries k =
      Schedule.before (.ofTrace platform tasks entries) entries k := Audit.schedule_before k
  have halike : Alike tid (schedule entries entries.length) (schedule own own.length) := by
    rw [hschedule, hschedule, Schedule.before_length, Schedule.before_length]
    exact hstart.after hσ
  refine ⟨halike.placement, halike.server, fun kind hkind => ?_, fun j k hjk hk v hv => ?_⟩
  · simp only [report, Audit.violations_eq_findings]
    exact violationsBy_findings hσ policy hkind hstart
  · rw [hschedule] at hv ⊢
    exact ⟨Schedule.keyed_before tid v hv, Schedule.exists_continues_before hjk hk hv⟩

/-- While a task runs late on a cluster, another one joins it there, which raises the flag. -/
def joinedTrace : Trace :=
  [⟨0.0, .taskPlaced 1 0⟩, ⟨0.0, .taskPlaced 2 0⟩, ⟨0.0, .servReady 1 10.0 0.5⟩,
    ⟨0.0, .virtualTimeUpdate 1 0.0 none⟩, ⟨1.0, .servReady 2 9.0 0.25⟩, ⟨12.0, .jobFinished 1⟩]

theorem audit_about_joinedTrace :
    let schedule (k : Nat) := (Audit.before .twin [] .grub false joinedTrace k).schedule
    let own := joinedTrace.about 1
    (schedule 6).unflagged? 1 =
        (Audit.before .twin [] .grub false own own.length).schedule.unflagged? 1 ∧
      violationsBy 1 .noDeadlineMiss (Report.ofTrace .twin [] .grub false joinedTrace).violations =
        violationsBy 1 .noDeadlineMiss (Report.ofTrace .twin [] .grub false own).violations ∧
      3 ≤ 6 ∧ 6 ≤ joinedTrace.length ∧
      ∃ v, (schedule 3).server? 1 = some v ∧ v.tid = 1 ∧
        ∃ w, (schedule 6).server? 1 = some w ∧ v.Continues w ∧ w.membershipChanged = true := by
  intro schedule own
  obtain ⟨-, hserver, hviolations, hremains⟩ := audit_about .twin [] .grub false joinedTrace 1
  obtain ⟨v, hv⟩ : ∃ v, (schedule 3).server? 1 = some v := ⟨_, rfl⟩
  obtain ⟨htid, w, hw, hcontinues⟩ := hremains 3 6 (by decide) (by decide) v hv
  refine ⟨hserver, hviolations _ (.inl rfl), by decide, by decide, v, hv, htid, w, hw,
    hcontinues, ?_⟩
  cases hw
  rfl

end SchedAudit

import Mathlib.Data.Set.Insert
import SchedAudit.Proofs.Audit.Entries
import SchedAudit.Proofs.Audit.View
import SchedAudit.Proofs.Setting.Arrivals
import SchedAudit.Proofs.Table

/-!
# Clusters do not interfere

Let some tasks `A` and some clusters `C` belong together: the tasks of `A` are placed on clusters of
`C` only, and all others elsewhere. Then what the audit says about them can be found from their own
entries alone (`verdicts_filter`), however the entries of the others lie in between.

The proof runs the audit twice, on the whole trace and on what is kept of it. The two schedules
agree on the tasks and clusters in question (`Schedule.Agree`): an entry that is kept is taken by
both, one that is dropped leaves no mark that can be seen from `A` and `C`. That the violations are
equal then follows rule by rule, because a rule asks for nothing but the servers of one cluster.
-/

namespace SchedAudit

/-- The cluster whose frequency an event sets. -/
def Event.clocked? : Event → Option Nat
  | .frequencyUpdate c _ => some c
  | _ => none

/-- An event that names a task of `A`, or sets the frequency of a cluster of `C`. -/
def Event.Concerns (A C : Set Nat) (event : Event) : Prop :=
  (∃ tid ∈ event.task?, tid ∈ A) ∨ ∃ c ∈ event.clocked?, c ∈ C

instance (A C : Set Nat) [DecidablePred (· ∈ A)] [DecidablePred (· ∈ C)] :
    DecidablePred (Event.Concerns A C) :=
  fun _ => inferInstanceAs (Decidable (_ ∨ _))

/-- An event that places tasks of `A` on clusters of `C`, and others elsewhere. -/
def Event.Separates (A C : Set Nat) (event : Event) : Prop :=
  ∀ tid c, event.placedAt? tid = some c → (tid ∈ A ↔ c ∈ C)

variable {A C : Set Nat} {σ τ : Setting} {s t : Schedule} {e : Entry}

theorem Event.task?_of_placedAt? {event : Event} {tid c : Nat}
    (h : event.placedAt? tid = some c) : event.task? = some tid := by
  cases event with
  | taskPlaced tid' c' | migrationCluster tid' c' =>
    simp only [placedAt?] at h
    split_ifs at h with htid
    exact congrArg some htid
  | _ => cases h

/-! ## Settings that agree -/

/-- Two settings that differ in the arrivals of tasks outside `A` at most. -/
structure Setting.Agree (A : Set Nat) (σ τ : Setting) : Prop where
  platform : σ.platform = τ.platform
  tasks : σ.tasks = τ.tasks
  future : ∀ tid ∈ A, ∀ after, σ.hasFutureJob tid after = τ.hasFutureJob tid after

namespace Setting

/-- Settings agree on the tasks whose arrivals are the same in both traces. -/
theorem agree_ofTrace (platform : Platform) (tasks : List Task) {x y : Trace}
    (h : ∀ tid ∈ A, x.filterMap (Entry.arrivalOf? tid) = y.filterMap (Entry.arrivalOf? tid)) :
    Agree A (ofTrace platform tasks x) (ofTrace platform tasks y) where
  platform := rfl
  tasks := rfl
  future := by
    intro tid htid after
    simp only [hasFutureJob, ofTrace, joinArrivals, Table.find?_map, find?_foldl_addArrival,
      h tid htid]

theorem agree_ofTrace_filter (platform : Platform) (tasks : List Task) (entries : Trace)
    [DecidablePred (Event.Concerns A C)] :
    Agree A (ofTrace platform tasks entries)
      (ofTrace platform tasks (entries.filter fun e => e.event.Concerns A C)) := by
  refine agree_ofTrace platform tasks fun tid htid => ?_
  rw [List.filterMap_filter]
  refine List.filterMap_congr fun e _ => ?_
  split_ifs with hkeep
  · rfl
  · -- A dropped entry is no arrival of the task.
    refine Entry.arrivalOf?_of_task?_ne fun htask => hkeep ?_
    exact decide_eq_true (.inl ⟨tid, htask, htid⟩)

theorem Agree.newcomer?_eq (hσ : σ.Agree A τ) (e : Entry) : σ.newcomer? e = τ.newcomer? e := by
  simp only [newcomer?, periodOf, hσ.tasks]

end Setting

/-! ## Schedules that agree -/

namespace Schedule

/-- Each server stands at the number of its task, and just the tasks of `A` are placed on clusters of
`C`. -/
structure Separated (A C : Set Nat) (s : Schedule) : Prop where
  keyed : s.Keyed
  placed : ∀ tid c, s.placement? tid = some c → (tid ∈ A ↔ c ∈ C)

/-- Two separated schedules that cannot be told apart from `A` and `C`. -/
structure Agree (A C : Set Nat) (s t : Schedule) : Prop where
  left : s.Separated A C
  right : t.Separated A C
  servers : ∀ tid ∈ A, s.server? tid = t.server? tid
  placements : ∀ tid ∈ A, s.placement? tid = t.placement? tid
  watermarks : ∀ c ∈ C, s.watermark c = t.watermark c
  frequencies : ∀ c ∈ C, s.frequency? c = t.frequency? c

theorem separated_start : ({} : Schedule).Separated A C where
  keyed := keyed_start
  placed := nofun

theorem Separated.advance (hs : s.Separated A C) (he : e.event.Separates A C) :
    (s.advance σ e).Separated A C where
  keyed := keyed_advance hs.keyed e
  placed := by
    intro tid c hc
    rw [placement?_advance] at hc
    cases hplaced : e.event.placedAt? tid with
    | none =>
      rw [hplaced, Option.none_or] at hc
      exact hs.placed tid c hc
    | some c' =>
      rw [hplaced, Option.some_or] at hc
      exact he tid c (hplaced.trans hc)

/-! ### What is announced and admitted -/

/-- An entry that does not concern `A` is announced on no cluster of `C`. -/
theorem announced?_of_not_concerns (hs : s.Separated A C) (he : ¬e.event.Concerns A C) {c : Nat}
    (hc : c ∈ C) : s.announced? σ e ≠ some c := by
  intro h
  rcases announced?_eq_some_iff.1 h with ⟨tid, d, u, hevent, -, hplaced, -⟩ | ⟨tid, hevent, -, -, hplaced⟩
  · exact he (.inl ⟨tid, by rw [hevent]; rfl, (hs.placed tid c hplaced).2 hc⟩)
  · exact he (.inl ⟨tid, by rw [hevent]; rfl, (hs.placed tid c hplaced).2 hc⟩)

/-- An entry that does not concern `A` admits nothing to a cluster of `C`. -/
theorem admission?_of_not_concerns (hs : s.Separated A C) (he : ¬e.event.Concerns A C)
    {cluster : Cluster} {utilization : Float} (h : s.admission? σ e = some (cluster, utilization)) :
    cluster.id ∉ C := by
  intro hc
  obtain ⟨time, event⟩ := e
  cases event with
  | servReady tid d u =>
    obtain ⟨found, hfound, heq⟩ := Option.map_eq_some_iff.1 h
    cases heq
    obtain ⟨c, hplaced, hcluster⟩ := Option.bind_eq_some_iff.1 hfound
    rw [Platform.id_of_cluster? hcluster] at hc
    exact he (.inl ⟨tid, rfl, (hs.placed tid c hplaced).2 hc⟩)
  | _ => cases h

theorem answer_congr (hσ : σ.Agree A τ) {tid : Nat} (htid : tid ∈ A) (htask : e.event.task? = some tid)
    (v : Server) :
    v.answer σ e = v.answer τ e := by
  obtain ⟨time, event⟩ := e
  cases event with
  | servInactive tid' =>
    obtain rfl := Option.some.inj htask
    simp only [Server.answer, hσ.future tid' htid]
  | _ => rfl

theorem react_congr (hσ : σ.Agree A τ) {tid : Nat} (htid : tid ∈ A) (htask : e.event.task? = some tid)
    (v : Server) :
    v.react σ e = v.react τ e := by
  simp only [Server.react, answer_congr hσ htid htask]

/-- What is announced depends on the task that an entry names, and on no other. -/
theorem announced?_congr_of_task? (hσ : σ.Agree A τ) {tid : Nat} (htid : tid ∈ A)
    (htask : e.event.task? = some tid) (hserver : s.server? tid = t.server? tid)
    (hplacement : s.placement? tid = t.placement? tid) : s.announced? σ e = t.announced? τ e := by
  obtain ⟨time, event⟩ := e
  cases event with
  | servReady tid' d u =>
    obtain rfl := Option.some.inj htask
    have hidle : s.isIdle tid' = t.isIdle tid' := by rw [isIdle, hserver, isIdle]
    simp only [announced?, hidle, clusterOf?_congr hσ.platform hplacement]
  | servInactive tid' =>
    obtain rfl := Option.some.inj htask
    simp only [announced?, hserver, hplacement, hσ.future tid' htid]
  | _ => rfl

/-- What an entry makes of the server of a task depends on that server, its placement, and what is
announced. -/
theorem server?_advance_congr (hσ : σ.Agree A τ) {tid : Nat} (htid : tid ∈ A) (hs : s.Keyed)
    (ht : t.Keyed) (hannounced : s.announced? σ e = t.announced? τ e)
    (hserver : s.server? tid = t.server? tid) (hplacement : s.placement? tid = t.placement? tid) :
    (s.advance σ e).server? tid = (t.advance τ e).server? tid := by
  have hhears : s.hears σ e tid = t.hears τ e tid := by
    simp only [hears, hannounced, hserver, hplacement]
  rw [server?_advance hs, server?_advance ht, hserver, hhears]
  split_ifs with htask
  · rw [hσ.newcomer?_eq]
    congr 2
    exact funext (react_congr hσ htid htask)
  · rfl

section Agreement

variable (hσ : σ.Agree A τ) (h : s.Agree A C t)

include hσ h

theorem announced?_congr (he : e.event.Concerns A C) : s.announced? σ e = t.announced? τ e := by
  rcases he with ⟨tid, htask, htid⟩ | ⟨c, hclock, -⟩
  · exact announced?_congr_of_task? hσ htid htask (h.servers tid htid) (h.placements tid htid)
  · obtain ⟨time, event⟩ := e
    cases event <;> first | rfl | cases hclock

theorem admission?_congr (he : e.event.Concerns A C) : s.admission? σ e = t.admission? τ e := by
  obtain ⟨time, event⟩ := e
  rcases he with ⟨tid, htask, htid⟩ | ⟨c, hclock, -⟩
  · cases event with
    | servReady tid' d u =>
      obtain rfl := Option.some.inj htask
      simp only [admission?, clusterOf?_congr hσ.platform (h.placements tid' htid)]
    | _ => rfl
  · cases event <;> first | rfl | cases hclock

/-- Both schedules take an entry that concerns `A` and `C`. -/
theorem Agree.advance (he : e.event.Concerns A C) (hsep : e.event.Separates A C) :
    (s.advance σ e).Agree A C (t.advance τ e) where
  left := h.left.advance hsep
  right := h.right.advance hsep
  servers := by
    intro tid htid
    exact server?_advance_congr hσ htid h.left.keyed h.right.keyed (announced?_congr hσ h he)
      (h.servers tid htid) (h.placements tid htid)
  placements := by
    intro tid htid
    rw [placement?_advance, placement?_advance, h.placements tid htid]
  watermarks := by
    intro c hc
    rw [watermark_advance_eq_apply, watermark_advance_eq_apply, watermark_apply, watermark_apply,
      admission?_congr hσ h he, h.watermarks c hc]
  frequencies := by
    intro c hc
    rw [frequency?_advance, frequency?_advance, h.frequencies c hc, hσ.platform]

end Agreement

/-- An entry that does not concern `A` and `C` leaves no mark on them. -/
theorem Agree.advance_left (h : s.Agree A C t) (he : ¬e.event.Concerns A C)
    (hsep : e.event.Separates A C) : (s.advance σ e).Agree A C t where
  left := h.left.advance hsep
  right := h.right
  servers := by
    intro tid htid
    have htask : e.event.task? ≠ some tid := fun htask => he (.inl ⟨tid, htask, htid⟩)
    have hhears : s.hears σ e tid = false := by
      rw [← Bool.not_eq_true, hears_iff]
      rintro ⟨c, v, hannounced, -, -, hplaced⟩
      exact announced?_of_not_concerns h.left he ((h.left.placed tid c hplaced).1 htid) hannounced
    rw [server?_advance h.left.keyed, if_neg htask, hhears, ← h.servers tid htid]
    simp
  placements := by
    intro tid htid
    have hplaced : e.event.placedAt? tid = none := by
      rw [Option.eq_none_iff_forall_ne_some]
      exact fun c hc => he (.inl ⟨tid, Event.task?_of_placedAt? hc, htid⟩)
    rw [placement?_advance, hplaced, Option.none_or, h.placements tid htid]
  watermarks := by
    intro c hc
    rw [watermark_advance_eq_apply, watermark_apply, ← h.watermarks c hc]
    split
    · next cluster utilization hadmission =>
      refine if_neg ?_
      rintro rfl
      exact admission?_of_not_concerns h.left he hadmission hc
    · rfl
  frequencies := by
    intro c hc
    rw [frequency?_advance, ← h.frequencies c hc]
    split
    · next c' frequency hevent =>
      refine if_neg ?_
      rintro ⟨rfl, -⟩
      exact he (.inr ⟨c, by rw [hevent]; rfl, hc⟩)
    · rfl

/-! ### What the rules ask for -/

section Questions

variable (hσ : σ.Agree A τ) (h : s.Agree A C t)

include h

/-- The servers placed on a cluster of `C` are those of tasks of `A`, the same in both. -/
theorem serversOn_congr {c : Nat} (hc : c ∈ C) : s.serversOn c = t.serversOn c := by
  refine Table.filter_values_congr fun tid v => ?_
  have hplaced {s : Schedule} (hs : s.Separated A C) (hv : s.server? tid = some v) :
      (s.placement? v.tid == some c) = true ↔ s.placement? tid = some c := by
    rw [hs.keyed tid v hv, beq_iff_eq]
  constructor
  · rintro ⟨hv, hon⟩
    rw [hplaced h.left hv] at hon
    have htid : tid ∈ A := (h.left.placed tid c hon).2 hc
    have hv' : t.server? tid = some v := by rw [← h.servers tid htid]; exact hv
    exact ⟨hv', (hplaced h.right hv').2 (by rw [← h.placements tid htid]; exact hon)⟩
  · rintro ⟨hv, hon⟩
    rw [hplaced h.right hv] at hon
    have htid : tid ∈ A := (h.right.placed tid c hon).2 hc
    have hv' : s.server? tid = some v := by rw [h.servers tid htid]; exact hv
    exact ⟨hv', (hplaced h.left hv').2 (by rw [h.placements tid htid]; exact hon)⟩

theorem attachedOn_congr {c : Nat} (hc : c ∈ C) : s.attachedOn c = t.attachedOn c := by
  rw [attachedOn, serversOn_congr h hc, attachedOn]

theorem activeInputs?_congr {cluster : Cluster} (hc : cluster.id ∈ C) :
    Rule.activeInputs? s cluster = Rule.activeInputs? t cluster := by
  have hactive : s.activeOn cluster.id = t.activeOn cluster.id := by
    rw [activeOn, attachedOn_congr h hc, activeOn]
  rw [Rule.activeInputs?, Rule.activeInputs?, hactive, serversOn_congr h hc]

theorem demand?_congr (kind : Invariant) {cluster : Cluster} (hc : cluster.id ∈ C) :
    Rule.demand? kind s cluster cluster.id = Rule.demand? kind t cluster cluster.id := by
  cases kind with
  | powerAwareFrequency =>
    change Rule.powerAwareDemand? s cluster cluster.id = Rule.powerAwareDemand? t cluster cluster.id
    rw [Rule.powerAwareDemand?, Rule.powerAwareDemand?, attachedOn_congr h hc, h.watermarks _ hc]
  | ffaFrequency =>
    change Rule.ffaDemand? s cluster = Rule.ffaDemand? t cluster
    rw [Rule.ffaDemand?, Rule.ffaDemand?, activeInputs?_congr h hc]
  | csfFrequency =>
    change Rule.csfDemand? s cluster = Rule.csfDemand? t cluster
    rw [Rule.csfDemand?, Rule.csfDemand?, activeInputs?_congr h hc]
  | _ => rfl

/-- A task of `A` is placed on clusters of `C` only, and the servers there are the same. -/
theorem Agree.sameView {tid : Nat} (htid : tid ∈ A) : SameView tid s t where
  server := h.servers tid htid
  placement := h.placements tid htid
  attached := fun c hplaced => attachedOn_congr h ((h.right.placed tid c hplaced).1 htid)

include hσ

theorem frequencyMismatch?_congr (kind : Invariant) {c : Nat} (hc : c ∈ C) (time : Float) :
    Rule.frequencyMismatch? kind σ s time c = Rule.frequencyMismatch? kind τ t time c := by
  rw [Rule.frequencyMismatch?, Rule.frequencyMismatch?, hσ.platform, h.frequencies c hc]
  simp only [Option.bind_eq_bind]
  refine Option.bind_congr fun cluster hcluster => ?_
  obtain rfl := Platform.id_of_cluster? hcluster
  rw [demand?_congr h kind hc]

end Questions

end Schedule

/-! ## Traces -/

open Schedule in
/-- An entry that concerns `A` and `C` shows the same in both schedules. -/
theorem examine_congr (hσ : σ.Agree A τ) (h : s.Agree A C t) (policy : Policy)
    (he : e.event.Concerns A C) (hsep : e.event.Separates A C) :
    examine σ policy s e = examine τ policy t e := by
  rcases he with ⟨tid, htask, htid⟩ | ⟨c, hclock, hc⟩
  · exact examine_congr_of_sameView hσ.platform policy (h.sameView htid) htask
  · have hadvance := h.advance hσ (.inr ⟨c, hclock, hc⟩) hsep
    obtain ⟨time, event⟩ := e
    cases event with
    | frequencyUpdate c' frequency =>
      obtain rfl := Option.some.inj hclock
      simp only [examine]
      split
      · next kind _ => exact congrArg Option.toList (frequencyMismatch?_congr hσ hadvance kind hc time)
      · rfl
    | _ => cases hclock

theorem findings_filter [DecidablePred (Event.Concerns A C)] (hσ : σ.Agree A τ) (policy : Policy)
    {entries : Trace} (hsep : ∀ e ∈ entries, e.event.Separates A C) (h : s.Agree A C t) :
    (s.findings σ policy entries).filter (fun x => x.1.event.Concerns A C) =
      t.findings τ policy (entries.filter fun e => e.event.Concerns A C) := by
  induction entries generalizing s t with
  | nil => rfl
  | cons e entries ih =>
    obtain ⟨hfirst, hrest⟩ := List.forall_mem_cons.1 hsep
    rw [Schedule.findings, List.filter_cons, List.filter_cons]
    split_ifs with hkeep
    · -- kept: both schedules take the entry, and agree on what it shows
      have he := of_decide_eq_true hkeep
      rw [Schedule.findings, examine_congr hσ h policy he hfirst, ih hrest (h.advance hσ he hfirst)]
    · -- dropped: only the left schedule takes it
      exact ih hrest (h.advance_left (fun he => hkeep (decide_eq_true he)) hfirst)

/-- **Clusters do not interfere.** If the tasks of `A`, and no others, are placed on clusters of `C`,
then the entries that concern `A` and `C` add the same violations to the report on the whole trace as
they add to the report on nothing but these entries. -/
theorem verdicts_filter (platform : Platform) (tasks : List Task) (policy : Policy)
    (diagnoses : Bool) (entries : Trace) (A C : Set Nat) [DecidablePred (· ∈ A)]
    [DecidablePred (· ∈ C)] (hsep : ∀ e ∈ entries, e.event.Separates A C) :
    (entries.verdicts platform tasks policy diagnoses).filter
        (fun x => x.1.event.Concerns A C) =
      Trace.verdicts platform tasks policy diagnoses
        (entries.filter fun e => e.event.Concerns A C) := by
  rw [Trace.verdicts_eq_findings, Trace.verdicts_eq_findings]
  refine findings_filter (Setting.agree_ofTrace_filter platform tasks entries) policy hsep ?_
  exact ⟨Schedule.separated_start, Schedule.separated_start, fun _ _ => rfl, fun _ _ => rfl,
    fun _ _ => rfl, fun _ _ => rfl⟩

/-- Two tasks take turns on two clusters, and both are late. -/
def mixedTrace : Trace :=
  [⟨0.0, .taskPlaced 1 0⟩, ⟨0.0, .taskPlaced 2 1⟩, ⟨0.0, .servReady 1 1.0 0.5⟩,
    ⟨0.0, .servReady 2 1.0 0.5⟩, ⟨0.5, .frequencyUpdate 1 100.0⟩, ⟨0.5, .frequencyUpdate 0 100.0⟩,
    ⟨2.0, .jobFinished 2⟩, ⟨2.0, .jobFinished 1⟩]

theorem verdicts_filter_mixedTrace :
    (∀ e ∈ mixedTrace, e.event.Separates {1} {0}) ∧
      (mixedTrace.verdicts .twin [] .pa false).filter
          (fun x => x.1.event.Concerns {1} {0}) =
        Trace.verdicts .twin [] .pa false
          (mixedTrace.filter fun e => e.event.Concerns {1} {0}) := by
  have hsep : ∀ e ∈ mixedTrace, e.event.Separates {1} {0} := by
    simp [mixedTrace, Event.Separates, Event.placedAt?]
  exact ⟨hsep, verdicts_filter .twin [] .pa false mixedTrace {1} {0} hsep⟩

end SchedAudit

import SchedAudit.Proofs.Schedule.Membership

/-!
# What the flags of a server promise

A server says of the time since its last sample whether it ran without a break, and whether its
cluster has changed. This file says how far the schedule bears that out.

* **Membership.** The flag notices a server that attaches when it wakes on a declared cluster, and
  another one that leaves; it misses placements, and servers that attach in any other way
  (`Schedule.Unnoticed`). While the flag is down, the cluster of a task and the tasks attached to it
  are those of the last sample just in case nothing was missed (`baselineStands_iff_missedNothing`).
* **Continuity.** A server with the flag has been in one phase since its last sample, up to the next
  time that it becomes ready (`phaseStands_of_continuous`). Which phase that is, the flag does not
  tell.
-/

namespace SchedAudit

namespace Schedule

variable {σ : Setting} {s t : Schedule} {e : Entry} {tid other : Nat} {v : Server}

/-! ## The baseline of a sample -/

/-- A task has the same place in two schedules, and its cluster the same members. -/
def SameBaseline (tid : Nat) (s t : Schedule) : Prop :=
  t.placement? tid = s.placement? tid ∧
    ∀ c, s.placement? tid = some c → ∀ other, other ∈ t.members c ↔ other ∈ s.members c

/-- **What the flag of membership misses,** as long as the task is attached. -/
inductive Unnoticed (σ : Setting) (tid : Nat) (s : Schedule) (e : Entry) : Prop where
  /-- the task is placed on another cluster -/
  | moved (c : Nat) (hplaced : e.event.placedAt? tid = some c) (hother : s.placement? tid ≠ some c)
  /-- another attached task is placed on the cluster of the task, or away from it -/
  | carried (other c c' : Nat) (hother : other ≠ tid) (hplaced : e.event.placedAt? other = some c')
    (hcluster : s.placement? tid = some c) (hattached : s.IsAttached other)
    (hturn : s.placement? other = some c ↔ c' ≠ c)
  /-- another server on the cluster attaches, though it is not inactive, or the platform does not
  have the cluster -/
  | slippedIn (other c : Nat) (hother : other ≠ tid) (hready : Readies e other)
    (hcluster : s.placement? tid = some c) (hplaced : s.placement? other = some c)
    (hdetached : ¬s.IsAttached other)
    (hsilent : s.isIdle other = false ∨ σ.platform.cluster? c = none)

/-! ### One entry and the baseline -/

theorem mem_members_advance_iff (hs : s.Keyed) {c : Nat} :
    other ∈ (s.advance σ e).members c ↔
      (Readies e other ∨ (s.IsAttached other ∧ ¬Leaves σ e other)) ∧
        (e.event.placedAt? other).or (s.placement? other) = some c := by
  rw [mem_members_iff (keyed_advance hs e), isAttached_advance_iff hs, placement?_advance]

/-- An entry that places a task neither makes one ready nor takes one away. -/
theorem not_readies_of_placedAt? {c : Nat} (h : e.event.placedAt? other = some c) :
    ¬Readies e tid := by
  intro hready
  rw [hready.placedAt?] at h
  cases h

theorem not_leaves_of_placedAt? {c : Nat} (h : e.event.placedAt? other = some c) :
    ¬Leaves σ e tid := by
  intro hleaves
  rw [hleaves.placedAt?] at h
  cases h

theorem Readies.not_leaves (h : Readies e tid) : ¬Leaves σ e other := by
  obtain ⟨deadline, utilization, h⟩ := h
  rw [Leaves, h]
  rintro ⟨⟨⟩, -⟩

/-- What the flag misses does change the baseline. -/
theorem Unnoticed.not_sameBaseline (hs : s.Keyed) (h : s.Unnoticed σ tid e) :
    ¬SameBaseline tid s (s.advance σ e) := by
  rintro ⟨hplace, hmembers⟩
  cases h with
  | moved c hplaced hother =>
    rw [placement?_advance, hplaced, Option.some_or] at hplace
    exact hother hplace.symm
  | carried other c c' hother hplaced hcluster hattached hturn =>
    have hmember := hmembers c hcluster other
    have hready : ¬Readies e other := not_readies_of_placedAt? hplaced
    have hleaves : ¬Leaves σ e other := not_leaves_of_placedAt? hplaced
    rw [mem_members_advance_iff hs, mem_members_iff hs, hplaced] at hmember
    simp only [hready, hleaves, hattached, Option.some_or, Option.some_inj, false_or, true_and,
      not_false_eq_true, hturn] at hmember
    tauto
  | slippedIn other c hother hready hcluster hplaced hdetached hsilent =>
    have hmember := (hmembers c hcluster other).1 ((mem_members_advance_iff hs).2
      ⟨.inl hready, by rw [hready.placedAt?, Option.none_or, hplaced]⟩)
    exact hdetached ((mem_members_iff hs).1 hmember).1

/-- **The flag notices everything else.** While a task stays attached, an entry that neither raises
its flag nor is missed by it leaves the baseline as it is. -/
theorem sameBaseline_advance (hs : s.Keyed) (hattached : s.IsAttached tid)
    (hstays : ¬Leaves σ e tid) (hquiet : s.unsettles σ tid e = false)
    (hnoticed : ¬s.Unnoticed σ tid e) : SameBaseline tid s (s.advance σ e) := by
  have hplace : (s.advance σ e).placement? tid = s.placement? tid := by
    rw [placement?_advance]
    cases hplaced : e.event.placedAt? tid with
    | none => rfl
    | some c =>
      by_contra hother
      exact hnoticed (.moved c hplaced fun h => hother h.symm)
  refine ⟨hplace, fun c hcluster other => ?_⟩
  -- An announcement on the cluster about another task would have raised the flag.
  have hsilent (hother : other ≠ tid) (htask : e.event.task? = some other) :
      s.announced? σ e ≠ some c := by
    intro hannounced
    obtain ⟨v, hv, hv'⟩ := hattached
    rw [unsettles, Bool.and_eq_false_iff, bne_eq_false_iff_eq, htask, Option.some_inj] at hquiet
    have hheard : s.hears σ e tid = true := hears_iff.2 ⟨c, v, hannounced, hv, hv', hcluster⟩
    rw [hheard] at hquiet
    exact hquiet.elim hother Bool.noConfusion
  rw [mem_members_advance_iff hs, mem_members_iff hs]
  by_cases hself : other = tid
  · -- The task itself stays attached where it is.
    subst hself
    rw [← placement?_advance, hplace]
    simp [hattached, hstays]
  cases hplaced : e.event.placedAt? other with
  | some c' =>
    have hready : ¬Readies e other := not_readies_of_placedAt? hplaced
    have hleaves : ¬Leaves σ e other := not_leaves_of_placedAt? hplaced
    simp only [hready, hleaves, false_or, not_false_eq_true, and_true, Option.some_or,
      Option.some_inj]
    refine and_congr_right fun hon => ?_
    by_contra hturn
    refine hnoticed (.carried other c c' hself hplaced hcluster hon ?_)
    tauto
  | none =>
    rw [Option.none_or]
    refine and_congr_left fun hon => ?_
    by_cases hready : Readies e other
    · -- Who becomes ready on the cluster has been attached all along.
      have hbefore : s.IsAttached other := by
        by_contra hdetached
        refine hnoticed (.slippedIn other c hself hready hcluster hon hdetached ?_)
        by_contra hloud
        rw [not_or, Bool.not_eq_false, ← ne_eq, Option.ne_none_iff_isSome] at hloud
        have htask := hready.task?
        obtain ⟨deadline, utilization, hevent⟩ := hready
        exact hsilent hself htask (announced?_eq_some_iff.2
          (.inl ⟨other, deadline, utilization, hevent, hloud.1, hon, hloud.2⟩))
      simp [hready, hbefore]
    · -- Who is attached to the cluster does not leave it.
      have hremains : s.IsAttached other → ¬Leaves σ e other := by
        rintro ⟨v, hv, -⟩ hleaves
        refine hsilent hself hleaves.task? (announced?_eq_some_iff.2 (.inr ⟨other, hleaves.1, ?_,
          hleaves.2, hon⟩))
        rw [hv]
        rfl
      simp only [hready, false_or]
      exact ⟨And.left, fun h => ⟨h, hremains h⟩⟩

/-! ### A run and the baseline -/

theorem SameBaseline.refl (tid : Nat) (s : Schedule) : SameBaseline tid s s :=
  ⟨rfl, fun _ _ _ => Iff.rfl⟩

theorem SameBaseline.symm (hst : SameBaseline tid s t) : SameBaseline tid t s :=
  ⟨hst.1.symm, fun c hc other => (hst.2 c (hst.1.symm.trans hc) other).symm⟩

theorem SameBaseline.trans {u : Schedule} (hst : SameBaseline tid s t)
    (htu : SameBaseline tid t u) : SameBaseline tid s u :=
  ⟨htu.1.trans hst.1, fun c hc other =>
    (htu.2 c (hst.1.trans hc) other).trans (hst.2 c hc other)⟩

variable {entries : Trace} {i j : Nat}

theorem not_leaves_of_isAttached (hs : s.Keyed) (hafter : (s.advance σ e).IsAttached tid) :
    ¬Leaves σ e tid := by
  rcases (isAttached_advance_iff hs).1 hafter with hready | ⟨-, hstays⟩
  · exact hready.not_leaves
  · exact hstays

theorem Unnoticed.not_leaves (h : s.Unnoticed σ tid e) : ¬Leaves σ e tid := by
  cases h with
  | moved c hplaced => exact not_leaves_of_placedAt? hplaced
  | carried other c c' hother hplaced => exact not_leaves_of_placedAt? hplaced
  | slippedIn other c hother hready => exact hready.not_leaves

/-- Since the sample at place `j` the baseline has stood, whenever the task was attached. -/
def BaselineStands (σ : Setting) (entries : Trace) (tid j i : Nat) : Prop :=
  ∀ k, j < k → k ≤ i → (before σ entries k).IsAttached tid →
    SameBaseline tid (before σ entries (j + 1)) (before σ entries k)

/-- Since the sample at place `j` the flag has missed nothing. Nothing is said about the time when
the task itself was detached, except that the baseline stood when it came back. -/
structure MissedNothing (σ : Setting) (entries : Trace) (tid j i : Nat) : Prop where
  noticed : Between σ entries j i fun s e => s.IsAttached tid → ¬s.Unnoticed σ tid e
  returned : ∀ k, j < k → k < i → ¬(before σ entries k).IsAttached tid →
    (before σ entries (k + 1)).IsAttached tid →
    SameBaseline tid (before σ entries (j + 1)) (before σ entries (k + 1))

/-- While the flag is down, the baseline stands just in case the flag has missed nothing. -/
theorem baselineStands_iff (hi : i ≤ entries.length)
    (hquiet : Between σ entries j i fun s e => s.unsettles σ tid e = false) :
    BaselineStands σ entries tid j i ↔ MissedNothing σ entries tid j i := by
  constructor
  · intro hstands
    refine ⟨?_, fun k hjk hki _ => hstands (k + 1) (by omega) hki⟩
    intro k e hjk hki he hattached hmissed
    have hafter : (before σ entries (k + 1)).IsAttached tid := by
      rw [before_succ he, isAttached_advance_iff keyed_before]
      exact .inr ⟨hattached, hmissed.not_leaves⟩
    have hstep := (hstands k hjk (Nat.le_of_lt hki) hattached).symm.trans
      (hstands (k + 1) (by omega) hki hafter)
    rw [before_succ he] at hstep
    exact hmissed.not_sameBaseline keyed_before hstep
  · rintro ⟨hnoticed, hreturned⟩ k hjk hki hattached
    induction k, hjk using Nat.le_induction with
    | base => exact .refl tid _
    | succ k hjk ih =>
      have he : entries[k]? = some entries[k] := List.getElem?_eq_getElem (by omega)
      by_cases hbefore : (before σ entries k).IsAttached tid
      · -- The flag notices what happens to the cluster of an attached task.
        refine (ih (by omega) hbefore).trans ?_
        rw [before_succ he] at hattached ⊢
        exact sameBaseline_advance keyed_before hbefore
          (not_leaves_of_isAttached keyed_before hattached) (hquiet k _ hjk hki he)
          (hnoticed k _ hjk hki he hbefore)
      · exact hreturned k hjk hki hbefore hattached

/-! ## The phase of a sample -/

/-- Up to the next time that it becomes ready, a task is in the phase in which the sample at place
`j` found it. -/
def PhaseStands (σ : Setting) (entries : Trace) (tid j i : Nat) : Prop :=
  ∃ w, (before σ entries j).server? tid = some w ∧
    ∀ k, j < k → k ≤ i → (Between σ entries j k fun _ e => ¬Readies e tid) →
      ∃ u, (before σ entries k).server? tid = some u ∧ u.phase = w.phase

variable {sample : Sample}

theorem phaseStands (hlast : LastSample σ entries tid j i sample) (hi : i ≤ entries.length)
    (hquiet : Between σ entries j i fun s e => ¬s.Interrupts tid e) :
    PhaseStands σ entries tid j i := by
  obtain ⟨-, ⟨bandwidth, hej⟩, ⟨w, hw⟩, hlast⟩ := hlast
  refine ⟨w, hw, fun k hjk hki hready => ?_⟩
  induction k, hjk using Nat.le_induction with
  | base => exact ⟨_, server?_before_succ_of_sample hej hw, rfl⟩
  | succ k hjk ih =>
    have he : entries[k]? = some entries[k] := List.getElem?_eq_getElem (by omega)
    obtain ⟨hbefore, hnow⟩ := (between_succ hjk he).1 hready
    obtain ⟨u, hu, hphase⟩ := ih (by omega) hbefore
    refine ⟨_, by rw [before_succ he, server?_advance_of_some keyed_before hu], ?_⟩
    rw [phase_next (hlast k _ hjk hki he) (hquiet k _ hjk hki he), hphase]
    exact fun deadline utilization h => hnow ⟨deadline, utilization, h⟩

end Schedule

/-! ## What the audit knows -/

variable (platform : Platform) (tasks : List Task) (policy : Policy) (diagnoses : Bool)
  {entries : Trace} {i tid : Nat} {v : Server}

/-- **What a flag of membership that is down is worth.** Since its last sample a server has had the
same cluster, and its cluster the same members, whenever it was attached, if and only if no entry
has escaped the flag. -/
theorem baselineStands_iff_missedNothing (hi : i ≤ entries.length)
    (hv : (Audit.before platform tasks policy diagnoses entries i).schedule.server? tid = some v)
    (hsampled : v.latest ≠ none) (hflag : v.membershipChanged = false) :
    ∃ j sample, Schedule.LastSample (.ofTrace platform tasks entries) entries tid j i sample ∧
      v.latest = some sample ∧
      (Schedule.BaselineStands (.ofTrace platform tasks entries) entries tid j i ↔
        Schedule.MissedNothing (.ofTrace platform tasks entries) entries tid j i) := by
  rw [Audit.schedule_before] at hv
  obtain ⟨j, sample, hlast, hwakes⟩ := Schedule.exists_lastSample hi hv (.inr hsampled)
  obtain ⟨v', hv', -, hkept⟩ := Schedule.server_since hlast hi
  obtain rfl := Option.some.inj (hv.symm.trans hv')
  obtain ⟨hlatest, hsettled⟩ := hkept hwakes
  exact ⟨j, sample, hlast, hlatest, Schedule.baselineStands_iff hi (hsettled.1 hflag)⟩

/-- While a task is sampled on one cluster, another attached task is brought there. -/
def carriedTrace : Trace :=
  [⟨0.0, .taskPlaced 1 0⟩, ⟨0.0, .servReady 1 10.0 0.5⟩, ⟨0.0, .taskPlaced 2 1⟩,
    ⟨0.0, .servReady 2 10.0 0.25⟩, ⟨0.0, .virtualTimeUpdate 1 0.0 none⟩,
    ⟨1.0, .migrationCluster 2 0⟩]

theorem baselineStands_iff_carriedTrace :
    6 ≤ carriedTrace.length ∧
      ∃ v, (Audit.before .twin [] .grub false carriedTrace 6).schedule.server? 1 = some v ∧
        v.latest ≠ none ∧ v.membershipChanged = false ∧
        ∃ j sample, Schedule.LastSample (.ofTrace .twin [] carriedTrace) carriedTrace 1 j 6 sample ∧
          v.latest = some sample ∧
          (Schedule.BaselineStands (.ofTrace .twin [] carriedTrace) carriedTrace 1 j 6 ↔
            Schedule.MissedNothing (.ofTrace .twin [] carriedTrace) carriedTrace 1 j 6) := by
  refine ⟨by decide, _, rfl, nofun, rfl, ?_⟩
  exact baselineStands_iff_missedNothing .twin [] .grub false (by decide) rfl nofun rfl

/-- The flag is down, and yet the cluster has a member more than it had after the sample. -/
theorem baseline_lost_carriedTrace :
    ¬∀ tid v, (Audit.before .twin [] .grub false carriedTrace 6).schedule.server? tid = some v →
      v.attached = true → v.latest ≠ none → v.membershipChanged = false →
      Schedule.SameBaseline tid (Audit.before .twin [] .grub false carriedTrace 5).schedule
        (Audit.before .twin [] .grub false carriedTrace 6).schedule := by
  intro h
  have hmembers := (h 1 _ rfl rfl nofun rfl).2 0 rfl 2
  exact absurd hmembers (by decide)

/-- **What the flag of continuity is worth.** A server with the flag was sampled, and it has been in
the phase in which the sample found it ever since, up to the next time that it became ready. -/
theorem phaseStands_of_continuous (hi : i ≤ entries.length)
    (hv : (Audit.before platform tasks policy diagnoses entries i).schedule.server? tid = some v)
    (hcontinuous : v.continuous = true) :
    ∃ j sample, Schedule.LastSample (.ofTrace platform tasks entries) entries tid j i sample ∧
      v.latest = some sample ∧
      Schedule.PhaseStands (.ofTrace platform tasks entries) entries tid j i := by
  rw [Audit.schedule_before] at hv
  obtain ⟨j, sample, hlast, hwakes⟩ := Schedule.exists_lastSample hi hv (.inl hcontinuous)
  obtain ⟨v', hv', hquiet, hkept⟩ := Schedule.server_since hlast hi
  obtain rfl := Option.some.inj (hv.symm.trans hv')
  exact ⟨j, sample, hlast, (hkept hwakes).1,
    Schedule.phaseStands hlast hi (hquiet.1 hcontinuous)⟩

/-- A running task is sampled, its deadline is put off, and another one becomes ready beside it. -/
def steadyTrace : Trace :=
  [⟨0.0, .taskPlaced 1 0⟩, ⟨0.0, .taskPlaced 2 0⟩, ⟨0.0, .servReady 1 10.0 0.5⟩,
    ⟨0.0, .servRunning 1⟩, ⟨0.0, .virtualTimeUpdate 1 0.0 none⟩, ⟨1.0, .servPostpone 1 20.0⟩,
    ⟨2.0, .servReady 2 10.0 0.25⟩]

theorem phaseStands_steadyTrace :
    7 ≤ steadyTrace.length ∧
      ∃ v, (Audit.before .twin [] .grub false steadyTrace 7).schedule.server? 1 = some v ∧
        v.continuous = true ∧
        ∃ j sample, Schedule.LastSample (.ofTrace .twin [] steadyTrace) steadyTrace 1 j 7 sample ∧
          v.latest = some sample ∧
          Schedule.PhaseStands (.ofTrace .twin [] steadyTrace) steadyTrace 1 j 7 := by
  refine ⟨by decide, _, rfl, rfl, ?_⟩
  exact phaseStands_of_continuous .twin [] .grub false (by decide) rfl rfl

/-- A task is sampled that has become ready, and does not run. -/
def idleTrace : Trace :=
  [⟨0.0, .taskPlaced 1 0⟩, ⟨0.0, .servReady 1 10.0 0.5⟩, ⟨0.0, .virtualTimeUpdate 1 0.0 none⟩]

/-- The flag of continuity does not say that the server runs. -/
theorem continuous_idleTrace :
    ¬∀ tid v, (Audit.before .twin [] .grub false idleTrace 3).schedule.server? tid = some v →
      v.continuous = true → v.phase = .running := by
  intro h
  exact nomatch h 1 _ rfl rfl

end SchedAudit

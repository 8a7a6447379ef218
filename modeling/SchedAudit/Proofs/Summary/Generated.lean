import Mathlib
import SchedAudit.Proofs.Binary64.Order
import SchedAudit.Proofs.Sorting
import SchedAudit.Summary.Generated

/-!
# The table of generated scenarios accounts for each run

Runs are put into groups one by one, each into the first group that accepts it, and the groups are
sorted afterwards. What a list of groups owes to the runs put into it is `Accounted`: no two groups
share level and policy, each holds exactly the runs that it accepts, each is about some run, and each
run is in one. Putting in one more run keeps that (`Accounted.insert`), and so does sorting, since it
is about the groups whatever their order. The table is read off from it (`table_tallies`).

Levels that are equal numbers are one level. The two zeros are, though the total order that sorts the
table tells them apart: a row of negative zero stands before one of zero, whatever their policies.
-/

namespace SchedAudit.Summary.Generated

variable {r : RunResult} {g : Group} {gs : List Group} {runs results : List RunResult}

/-! ## One more run -/

/-- Whether the level of a run is a number. -/
def Numeric (r : RunResult) : Prop := (levelOf r).isNaN = false

/-- A level and a policy. Levels are the same if they are equal numbers. -/
structure Place where
  /-- the level on the scale of numbers -/
  level : Int
  /-- the policy -/
  policy : Policy
deriving DecidableEq

/-- Level and policy of a run. -/
def placeOf (r : RunResult) : Place := ⟨Binary64.numericKey (levelOf r), r.policy⟩

/-- Level and policy of a group. -/
def Group.place (g : Group) : Place := ⟨Binary64.numericKey g.level, g.policy⟩

/-- A group that begins with a run. -/
def Group.start (r : RunResult) : Group := ⟨levelOf r, r.policy, [r]⟩

/-- A group with one more run. -/
def Group.add (g : Group) (r : RunResult) : Group := { g with members := g.members ++ [r] }

@[simp] theorem Group.place_start (r : RunResult) : (Group.start r).place = placeOf r := rfl
@[simp] theorem Group.place_add (g : Group) (r : RunResult) : (g.add r).place = g.place := rfl
@[simp] theorem Group.members_add (g : Group) (r : RunResult) :
    (g.add r).members = g.members ++ [r] := rfl
@[simp] theorem Group.accepts_add (g : Group) (r : RunResult) : (g.add r).accepts = g.accepts := rfl

theorem Group.accepts_iff (hg : g.level.isNaN = false) (hr : Numeric r) :
    g.accepts r = true ↔ g.place = placeOf r := by
  rw [accepts, Bool.and_eq_true, Binary64.beq_iff hg hr, beq_iff_eq, place, placeOf, Place.mk.injEq]

/-- A run goes into the first group that accepts it, and begins a group if there is none. -/
theorem insert_cases (r : RunResult) (gs : List Group) :
    (∃ front g back, gs = front ++ g :: back ∧ g.accepts r = true ∧
      insert r gs = front ++ g.add r :: back) ∨
    ((∀ g ∈ gs, g.accepts r = false) ∧ insert r gs = gs ++ [Group.start r]) := by
  induction gs with
  | nil => exact .inr ⟨fun g hg => absurd hg List.not_mem_nil, rfl⟩
  | cons h rest ih =>
    rw [insert]
    split_ifs with haccepts
    · exact .inl ⟨[], h, rest, rfl, haccepts, rfl⟩
    · rcases ih with ⟨front, g, back, rfl, hg, hrest⟩ | ⟨hnone, hrest⟩
      · exact .inl ⟨h :: front, g, back, rfl, hg, by rw [hrest]; rfl⟩
      · refine .inr ⟨?_, by rw [hrest]; rfl⟩
        exact List.forall_mem_cons.2 ⟨Bool.eq_false_iff.2 haccepts, hnone⟩

/-! ## Groups of all runs -/

/-- The groups of some runs. -/
structure Accounted (runs : List RunResult) (gs : List Group) : Prop where
  /-- no two groups share level and policy -/
  places : (gs.map Group.place).Nodup
  /-- a group holds the runs that it accepts, in their order -/
  members : ∀ g ∈ gs, g.members = runs.filter g.accepts
  /-- a group is about some run -/
  inhabited : ∀ g ∈ gs, ∃ r ∈ runs, g.level = levelOf r ∧ g.policy = r.policy
  /-- each run has a group -/
  covered : ∀ r ∈ runs, ∃ g ∈ gs, g.place = placeOf r

namespace Accounted

theorem numeric (h : Accounted runs gs) (hruns : ∀ r ∈ runs, Numeric r) (hg : g ∈ gs) :
    g.level.isNaN = false := by
  obtain ⟨r, hr, hlevel, -⟩ := h.inhabited g hg
  rw [hlevel]
  exact hruns r hr

/-- A group takes in a run that it accepts; all others know nothing of it. -/
theorem insert_add {front back : List Group} (h : Accounted runs (front ++ g :: back))
    (hruns : ∀ r ∈ runs, Numeric r) (hr : Numeric r) (haccepts : g.accepts r = true) :
    Accounted (runs ++ [r]) (front ++ g.add r :: back) := by
  have hg : g ∈ front ++ g :: back := by simp
  have hplace : g.place = placeOf r := (Group.accepts_iff (h.numeric hruns hg) hr).1 haccepts
  -- The new list of groups has a member that was there before, or the one that was added to.
  have hcases {k : Group} (hk : k ∈ front ++ g.add r :: back) :
      k = g.add r ∨ k ∈ front ++ g :: back ∧ k.place ≠ g.place := by
    have hplaces := h.places
    rw [List.map_append, List.map_cons, List.nodup_middle, List.nodup_cons, List.mem_append] at hplaces
    rcases List.mem_append.1 hk with hfront | hback
    · refine .inr ⟨List.mem_append_left _ hfront, fun heq => hplaces.1 (.inl ?_)⟩
      exact heq ▸ List.mem_map_of_mem hfront
    · rcases List.mem_cons.1 hback with rfl | hback
      · exact .inl rfl
      · refine .inr ⟨List.mem_append_right _ (List.mem_cons_of_mem _ hback), fun heq => ?_⟩
        exact hplaces.1 (.inr (heq ▸ List.mem_map_of_mem hback))
  refine ⟨?_, fun k hk => ?_, fun k hk => ?_, fun s hs => ?_⟩
  · simpa using h.places
  · rcases hcases hk with rfl | ⟨hk, hne⟩
    · rw [Group.members_add, Group.accepts_add, h.members g hg, List.filter_append,
        List.filter_singleton, haccepts]
      rfl
    · have hrefused : k.accepts r = false := Bool.eq_false_iff.2 fun hk' =>
        hne (((Group.accepts_iff (h.numeric hruns hk) hr).1 hk').trans hplace.symm)
      rw [h.members k hk, List.filter_append, List.filter_singleton, hrefused]
      exact (List.append_nil _).symm
  · have hold : ∃ l ∈ front ++ g :: back, k.level = l.level ∧ k.policy = l.policy := by
      rcases hcases hk with rfl | ⟨hk, -⟩
      · exact ⟨g, hg, rfl, rfl⟩
      · exact ⟨k, hk, rfl, rfl⟩
    obtain ⟨l, hl, hlevel, hpolicy⟩ := hold
    obtain ⟨s, hs, hlevel', hpolicy'⟩ := h.inhabited l hl
    exact ⟨s, List.mem_append_left _ hs, hlevel.trans hlevel', hpolicy.trans hpolicy'⟩
  · have hold : placeOf s ∈ (front ++ g :: back).map Group.place := by
      rcases List.mem_append.1 hs with hs | hs
      · obtain ⟨k, hk, hkplace⟩ := h.covered s hs
        exact hkplace ▸ List.mem_map_of_mem hk
      · rw [List.mem_singleton.1 hs, ← hplace]
        exact List.mem_map_of_mem hg
    have hnew : placeOf s ∈ (front ++ g.add r :: back).map Group.place := by simpa using hold
    exact List.mem_map.1 hnew

/-- A run that no group accepts begins one, and no earlier run belongs there. -/
theorem insert_start (h : Accounted runs gs) (hruns : ∀ r ∈ runs, Numeric r) (hr : Numeric r)
    (hnone : ∀ g ∈ gs, g.accepts r = false) : Accounted (runs ++ [r]) (gs ++ [Group.start r]) := by
  have hne {k : Group} (hk : k ∈ gs) : k.place ≠ placeOf r := by
    rw [Ne, ← Group.accepts_iff (h.numeric hruns hk) hr, hnone k hk]
    exact Bool.false_ne_true
  refine ⟨?_, fun k hk => ?_, fun k hk => ?_, fun s hs => ?_⟩
  · rw [List.map_append, List.nodup_append]
    refine ⟨h.places, List.nodup_singleton _, fun p hp q hq => ?_⟩
    obtain ⟨k, hk, rfl⟩ := List.mem_map.1 hp
    rw [List.map_singleton, List.mem_singleton, Group.place_start] at hq
    exact hq ▸ hne hk
  · rcases List.mem_append.1 hk with hk | hk
    · rw [h.members k hk, List.filter_append, List.filter_singleton, hnone k hk]
      exact (List.append_nil _).symm
    · obtain rfl := List.mem_singleton.1 hk
      have hself : (Group.start r).accepts r = true :=
        (Group.accepts_iff (g := Group.start r) hr hr).2 rfl
      have hbefore : runs.filter (Group.start r).accepts = [] := by
        refine List.filter_eq_nil_iff.2 fun s hs haccepts => ?_
        obtain ⟨k, hk, hplace⟩ := h.covered s hs
        refine hne hk (hplace.trans ?_)
        exact ((Group.accepts_iff (g := Group.start r) hr (hruns s hs)).1 haccepts).symm
      rw [List.filter_append, hbefore, List.filter_singleton, hself]
      rfl
  · rcases List.mem_append.1 hk with hk | hk
    · obtain ⟨s, hs, hlevel, hpolicy⟩ := h.inhabited k hk
      exact ⟨s, List.mem_append_left _ hs, hlevel, hpolicy⟩
    · obtain rfl := List.mem_singleton.1 hk
      exact ⟨r, by simp, rfl, rfl⟩
  · rcases List.mem_append.1 hs with hs | hs
    · obtain ⟨k, hk, hplace⟩ := h.covered s hs
      exact ⟨k, List.mem_append_left _ hk, hplace⟩
    · obtain rfl := List.mem_singleton.1 hs
      exact ⟨Group.start s, by simp, rfl⟩

/-- **One more run.** -/
theorem insert (h : Accounted runs gs) (hruns : ∀ r ∈ runs, Numeric r) (hr : Numeric r) :
    Accounted (runs ++ [r]) (insert r gs) := by
  rcases insert_cases r gs with ⟨front, g, back, rfl, haccepts, hinsert⟩ | ⟨hnone, hinsert⟩
  · rw [hinsert]
    exact h.insert_add hruns hr haccepts
  · rw [hinsert]
    exact h.insert_start hruns hr hnone

/-- **All runs**, put in one after the other. -/
theorem foldl (hruns : ∀ r ∈ runs, Numeric r) :
    Accounted runs (runs.foldl (fun found r => Generated.insert r found) []) := by
  induction runs using List.reverseRecOn with
  | nil => exact ⟨List.nodup_nil, by simp, by simp, by simp⟩
  | append_singleton runs r ih =>
    rw [List.foldl_append]
    have hbefore : ∀ s ∈ runs, Numeric s := fun s hs => hruns s (List.mem_append_left _ hs)
    exact (ih hbefore).insert hbefore (hruns r (by simp))

/-- Groups account for their runs in any order. -/
theorem perm {gs' : List Group} (h : Accounted runs gs) (hperm : gs.Perm gs') :
    Accounted runs gs' where
  places := (hperm.map _).nodup_iff.1 h.places
  members g hg := h.members g (hperm.mem_iff.2 hg)
  inhabited g hg := h.inhabited g (hperm.mem_iff.2 hg)
  covered r hr := (h.covered r hr).imp fun _ hg => ⟨hperm.mem_iff.1 hg.1, hg.2⟩

/-- No run is lost or counted twice. -/
theorem sum_length_members (h : Accounted runs gs) (hruns : ∀ r ∈ runs, Numeric r) :
    (gs.map fun g => g.members.length).sum = runs.length := by
  have hplaces : (gs.map Group.place).Perm (runs.map placeOf).dedup := by
    refine (List.perm_ext_iff_of_nodup h.places (List.nodup_dedup _)).2 fun p => ?_
    rw [List.mem_dedup, List.mem_map, List.mem_map]
    constructor
    · rintro ⟨g, hg, rfl⟩
      obtain ⟨r, hr, hlevel, hpolicy⟩ := h.inhabited g hg
      exact ⟨r, hr, by rw [placeOf, Group.place, hlevel, hpolicy]⟩
    · rintro ⟨r, hr, rfl⟩
      exact h.covered r hr
  have hlength {g : Group} (hg : g ∈ gs) : g.members.length = (runs.map placeOf).count g.place := by
    rw [h.members g hg, ← List.countP_eq_length_filter, List.count_eq_countP, List.countP_map]
    refine List.countP_congr fun r hr => ?_
    rw [Group.accepts_iff (h.numeric hruns hg) (hruns r hr), Function.comp_apply, beq_iff_eq, eq_comm]
  calc (gs.map fun g => g.members.length).sum
      = (gs.map fun g => (runs.map placeOf).count g.place).sum :=
        congrArg List.sum (List.map_congr_left fun _ => hlength)
    _ = ((gs.map Group.place).map fun p => (runs.map placeOf).count p).sum := by
        rw [List.map_map, Function.comp_def]
    _ = ((runs.map placeOf).dedup.map fun p => (runs.map placeOf).count p).sum :=
        (hplaces.map _).sum_eq
    _ = runs.length := by rw [List.sum_map_count_dedup_eq_length, List.length_map]

end Accounted

/-! ## The order of the table -/

/-- What the table is sorted by. -/
def Group.sortKey (g : Group) : ℤ ×ₗ ℕ := toLex (Binary64.orderKey g.level, g.policy.rank)

/-- One row stands above another: its level comes first in the total order of doubles, or they share
the level and its policy comes first. -/
def Group.Before (a b : Group) : Prop :=
  Binary64.orderKey a.level < Binary64.orderKey b.level ∨
    a.level = b.level ∧ a.policy.rank < b.policy.rank

theorem inOrder_iff_sortKey_le (a b : Group) : inOrder a b = true ↔ a.sortKey ≤ b.sortKey := by
  rw [inOrder, Group.sortKey, Group.sortKey, Prod.Lex.toLex_le_toLex, Bool.or_eq_true,
    Bool.and_eq_true, decide_eq_true_eq, decide_eq_true_eq, beq_iff_eq]

theorem place_eq_of_sortKey_eq {a b : Group} (h : a.sortKey = b.sortKey) : a.place = b.place := by
  obtain ⟨hlevel, hrank⟩ := Prod.mk.inj (toLex.injective h)
  rw [Group.place, Group.place, Binary64.eq_of_orderKey_eq hlevel, Policy.rank_injective hrank]

theorem before_of_sortKey_lt {a b : Group} (h : a.sortKey < b.sortKey) : a.Before b :=
  (Prod.Lex.toLex_lt_toLex.1 h).imp_right fun hlevel =>
    ⟨Binary64.eq_of_orderKey_eq hlevel.1, hlevel.2⟩

/-- The order of rows is that of their levels as numbers, save that it tells the zeros apart. -/
theorem Group.Before.level {a b : Group} (h : a.Before b) (ha : a.level.isNaN = false)
    (hb : b.level.isNaN = false) :
    a.level < b.level ∨ a.level = b.level ∨ a.level = -0.0 ∧ b.level = 0.0 := by
  rcases h with hlt | ⟨hlevel, -⟩
  · rcases lt_or_eq_of_le (Binary64.numericKey_le_of_orderKey_le hlt.le) with hnum | hnum
    · exact .inl ((Binary64.lt_iff ha hb).2 hnum)
    · exact .inr (.inr (Binary64.zeros_of_orderKey_lt hlt hnum))
  · exact .inr (.inl hlevel)

/-! ## Rows -/

/-- Each run passed, failed or was skipped. -/
theorem countP_add_countP_add_countP (runs : List RunResult) :
    runs.countP (fun r => !r.isFailure && !r.isSkipped) + runs.countP (·.isFailure) +
      runs.countP (·.isSkipped) = runs.length := by
  induction runs with
  | nil => rfl
  | cons r rest ih =>
    have hone : r.isSkipped = true → r.isFailure = false := by
      intro h
      rw [RunResult.isFailure, RunResult.violations, Option.isNone_iff_eq_none.1 h]
      rfl
    rw [List.countP_cons, List.countP_cons, List.countP_cons, List.length_cons]
    cases hskipped : r.isSkipped with
    | true =>
      simp [hone hskipped]
      omega
    | false =>
      cases r.isFailure <;> simp <;> omega

theorem mem_sortedNames (k : Invariant) : k.name ∈ Group.sortedNames :=
  (List.mergeSort_perm _ _).mem_iff.2 (List.mem_map_of_mem k.mem_all)

theorem pairwise_sortedNames : Group.sortedNames.Pairwise (· < ·) := by
  have hdistinct : (Invariant.all.map (·.name)).Nodup := by decide
  exact pairwise_lt_mergeSort_of_key (fun a b => decide_eq_true_iff) (by rwa [List.map_id'])

theorem Group.mem_brokenNames_iff {name : String} : name ∈ g.brokenNames ↔
    ∃ r ∈ g.members, ∃ v ∈ r.violations, v.kind.name = name := by
  simp only [brokenNames, List.mem_filter, List.any_eq_true, beq_iff_eq, and_iff_right_iff_imp]
  rintro ⟨r, -, v, -, rfl⟩
  exact mem_sortedNames v.kind

theorem Group.pairwise_brokenNames (g : Group) : g.brokenNames.Pairwise (· < ·) :=
  pairwise_sortedNames.filter _

/-- A group names a broken invariant if one of its runs failed. -/
theorem Group.brokenNames_ne_nil_iff : g.brokenNames ≠ [] ↔ 0 < g.failed := by
  rw [failed, List.countP_pos_iff]
  constructor
  · intro h
    obtain ⟨name, hname⟩ := List.exists_mem_of_ne_nil _ h
    obtain ⟨r, hr, v, hv, -⟩ := mem_brokenNames_iff.1 hname
    exact ⟨r, hr, by rw [RunResult.isFailure, List.isEmpty_eq_false_iff_exists_mem.2 ⟨v, hv⟩]; rfl⟩
  · rintro ⟨r, hr, hfailure⟩
    rw [RunResult.isFailure, Bool.not_eq_true', List.isEmpty_eq_false_iff_exists_mem] at hfailure
    obtain ⟨v, hv⟩ := hfailure
    exact List.ne_nil_of_mem (mem_brokenNames_iff.2 ⟨r, hr, v, hv, rfl⟩)

/-- The number of runs that a row tells. -/
def Group.shown (g : Group) : Nat := g.passed + g.failed + g.skipped

/-- What the table owes to the runs. -/
structure Tallies (limit : Nat) (results : List RunResult) : Prop where
  /-- the lines are those of the table, of the details and of the verdict -/
  layout : lines limit results =
    tableLines results ++ detailLines limit results ++ ["", verdict results]
  /-- the table has one line for each row below its heading, and is ruled off -/
  table : ∃ heading rule, heading.length = 3 ∧ tableLines results =
    heading ++ (groups results).map (fun g => line (Level.label g.level) g.policy.name
      (toString g.shown) (toString g.passed) (toString g.failed) (toString g.skipped)
      (", ".intercalate g.brokenNames)) ++ [rule]
  /-- rows are about different policies or different levels -/
  distinct : (groups results).Pairwise fun a b => ¬((a.level == b.level) = true ∧ a.policy = b.policy)
  /-- rows ascend strictly in level and policy -/
  ascending : (groups results).Pairwise Group.Before
  /-- levels ascend as numbers, negative zero before zero -/
  levels_ascending : (groups results).Pairwise fun a b =>
    a.level < b.level ∨ a.level = b.level ∨ a.level = -0.0 ∧ b.level = 0.0
  /-- a row is about some run -/
  inhabited : ∀ g ∈ groups results, ∃ r ∈ results, g.level = levelOf r ∧ g.policy = r.policy
  /-- a run has one row that is about its level and policy -/
  covered : ∀ r ∈ results, ∃! g, g ∈ groups results ∧
    (g.level == levelOf r) = true ∧ g.policy = r.policy
  /-- a row tells how many runs of its level and policy there are -/
  shown : ∀ g ∈ groups results, g.shown = results.countP g.accepts
  /-- a row counts the completed runs without violations -/
  passed : ∀ g ∈ groups results, g.passed =
    results.countP fun r => g.accepts r && r.violations?.any (·.isEmpty)
  /-- a row counts the completed runs with violations -/
  failed : ∀ g ∈ groups results, g.failed =
    results.countP fun r => g.accepts r && r.violations?.any (!·.isEmpty)
  /-- a row counts the runs that were skipped -/
  skipped : ∀ g ∈ groups results, g.skipped =
    results.countP fun r => g.accepts r && r.violations?.isNone
  /-- the rows tell as many runs as there are -/
  sum_shown : ((groups results).map Group.shown).sum = results.length
  /-- the names in a row are those of the invariants that its runs broke -/
  mem_brokenNames_iff : ∀ g ∈ groups results, ∀ name, name ∈ g.brokenNames ↔
    ∃ r ∈ results, g.accepts r = true ∧ ∃ v ∈ r.violations, v.kind.name = name
  /-- the names in a row are sorted, and none is repeated -/
  brokenNames_ascending : ∀ g ∈ groups results, g.brokenNames.Pairwise (· < ·)
  /-- a row has a name if one of its runs failed -/
  brokenNames_ne_nil_iff : ∀ g ∈ groups results, g.brokenNames ≠ [] ↔ 0 < g.failed

theorem accounted_groups (hruns : ∀ r ∈ results, Numeric r) : Accounted results (groups results) :=
  (Accounted.foldl hruns).perm (List.mergeSort_perm _ _).symm

theorem Accounted.countP_members (h : Accounted runs gs) (hg : g ∈ gs) {p q : RunResult → Bool}
    (hpq : ∀ r, p r = q r) : g.members.countP p = runs.countP fun r => g.accepts r && q r := by
  rw [h.members g hg, List.countP_filter]
  refine List.countP_congr fun r _ => ?_
  rw [hpq, Bool.and_comm]

theorem isFailure_eq (r : RunResult) : r.isFailure = r.violations?.any (!·.isEmpty) := by
  rw [RunResult.isFailure, RunResult.violations]
  cases r.violations? <;> rfl

theorem not_isFailure_and_not_isSkipped_eq (r : RunResult) :
    (!r.isFailure && !r.isSkipped) = r.violations?.any (·.isEmpty) := by
  rw [RunResult.isFailure, RunResult.violations, RunResult.isSkipped]
  cases r.violations? <;> simp

theorem lines_of_ne_nil (limit : Nat) (h : results ≠ []) :
    lines limit results = tableLines results ++ detailLines limit results ++ ["", verdict results] := by
  cases results with
  | nil => exact absurd rfl h
  | cons r rest => rfl

theorem pairwise_before_groups (hruns : ∀ r ∈ results, Numeric r) :
    (groups results).Pairwise Group.Before := by
  have hfound := Accounted.foldl hruns
  have hkeys : ((results.foldl (fun found r => insert r found) []).map Group.sortKey).Nodup := by
    refine List.pairwise_map.2 ((List.pairwise_map.1 hfound.places).imp ?_)
    exact fun hplace hkey => hplace (place_eq_of_sortKey_eq hkey)
  exact (pairwise_lt_mergeSort_of_key inOrder_iff_sortKey_le hkeys).imp before_of_sortKey_lt

/-- **The table accounts for each run.** -/
theorem table_tallies (limit : Nat) (hne : results ≠ []) (hruns : ∀ r ∈ results, Numeric r) :
    Tallies limit results := by
  have h := accounted_groups hruns
  have hnum {g : Group} (hg : g ∈ groups results) : g.level.isNaN = false := h.numeric hruns hg
  have hshown (g : Group) : g.shown = g.members.length := countP_add_countP_add_countP g.members
  exact {
    layout := lines_of_ne_nil limit hne
    table := ⟨_, _, rfl, rfl⟩
    distinct := by
      refine (List.pairwise_map.1 h.places).imp_of_mem fun {a b} ha hb hplace => ?_
      rintro ⟨hlevel, hpolicy⟩
      have hkey := (Binary64.beq_iff (hnum ha) (hnum hb)).1 hlevel
      exact hplace (by rw [Group.place, Group.place, hkey, hpolicy])
    ascending := pairwise_before_groups hruns
    levels_ascending := (pairwise_before_groups hruns).imp_of_mem
      fun ha hb hbefore => hbefore.level (hnum ha) (hnum hb)
    inhabited := h.inhabited
    covered := by
      intro r hr
      have hplace {g : Group} (hg : g ∈ groups results) :
          (g.level == levelOf r) = true ∧ g.policy = r.policy ↔ g.place = placeOf r := by
        rw [← Group.accepts_iff (hnum hg) (hruns r hr), Group.accepts, Bool.and_eq_true,
          beq_iff_eq (a := g.policy)]
      obtain ⟨g, hg, hgr⟩ := h.covered r hr
      refine ⟨g, ⟨hg, (hplace hg).2 hgr⟩, fun k ⟨hk, hkr⟩ => ?_⟩
      exact List.inj_on_of_nodup_map h.places hk hg (((hplace hk).1 hkr).trans hgr.symm)
    shown := by
      intro g hg
      rw [hshown, h.members g hg, List.countP_eq_length_filter]
    passed := fun g hg => h.countP_members hg not_isFailure_and_not_isSkipped_eq
    failed := fun g hg => h.countP_members hg isFailure_eq
    skipped := fun g hg => h.countP_members hg fun r => rfl
    sum_shown := by
      rw [← h.sum_length_members hruns]
      exact congrArg List.sum (List.map_congr_left fun g _ => hshown g)
    mem_brokenNames_iff := by
      intro g hg name
      simp only [Group.mem_brokenNames_iff, h.members g hg, List.mem_filter, and_assoc]
    brokenNames_ascending := fun g _ => g.pairwise_brokenNames
    brokenNames_ne_nil_iff := fun g _ => Group.brokenNames_ne_nil_iff }

/-- Runs of three rows, the levels of two of which are the two zeros. -/
def zeroRuns : List RunResult :=
  [⟨"u.00_1", some 0.0, .grub, .skipped (.spawn "sim")⟩,
    ⟨"u.50_1", some 0.5, .pa,
      .completed ⟨[⟨.vtRate, 1.0, some 1, "late"⟩, ⟨.noDeadlineMiss, 2.0, some 1, "late"⟩], []⟩⟩,
    ⟨"simple", none, .grub, .completed ⟨[], []⟩⟩,
    ⟨"u.00_2", some (-0.0), .pa, .completed ⟨[], []⟩⟩]

theorem table_tallies_zeroRuns :
    zeroRuns ≠ [] ∧ (∀ r ∈ zeroRuns, Numeric r) ∧ Tallies 3 zeroRuns := by
  have hnumeric : ∀ r ∈ zeroRuns, (levelOf r).isNaN = false := by decide +kernel
  exact ⟨List.cons_ne_nil _ _, hnumeric, table_tallies 3 (List.cons_ne_nil _ _) hnumeric⟩

end SchedAudit.Summary.Generated

import Mathlib
import SchedAudit.Proofs.Summary.Generated

/-!
# The details of generated scenarios lose no violation

The details are cut off, so that a reader sees the first violations of each invariant and a number
in place of the others. Nothing is lost by that (`details_complete`): the lines are those of `blocks`,
one for each invariant that was broken, and what a block announces, shows and leaves out adds up to
the violations of its invariant. A number of violations left out is told if there are any, so the
reader of a block without one has seen all of them (`Block.moreLine_mem_lines_iff`).
-/

namespace SchedAudit.Summary.Generated

variable {results : List RunResult} {limit : Nat} {k : Invariant} {b : Block}

/-! ## Violations, one invariant at a time -/

/-- All violations, in the order of the results and of their reports. -/
def allFailures (results : List RunResult) : List Failure :=
  results.flatMap fun r => r.violations.map fun v => ⟨r, v⟩

theorem failures_eq_filter (results : List RunResult) (k : Invariant) :
    failures results k = (allFailures results).filter fun f => f.violation.kind == k := by
  rw [failures, allFailures, List.filter_flatMap]
  refine List.flatMap_congr fun r _ => ?_
  rw [List.filter_map]
  rfl

theorem length_failures (results : List RunResult) (k : Invariant) :
    (failures results k).length =
      (results.map fun r => r.violations.countP fun v => v.kind == k).sum := by
  rw [failures, List.length_flatMap]
  refine congrArg List.sum (List.map_congr_left fun r _ => ?_)
  rw [List.length_map, List.countP_eq_length_filter]

theorem failures_ne_nil_iff :
    failures results k ≠ [] ↔ ∃ r ∈ results, ∃ v ∈ r.violations, v.kind = k := by
  simp only [failures, ne_eq, List.flatMap_eq_nil_iff, List.map_eq_nil_iff, List.filter_eq_nil_iff,
    beq_iff_eq, not_forall, not_not, exists_prop]

/-- Each violation is of one invariant. -/
theorem length_flatMap_filter_kind (found : List Failure) :
    (Invariant.all.flatMap fun k => found.filter fun f => f.violation.kind == k).length =
      found.length := by
  rw [List.length_flatMap]
  induction found with
  | nil => rfl
  | cons f rest ih =>
    have hone : (Invariant.all.map fun k => if f.violation.kind == k then 1 else 0).sum = 1 := by
      cases f.violation.kind <;> rfl
    have hcons (k : Invariant) : ((f :: rest).filter fun f => f.violation.kind == k).length =
        (rest.filter fun f => f.violation.kind == k).length +
          if f.violation.kind == k then 1 else 0 := by
      rw [List.filter_cons]
      split <;> rfl
    simp only [hcons, List.sum_map_add, ih, hone, List.length_cons]

/-! ## Blocks -/

/-- What the details tell about one invariant. -/
structure Block where
  /-- the invariant -/
  kind : Invariant
  /-- how many violations are announced -/
  total : Nat
  /-- the violations that are shown -/
  shown : List Failure
  /-- how many more there are said to be, if that is said -/
  more : Option Nat

/-- The line about violations that are not shown. -/
def moreLine (n : Nat) : String := "    ... and " ++ toString n ++ " more"

/-- The first line of a block. -/
def Block.heading (b : Block) : String :=
  "  " ++ b.kind.label ++ " (" ++ toString b.total ++ " total failures):"

/-- A block as text. -/
def Block.lines (b : Block) : List String :=
  ["", b.heading] ++ b.shown.map Failure.line ++ (b.more.map moreLine).toList

/-- The block of an invariant. -/
def blockOf (limit : Nat) (results : List RunResult) (k : Invariant) : Block :=
  let found := failures results k
  { kind := k
    total := found.length
    shown := found.take limit
    more := if limit < found.length then some (found.length - limit) else none }

/-- The blocks of all invariants that were broken. -/
def blocks (limit : Nat) (results : List RunResult) : List Block :=
  (Invariant.all.filter fun k => !(failures results k).isEmpty).map (blockOf limit results)

/-- The lines above the blocks. -/
def detailHeading (limit : Nat) : List String :=
  ["", s!"FAILURE DETAILS (first {limit} per invariant):", Column.ruled '-' 80]

theorem mem_blocks_iff : b ∈ blocks limit results ↔
    failures results b.kind ≠ [] ∧ b = blockOf limit results b.kind := by
  simp only [blocks, List.mem_map, List.mem_filter, Invariant.mem_all, true_and, Bool.not_eq_true',
    List.isEmpty_eq_false_iff]
  constructor
  · rintro ⟨k, hk, rfl⟩
    exact ⟨hk, rfl⟩
  · rintro ⟨hk, hb⟩
    exact ⟨b.kind, hk, hb.symm⟩

theorem pairwise_rank_blocks (limit : Nat) (results : List RunResult) :
    (blocks limit results).Pairwise fun a b => a.kind.rank < b.kind.rank := by
  rw [blocks, List.pairwise_map]
  have hall : Invariant.all.Pairwise fun k l => k.rank < l.rank := by decide
  exact hall.filter _

/-- Nothing comes of an invariant that was not broken. -/
theorem flatMap_filter_failures {α : Type} {f : Invariant → List α}
    (hf : ∀ k, failures results k = [] → f k = []) (ks : List Invariant) :
    (ks.filter fun k => !(failures results k).isEmpty).flatMap f = ks.flatMap f := by
  induction ks with
  | nil => rfl
  | cons k rest ih =>
    rw [List.filter_cons, List.flatMap_cons]
    split_ifs with hk
    · rw [List.flatMap_cons, ih]
    · rw [hf k (by simpa using hk), ih, List.nil_append]

theorem blockLines_eq (limit : Nat) (h : failures results k ≠ []) :
    blockLines limit k (failures results k) = (blockOf limit results k).lines := by
  obtain ⟨f, rest, hfound⟩ := List.exists_cons_of_ne_nil h
  rw [Block.lines, blockOf, hfound, blockLines]
  · split_ifs <;> rfl
  · exact List.cons_ne_nil f rest

theorem flatMap_blockLines (limit : Nat) (results : List RunResult) :
    (Invariant.all.flatMap fun k => blockLines limit k (failures results k)) =
      (blocks limit results).flatMap Block.lines := by
  rw [← flatMap_filter_failures fun k hk => by rw [hk]; rfl, blocks, List.flatMap_map]
  refine List.flatMap_congr fun k hk => blockLines_eq limit ?_
  simpa using (List.mem_filter.1 hk).2

theorem detailLines_eq (limit : Nat) (results : List RunResult) :
    detailLines limit results =
      if blocks limit results = [] then []
      else detailHeading limit ++ (blocks limit results).flatMap Block.lines := by
  rw [detailLines, flatMap_blockLines]
  cases blocks limit results with
  | nil => rfl
  | cons b rest => rfl

theorem blocks_eq_nil_iff : blocks limit results = [] ↔ ∀ r ∈ results, r.violations = [] := by
  rw [List.eq_nil_iff_forall_not_mem]
  constructor
  · intro h r hr
    refine List.eq_nil_iff_forall_not_mem.2 fun v hv => h (blockOf limit results v.kind) ?_
    exact mem_blocks_iff.2 ⟨failures_ne_nil_iff.2 ⟨r, hr, v, hv, rfl⟩, rfl⟩
  · intro h b hb
    obtain ⟨r, hr, v, hv, -⟩ := failures_ne_nil_iff.1 (mem_blocks_iff.1 hb).1
    rw [h r hr] at hv
    cases hv

theorem detailLines_eq_nil_iff :
    detailLines limit results = [] ↔ ∀ r ∈ results, r.violations = [] := by
  rw [← @blocks_eq_nil_iff results limit, detailLines_eq]
  split_ifs with h
  · exact iff_of_true rfl h
  · exact iff_of_false (List.cons_ne_nil _ _) h

theorem sum_total_blocks (limit : Nat) (results : List RunResult) :
    ((blocks limit results).map Block.total).sum =
      (results.map fun r => r.violations.length).sum := by
  calc ((blocks limit results).map Block.total).sum
    _ = ((Invariant.all.filter fun k => !(failures results k).isEmpty).flatMap
          (failures results)).length := by
        rw [List.length_flatMap, blocks, List.map_map]
        rfl
    _ = (allFailures results).length := by
        rw [flatMap_filter_failures fun k hk => hk,
          List.flatMap_congr fun k _ => failures_eq_filter results k, length_flatMap_filter_kind]
    _ = (results.map fun r => r.violations.length).sum := by
        rw [allFailures, List.length_flatMap]
        exact congrArg List.sum (List.map_congr_left fun r _ => List.length_map _)

/-! ## The line about the rest -/

theorem moreLine_injective {m n : Nat} (h : moreLine m = moreLine n) : m = n := by
  rw [moreLine, moreLine, String.append_left_inj, String.append_right_inj] at h
  exact Nat.repr_inj.1 h

theorem moreLine_ne_line (n : Nat) (f : Failure) : moreLine n ≠ f.line := by
  intro h
  have hchars := congrArg String.toList h
  simp [moreLine, Failure.line, String.toList_append] at hchars

theorem moreLine_ne_heading (n : Nat) (b : Block) : moreLine n ≠ b.heading := by
  intro h
  have hchars := congrArg String.toList h
  cases hkind : b.kind <;>
    simp [moreLine, Block.heading, String.toList_append, Invariant.label, hkind] at hchars

/-- A block says how many violations it leaves out where it leaves out any, and nowhere else. -/
theorem Block.moreLine_mem_lines_iff {n : Nat} : moreLine n ∈ b.lines ↔ b.more = some n := by
  have hempty : moreLine n ≠ "" := by
    intro h
    simpa [moreLine] using congrArg String.toList h
  simp only [Block.lines, List.mem_append, List.mem_cons, List.not_mem_nil, or_false, List.mem_map,
    Option.mem_toList, Option.map_eq_some_iff, hempty, moreLine_ne_heading, false_or]
  constructor
  · rintro (⟨f, -, hf⟩ | ⟨m, hm, hmn⟩)
    · exact absurd hf.symm (moreLine_ne_line n f)
    · rw [hm, moreLine_injective hmn]
  · exact fun h => .inr ⟨n, h, rfl⟩

/-! ## The details as a whole -/

/-- What the details owe to the violations. -/
structure Detailed (limit : Nat) (results : List RunResult) : Prop where
  /-- the details stand between table and verdict -/
  layout : results ≠ [] → lines limit results =
    tableLines results ++ detailLines limit results ++ ["", verdict results]
  /-- there are no details if there is no violation -/
  absent_iff : detailLines limit results = [] ↔ ∀ r ∈ results, r.violations = []
  /-- otherwise they are the blocks below a heading -/
  present : detailLines limit results ≠ [] → detailLines limit results =
    detailHeading limit ++ (blocks limit results).flatMap Block.lines
  /-- an invariant has a block if some run broke it -/
  kinds : ∀ k, (∃ b ∈ blocks limit results, b.kind = k) ↔
    ∃ r ∈ results, ∃ v ∈ r.violations, v.kind = k
  /-- the blocks are in the order of invariants, and no invariant has two -/
  ascending : (blocks limit results).Pairwise fun a b => a.kind.rank < b.kind.rank
  /-- a block announces as many violations of its invariant as there are in all runs -/
  total : ∀ b ∈ blocks limit results,
    b.total = (results.map fun r => r.violations.countP fun v => v.kind == b.kind).sum
  /-- a block shows the first of them -/
  shown : ∀ b ∈ blocks limit results, b.shown =
    ((allFailures results).filter fun f => f.violation.kind == b.kind).take (min limit b.total)
  /-- it shows as many as there are, up to the limit -/
  length_shown : ∀ b ∈ blocks limit results, b.shown.length = min limit b.total
  /-- it says how many it leaves out if there are more than the limit -/
  more_iff : ∀ b ∈ blocks limit results, ∀ n,
    moreLine n ∈ b.lines ↔ limit < b.total ∧ n = b.total - limit
  /-- what is shown and what is left out is what is announced -/
  shown_add_more : ∀ b ∈ blocks limit results, b.shown.length + b.more.getD 0 = b.total
  /-- the announced numbers add up to that of all violations -/
  sum_total : ((blocks limit results).map Block.total).sum =
    (results.map fun r => r.violations.length).sum

/-- **The details account for each violation**, whatever their limit. -/
theorem details_complete (limit : Nat) (results : List RunResult) : Detailed limit results where
  layout := lines_of_ne_nil limit
  absent_iff := detailLines_eq_nil_iff
  present h := by
    rw [detailLines_eq] at h ⊢
    exact if_neg fun hblocks => h (if_pos hblocks)
  kinds k := by
    rw [← failures_ne_nil_iff]
    constructor
    · rintro ⟨b, hb, rfl⟩
      exact (mem_blocks_iff.1 hb).1
    · exact fun hk => ⟨blockOf limit results k, mem_blocks_iff.2 ⟨hk, rfl⟩, rfl⟩
  ascending := pairwise_rank_blocks limit results
  total b hb := by
    rw [(mem_blocks_iff.1 hb).2]
    exact length_failures results b.kind
  shown b hb := by
    rw [(mem_blocks_iff.1 hb).2, ← failures_eq_filter]
    exact List.take_eq_take_min
  length_shown b hb := by
    rw [(mem_blocks_iff.1 hb).2]
    exact List.length_take
  more_iff b hb n := by
    rw [Block.moreLine_mem_lines_iff, (mem_blocks_iff.1 hb).2, blockOf]
    split_ifs with h
    · rw [Option.some_inj]
      exact ⟨fun hn => ⟨h, hn.symm⟩, fun hn => hn.2.symm⟩
    · exact iff_of_false not_false fun hn => h hn.1
  shown_add_more b hb := by
    rw [(mem_blocks_iff.1 hb).2]
    simp only [blockOf, List.length_take]
    split_ifs with h
    · rw [Nat.min_eq_left h.le, Option.getD_some, Nat.add_sub_cancel' h.le]
    · rw [Nat.min_eq_right (Nat.not_lt.1 h), Option.getD_none, Nat.add_zero]
  sum_total := sum_total_blocks limit results

/-- Three violations, of which two are shown. -/
example :
    let late : Violation := ⟨.vtRate, 1.0, some 1, "late"⟩
    let runs : List RunResult :=
      [⟨"first", none, .grub, .completed ⟨[late], []⟩⟩,
        ⟨"second", none, .pa, .completed ⟨[late, late], []⟩⟩]
    (blocks 2 runs).map (fun b => (b.kind, b.total, b.shown.map (·.run.scenario), b.more)) =
      [(.vtRate, 3, ["first", "second"], some 1)] := by decide

end SchedAudit.Summary.Generated

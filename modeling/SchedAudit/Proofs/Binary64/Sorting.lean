import SchedAudit.Proofs.Binary64.Order
import SchedAudit.Proofs.Sorting

/-!
# Doubles in order

A list of numbers that is sorted and rid of repeats is a normal form: it ascends strictly, and it
depends on the numbers in the list alone, not on their order or how often they occur
(`distinct_eq_of_subset`). Its last element is the largest (`exists_getLast?_gt_iff`).

The two zeros are equal numbers but not one double. Sorting puts the negative one first, and of equal
neighbours the first is kept; so each number is kept in the form that is least in the total order
(`exists_mem_distinct`), and that is what makes the normal form one list and not two.
-/

namespace SchedAudit.Binary64

/-! ## Sorting -/

theorem sortAscending_pairwise (xs : List Float) :
    (sortAscending xs).Pairwise fun a b => orderKey a ≤ orderKey b :=
  pairwise_mergeSort_of_key (fun _ _ => decide_eq_true_iff) xs

theorem pairwise_orderKey_sortDescending (xs : List Float) :
    (sortDescending xs).Pairwise fun a b => orderKey b ≤ orderKey a := by
  have hsorted : (sortDescending xs).Pairwise fun a b =>
      OrderDual.toDual (orderKey a) ≤ OrderDual.toDual (orderKey b) :=
    pairwise_mergeSort_of_key (fun _ _ => decide_eq_true_iff) xs
  exact hsorted

theorem sortDescending_pairwise (xs : List Float) :
    (sortDescending xs).Pairwise fun a b => numericKey b ≤ numericKey a :=
  (pairwise_orderKey_sortDescending xs).imp numericKey_le_of_orderKey_le

/-- No two doubles share a place in the total order, so doubles descend in one way only. -/
theorem eq_sortDescending {xs ys : List Float} (hperm : ys.Perm xs)
    (hys : ys.Pairwise fun a b => orderKey b ≤ orderKey a) : ys = sortDescending xs := by
  refine List.Perm.eq_of_pairwise (fun a b _ _ hba hab => ?_) hys
    (pairwise_orderKey_sortDescending xs) (hperm.trans (sortDescending_perm xs).symm)
  exact eq_of_orderKey_eq (le_antisymm hab hba)

/-! ## Repeats -/

theorem mem_of_mem_dropRepeatsOf {a kept : Float} {xs : List Float}
    (h : a ∈ dropRepeatsOf kept xs) : a ∈ xs := by
  induction xs generalizing kept with
  | nil => exact h
  | cons x rest ih =>
    rw [dropRepeatsOf] at h
    split at h
    · exact List.mem_cons_of_mem x (ih h)
    · rcases List.mem_cons.1 h with rfl | h
      · exact List.mem_cons_self
      · exact List.mem_cons_of_mem x (ih h)

section Sorted

variable {kept : Float} {xs : List Float}

/-- What is kept of an ascending list of numbers ascends strictly. -/
theorem pairwise_dropRepeatsOf (hsorted : (kept :: xs).Pairwise fun a b => orderKey a ≤ orderKey b)
    (hnum : ∀ a ∈ kept :: xs, a.isNaN = false) :
    (kept :: dropRepeatsOf kept xs).Pairwise fun a b => numericKey a < numericKey b := by
  induction xs generalizing kept with
  | nil => exact List.pairwise_singleton _ _
  | cons x rest ih =>
    obtain ⟨hkept, hrest⟩ := List.pairwise_cons.1 hsorted
    rw [dropRepeatsOf]
    split_ifs with heq
    · exact ih (hsorted.sublist (List.Sublist.cons_cons kept (List.sublist_cons_self x rest)))
        fun a ha => hnum a (List.cons_subset_cons kept (List.subset_cons_self x rest) ha)
    · have hnumRest : ∀ a ∈ x :: rest, a.isNaN = false :=
        fun a ha => hnum a (List.mem_cons_of_mem kept ha)
      have hlt : numericKey kept < numericKey x := by
        refine lt_of_le_of_ne (numericKey_le_of_orderKey_le (hkept x List.mem_cons_self)) ?_
        intro hkey
        exact heq ((beq_iff (hnumRest x List.mem_cons_self) (hnum kept List.mem_cons_self)).2
          hkey.symm)
      have hih := ih hrest hnumRest
      refine List.pairwise_cons.2 ⟨fun a ha => ?_, hih⟩
      rcases List.mem_cons.1 ha with rfl | ha
      · exact hlt
      · exact hlt.trans ((List.pairwise_cons.1 hih).1 a ha)

/-- Each number of an ascending list is kept, in the form that comes first. -/
theorem exists_mem_dropRepeatsOf
    (hsorted : (kept :: xs).Pairwise fun a b => orderKey a ≤ orderKey b)
    (hnum : ∀ a ∈ kept :: xs, a.isNaN = false) {a : Float} (ha : a ∈ kept :: xs) :
    ∃ b ∈ kept :: dropRepeatsOf kept xs, numericKey b = numericKey a ∧ orderKey b ≤ orderKey a := by
  induction xs generalizing kept with
  | nil => exact ⟨a, ha, rfl, le_rfl⟩
  | cons x rest ih =>
    obtain ⟨hkept, hrest⟩ := List.pairwise_cons.1 hsorted
    rcases List.mem_cons.1 ha with rfl | ha
    · exact ⟨a, List.mem_cons_self, rfl, le_rfl⟩
    rw [dropRepeatsOf]
    split_ifs with heq
    · have hih := @ih kept
        (hsorted.sublist (List.Sublist.cons_cons kept (List.sublist_cons_self x rest)))
        fun b hb => hnum b (List.cons_subset_cons kept (List.subset_cons_self x rest) hb)
      rcases List.mem_cons.1 ha with rfl | ha
      · -- A repeat is left out, and the element before it speaks for it.
        have hx := hnum a (List.mem_cons_of_mem kept List.mem_cons_self)
        exact ⟨kept, List.mem_cons_self, ((beq_iff hx (hnum kept List.mem_cons_self)).1 heq).symm,
          hkept a List.mem_cons_self⟩
      · exact hih (List.mem_cons_of_mem kept ha)
    · obtain ⟨b, hb, hkeys⟩ := ih hrest (fun b hb => hnum b (List.mem_cons_of_mem kept hb)) ha
      exact ⟨b, List.mem_cons_of_mem kept hb, hkeys⟩

end Sorted

/-! ## Distinct numbers -/

/-- The different numbers of a list in ascending order. -/
def distinct (xs : List Float) : List Float := dropRepeats (sortAscending xs)

@[simp] theorem distinct_nil : distinct [] = [] := by
  rw [distinct, sortAscending, List.mergeSort_nil, dropRepeats_nil]

section Distinct

variable {xs ys : List Float}

theorem mem_of_mem_distinct {a : Float} (h : a ∈ distinct xs) : a ∈ xs := by
  rw [← (sortAscending_perm xs).mem_iff]
  rw [distinct] at h
  cases hs : sortAscending xs with
  | nil => rwa [hs] at h
  | cons x rest =>
    rw [hs, dropRepeats_cons] at h
    rcases List.mem_cons.1 h with rfl | h
    · exact List.mem_cons_self
    · exact List.mem_cons_of_mem x (mem_of_mem_dropRepeatsOf h)

variable (hnum : ∀ a ∈ xs, a.isNaN = false)

include hnum

theorem pairwise_distinct : (distinct xs).Pairwise fun a b => numericKey a < numericKey b := by
  have hsorted := sortAscending_pairwise xs
  have hsortedNum : ∀ a ∈ sortAscending xs, a.isNaN = false :=
    fun a ha => hnum a ((sortAscending_perm xs).mem_iff.1 ha)
  rw [distinct]
  cases hs : sortAscending xs with
  | nil => exact List.Pairwise.nil
  | cons x rest =>
    rw [hs] at hsorted hsortedNum
    exact pairwise_dropRepeatsOf hsorted hsortedNum

theorem pairwise_lt_distinct : (distinct xs).Pairwise (· < ·) := by
  refine (pairwise_distinct hnum).imp_of_mem fun ha hb hlt => ?_
  exact (lt_iff (hnum _ (mem_of_mem_distinct ha)) (hnum _ (mem_of_mem_distinct hb))).2 hlt

/-- **Each number is kept once,** in its least form. -/
theorem exists_mem_distinct {a : Float} (ha : a ∈ xs) :
    ∃ b ∈ distinct xs, numericKey b = numericKey a ∧ orderKey b ≤ orderKey a := by
  have hsorted := sortAscending_pairwise xs
  have hsortedNum : ∀ a ∈ sortAscending xs, a.isNaN = false :=
    fun a ha => hnum a ((sortAscending_perm xs).mem_iff.1 ha)
  rw [← (sortAscending_perm xs).mem_iff] at ha
  rw [distinct]
  cases hs : sortAscending xs with
  | nil =>
    rw [hs] at ha
    cases ha
  | cons x rest =>
    rw [hs] at ha hsorted hsortedNum
    exact exists_mem_dropRepeatsOf hsorted hsortedNum ha

/-- The normal form holds each number of a list in the form that is least in the total order. -/
theorem mem_distinct_iff {a : Float} :
    a ∈ distinct xs ↔
      a ∈ xs ∧ ∀ b ∈ xs, numericKey b = numericKey a → orderKey a ≤ orderKey b := by
  have hnodup : ((distinct xs).map numericKey).Nodup :=
    List.pairwise_map.2 ((pairwise_distinct hnum).imp ne_of_lt)
  constructor
  · refine fun ha => ⟨mem_of_mem_distinct ha, fun b hb hkey => ?_⟩
    obtain ⟨c, hc, hcb, hle⟩ := exists_mem_distinct hnum hb
    -- Both stand in the normal form for the same number.
    obtain rfl : c = a := List.inj_on_of_nodup_map hnodup hc ha (hcb.trans hkey)
    exact hle
  · rintro ⟨ha, hleast⟩
    obtain ⟨c, hc, hkey, hle⟩ := exists_mem_distinct hnum ha
    obtain rfl : c = a :=
      eq_of_orderKey_eq (le_antisymm hle (hleast c (mem_of_mem_distinct hc) hkey))
    exact hc

/-- **The normal form depends on the numbers alone.** To leave out some of a list changes nothing, as
long as what the normal form keeps is still there. -/
theorem distinct_eq_of_subset (hkept : distinct xs ⊆ ys) (hsub : ys ⊆ xs) :
    distinct ys = distinct xs := by
  have hnumSub : ∀ a ∈ ys, a.isNaN = false := fun a ha => hnum a (hsub ha)
  have hirrefl : Std.Irrefl fun a b => numericKey a < numericKey b := ⟨fun a => lt_irrefl _⟩
  have hantisymm : Std.Antisymm fun a b => numericKey a < numericKey b :=
    ⟨fun a b hab hba => absurd hab (lt_asymm hba)⟩
  refine (pairwise_distinct hnumSub).eq_of_mem_iff (pairwise_distinct hnum) fun a => ?_
  rw [mem_distinct_iff hnumSub]
  constructor
  · rintro ⟨ha, hleast⟩
    refine (mem_distinct_iff hnum).2 ⟨hsub ha, fun b hb hkey => ?_⟩
    obtain ⟨c, hc, hcb, hle⟩ := exists_mem_distinct hnum hb
    exact (hleast c (hkept hc) (hcb.trans hkey)).trans hle
  · intro ha
    exact ⟨hkept ha, fun b hb => ((mem_distinct_iff hnum).1 ha).2 b (hsub hb)⟩

/-- **The last of an ordered list is its largest.** Whether anything in a list of numbers lies
above `x` can be read off the last element of its normal form. -/
theorem exists_getLast?_gt_iff (x : Float) :
    (∃ last, (distinct xs).getLast? = some last ∧ x < last) ↔ ∃ a ∈ xs, x < a := by
  constructor
  · rintro ⟨last, hlast, hlt⟩
    exact ⟨last, mem_of_mem_distinct (List.mem_of_getLast? hlast), hlt⟩
  · rintro ⟨a, ha, hlt⟩
    obtain ⟨b, hb, hkey, -⟩ := exists_mem_distinct hnum ha
    have hne := List.ne_nil_of_mem hb
    have hrefl : Std.Refl fun a b => numericKey a ≤ numericKey b := ⟨fun a => le_rfl⟩
    have hle : numericKey b ≤ numericKey ((distinct xs).getLast hne) :=
      ((pairwise_distinct hnum).imp le_of_lt).rel_getLast hb
    refine ⟨_, List.getLast?_eq_some_getLast hne, ?_⟩
    exact lt_of_lt_of_key_le hlt (hnum a ha) (hnum _ (mem_of_mem_distinct (List.getLast_mem hne)))
      (hkey ▸ hle)

end Distinct

end SchedAudit.Binary64

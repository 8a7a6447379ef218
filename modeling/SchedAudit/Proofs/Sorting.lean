import Mathlib

/-!
# Lists in the order of a key

Whatever is shown in an order is sorted by comparing keys: names, or a level and then a name. Keys are
in a linear order, and that is all a sorted list needs: it ascends in its keys
(`pairwise_mergeSort_of_key`), and if no two of its members share a key it forgets in which order they
came (`mergeSort_eq_of_perm`).
-/

namespace SchedAudit

variable {α κ : Type} [LinearOrder κ] {le : α → α → Bool} {key : α → κ} {xs ys : List α}

theorem pairwise_mergeSort_of_key (hle : ∀ a b, le a b = true ↔ key a ≤ key b) (xs : List α) :
    (xs.mergeSort le).Pairwise fun a b => key a ≤ key b := by
  refine (List.pairwise_mergeSort ?_ ?_ xs).imp fun {a b} => (hle a b).1
  · intro a b c hab hbc
    rw [hle] at hab hbc ⊢
    exact hab.trans hbc
  · intro a b
    rw [Bool.or_eq_true, hle, hle]
    exact le_total _ _

/-- Members with keys of their own are in strict order once they are sorted. -/
theorem pairwise_lt_mergeSort_of_key (hle : ∀ a b, le a b = true ↔ key a ≤ key b)
    (hdistinct : (xs.map key).Nodup) : (xs.mergeSort le).Pairwise fun a b => key a < key b := by
  have hkeys : ((xs.mergeSort le).map key).Nodup :=
    ((List.mergeSort_perm xs le).map key).nodup_iff.2 hdistinct
  exact ((pairwise_mergeSort_of_key hle xs).and (List.pairwise_map.1 hkeys)).imp
    fun hab => lt_of_le_of_ne hab.1 hab.2

/-- A list sorts in one way only, in whatever order it is given, if no two of its members share a
key. -/
theorem mergeSort_eq_of_perm (hle : ∀ a b, le a b = true ↔ key a ≤ key b)
    (hkey : ∀ a ∈ xs, ∀ b ∈ xs, key a = key b → a = b) (h : xs.Perm ys) :
    xs.mergeSort le = ys.mergeSort le := by
  refine List.Perm.eq_of_pairwise (fun a b ha hb hab hba => ?_) (pairwise_mergeSort_of_key hle xs)
    (pairwise_mergeSort_of_key hle ys)
    ((List.mergeSort_perm xs le).trans (h.trans (List.mergeSort_perm ys le).symm))
  exact hkey a ((List.mergeSort_perm xs le).mem_iff.1 ha) b
    (h.mem_iff.2 ((List.mergeSort_perm ys le).mem_iff.1 hb)) (le_antisymm hab hba)

end SchedAudit

import Mathlib.Data.List.Basic
import SchedAudit.Json.Value

/-!
# The members of an object by their names

A reader of an object looks its members up by their names (`valuesOf`, `member?`). What it finds depends
on the members of that name alone: neither on where they stand (`valuesOf_perm`) nor on what stands
between them.

The names are the keys where all of these are sound. `givenFor` looks up by key, with no such condition,
and `valuesOf_of_namedMembers?` says that both find the same.
-/

namespace SchedAudit.Json

variable {members : List (String × Json)} {name : String}

/-- The values of the members of an object under a name. -/
def givenFor (name : String) (members : List (Option String × Json)) : List Json :=
  (members.filter (·.1 == some name)).map (·.2)

theorem valuesOf_perm {others : List (String × Json)} (h : members.Perm others) (name : String) :
    (valuesOf name members).Perm (valuesOf name others) :=
  (h.filter _).map _

theorem valuesOf_cons_self (v : Json) :
    valuesOf name ((name, v) :: members) = v :: valuesOf name members := by
  simp [valuesOf]

theorem valuesOf_cons_of_ne {m : String × Json} (h : m.1 ≠ name) :
    valuesOf name (m :: members) = valuesOf name members := by
  simp [valuesOf, h]

theorem valuesOf_append (others : List (String × Json)) :
    valuesOf name (members ++ others) = valuesOf name members ++ valuesOf name others := by
  simp [valuesOf]

theorem valuesOf_eq_nil (h : ∀ m ∈ members, m.1 ≠ name) : valuesOf name members = [] := by
  rw [valuesOf, List.filter_eq_nil_iff.2 fun m hm => by simpa using h m hm, List.map_nil]

/-- To leave out the members of another name does not matter. -/
theorem valuesOf_filter_ne {other : String} (h : name ≠ other) :
    valuesOf name (members.filter (·.1 != other)) = valuesOf name members := by
  rw [valuesOf, List.filter_filter, valuesOf]
  congr 1
  refine List.filter_congr fun m _ => ?_
  by_cases hm : m.1 = name
  · simp [hm, h]
  · simp [hm]

theorem namedMembers?_map (members : List (String × Json)) :
    namedMembers? (members.map fun m => (some m.1, m.2)) = some members := by
  induction members with
  | nil => rfl
  | cons m rest ih => simp [namedMembers?, ih]

/-- Where all keys are sound, the members of a name are those of that key. -/
theorem valuesOf_of_namedMembers? {raw : List (Option String × Json)}
    (h : namedMembers? raw = some members) (name : String) :
    valuesOf name members = givenFor name raw := by
  induction raw generalizing members with
  | nil =>
    cases h
    rfl
  | cons m rest ih =>
    obtain ⟨key, v⟩ := m
    simp only [namedMembers?, Option.bind_eq_bind, Option.bind_eq_some_iff] at h
    obtain ⟨k, rfl, others, hothers, hmembers⟩ := h
    obtain rfl := Option.some.inj hmembers
    have hrest := ih hothers
    rw [givenFor] at hrest ⊢
    by_cases hk : k = name
    · subst hk
      rw [valuesOf_cons_self, hrest]
      simp
    · rw [valuesOf_cons_of_ne hk, hrest]
      simp [hk]

theorem member?_eq_some_some_iff {v : Json} :
    member? name members = some (some v) ↔ valuesOf name members = [v] := by
  unfold member?
  split <;> simp_all

theorem member?_eq_some_none_iff :
    member? name members = some none ↔ valuesOf name members = [] := by
  unfold member?
  split <;> simp_all

end SchedAudit.Json

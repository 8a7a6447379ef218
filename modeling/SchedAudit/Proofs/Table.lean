import Mathlib.Data.List.Nodup
import Mathlib.Order.Basic
import SchedAudit.Table

/-!
# Tables are what they answer

The look-up `find?` says all there is to say about a table: its entries are those that are found, in
ascending order. So a list that is picked from the values of a table depends on the look-ups alone
(`filter_values_congr`), whatever operations have built the table.
-/

namespace SchedAudit.Table

universe u

variable {α : Type u}

theorem lookup?_eq_some_iff {key : Nat} {a : α} {l : List (Nat × α)}
    (h : (l.map (·.1)).Pairwise (· < ·)) : lookup? key l = some a ↔ (key, a) ∈ l := by
  induction l with
  | nil => simp [lookup?]
  | cons e rest ih =>
    obtain ⟨k, b⟩ := e
    simp only [List.map_cons, List.pairwise_cons] at h
    rw [lookup?]
    split
    · next hk =>
      subst hk
      have hrest : ∀ c, (key, c) ∉ rest := fun c hc =>
        Nat.lt_irrefl key (h.1 key (List.mem_map_of_mem (f := (·.1)) hc))
      simp [hrest, eq_comm]
    · next hk => simp [ih h.2, hk]

theorem mem_entries_iff {t : Table α} {key : Nat} {a : α} :
    (key, a) ∈ t.entries ↔ t.find? key = some a :=
  (lookup?_eq_some_iff t.ascending).symm

theorem mem_values_iff {t : Table α} {a : α} : a ∈ t.values ↔ ∃ key, t.find? key = some a := by
  simp only [values, List.mem_map, Prod.exists, mem_entries_iff]
  exact ⟨fun ⟨key, b, h, hb⟩ => ⟨key, hb ▸ h⟩, fun ⟨key, h⟩ => ⟨key, a, h, rfl⟩⟩

/-- Two lists of entries in ascending order are equal as soon as they have the same entries. -/
theorem eq_of_mem_iff {l m : List (Nat × α)} (hl : (l.map (·.1)).Pairwise (· < ·))
    (hm : (m.map (·.1)).Pairwise (· < ·)) (h : ∀ e, e ∈ l ↔ e ∈ m) : l = m := by
  have hnodup {l : List (Nat × α)} (h : (l.map (·.1)).Pairwise (· < ·)) : l.Nodup :=
    List.Nodup.of_map _ (h.imp Nat.ne_of_lt)
  have hperm : l.Perm m := (List.perm_ext_iff_of_nodup (hnodup hl) (hnodup hm)).2 h
  rw [List.pairwise_map] at hl hm
  exact hperm.eq_of_pairwise (fun a b _ _ hab hba => absurd hab (Nat.lt_asymm hba)) hl hm

/-- Tables that answer alike are equal. -/
theorem ext_find? {t u : Table α} (h : ∀ key, t.find? key = u.find? key) : t = u := by
  have hentries : t.entries = u.entries := by
    refine eq_of_mem_iff t.ascending u.ascending fun e => ?_
    obtain ⟨key, a⟩ := e
    rw [mem_entries_iff, mem_entries_iff, h]
  obtain ⟨l, hl⟩ := t
  obtain ⟨m, hm⟩ := u
  obtain rfl : l = m := hentries
  rfl

/-- **Enumeration depends on look-ups alone.** If the same entries pass two tests, the values that
pass them are the same list. -/
theorem filter_values_congr {t u : Table α} {p q : α → Bool}
    (h : ∀ key a, (t.find? key = some a ∧ p a = true) ↔ (u.find? key = some a ∧ q a = true)) :
    t.values.filter p = u.values.filter q := by
  have key : t.entries.filter (fun e => p e.2) = u.entries.filter fun e => q e.2 := by
    refine eq_of_mem_iff (t.ascending.sublist (List.filter_sublist.map _))
      (u.ascending.sublist (List.filter_sublist.map _)) fun e => ?_
    obtain ⟨k, a⟩ := e
    simp only [List.mem_filter, mem_entries_iff]
    exact h k a
  have hfilter (t : Table α) (p : α → Bool) :
      t.values.filter p = (t.entries.filter fun e => p e.2).map (·.2) := by
    rw [values, List.filter_map]
    rfl
  rw [hfilter, hfilter, key]

/-! ## The first key that passes a test -/

theorem keyWhere?_eq_none_iff {t : Table α} {test : α → Bool} :
    t.keyWhere? test = none ↔ ∀ key a, t.find? key = some a → test a = false := by
  simp only [keyWhere?, Option.map_eq_none_iff, List.find?_eq_none, Prod.forall, mem_entries_iff,
    Bool.not_eq_true]

/-- The key that is found passes the test, and no smaller one does. -/
theorem keyWhere?_eq_some_iff {t : Table α} {test : α → Bool} {key : Nat} :
    t.keyWhere? test = some key ↔ (∃ a, t.find? key = some a ∧ test a = true) ∧
      ∀ key' a, key' < key → t.find? key' = some a → test a = false := by
  have hfirst {key : Nat} (h : t.keyWhere? test = some key) :
      (∃ a, t.find? key = some a ∧ test a = true) ∧
        ∀ key' a, key' < key → t.find? key' = some a → test a = false := by
    obtain ⟨⟨k, a⟩, hfound, rfl⟩ := Option.map_eq_some_iff.1 h
    obtain ⟨ha, before, behind, hentries, hbefore⟩ := List.find?_eq_some_iff_append.1 hfound
    refine ⟨⟨a, mem_entries_iff.1 (List.mem_of_find?_eq_some hfound), ha⟩, fun k' b hlt hb => ?_⟩
    have hmem : (k', b) ∈ before ++ (k, a) :: behind := hentries ▸ mem_entries_iff.2 hb
    have hascending : ((before ++ (k, a) :: behind).map (·.1)).Pairwise (· < ·) :=
      hentries ▸ t.ascending
    rw [List.map_append, List.map_cons, List.pairwise_append, List.pairwise_cons] at hascending
    rcases List.mem_append.1 hmem with hmem | hmem
    · simpa using hbefore _ hmem
    · -- Behind the entry that is found there are larger keys only.
      rcases List.mem_cons.1 hmem with heq | hmem
      · exact absurd (congrArg Prod.fst heq) (Nat.ne_of_lt hlt)
      · exact absurd (hascending.2.1.1 k' (List.mem_map_of_mem hmem)) (Nat.lt_asymm hlt)
  refine ⟨hfirst, fun ⟨⟨a, ha, hpass⟩, hsmaller⟩ => ?_⟩
  cases hfound : t.keyWhere? test with
  | none =>
    rw [keyWhere?_eq_none_iff.1 hfound key a ha] at hpass
    cases hpass
  | some k =>
    obtain ⟨⟨b, hb, hpass'⟩, hsmaller'⟩ := hfirst hfound
    rcases Nat.lt_trichotomy k key with hlt | rfl | hlt
    · rw [hsmaller k b hlt hb] at hpass'
      cases hpass'
    · rfl
    · rw [hsmaller' key a hlt ha] at hpass
      cases hpass

/-! ## Tables of lists -/

/-- Of several entries with one key the last counts. -/
theorem find?_ofList (l : List (Nat × α)) (key : Nat) :
    (ofList l).find? key = (l.reverse.find? (·.1 == key)).map (·.2) := by
  have hfold : ∀ t : Table α, (l.foldl (fun t e => t.insert e.1 e.2) t).find? key =
      ((l.reverse.find? (·.1 == key)).map (·.2)).or (t.find? key) := by
    induction l with
    | nil => intro t; rfl
    | cons e rest ih =>
      intro t
      rw [List.foldl_cons, ih, find?_insert, List.reverse_cons, List.find?_append]
      cases rest.reverse.find? (·.1 == key) with
      | some d => rfl
      | none =>
        by_cases hk : key = e.1
        · simp [hk]
        · simp [hk, Ne.symm hk]
  rw [ofList, hfold, find?_empty, Option.or_none]

/-- Of several things with one number the last counts. -/
theorem find?_ofList_map {β : Type u} (l : List β) (number : β → Nat) (f : β → α) (key : Nat) :
    (ofList (l.map fun b => (number b, f b))).find? key =
      (l.reverse.find? (number · == key)).map f := by
  rw [find?_ofList, ← List.map_reverse, List.find?_map, Option.map_map]
  rfl

end SchedAudit.Table

/-!
# Tables: finite maps in the order of their keys

Tasks, clusters and processors are numbered, and whatever is enumerated — servers of a cluster,
rows of a report — comes in ascending order of these numbers. `Table α` is a map that carries this
order in its type: its entries ascend strictly, so each key occurs once and two tables are equal as
soon as their entries are.

The single pass of `insertEntry` makes the look-up equations hold without any hypothesis on the
list, and `find?` of each operation is stated beside it: nothing else unfolds the operations.
-/

namespace SchedAudit

universe u v

/-- A finite map from natural numbers, its entries in strictly ascending order of keys. -/
structure Table (α : Type u) where
  /-- the entries -/
  entries : List (Nat × α)
  /-- keys ascend strictly -/
  ascending : (entries.map (·.1)).Pairwise (· < ·) := by simp

namespace Table

variable {α : Type u} {β : Type v}

/-! ## Entries -/

/-- The value beside the first occurrence of `key`. -/
def lookup? (key : Nat) : List (Nat × α) → Option α
  | [] => none
  | (k, a) :: rest => if key = k then some a else lookup? key rest

/-- Puts an entry at its place, in the place of one with the same key. -/
def insertEntry (key : Nat) (a : α) : List (Nat × α) → List (Nat × α)
  | [] => [(key, a)]
  | (k, b) :: rest =>
    if key < k then (key, a) :: (k, b) :: rest
    else if key = k then (key, a) :: rest
    else (k, b) :: insertEntry key a rest

theorem lookup?_insertEntry (key key' : Nat) (a : α) (l : List (Nat × α)) :
    lookup? key' (insertEntry key a l) = if key' = key then some a else lookup? key' l := by
  induction l with
  | nil => rfl
  | cons e rest ih =>
    obtain ⟨k, b⟩ := e
    rw [insertEntry]
    split
    · rfl
    · split
      · next h => subst h; simp only [lookup?]; split <;> simp_all
      · next hne =>
        simp only [lookup?, ih]
        by_cases hk : key' = k
        · simp [hk, Ne.symm hne]
        · simp [hk]

theorem mem_keys_insertEntry {key x : Nat} {a : α} {l : List (Nat × α)}
    (h : x ∈ (insertEntry key a l).map (·.1)) : x = key ∨ x ∈ l.map (·.1) := by
  induction l with
  | nil => simpa [insertEntry] using h
  | cons e rest ih =>
    obtain ⟨k, b⟩ := e
    rw [insertEntry] at h
    split at h
    · simpa using h
    · split at h
      · next hk =>
        subst hk
        simp only [List.map_cons, List.mem_cons] at h ⊢
        exact h.imp_right Or.inr
      · simp only [List.map_cons, List.mem_cons] at h ⊢
        rcases h with h | h
        · exact Or.inr (Or.inl h)
        · exact (ih h).imp_right Or.inr

theorem ascending_insertEntry (key : Nat) (a : α) {l : List (Nat × α)}
    (h : (l.map (·.1)).Pairwise (· < ·)) :
    ((insertEntry key a l).map (·.1)).Pairwise (· < ·) := by
  induction l with
  | nil => simp [insertEntry]
  | cons e rest ih =>
    obtain ⟨k, b⟩ := e
    simp only [List.map_cons, List.pairwise_cons] at h
    rw [insertEntry]
    split
    · next hlt =>
      simp only [List.map_cons, List.pairwise_cons, List.mem_cons]
      refine ⟨?_, h⟩
      rintro x (rfl | hx)
      · exact hlt
      · exact Nat.lt_trans hlt (h.1 x hx)
    · split
      · next heq => subst heq; simpa using h
      · simp only [List.map_cons, List.pairwise_cons]
        refine ⟨fun x hx => ?_, ih h.2⟩
        rcases mem_keys_insertEntry hx with rfl | hx
        · omega
        · exact h.1 x hx

/-! ## Operations -/

/-- No entry. -/
def empty : Table α := { entries := [] }

/-- The value at `key`. -/
def find? (t : Table α) (key : Nat) : Option α := lookup? key t.entries

/-- Whether there is a value at `key`. -/
def contains (t : Table α) (key : Nat) : Bool := (t.find? key).isSome

/-- Sets the value at `key`. -/
def insert (t : Table α) (key : Nat) (a : α) : Table α :=
  ⟨insertEntry key a t.entries, ascending_insertEntry key a t.ascending⟩

/-- Changes every value, given its key. -/
def map (f : Nat → α → β) (t : Table α) : Table β where
  entries := t.entries.map fun e => (e.1, f e.1 e.2)
  ascending := by
    have h := t.ascending
    rwa [List.map_map]

/-- Changes the value at `key`, if there is one. -/
def modify (t : Table α) (key : Nat) (f : α → α) : Table α :=
  match t.find? key with
  | some a => t.insert key (f a)
  | none => t

/-- All keys in ascending order. -/
def keys (t : Table α) : List Nat := t.entries.map (·.1)

/-- All values in ascending order of their keys. -/
def values (t : Table α) : List α := t.entries.map (·.2)

/-- The table of a list of entries; of several with one key the last counts. -/
def ofList (l : List (Nat × α)) : Table α := l.foldl (fun t e => t.insert e.1 e.2) empty

/-- The first key, in ascending order, whose value passes the test. -/
def keyWhere? (t : Table α) (test : α → Bool) : Option Nat :=
  (t.entries.find? fun e => test e.2).map (·.1)

/-! ## The view `find?` -/

@[simp] theorem find?_empty (key : Nat) : (empty : Table α).find? key = none := rfl

@[simp] theorem find?_insert (t : Table α) (key key' : Nat) (a : α) :
    (t.insert key a).find? key' = if key' = key then some a else t.find? key' :=
  lookup?_insertEntry key key' a t.entries

@[simp] theorem find?_map (f : Nat → α → β) (t : Table α) (key : Nat) :
    (t.map f).find? key = (t.find? key).map (f key) := by
  obtain ⟨l, hl⟩ := t
  simp only [find?, map]
  clear hl
  induction l with
  | nil => rfl
  | cons e rest ih =>
    obtain ⟨k, b⟩ := e
    simp only [List.map_cons, lookup?]
    split
    · next h => subst h; rfl
    · exact ih

@[simp] theorem find?_modify (t : Table α) (key key' : Nat) (f : α → α) :
    (t.modify key f).find? key' = if key' = key then (t.find? key).map f else t.find? key' := by
  unfold modify
  split
  · next a h => rw [find?_insert, h]; rfl
  · next h => split <;> simp_all

end Table

end SchedAudit

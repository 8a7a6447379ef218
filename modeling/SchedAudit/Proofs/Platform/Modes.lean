import SchedAudit.Platform
import SchedAudit.Proofs.Binary64.Sorting

/-!
# Rounding to a mode

A cluster that was loaded lists its modes from the top frequency downwards (`Cluster.Ordered`).
Rounding takes modes from the front as long as they are not below a frequency. In such a list these
are all modes that are not below it (`modesFrom`), so the result is the least of them, and the top
one where there is none (`ceilToMode_cases`). Whatever else is needed follows from that: rounding is
monotone, a mode is rounded to itself, and two frequencies are told apart only where a mode lies
between them. `ceilToMode_roundsUp` says it of the clusters of a platform that was loaded.
-/

namespace SchedAudit

open Binary64 (numericKey)

/-! ## Clusters in order -/

/-- A cluster whose modes are numbers, and descend from the top frequency. -/
structure Cluster.Ordered (c : Cluster) : Prop where
  top : c.modes.head? = some c.topFrequency
  isNaN : ∀ mode ∈ c.modes, mode.isNaN = false
  descending : c.modes.Pairwise fun a b => numericKey b ≤ numericKey a

/-- Each cluster of a platform goes back to a declaration, which has some frequency. -/
theorem Platform.exists_declaration {path : String} {declarations : List Cluster.Declaration}
    {platform : Platform} (hload : ofDeclarations path declarations = .ok platform) {id : Nat}
    {c : Cluster} (hc : platform.cluster? id = some c) :
    ∃ reference, ∃ d ∈ declarations, d.frequencies ≠ [] ∧ c = .ofDeclaration reference id d := by
  cases declarations with
  | nil => cases hload
  | cons first rest =>
    rw [ofDeclarations] at hload
    split at hload
    · cases hload
    · next hnone =>
      cases hload
      rw [cluster?, List.getElem?_mapIdx, Option.map_eq_some_iff] at hc
      obtain ⟨d, hd, rfl⟩ := hc
      have hmem := List.mem_of_getElem? hd
      have hsome := List.findIdx?_eq_none_iff.1 hnone d hmem
      exact ⟨_, d, hmem, List.isEmpty_eq_false_iff.1 hsome, rfl⟩

/-- The modes of a cluster are its declared frequencies, put in order. -/
theorem Cluster.mem_modes_ofDeclaration_iff {reference : Float} {id : Nat} {d : Declaration}
    {mode : Float} : mode ∈ (ofDeclaration reference id d).modes ↔ mode ∈ d.frequencies :=
  (Binary64.sortDescending_perm _).mem_iff

/-- Where there are modes, the top frequency is the first of them. -/
theorem Cluster.Declaration.head?_modes {d : Declaration} (hsome : d.frequencies ≠ []) :
    d.modes.head? = some d.topFrequency := by
  rw [topFrequency]
  cases hmodes : d.modes with
  | nil => exact absurd (List.Perm.nil_eq (hmodes ▸ Binary64.sortDescending_perm _)).symm hsome
  | cons top rest => rfl

theorem Cluster.Ordered.ofDeclaration (reference : Float) (id : Nat) {d : Declaration}
    (hsome : d.frequencies ≠ []) (hnum : ∀ f ∈ d.frequencies, f.isNaN = false) :
    (Cluster.ofDeclaration reference id d).Ordered where
  top := d.head?_modes hsome
  isNaN := fun mode hmode => hnum mode (mem_modes_ofDeclaration_iff.1 hmode)
  descending := Binary64.sortDescending_pairwise _

/-! ## Rounding -/

/-- In a list that passes a test up to some element, those before it are all that pass. -/
theorem takeWhile_eq_filter {α : Type} {p : α → Bool} {l : List α}
    (h : l.Pairwise fun a b => p b = true → p a = true) : l.takeWhile p = l.filter p := by
  induction l with
  | nil => rfl
  | cons a rest ih =>
    obtain ⟨ha, hrest⟩ := List.pairwise_cons.1 h
    by_cases hp : p a = true
    · rw [List.takeWhile_cons_of_pos hp, List.filter_cons_of_pos hp, ih hrest]
    · rw [List.takeWhile_cons_of_neg hp, List.filter_cons_of_neg hp]
      exact (List.filter_eq_nil_iff.2 fun b hb hpb => hp (ha b hb hpb)).symm

namespace Cluster

/-- The modes that are not below a frequency. -/
def modesFrom (c : Cluster) (frequency : Float) : List Float :=
  c.modes.filter fun mode => numericKey frequency ≤ numericKey mode

variable {c : Cluster} {frequency mode a b : Float}

theorem mem_modesFrom_iff :
    mode ∈ c.modesFrom frequency ↔ mode ∈ c.modes ∧ numericKey frequency ≤ numericKey mode := by
  rw [modesFrom, List.mem_filter, decide_eq_true_iff]

namespace Ordered

variable (h : c.Ordered)

include h

theorem top_mem : c.topFrequency ∈ c.modes := List.mem_of_head? h.top

theorem numericKey_le_top (hmode : mode ∈ c.modes) :
    numericKey mode ≤ numericKey c.topFrequency := by
  have hdescending := h.descending
  have htop := h.top
  cases hmodes : c.modes with
  | nil => simp [hmodes] at hmode
  | cons first rest =>
    rw [hmodes] at hmode htop hdescending
    obtain rfl := Option.some.inj htop
    rcases List.mem_cons.1 hmode with rfl | hmode
    · exact le_refl _
    · exact (List.pairwise_cons.1 hdescending).1 mode hmode

theorem ceilToMode_eq (hnum : frequency.isNaN = false) :
    c.ceilToMode frequency = (c.modesFrom frequency).getLastD c.topFrequency := by
  have hreaches : ∀ mode ∈ c.modes, (!decide (mode < frequency)) =
      decide (numericKey frequency ≤ numericKey mode) := by
    intro mode hmode
    rw [← decide_not, decide_eq_decide, Binary64.lt_iff (h.isNaN mode hmode) hnum, not_lt]
  have hprefix : c.modes.takeWhile (fun mode => !decide (mode < frequency)) =
      c.modesFrom frequency := by
    rw [modesFrom, ← List.filter_congr hreaches]
    refine takeWhile_eq_filter (h.descending.imp_of_mem fun {a b} ha hb hab => ?_)
    rw [hreaches a ha, hreaches b hb, decide_eq_true_iff, decide_eq_true_iff]
    exact fun hle => le_trans hle hab
  rw [ceilToMode, hprefix]

/-- **Rounding takes the least mode that is not below a frequency,** and the top one where there is
none. -/
theorem ceilToMode_cases (hnum : frequency.isNaN = false) :
    (c.modesFrom frequency = [] ∧ c.ceilToMode frequency = c.topFrequency) ∨
      (c.ceilToMode frequency ∈ c.modesFrom frequency ∧ ∀ mode ∈ c.modesFrom frequency,
        numericKey (c.ceilToMode frequency) ≤ numericKey mode) := by
  rw [h.ceilToMode_eq hnum]
  have hdescending : (c.modesFrom frequency).Pairwise fun a b => numericKey b ≤ numericKey a :=
    h.descending.sublist List.filter_sublist
  rcases List.eq_nil_or_concat (c.modesFrom frequency) with hnil | ⟨above, last, hlast⟩
  · exact .inl ⟨hnil, by rw [hnil, List.getLastD_nil]⟩
  · -- The modes descend, so the last of them is the least.
    rw [List.concat_eq_append] at hlast
    rw [hlast] at hdescending ⊢
    rw [List.getLastD_concat]
    refine .inr ⟨List.mem_concat_self, fun mode hmode => ?_⟩
    rcases List.mem_append.1 hmode with hmode | hmode
    · exact (List.pairwise_append.1 hdescending).2.2 mode hmode last (List.mem_singleton_self last)
    · rw [List.mem_singleton.1 hmode]

theorem ceilToMode_mem (hnum : frequency.isNaN = false) : c.ceilToMode frequency ∈ c.modes := by
  rcases h.ceilToMode_cases hnum with ⟨-, htop⟩ | ⟨hmem, -⟩
  · rw [htop]
    exact h.top_mem
  · exact (mem_modesFrom_iff.1 hmem).1

theorem isNaN_ceilToMode (hnum : frequency.isNaN = false) :
    (c.ceilToMode frequency).isNaN = false :=
  h.isNaN _ (h.ceilToMode_mem hnum)

/-- **Rounding is monotone.** -/
theorem numericKey_ceilToMode_mono (ha : a.isNaN = false) (hb : b.isNaN = false)
    (hab : numericKey a ≤ numericKey b) :
    numericKey (c.ceilToMode a) ≤ numericKey (c.ceilToMode b) := by
  rcases h.ceilToMode_cases hb with ⟨-, htop⟩ | ⟨hmem, -⟩
  · rw [htop]
    exact h.numericKey_le_top (h.ceilToMode_mem ha)
  · -- The mode of the larger frequency is not below the smaller one either.
    obtain ⟨hmode, hreached⟩ := mem_modesFrom_iff.1 hmem
    have hfrom : c.ceilToMode b ∈ c.modesFrom a :=
      mem_modesFrom_iff.2 ⟨hmode, le_trans hab hreached⟩
    rcases h.ceilToMode_cases ha with ⟨hnil, -⟩ | ⟨-, hleast⟩
    · rw [hnil] at hfrom
      cases hfrom
    · exact hleast _ hfrom

/-- A mode is rounded to itself, up to the sign of a zero. -/
theorem numericKey_ceilToMode_of_mem (hmode : mode ∈ c.modes) :
    numericKey (c.ceilToMode mode) = numericKey mode := by
  have hfrom : mode ∈ c.modesFrom mode := mem_modesFrom_iff.2 ⟨hmode, le_refl _⟩
  rcases h.ceilToMode_cases (h.isNaN mode hmode) with ⟨hnil, -⟩ | ⟨hmem, hleast⟩
  · rw [hnil] at hfrom
    cases hfrom
  · exact le_antisymm (hleast mode hfrom) (mem_modesFrom_iff.1 hmem).2

/-- Two frequencies up to the top one whose modes are equally large have the same mode, even where
modes of equal size differ by the sign of a zero. -/
theorem ceilToMode_eq_of_numericKey_le (ha : a.isNaN = false) (hb : b.isNaN = false)
    (hab : numericKey a ≤ numericKey b) (htop : numericKey b ≤ numericKey c.topFrequency)
    (hmodes : numericKey (c.ceilToMode b) ≤ numericKey (c.ceilToMode a)) :
    c.ceilToMode a = c.ceilToMode b := by
  have hreached : numericKey b ≤ numericKey (c.ceilToMode b) := by
    rcases h.ceilToMode_cases hb with ⟨-, heq⟩ | ⟨hmem, -⟩
    · rwa [heq]
    · exact (mem_modesFrom_iff.1 hmem).2
  have hsame : c.modesFrom a = c.modesFrom b := by
    refine List.filter_congr fun mode hmode => ?_
    rw [decide_eq_decide]
    refine ⟨fun hle => ?_, le_trans hab⟩
    have hfrom : mode ∈ c.modesFrom a := mem_modesFrom_iff.2 ⟨hmode, hle⟩
    rcases h.ceilToMode_cases ha with ⟨hnil, -⟩ | ⟨-, hleast⟩
    · rw [hnil] at hfrom
      cases hfrom
    · exact le_trans hreached (le_trans hmodes (hleast mode hfrom))
  rw [h.ceilToMode_eq ha, h.ceilToMode_eq hb, hsame]

end Ordered

/-- What a frequency is rounded up to: the least mode that is not below it, and the top one where
there is none. -/
structure RoundsUp (c : Cluster) (frequency rounded : Float) : Prop where
  mem : rounded ∈ c.modes
  least : (∃ mode ∈ c.modes, frequency ≤ mode) →
    frequency ≤ rounded ∧ ∀ mode ∈ c.modes, ¬(frequency ≤ mode ∧ mode < rounded)
  top : (¬∃ mode ∈ c.modes, frequency ≤ mode) → rounded = c.topFrequency

namespace Ordered

variable (h : c.Ordered)

include h

/-- Some mode is not below a frequency just in case there is one to take. -/
theorem modesFrom_ne_nil_iff (hnum : frequency.isNaN = false) :
    c.modesFrom frequency ≠ [] ↔ ∃ mode ∈ c.modes, frequency ≤ mode := by
  rw [ne_eq, List.eq_nil_iff_forall_not_mem, not_forall_not]
  simp only [mem_modesFrom_iff]
  exact exists_congr fun mode => and_congr_right fun hmode =>
    (Binary64.le_iff hnum (h.isNaN mode hmode)).symm

theorem roundsUp_ceilToMode (hnum : frequency.isNaN = false) :
    c.RoundsUp frequency (c.ceilToMode frequency) where
  mem := h.ceilToMode_mem hnum
  least := by
    intro hsome
    rcases h.ceilToMode_cases hnum with ⟨hnil, -⟩ | ⟨hmem, hleast⟩
    · exact absurd hnil ((h.modesFrom_ne_nil_iff hnum).2 hsome)
    · have hrounded := h.isNaN_ceilToMode hnum
      refine ⟨(Binary64.le_iff hnum hrounded).2 (mem_modesFrom_iff.1 hmem).2, ?_⟩
      rintro mode hmode ⟨hreached, hlt⟩
      have hmodeNum := h.isNaN mode hmode
      rw [Binary64.le_iff hnum hmodeNum] at hreached
      rw [Binary64.lt_iff hmodeNum hrounded] at hlt
      exact absurd (hleast mode (mem_modesFrom_iff.2 ⟨hmode, hreached⟩)) (not_le.2 hlt)
  top := by
    intro hnone
    rcases h.ceilToMode_cases hnum with ⟨-, htop⟩ | ⟨hmem, -⟩
    · exact htop
    · exact absurd ((h.modesFrom_ne_nil_iff hnum).1 (List.ne_nil_of_mem hmem)) hnone

/-- Where a mode is reached, rounding twice gives the very same mode as rounding once. -/
theorem ceilToMode_ceilToMode (hnum : frequency.isNaN = false)
    (hsome : ∃ mode ∈ c.modes, frequency ≤ mode) :
    c.ceilToMode (c.ceilToMode frequency) = c.ceilToMode frequency := by
  have hrounded := h.isNaN_ceilToMode hnum
  have hmem := h.ceilToMode_mem hnum
  have hreached := ((h.roundsUp_ceilToMode hnum).least hsome).1
  rw [Binary64.le_iff hnum hrounded] at hreached
  exact (h.ceilToMode_eq_of_numericKey_le hnum hrounded hreached (h.numericKey_le_top hmem)
    (le_of_eq (h.numericKey_ceilToMode_of_mem hmem))).symm

end Ordered

end Cluster

/-! ## Platforms that were loaded -/

theorem Platform.ordered_of_cluster? {path : String} {declarations : List Cluster.Declaration}
    {platform : Platform} (hload : ofDeclarations path declarations = .ok platform) {id : Nat}
    {c : Cluster} (hc : platform.cluster? id = some c)
    (hmodes : ∀ mode ∈ c.modes, mode.isNaN = false) : c.Ordered := by
  obtain ⟨reference, d, -, hsome, rfl⟩ := exists_declaration hload hc
  exact .ofDeclaration reference id hsome fun f hf =>
    hmodes f (Cluster.mem_modes_ofDeclaration_iff.2 hf)

/-- **Rounding up to a mode.** On every cluster of a platform that was loaded, whatever the order of
its declared frequencies and however often they were repeated, a frequency is rounded to the least
mode that is not below it, or to the top one. Rounding is monotone and idempotent: a second rounding
gives an equal number, and the same one even in its sign wherever a mode is reached. -/
theorem ceilToMode_roundsUp {path : String} {declarations : List Cluster.Declaration}
    {platform : Platform} (hload : Platform.ofDeclarations path declarations = .ok platform)
    {id : Nat} {c : Cluster} (hc : platform.cluster? id = some c)
    (hmodes : ∀ mode ∈ c.modes, mode.isNaN = false) :
    (∀ frequency : Float, frequency.isNaN = false →
      c.RoundsUp frequency (c.ceilToMode frequency) ∧
      (c.ceilToMode (c.ceilToMode frequency) == c.ceilToMode frequency) = true ∧
      ((∃ mode ∈ c.modes, frequency ≤ mode) →
        c.ceilToMode (c.ceilToMode frequency) = c.ceilToMode frequency)) ∧
    ∀ a b : Float, a.isNaN = false → b.isNaN = false → a ≤ b →
      c.ceilToMode a ≤ c.ceilToMode b := by
  have hordered := Platform.ordered_of_cluster? hload hc hmodes
  constructor
  · intro frequency hnum
    have hrounded := hordered.isNaN_ceilToMode hnum
    have hagain := hordered.numericKey_ceilToMode_of_mem (hordered.ceilToMode_mem hnum)
    exact ⟨hordered.roundsUp_ceilToMode hnum,
      (Binary64.beq_iff (hordered.isNaN_ceilToMode hrounded) hrounded).2 hagain,
      hordered.ceilToMode_ceilToMode hnum⟩
  · intro a b ha hb hab
    rw [Binary64.le_iff (hordered.isNaN_ceilToMode ha) (hordered.isNaN_ceilToMode hb)]
    exact hordered.numericKey_ceilToMode_mono ha hb ((Binary64.le_iff ha hb).1 hab)

/-- A cluster whose frequencies are declared in no order, one of them twice. -/
def shuffledDeclaration : Cluster.Declaration := ⟨2, [500.0, 1000.0, 500.0, 750.0], 0.0, 1.0⟩

/-- The cluster of this declaration, alone on its platform. -/
def Cluster.shuffled : Cluster := .ofDeclaration shuffledDeclaration.topFrequency 0 shuffledDeclaration

theorem ceilToMode_roundsUp_shuffled :
    ∃ platform, Platform.ofDeclarations Platform.inMemory [shuffledDeclaration] = .ok platform ∧
      platform.cluster? 0 = some .shuffled ∧
      (∀ mode ∈ Cluster.shuffled.modes, mode.isNaN = false) ∧
      Cluster.shuffled.RoundsUp 600.0 (Cluster.shuffled.ceilToMode 600.0) ∧
      ¬750.0 < Cluster.shuffled.ceilToMode 600.0 ∧
      Cluster.shuffled.ceilToMode 600.0 ≤ Cluster.shuffled.ceilToMode 800.0 := by
  have hdeclared : ∀ f ∈ shuffledDeclaration.frequencies, f.isNaN = false := by
    simp only [shuffledDeclaration, List.forall_mem_cons]
    decide
  have hmodes : ∀ mode ∈ Cluster.shuffled.modes, mode.isNaN = false :=
    fun mode hmode => hdeclared mode (Cluster.mem_modes_ofDeclaration_iff.1 hmode)
  have hmem : 750.0 ∈ Cluster.shuffled.modes :=
    Cluster.mem_modes_ofDeclaration_iff.2 (by simp [shuffledDeclaration])
  obtain ⟨platform, hload, hc⟩ : ∃ platform,
      Platform.ofDeclarations Platform.inMemory [shuffledDeclaration] = .ok platform ∧
        platform.cluster? 0 = some .shuffled := ⟨_, rfl, rfl⟩
  obtain ⟨hrounds, hmono⟩ := ceilToMode_roundsUp hload hc hmodes
  obtain ⟨hup, -⟩ := hrounds 600.0 (by decide)
  refine ⟨platform, hload, hc, hmodes, hup, fun hlt => ?_,
    hmono 600.0 800.0 (by decide) (by decide) (by decide)⟩
  exact (hup.least ⟨750.0, hmem, by decide⟩).2 750.0 hmem ⟨by decide, hlt⟩

end SchedAudit

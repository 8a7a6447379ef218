import Mathlib
import SchedAudit.Proofs.Platform.Modes

/-!
# Loading a platform

What can be wrong with the declarations of a platform is told in one order: that there is none, and
then the first one without a frequency. All other declarations give a platform, and it is determined
by them (`Platform.ofDeclarations_eq_ok_iff`): in `Cluster.IsBuilt` and `Platform.IsBuilt` nothing is
left open, since frequencies descend in one way only and the first cluster is its own reference.

A path takes no part in this but for being told in an error (`Platform.ofDeclarations_eq_mapError`). So
a platform that is read from a file is the platform of what the file declares.
-/

namespace SchedAudit

/-! ## What is built -/

/-- A cluster as it is to be built from a declaration, at a place and against the top frequency of the
reference. -/
structure Cluster.IsBuilt (reference : Float) (place : Nat) (d : Declaration) (c : Cluster) : Prop where
  /-- it is numbered by its place -/
  id : c.id = place
  processors : c.processors = d.processors
  effectiveFrequency : c.effectiveFrequency = d.effectiveFrequency
  performance : c.performance = d.performance
  /-- its modes are the declared frequencies, each as often as it was declared -/
  modes : c.modes.Perm d.frequencies
  /-- modes descend in the total order -/
  descending : c.modes.Pairwise fun a b => Binary64.orderKey b ≤ Binary64.orderKey a
  /-- the first mode is the top frequency -/
  top : c.modes.head? = some c.topFrequency
  speedScale : c.speedScale = reference / c.topFrequency

/-- A platform as it is to be built from declarations. -/
structure Platform.IsBuilt (declarations : List Cluster.Declaration) (p : Platform) : Prop where
  /-- there is one cluster for each declaration -/
  length : p.clusters.length = declarations.length
  /-- the cluster in each place is built from the declaration there, and the first one is the
  reference -/
  clusters : ∃ reference, p.cluster? 0 = some reference ∧
    ∀ i c d, p.cluster? i = some c → declarations[i]? = some d → c.IsBuilt reference.topFrequency i d

/-- A cluster is built in one way only, and from a declaration with some frequency. -/
theorem Cluster.isBuilt_iff {reference : Float} {place : Nat} {d : Declaration} {c : Cluster} :
    c.IsBuilt reference place d ↔ d.frequencies ≠ [] ∧ c = .ofDeclaration reference place d := by
  constructor
  · intro h
    have hmodes : c.modes = d.modes := Binary64.eq_sortDescending h.modes h.descending
    have hsome : d.frequencies ≠ [] := by
      intro hnil
      have hperm := h.modes
      have htop := h.top
      rw [hnil] at hperm
      rw [hperm.eq_nil] at htop
      cases htop
    have htop : c.topFrequency = d.topFrequency := by
      rw [← Option.some_inj, ← h.top, ← d.head?_modes hsome, hmodes]
    refine ⟨hsome, ?_⟩
    obtain ⟨id, processors, modes, effective, performance, top, speedScale⟩ := c
    rw [ofDeclaration, Cluster.mk.injEq]
    exact ⟨h.id, h.processors, hmodes, h.effectiveFrequency, h.performance, htop, htop ▸ h.speedScale⟩
  · rintro ⟨hsome, rfl⟩
    exact ⟨rfl, rfl, rfl, rfl, Binary64.sortDescending_perm _,
      Binary64.pairwise_orderKey_sortDescending _, d.head?_modes hsome, rfl⟩

namespace Platform

variable {path : String} {declarations : List Cluster.Declaration} {p : Platform} {i : Nat}

theorem ext_clusters {q : Platform} (h : p.clusters = q.clusters) : p = q := by
  cases p
  cases q
  cases h
  rfl

/-! ## What can go wrong -/

/-- The places of declarations without a frequency. -/
def lacking (declarations : List Cluster.Declaration) : Set Nat :=
  {i | ∃ d ∈ declarations[i]?, d.frequencies = []}

theorem findIdx?_eq_some_iff_isLeast :
    declarations.findIdx? (fun d => d.frequencies.isEmpty) = some i ↔
      IsLeast (lacking declarations) i := by
  rw [List.findIdx?_eq_some_iff_getElem]
  have hmem {j : Nat} (hj : j < declarations.length) :
      j ∈ lacking declarations ↔ declarations[j].frequencies.isEmpty = true := by
    rw [lacking, Set.mem_ofPred_eq, List.getElem?_eq_getElem hj, List.isEmpty_iff]
    simp
  constructor
  · rintro ⟨hi, hempty, hbefore⟩
    refine ⟨(hmem hi).2 hempty, fun j hj => not_lt.1 fun hlt => hbefore j hlt ?_⟩
    exact (hmem (hlt.trans hi)).1 hj
  · rintro ⟨⟨d, hd, hempty⟩, hleast⟩
    obtain ⟨hi, rfl⟩ := List.getElem?_eq_some_iff.1 hd
    refine ⟨hi, List.isEmpty_iff.2 hempty, fun j hlt hj => ?_⟩
    exact absurd (hleast ((hmem (hlt.trans hi)).2 hj)) (not_le.2 hlt)

/-- The three ways in which building ends. -/
theorem ofDeclarations_cases (path : String) (declarations : List Cluster.Declaration) :
    (declarations = [] ∧ ofDeclarations path declarations = .error (.emptyPlatform path)) ∨
    (∃ i, IsLeast (lacking declarations) i ∧
      ofDeclarations path declarations = .error (.noFrequencies path i)) ∨
    ((∀ d ∈ declarations, d.frequencies ≠ []) ∧
      ∃ first p, declarations.head? = some first ∧ ofDeclarations path declarations = .ok p ∧
        p.clusters = declarations.mapIdx (Cluster.ofDeclaration first.topFrequency)) := by
  cases declarations with
  | nil => exact .inl ⟨rfl, rfl⟩
  | cons first rest =>
    rw [ofDeclarations]
    split
    · next i hi => exact .inr (.inl ⟨i, findIdx?_eq_some_iff_isLeast.1 hi, rfl⟩)
    · next hnone =>
      refine .inr (.inr ⟨fun d hd => ?_, first, _, rfl, rfl, rfl⟩)
      exact List.isEmpty_eq_false_iff.1 (List.findIdx?_eq_none_iff.1 hnone d hd)

theorem lacking_eq_empty (h : ∀ d ∈ declarations, d.frequencies ≠ []) : lacking declarations = ∅ :=
  Set.eq_empty_iff_forall_notMem.2 fun _ ⟨d, hd, hempty⟩ => h d (List.mem_of_getElem? hd) hempty

theorem ofDeclarations_eq_emptyPlatform_iff :
    ofDeclarations path declarations = .error (.emptyPlatform path) ↔ declarations = [] := by
  rcases ofDeclarations_cases path declarations with
    ⟨hnil, hends⟩ | ⟨i, ⟨⟨d, hd, -⟩, -⟩, hends⟩ | ⟨-, first, p, hfirst, hends, -⟩
  · exact iff_of_true hends hnil
  · refine iff_of_false (by rw [hends]; nofun) ?_
    rintro rfl
    cases hd
  · refine iff_of_false (by rw [hends]; nofun) ?_
    rintro rfl
    cases hfirst

theorem ofDeclarations_eq_noFrequencies_iff :
    ofDeclarations path declarations = .error (.noFrequencies path i) ↔
      IsLeast (lacking declarations) i := by
  rcases ofDeclarations_cases path declarations with
    ⟨rfl, hends⟩ | ⟨j, hj, hends⟩ | ⟨hall, first, p, -, hends, -⟩
  · refine iff_of_false (by rw [hends]; nofun) ?_
    rintro ⟨⟨d, hd, -⟩, -⟩
    cases hd
  · rw [hends]
    constructor
    · rintro ⟨⟩
      exact hj
    · intro hi
      rw [hi.unique hj]
  · refine iff_of_false (by rw [hends]; nofun) fun hi => ?_
    rw [lacking_eq_empty hall] at hi
    exact hi.1

/-! ## What comes of declarations -/

/-- The cluster in each place of a platform that is built, and no declaration lacks frequencies. -/
theorem IsBuilt.exists_reference (h : p.IsBuilt declarations) :
    ∃ first, declarations.head? = some first ∧ ∀ i d, declarations[i]? = some d →
      d.frequencies ≠ [] ∧ p.cluster? i = some (.ofDeclaration first.topFrequency i d) := by
  obtain ⟨hlength, reference, hreference, hclusters⟩ := h
  have hplace {i : Nat} {d : Cluster.Declaration} (hd : declarations[i]? = some d) :
      d.frequencies ≠ [] ∧ p.cluster? i = some (.ofDeclaration reference.topFrequency i d) := by
    have hlt : i < p.clusters.length := hlength ▸ (List.getElem?_eq_some_iff.1 hd).1
    have hc : p.cluster? i = some p.clusters[i] := List.getElem?_eq_getElem hlt
    obtain ⟨hsome, hcluster⟩ := Cluster.isBuilt_iff.1 (hclusters i _ d hc hd)
    exact ⟨hsome, hcluster ▸ hc⟩
  -- The first cluster is its own reference.
  have hpos : 0 < declarations.length := hlength ▸ (List.getElem?_eq_some_iff.1 hreference).1
  have hfirst : declarations[0]? = some declarations[0] := List.getElem?_eq_getElem hpos
  obtain ⟨-, hzero⟩ := hplace hfirst
  rw [hreference, Option.some_inj] at hzero
  have htop : reference.topFrequency = declarations[0].topFrequency := by
    rw [hzero]
    rfl
  rw [← List.head?_eq_getElem?] at hfirst
  exact ⟨_, hfirst, fun i d hd => htop ▸ hplace hd⟩

theorem isBuilt_of_clusters {first : Cluster.Declaration} (hfirst : declarations.head? = some first)
    (hall : ∀ d ∈ declarations, d.frequencies ≠ [])
    (hp : p.clusters = declarations.mapIdx (Cluster.ofDeclaration first.topFrequency)) :
    p.IsBuilt declarations := by
  have hcluster (i : Nat) : p.cluster? i =
      declarations[i]?.map (Cluster.ofDeclaration first.topFrequency i) := by
    rw [cluster?, hp, List.getElem?_mapIdx]
  refine ⟨by rw [hp, List.length_mapIdx], .ofDeclaration first.topFrequency 0 first, ?_, ?_⟩
  · rw [hcluster, ← List.head?_eq_getElem?, hfirst]
    rfl
  · intro i c d hc hd
    rw [hcluster, hd] at hc
    exact Cluster.isBuilt_iff.2 ⟨hall d (List.mem_of_getElem? hd), (Option.some.inj hc).symm⟩

/-- **Declarations determine their platform.** -/
theorem ofDeclarations_eq_ok_iff :
    ofDeclarations path declarations = .ok p ↔ p.IsBuilt declarations := by
  constructor
  · intro h
    rcases ofDeclarations_cases path declarations with
      ⟨-, hends⟩ | ⟨i, -, hends⟩ | ⟨hall, first, q, hfirst, hends, hq⟩
    · rw [hends] at h
      cases h
    · rw [hends] at h
      cases h
    · rw [hends] at h
      cases h
      exact isBuilt_of_clusters hfirst hall hq
  · intro h
    obtain ⟨first, hfirst, hplaces⟩ := h.exists_reference
    rcases ofDeclarations_cases path declarations with
      ⟨rfl, -⟩ | ⟨i, ⟨⟨d, hd, hempty⟩, -⟩, -⟩ | ⟨-, first', q, hfirst', hends, hq⟩
    · cases hfirst
    · exact absurd hempty (hplaces i d hd).1
    · obtain rfl : first = first' := Option.some.inj (hfirst.symm.trans hfirst')
      rw [hends, Except.ok.injEq]
      refine ext_clusters (hq.trans (List.ext_getElem? fun i => ?_))
      rw [List.getElem?_mapIdx]
      cases hd : declarations[i]? with
      | none =>
        rw [List.getElem?_eq_none_iff, ← h.length, ← List.getElem?_eq_none_iff] at hd
        exact hd.symm
      | some d => exact (hplaces i d hd).2.symm

theorem exists_ofDeclarations_eq_ok_iff : (∃ p, ofDeclarations path declarations = .ok p) ↔
    declarations ≠ [] ∧ ∀ d ∈ declarations, d.frequencies ≠ [] := by
  rcases ofDeclarations_cases path declarations with
    ⟨hnil, hends⟩ | ⟨i, ⟨⟨d, hd, hempty⟩, -⟩, hends⟩ | ⟨hall, first, p, hfirst, hends, -⟩
  · exact iff_of_false (by rw [hends]; nofun) fun h => h.1 hnil
  · exact iff_of_false (by rw [hends]; nofun) fun h => h.2 d (List.mem_of_getElem? hd) hempty
  · refine iff_of_true ⟨p, hends⟩ ⟨?_, hall⟩
    rintro rfl
    cases hfirst

end Platform

/-! ## Files -/

/-- The error at another path. -/
def LoadError.at (path : String) : LoadError → LoadError
  | .unreadable _ reason => .unreadable path reason
  | .malformed _ => .malformed path
  | .emptyPlatform _ => .emptyPlatform path
  | .noFrequencies _ cluster => .noFrequencies path cluster

namespace Platform

/-- The declarations that a file writes. -/
def Declares {guarded : Bool} (found : Found guarded) (declarations : List Cluster.Declaration) :
    Prop :=
  ∃ source, found.text = .ok source ∧ declarations? source = some declarations

/-- A path is only told. -/
theorem ofDeclarations_eq_mapError (path other : String) (declarations : List Cluster.Declaration) :
    ofDeclarations path declarations = (ofDeclarations other declarations).mapError (·.at path) := by
  cases declarations with
  | nil => rfl
  | cons first rest =>
    rw [ofDeclarations, ofDeclarations]
    split <;> rfl

theorem load_of_declares {guarded : Bool} {path : String} {found : Found guarded}
    {declarations : List Cluster.Declaration} (h : Declares found declarations) :
    load path found = ofDeclarations path declarations := by
  obtain ⟨source, htext, hdeclarations⟩ := h
  rw [load, Found.textAt, htext]
  simp only [hdeclarations]

example : Declares (.file "[[[2, [500, 1e3], 0, 1.5], [1, [], 0, 1]]]".toUTF8 : Found)
    [⟨2, [500.0, 1000.0], 0.0, 1.5⟩, ⟨1, [], 0.0, 1.0⟩] :=
  ⟨_, Found.text_toUTF8 _, by rfl⟩

/-- What comes of loading declarations. -/
structure Loading (path : String) (declarations : List Cluster.Declaration) : Prop where
  /-- that there is no declaration is told first -/
  empty : ofDeclarations path declarations = .error (.emptyPlatform path) ↔ declarations = []
  /-- then the first declaration without a frequency -/
  lacking : ∀ i, ofDeclarations path declarations = .error (.noFrequencies path i) ↔
    IsLeast {j | ∃ d ∈ declarations[j]?, d.frequencies = []} i
  /-- all other declarations give a platform -/
  succeeds : (∃ p, ofDeclarations path declarations = .ok p) ↔
    declarations ≠ [] ∧ ∀ d ∈ declarations, d.frequencies ≠ []
  /-- and it is the one that is to be built -/
  built : ∀ p, ofDeclarations path declarations = .ok p ↔ p.IsBuilt declarations
  /-- a file with these declarations gives the same, but for the path in an error -/
  from_file : ∀ {guarded : Bool} (found : Found guarded), Declares found declarations →
    load path found = (ofDeclarations inMemory declarations).mapError (·.at path)

end Platform

/-- **Loading a platform.** Declarations give a platform unless there is none or one is without a
frequency; the first of these faults is told, and a platform is what its declarations say. It makes no
difference whether the declarations are read from a file. -/
theorem platform_loading (path : String) (declarations : List Cluster.Declaration) :
    Platform.Loading path declarations where
  empty := Platform.ofDeclarations_eq_emptyPlatform_iff
  lacking _ := Platform.ofDeclarations_eq_noFrequencies_iff
  succeeds := Platform.exists_ofDeclarations_eq_ok_iff
  built _ := Platform.ofDeclarations_eq_ok_iff
  from_file _ hdeclares :=
    (Platform.load_of_declares hdeclares).trans (Platform.ofDeclarations_eq_mapError _ _ _)

end SchedAudit

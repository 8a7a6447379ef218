import SchedAudit.Binary64
import SchedAudit.Files.Found
import SchedAudit.Json.Value

/-!
# Platforms: clusters of processors and their frequencies

A platform is a list of clusters. The processors of one cluster share a clock, whose operating
frequencies are the **modes** of the cluster. A cluster is numbered by its place in the declaration,
which is also the number that traces use.

The first cluster is the reference: `speedScale` is its top frequency over the top frequency of the
own cluster, and a utilization is brought to the unit of a cluster by `scaleUtilization`. Every
cluster has at least one mode, so building a platform can fail; `Platform.ofDeclarations` says how.
-/

namespace SchedAudit

/-! ## Declarations -/

/-- One cluster as it is declared. -/
structure Cluster.Declaration where
  /-- number of processors -/
  processors : Nat
  /-- operating frequencies in any order -/
  frequencies : List Float
  /-- the frequency below which the frequency rules of FFA and CSF do not go; zero for none -/
  effectiveFrequency : Float
  /-- throughput per cycle, relative to other clusters -/
  performance : Float

namespace Cluster.Declaration

/-- The operating frequencies from the highest to the lowest. -/
def modes (d : Declaration) : List Float := Binary64.sortDescending d.frequencies

/-- The highest operating frequency. -/
def topFrequency (d : Declaration) : Float := d.modes.headD 0.0

/-- Reads `procs`, `frequencies`, `effective_freq` and `perf_score`. -/
def ofJson? (v : Json) : Option Declaration := do
  let [some procs, some frequencies, some effective, some performance] ←
      v.fields? ["procs", "frequencies", "effective_freq", "perf_score"]
    | none
  return {
    processors := ← procs.nat?
    frequencies := ← frequencies.listOf? Json.float?
    effectiveFrequency := ← effective.float?
    performance := ← performance.float? }

end Cluster.Declaration

/-! ## Clusters -/

/-- One cluster of a platform. -/
structure Cluster where
  /-- the number of the cluster -/
  id : Nat
  /-- number of processors -/
  processors : Nat
  /-- operating frequencies from the highest to the lowest -/
  modes : List Float
  /-- the frequency below which the frequency rules of FFA and CSF do not go; zero for none -/
  effectiveFrequency : Float
  /-- throughput per cycle, relative to other clusters -/
  performance : Float
  /-- the first of the modes -/
  topFrequency : Float
  /-- the top frequency of the reference cluster over the own one -/
  speedScale : Float

namespace Cluster

/-- The cluster of a declaration, given its number and the top frequency of the reference. -/
def ofDeclaration (reference : Float) (id : Nat) (d : Declaration) : Cluster where
  id := id
  processors := d.processors
  modes := d.modes
  effectiveFrequency := d.effectiveFrequency
  performance := d.performance
  topFrequency := d.topFrequency
  speedScale := reference / d.topFrequency

/-- Rounds a frequency up to a mode: the last mode, from the top, that is not below it. Above all
modes there is none, and the top one is taken. -/
def ceilToMode (c : Cluster) (frequency : Float) : Float :=
  (c.modes.takeWhile fun mode => !decide (mode < frequency)).getLastD c.topFrequency

/-- A utilization in the unit of this cluster. -/
def scaleUtilization (c : Cluster) (utilization : Float) : Float :=
  utilization * c.speedScale / c.performance

end Cluster

/-! ## Platforms -/

/-- The clusters in the order of their declaration. -/
structure Platform where
  /-- the clusters -/
  clusters : List Cluster
  /-- the number of a cluster is its place -/
  numbered : ∀ (i : Nat) (h : i < clusters.length), clusters[i].id = i

namespace Platform

/-- The cluster of a number. -/
def cluster? (p : Platform) (id : Nat) : Option Cluster := p.clusters[id]?

theorem id_of_cluster? {p : Platform} {id : Nat} {c : Cluster} (h : p.cluster? id = some c) :
    c.id = id := by
  obtain ⟨hlt, rfl⟩ := List.getElem?_eq_some_iff.1 h
  exact p.numbered id hlt

/-- The platform of some declarations. That there is none at all is the first thing to go wrong, the
first cluster without a frequency the second. -/
def ofDeclarations (path : String) (declarations : List Cluster.Declaration) :
    Except LoadError Platform :=
  match declarations with
  | [] => .error (.emptyPlatform path)
  | first :: _ =>
    match declarations.findIdx? fun d => d.frequencies.isEmpty with
    | some i => .error (.noFrequencies path i)
    | none => .ok {
        clusters := declarations.mapIdx (Cluster.ofDeclaration first.topFrequency)
        numbered := by simp [Cluster.ofDeclaration] }

/-- The name that stands for the path of a platform that was not read from a file. -/
def inMemory : String := "<memory>"

/-- The declarations that a text writes, as the field `clusters` of a structure. -/
def declarations? (source : String) : Option (List Cluster.Declaration) := do
  let [some clusters] ← (← Json.parse? source).fields? ["clusters"] | none
  clusters.listOf? Cluster.Declaration.ofJson?

/-- Loads the platform found at a path. -/
def load {guarded : Bool} (path : String) (found : Found guarded) : Except LoadError Platform :=
  match found.textAt path with
  | .error e => .error e
  | .ok source =>
    match declarations? source with
    | none => .error (.malformed path)
    | some declarations => ofDeclarations path declarations

end Platform

end SchedAudit

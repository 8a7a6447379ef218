import Mathlib
import SchedAudit.Proofs.Discovery.LevelLabels
import SchedAudit.Proofs.Discovery.Partition
import SchedAudit.Proofs.Summary.Generated

/-!
# Rows of the table that look alike

Runs are put into rows by their levels, but a row shows its level in hundredths. So the rows of one
policy can be told apart by what they show if and only if no two levels of it round to the same
hundredth (`rows_distinguishable_iff`): the scenarios `u.501_1.json` and `u.502_1.json` are in two rows,
both of which show `U=0.50` (`not_distinguishable_closeLevels`). Scenarios whose names have at most two
digits behind the point are never in rows that look alike.
-/

namespace SchedAudit

open Binary64

/-! ## Scenarios that were found, and their levels -/

namespace Discovery

/-- A generated scenario has the level that the name of its file tells. -/
theorem ofFileName?_of_mem {files : Files} {filter : Option String} {directory : String}
    {found : List ScenarioFile} {f : ScenarioFile}
    (hfound : generated? files filter directory = some found) (hf : f ∈ found) :
    ∃ level, f.level = some level ∧ Level.ofFileName? f.fileName = some level := by
  obtain ⟨names, -, rfl⟩ := Option.map_eq_some_iff.1 hfound
  obtain ⟨n, -, -, level, hlevel, rfl⟩ := mem_generatedAmong_iff.1 hf
  refine ⟨level, rfl, ?_⟩
  rwa [fileName_generatedFile directory (g := (level, n)) hlevel]

theorem generated?_eq_some_among {files : Files} {filter : Option String} {directory : String}
    {names : List String} (h : HasFiles files directory names) :
    generated? files filter directory = some (generatedAmong filter directory names) := by
  obtain ⟨listed, hlisted, hperm⟩ := h
  rw [generated?, regularNames?, hlisted]
  exact congrArg some (generatedAmong_eq_of_perm hperm)

end Discovery

namespace Summary.Generated

variable {files : Files} {filter : Option String} {directory : String} {found : List ScenarioFile}
  {results : List RunResult} {r : RunResult}

/-- Results of runs of some scenarios, in any number and any order. -/
def RunsOf (found : List ScenarioFile) (results : List RunResult) : Prop :=
  ∀ r ∈ results, ∃ f ∈ found, r.scenario = f.name ∧ r.level = f.level

theorem RunsOf.exists_file (hruns : RunsOf found results)
    (hfound : Discovery.generated? files filter directory = some found) (hr : r ∈ results) :
    ∃ f ∈ found, Level.ofFileName? f.fileName = some (levelOf r) := by
  obtain ⟨f, hf, -, hlevel⟩ := hruns r hr
  obtain ⟨level, hlevel', hname⟩ := Discovery.ofFileName?_of_mem hfound hf
  exact ⟨f, hf, by rw [levelOf, hlevel, hlevel', Option.getD_some, hname]⟩

theorem RunsOf.isUnsigned (hruns : RunsOf found results)
    (hfound : Discovery.generated? files filter directory = some found) (hr : r ∈ results) :
    IsUnsigned (levelOf r) := by
  obtain ⟨f, -, hname⟩ := hruns.exists_file hfound hr
  exact Level.isUnsigned_of_ofFileName? hname

/-! ## Rows -/

/-- What a row shows to be told by: the level in hundredths, and the policy. -/
def Group.shownAs (g : Group) : String × Policy := (Level.label g.level, g.policy)

/-- No two rows of the table show the same level and the same policy. -/
def Distinguishable (results : List RunResult) : Prop :=
  ((groups results).map Group.shownAs).Nodup

section Levels

variable (hlevels : ∀ r ∈ results, IsUnsigned (levelOf r))

include hlevels

/-- Each run is in a row with its own level. -/
theorem exists_group (hr : r ∈ results) :
    ∃ g ∈ groups results, g.level = levelOf r ∧ g.policy = r.policy := by
  have h := accounted_groups fun r hr => (hlevels r hr).isNaN
  obtain ⟨g, hg, hplace⟩ := h.covered r hr
  obtain ⟨hkey, hpolicy⟩ := Place.mk.inj hplace
  obtain ⟨s, hs, hlevel, -⟩ := h.inhabited g hg
  rw [hlevel, (hlevels s hs).numericKey_eq, (hlevels r hr).numericKey_eq, ← hlevel] at hkey
  exact ⟨g, hg, eq_of_orderKey_eq hkey, hpolicy⟩

/-- Rows can be told apart if no two levels of one policy look alike, and only then. -/
theorem distinguishable_iff : Distinguishable results ↔
    ∀ r ∈ results, ∀ s ∈ results, r.policy = s.policy →
      SameHundredth (value (levelOf r)) (value (levelOf s)) → levelOf r = levelOf s := by
  have h := accounted_groups fun r hr => (hlevels r hr).isNaN
  constructor
  · intro hdistinct r hr s hs hpolicy hsame
    obtain ⟨g, hg, hlevel, hg'⟩ := exists_group hlevels hr
    obtain ⟨k, hk, hlevel', hk'⟩ := exists_group hlevels hs
    have hshown : g.shownAs = k.shownAs := by
      rw [Group.shownAs, Group.shownAs, hlevel, hlevel', hg', hk', hpolicy,
        (Level.label_eq_iff (hlevels r hr) (hlevels s hs)).2 hsame]
    rw [← hlevel, ← hlevel', List.inj_on_of_nodup_map hdistinct hg hk hshown]
  · intro hlook
    refine h.places.of_map.map_on fun g hg k hk hshown => ?_
    obtain ⟨r, hr, hlevel, hg'⟩ := h.inhabited g hg
    obtain ⟨s, hs, hlevel', hk'⟩ := h.inhabited k hk
    obtain ⟨hlabel, hpolicy⟩ := Prod.mk.inj hshown
    rw [hlevel, hlevel', Level.label_eq_iff (hlevels r hr) (hlevels s hs)] at hlabel
    have heq := hlook r hr s hs (hg'.symm.trans (hpolicy.trans hk')) hlabel
    refine List.inj_on_of_nodup_map h.places hg hk ?_
    rw [Group.place, Group.place, hlevel, hlevel', heq, hpolicy]

end Levels

/-- **Which rows can be told apart.** The rows about generated scenarios can be told apart by what they
show if and only if no two different levels of one policy round to the same hundredth. They always can
where the names of the scenarios have at most two digits behind the point. -/
theorem rows_distinguishable_iff
    (hfound : Discovery.generated? files filter directory = some found)
    (hruns : RunsOf found results) :
    (Distinguishable results ↔
      ∀ r ∈ results, ∀ s ∈ results, r.policy = s.policy →
        SameHundredth (value (levelOf r)) (value (levelOf s)) → levelOf r = levelOf s) ∧
    ((∀ f ∈ found, ∃ n : LevelName, n.Short ∧ f.fileName = n.text) → Distinguishable results) := by
  have hlevels : ∀ r ∈ results, IsUnsigned (levelOf r) := fun r => hruns.isUnsigned hfound
  refine ⟨distinguishable_iff hlevels, fun hshort => (distinguishable_iff hlevels).2 ?_⟩
  have hnearest {r : RunResult} (hr : r ∈ results) :
      ∃ n : LevelName, n.Short ∧ IsNearest (levelOf r) n.decimal := by
    obtain ⟨f, hf, hname⟩ := hruns.exists_file hfound hr
    obtain ⟨n, hn, htext⟩ := hshort f hf
    have hlevel := Level.ofFileName?_eq_some_iff.2 ⟨n, htext, rfl⟩
    rw [Option.some.inj (hname.symm.trans hlevel)]
    exact ⟨n, hn, n.isNearest_nearestPointed⟩
  intro r hr s hs _ hsame
  obtain ⟨m, hm, hrm⟩ := hnearest hr
  obtain ⟨n, hn, hsn⟩ := hnearest hs
  exact LevelName.eq_of_sameHundredth hm hn (hlevels r hr) (hlevels s hs) hrm hsn hsame

/-! ## Levels that are close, and levels that are not -/

/-- The name of a scenario at a level below one. -/
def levelBelowOne (fraction : String) (hdigits : IsDigits fraction) (hne : fraction ≠ "") :
    LevelName where
  whole := ""
  fraction := fraction
  number := "1"
  whole_digits := isDigits_iff.2 rfl
  fraction_digits := hdigits
  fraction_ne := hne
  number_digits := isDigits_iff.2 rfl
  number_ne := by decide

/-- A file system with scenarios of some names in its only directory. -/
def filesOf (levels : List LevelName) : Files :=
  Files.ofSeen (levels.map fun n => ("d/" ++ n.text, .file ByteArray.empty))
    [("d", levels.map LevelName.text)]

/-- What is found there. -/
def foundOf (levels : List LevelName) : List ScenarioFile :=
  Discovery.generatedAmong none "d" (levels.map LevelName.text)

/-- A run of a scenario. -/
def runOf (n : LevelName) : RunResult :=
  ⟨FileName.withoutSuffix n.text, Level.ofFileName? n.text, .grub, .completed ⟨[], []⟩⟩

theorem runsOf_map_runOf (levels : List LevelName) : RunsOf (foundOf levels) (levels.map runOf) := by
  intro r hr
  obtain ⟨n, hn, rfl⟩ := List.mem_map.1 hr
  have hlevel := Level.ofFileName?_eq_some_iff.2 ⟨n, rfl, rfl⟩
  exact ⟨_, Discovery.mem_generatedAmong_iff.2
    ⟨n.text, List.mem_map_of_mem hn, rfl, _, hlevel, rfl⟩, rfl, hlevel⟩

theorem exists_text_eq {levels : List LevelName} {f : ScenarioFile} (hf : f ∈ foundOf levels) :
    ∃ n ∈ levels, f.fileName = n.text := by
  obtain ⟨name, hname, -, level, hlevel, rfl⟩ := Discovery.mem_generatedAmong_iff.1 hf
  obtain ⟨n, hn, rfl⟩ := List.mem_map.1 hname
  exact ⟨n, hn, Discovery.fileName_generatedFile "d" (g := (level, n.text)) hlevel⟩

/-- Two levels that are a hundredth apart. -/
def roundLevels : List LevelName :=
  [levelBelowOne "5" (isDigits_iff.2 rfl) (by decide),
    levelBelowOne "51" (isDigits_iff.2 rfl) (by decide)]

theorem rows_distinguishable_roundLevels :
    Discovery.generated? (filesOf roundLevels) none "d" = some (foundOf roundLevels) ∧
      RunsOf (foundOf roundLevels) (roundLevels.map runOf) ∧
      (∀ f ∈ foundOf roundLevels, ∃ n : LevelName, n.Short ∧ f.fileName = n.text) ∧
      Distinguishable (roundLevels.map runOf) := by
  have hfound : Discovery.generated? (filesOf roundLevels) none "d" = some (foundOf roundLevels) :=
    Discovery.generated?_eq_some_among ⟨_, rfl, by decide +kernel⟩
  have hshort : ∀ f ∈ foundOf roundLevels, ∃ n : LevelName, n.Short ∧ f.fileName = n.text := by
    intro f hf
    obtain ⟨n, hn, htext⟩ := exists_text_eq hf
    have hall : ∀ n ∈ roundLevels, n.fraction.toList.length ≤ 2 := by decide
    exact ⟨n, hall n hn, htext⟩
  exact ⟨hfound, runsOf_map_runOf _, hshort,
    (rows_distinguishable_iff hfound (runsOf_map_runOf roundLevels)).2 hshort⟩

/-- A level of a half and a little more. -/
def closeLevel : LevelName := levelBelowOne "501" (isDigits_iff.2 rfl) (by decide)

/-- Another one in the same hundredth. -/
def closeLevel' : LevelName := levelBelowOne "502" (isDigits_iff.2 rfl) (by decide)

/-- Rows about generated scenarios cannot always be told apart. -/
theorem not_distinguishable_closeLevels :
    ¬∀ (files : Files) (filter : Option String) (directory : String) (found : List ScenarioFile)
      (results : List RunResult), Discovery.generated? files filter directory = some found →
      RunsOf found results → Distinguishable results := by
  intro h
  have hfound : Discovery.generated? (filesOf [closeLevel, closeLevel']) none "d" =
      some (foundOf [closeLevel, closeLevel']) :=
    Discovery.generated?_eq_some_among ⟨_, rfl, by decide +kernel⟩
  have hruns := runsOf_map_runOf [closeLevel, closeLevel']
  have hlevels : ∀ r ∈ [closeLevel, closeLevel'].map runOf, IsUnsigned (levelOf r) :=
    fun r => hruns.isUnsigned hfound
  have hr : runOf closeLevel ∈ [closeLevel, closeLevel'].map runOf := by simp
  have hs : runOf closeLevel' ∈ [closeLevel, closeLevel'].map runOf := by simp
  have hlabel : Level.label (levelOf (runOf closeLevel)) = Level.label (levelOf (runOf closeLevel')) := by
    decide +kernel
  have hne : magnitude (levelOf (runOf closeLevel)) ≠ magnitude (levelOf (runOf closeLevel')) := by
    decide +kernel
  have hsame := (Level.label_eq_iff (hlevels _ hr) (hlevels _ hs)).1 hlabel
  have hdistinct := h _ _ _ _ _ hfound hruns
  exact hne (congrArg magnitude ((distinguishable_iff hlevels).1 hdistinct _ hr _ hs rfl hsame))

end Summary.Generated

end SchedAudit

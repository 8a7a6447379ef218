import Mathlib
import SchedAudit.Discovery
import SchedAudit.Proofs.Discovery.LevelNames
import SchedAudit.Proofs.Sorting

/-!
# Discovery splits a directory

The two discoveries look at the same files, and each file is a scenario of one of them or of none
(`Discovery.Splits`): the names that tell a level are generated, the other `.json` files are
hand-crafted unless they are skipped. That a directory is listed in no set order does not matter
(`discovery_splits`), because both orders tell all files apart:

* hand-crafted scenarios are ordered by names that have lost their ending, which all of them had;
* generated ones by level and name, and a level is never told twice for one name. Levels are read from
  digits, so they are numbers without a sign, and the total order of doubles is the numeric one.
-/

namespace SchedAudit

/-! ## Names of files -/

namespace FileName

variable {part whole : List Char} {fileName : String}

theorem isScenario_iff : isScenario fileName = true ↔ ".json".toList <:+ fileName.toList :=
  List.isSuffixOf_iff_suffix

/-- The ending is all that a name loses. -/
theorem withoutSuffix_append (h : isScenario fileName = true) :
    withoutSuffix fileName ++ ".json" = fileName := by
  obtain ⟨stem, hstem⟩ := isScenario_iff.1 h
  have hdrop : dropSuffix? scenarioSuffix fileName.toList = some stem :=
    dropSuffix?_eq_some_iff.2 hstem.symm
  rw [withoutSuffix, hdrop, ← String.toList_inj, String.toList_append, String.toList_ofList, hstem]

theorem hasPart_iff : hasPart part whole = true ↔ part <:+: whole := by
  induction whole with
  | nil => rw [hasPart, List.isEmpty_iff, List.infix_nil]
  | cons c rest ih =>
    rw [hasPart, Bool.or_eq_true, List.isPrefixOf_iff_prefix, ih, List.infix_cons_iff]

end FileName

theorem Path.join_injective (directory : String) : Function.Injective (Path.join directory) := by
  intro a b h
  rw [join, join] at h
  split at h
  · exact (String.append_right_inj _).1 h
  · exact (String.append_right_inj _).1 h
  · exact (String.append_right_inj _).1 h

namespace Level

variable {fileName : String} {level : Float}

theorem isScenario_of_ofFileName? (h : ofFileName? fileName = some level) :
    FileName.isScenario fileName = true := by
  obtain ⟨n, rfl, -⟩ := ofFileName?_eq_some_iff.1 h
  rw [FileName.isScenario_iff, n.toList_text]
  exact ⟨'u' :: ((n.whole.toList ++ '.' :: n.fraction.toList) ++ '_' :: n.number.toList), rfl⟩

theorem isUnsigned_of_ofFileName? (h : ofFileName? fileName = some level) :
    Binary64.IsUnsigned level := by
  obtain ⟨n, -, rfl⟩ := ofFileName?_eq_some_iff.1 h
  exact Decimal.isUnsigned_nearest _ _

end Level

/-! ## Scenarios and their files -/

/-- The file that a scenario was found in. -/
def ScenarioFile.fileName (s : ScenarioFile) : String := s.name ++ ".json"

theorem ScenarioFile.ext_fileName {s t : ScenarioFile} (hname : s.fileName = t.fileName)
    (hpath : s.path = t.path) (hlevel : s.level = t.level) : s = t := by
  obtain ⟨name, path, level⟩ := s
  obtain ⟨name', path', level'⟩ := t
  obtain rfl : name = name' := (String.append_left_inj _).1 hname
  obtain rfl : path = path' := hpath
  obtain rfl : level = level' := hlevel
  rfl

namespace Discovery

theorem passes_iff {filter : Option String} {fileName : String} :
    passes filter fileName = true ↔ ∀ part ∈ filter, part.toList <:+: fileName.toList := by
  cases filter with
  | none => exact iff_of_true rfl fun part h => absurd h (Option.not_mem_none part)
  | some part =>
    rw [passes, FileName.hasPart_iff]
    constructor
    · rintro h _ ⟨⟩
      exact h
    · exact fun h => h part rfl

/-! ## Hand-crafted scenarios -/

section Handcrafted

variable {settings : Settings} {filter : Option String} {directory fileName : String}
  {names names' : List String}

theorem isHandcrafted_iff : isHandcrafted settings fileName = true ↔
    FileName.isScenario fileName = true ∧ fileName ∉ settings.skipFiles ∧
      Level.ofFileName? fileName = none := by
  rw [isHandcrafted, Settings.isSkipped, Bool.and_eq_true, Bool.and_eq_true, and_assoc,
    Option.isNone_iff_eq_none, Bool.not_eq_true', Bool.eq_false_iff, ne_eq, List.contains_iff_mem]

theorem fileName_handcraftedFile (directory : String)
    (h : isHandcrafted settings fileName = true) :
    (handcraftedFile directory fileName).fileName = fileName :=
  FileName.withoutSuffix_append (isHandcrafted_iff.1 h).1

theorem mem_handcraftedAmong_iff {s : ScenarioFile} :
    s ∈ handcraftedAmong settings filter directory names ↔
      ∃ n ∈ names, isHandcrafted settings n = true ∧ passes filter n = true ∧
        handcraftedFile directory n = s := by
  rw [handcraftedAmong, List.mem_mergeSort, List.mem_map]
  refine exists_congr fun n => ?_
  rw [List.mem_filter, Bool.and_eq_true, and_assoc, and_assoc]

theorem name_le_iff (a b : ScenarioFile) : decide (a.name ≤ b.name) = true ↔ a.name ≤ b.name :=
  decide_eq_true_iff

/-- Names that have lost the same ending are as different as before. -/
theorem handcraftedAmong_eq_of_perm (h : names.Perm names') :
    handcraftedAmong settings filter directory names =
      handcraftedAmong settings filter directory names' := by
  refine mergeSort_eq_of_perm name_le_iff ?_ ((h.filter _).map _)
  intro a ha b hb (hstem : a.name = b.name)
  obtain ⟨n, hn, rfl⟩ := List.mem_map.1 ha
  obtain ⟨m, hm, rfl⟩ := List.mem_map.1 hb
  have hchosen {k : String} (hk : k ∈ names.filter fun n =>
      isHandcrafted settings n && passes filter n) : FileName.isScenario k = true :=
    (isHandcrafted_iff.1 (Bool.and_eq_true_iff.1 (List.mem_filter.1 hk).2).1).1
  have hnames : n = m := calc
    n = FileName.withoutSuffix n ++ ".json" := (FileName.withoutSuffix_append (hchosen hn)).symm
    _ = FileName.withoutSuffix m ++ ".json" := congrArg (· ++ ".json") hstem
    _ = m := FileName.withoutSuffix_append (hchosen hm)
  rw [hnames]

theorem nodup_map_path_handcraftedAmong (h : names.Nodup) :
    ((handcraftedAmong settings filter directory names).map (·.path)).Nodup := by
  rw [handcraftedAmong, ((List.mergeSort_perm _ _).map _).nodup_iff, List.map_map]
  exact (h.filter _).map (Path.join_injective directory)

end Handcrafted

/-! ## Generated scenarios -/

section Generated

variable {filter : Option String} {directory fileName : String} {names names' : List String}
  {a b : GeneratedName}

theorem inOrder_iff : inOrder a b = true ↔
    Binary64.orderKey a.1 < Binary64.orderKey b.1 ∨
      Binary64.orderKey a.1 = Binary64.orderKey b.1 ∧ a.2 ≤ b.2 := by
  rw [inOrder, Bool.or_eq_true, Bool.and_eq_true, decide_eq_true_eq, decide_eq_true_eq, beq_iff_eq]

/-- What generated scenarios are sorted by. -/
def sortKey (g : GeneratedName) : ℤ ×ₗ String := toLex (Binary64.orderKey g.1, g.2)

theorem inOrder_iff_sortKey_le (a b : GeneratedName) :
    inOrder a b = true ↔ sortKey a ≤ sortKey b := by
  rw [inOrder_iff, sortKey, sortKey, Prod.Lex.toLex_le_toLex]

theorem sortKey_injective : Function.Injective sortKey := by
  intro a b h
  obtain ⟨hlevel, hname⟩ := Prod.mk.inj (toLex.injective h)
  exact Prod.ext (Binary64.eq_of_orderKey_eq hlevel) hname

/-- Different names are in strict order once they are sorted. -/
theorem pairwise_mergeSort_inOrder {gs : List GeneratedName} (h : gs.Nodup) :
    (gs.mergeSort inOrder).Pairwise fun a b =>
      Binary64.orderKey a.1 < Binary64.orderKey b.1 ∨ a.1 = b.1 ∧ a.2 < b.2 := by
  refine (pairwise_lt_mergeSort_of_key inOrder_iff_sortKey_le (h.map sortKey_injective)).imp ?_
  intro a b hab
  exact ((Prod.Lex.toLex_lt_toLex).1 hab).imp_right
    fun ⟨hlevel, hname⟩ => ⟨Binary64.eq_of_orderKey_eq hlevel, hname⟩

theorem generatedName?_eq_some_iff {g : GeneratedName} :
    generatedName? fileName = some g ↔ Level.ofFileName? fileName = some g.1 ∧ g.2 = fileName := by
  rw [generatedName?, Option.map_eq_some_iff]
  constructor
  · rintro ⟨level, hlevel, rfl⟩
    exact ⟨hlevel, rfl⟩
  · rintro ⟨hlevel, rfl⟩
    exact ⟨g.1, hlevel, rfl⟩

/-- The names of generated scenarios, each with its level. -/
theorem mem_filterMap_generatedName?_iff {g : GeneratedName} :
    g ∈ (names.filter (passes filter)).filterMap generatedName? ↔
      g.2 ∈ names ∧ passes filter g.2 = true ∧ Level.ofFileName? g.2 = some g.1 := by
  rw [List.mem_filterMap]
  constructor
  · rintro ⟨n, hn, hg⟩
    obtain ⟨hlevel, rfl⟩ := generatedName?_eq_some_iff.1 hg
    exact ⟨(List.mem_filter.1 hn).1, (List.mem_filter.1 hn).2, hlevel⟩
  · rintro ⟨hmem, hpass, hlevel⟩
    exact ⟨g.2, List.mem_filter.2 ⟨hmem, hpass⟩, generatedName?_eq_some_iff.2 ⟨hlevel, rfl⟩⟩

theorem mem_generatedAmong_iff {s : ScenarioFile} :
    s ∈ generatedAmong filter directory names ↔
      ∃ n ∈ names, passes filter n = true ∧
        ∃ level, Level.ofFileName? n = some level ∧ generatedFile directory (level, n) = s := by
  rw [generatedAmong, List.mem_map]
  constructor
  · rintro ⟨g, hg, rfl⟩
    obtain ⟨hmem, hpass, hlevel⟩ :=
      mem_filterMap_generatedName?_iff.1 ((List.mergeSort_perm _ _).mem_iff.1 hg)
    exact ⟨g.2, hmem, hpass, g.1, hlevel, rfl⟩
  · rintro ⟨n, hmem, hpass, level, hlevel, rfl⟩
    refine ⟨(level, n), (List.mergeSort_perm _ _).mem_iff.2 ?_, rfl⟩
    exact mem_filterMap_generatedName?_iff.2 ⟨hmem, hpass, hlevel⟩

theorem fileName_generatedFile (directory : String) {g : GeneratedName}
    (h : Level.ofFileName? g.2 = some g.1) :
    (generatedFile directory g).fileName = g.2 :=
  FileName.withoutSuffix_append (Level.isScenario_of_ofFileName? h)

theorem generatedAmong_eq_of_perm (h : names.Perm names') :
    generatedAmong filter directory names = generatedAmong filter directory names' := by
  rw [generatedAmong, generatedAmong]
  refine congrArg _ (mergeSort_eq_of_perm inOrder_iff_sortKey_le ?_ ((h.filter _).filterMap _))
  exact fun a _ b _ hkey => sortKey_injective hkey

theorem nodup_filterMap_generatedName? (filter : Option String) (h : names.Nodup) :
    ((names.filter (passes filter)).filterMap generatedName?).Nodup := by
  refine (h.filter _).filterMap fun n m g hn hm => ?_
  rw [← (generatedName?_eq_some_iff.1 hn).2, ← (generatedName?_eq_some_iff.1 hm).2]

theorem nodup_map_path_generatedAmong (h : names.Nodup) :
    ((generatedAmong filter directory names).map (·.path)).Nodup := by
  rw [generatedAmong, List.map_map, ((List.mergeSort_perm _ _).map _).nodup_iff]
  refine (nodup_filterMap_generatedName? filter h).map_on fun a ha b hb hpath => ?_
  have hname : a.2 = b.2 := Path.join_injective directory hpath
  have hlevel := (mem_filterMap_generatedName?_iff.1 ha).2.2
  rw [hname, (mem_filterMap_generatedName?_iff.1 hb).2.2] at hlevel
  exact Prod.ext (Option.some.inj hlevel).symm hname

/-- Levels have no sign, so the total order that sorts them is the numeric one. -/
theorem ascending_generatedAmong (h : names.Nodup) :
    (generatedAmong filter directory names).Pairwise fun a b =>
      ∃ la lb, a.level = some la ∧ b.level = some lb ∧
        (la < lb ∨ la = lb ∧ a.fileName < b.fileName) := by
  rw [generatedAmong, List.pairwise_map]
  have hsorted := pairwise_mergeSort_inOrder (nodup_filterMap_generatedName? filter h)
  refine hsorted.imp_of_mem fun {a b} ha hb hab => ?_
  have ha := (mem_filterMap_generatedName?_iff.1 ((List.mergeSort_perm _ _).mem_iff.1 ha)).2.2
  have hb := (mem_filterMap_generatedName?_iff.1 ((List.mergeSort_perm _ _).mem_iff.1 hb)).2.2
  have hunsigned := Level.isUnsigned_of_ofFileName? ha
  refine ⟨a.1, b.1, rfl, rfl, ?_⟩
  rw [fileName_generatedFile directory ha, fileName_generatedFile directory hb,
    hunsigned.lt_iff_orderKey_lt (Level.isUnsigned_of_ofFileName? hb)]
  exact hab

end Generated

/-! ## The split -/

/-- What the two discoveries make of the regular files of a directory. -/
structure Splits (settings : Settings) (filter : Option String) (directory : String)
    (names : List String) (generated handcrafted : List ScenarioFile) : Prop where
  /-- the files whose names tell a level, and pass the filter -/
  generated_iff : ∀ s, s ∈ generated ↔ ∃ n ∈ names,
    (∀ part ∈ filter, part.toList <:+: n.toList) ∧ ∃ level, Level.ofFileName? n = some level ∧
      s.fileName = n ∧ s.path = Path.join directory n ∧ s.level = some level
  /-- the other files with the ending of scenarios, unless they are skipped or filtered out -/
  handcrafted_iff : ∀ s, s ∈ handcrafted ↔ ∃ n ∈ names,
    (∀ part ∈ filter, part.toList <:+: n.toList) ∧ ".json".toList <:+ n.toList ∧
      Level.ofFileName? n = none ∧ n ∉ settings.skipFiles ∧
      s.fileName = n ∧ s.path = Path.join directory n ∧ s.level = none
  /-- no file is taken twice, be it by one discovery or by both -/
  once : ((generated ++ handcrafted).map (·.path)).Nodup
  /-- generated scenarios are in the order of their levels, and of file names within a level -/
  ascending : generated.Pairwise fun a b => ∃ la lb, a.level = some la ∧ b.level = some lb ∧
    (la < lb ∨ la = lb ∧ a.fileName < b.fileName)

/-- A directory that can be listed, and has these regular files beside whatever else is in it. -/
def HasFiles (files : Files) (directory : String) (names : List String) : Prop :=
  ∃ listed, files.names? directory = some listed ∧
    (listed.filter fun n => (files.look (Path.join directory n)).isFile).Perm names

section Split

variable {settings : Settings} {filter : Option String} {directory : String} {names : List String}

theorem nodup_map_path_append (h : names.Nodup) :
    ((generatedAmong filter directory names ++
      handcraftedAmong settings filter directory names).map (·.path)).Nodup := by
  rw [List.map_append, List.nodup_append]
  refine ⟨nodup_map_path_generatedAmong h, nodup_map_path_handcraftedAmong h, ?_⟩
  -- One file for both would tell a level and not tell one.
  rintro _ hpath _ hpath' rfl
  obtain ⟨s, hs, hpath⟩ := List.mem_map.1 hpath
  obtain ⟨s', hs', hpath'⟩ := List.mem_map.1 hpath'
  obtain ⟨n, -, -, level, hlevel, rfl⟩ := mem_generatedAmong_iff.1 hs
  obtain ⟨m, -, hm, -, rfl⟩ := mem_handcraftedAmong_iff.1 hs'
  obtain rfl : n = m := Path.join_injective directory (hpath.trans hpath'.symm)
  rw [(isHandcrafted_iff.1 hm).2.2] at hlevel
  cases hlevel

theorem splits_among (h : names.Nodup) : Splits settings filter directory names
    (generatedAmong filter directory names) (handcraftedAmong settings filter directory names) where
  generated_iff s := by
    rw [mem_generatedAmong_iff]
    constructor
    · rintro ⟨n, hn, hpass, level, hlevel, rfl⟩
      exact ⟨n, hn, passes_iff.1 hpass, level, hlevel,
        fileName_generatedFile directory (g := (level, n)) hlevel, rfl, rfl⟩
    · rintro ⟨n, hn, hpass, level, hlevel, hname, hpath, hs⟩
      refine ⟨n, hn, passes_iff.2 hpass, level, hlevel, ?_⟩
      have hfile := fileName_generatedFile directory (g := (level, n)) hlevel
      exact ScenarioFile.ext_fileName (hfile.trans hname.symm) hpath.symm hs.symm
  handcrafted_iff s := by
    rw [mem_handcraftedAmong_iff]
    constructor
    · rintro ⟨n, hn, hhand, hpass, rfl⟩
      obtain ⟨hending, hskip, hlevel⟩ := isHandcrafted_iff.1 hhand
      exact ⟨n, hn, passes_iff.1 hpass, FileName.isScenario_iff.1 hending, hlevel, hskip,
        fileName_handcraftedFile directory hhand, rfl, rfl⟩
    · rintro ⟨n, hn, hpass, hending, hlevel, hskip, hname, hpath, hs⟩
      have hhand := isHandcrafted_iff.2 ⟨FileName.isScenario_iff.2 hending, hskip, hlevel⟩
      refine ⟨n, hn, hhand, passes_iff.2 hpass, ?_⟩
      have hfile := fileName_handcraftedFile directory hhand
      exact ScenarioFile.ext_fileName (hfile.trans hname.symm) hpath.symm hs.symm
  once := nodup_map_path_append h
  ascending := ascending_generatedAmong h

end Split

/-- **Discovery splits a directory, and the order of listing does not matter.** What is discovered
depends on the names of the regular files alone: whichever file system has them in the directory, and
in whatever order it lists them, the two discoveries return the same two lists. -/
theorem discovery_splits {names : List String} (hdistinct : names.Nodup) (settings : Settings)
    (filter : Option String) (directory : String) :
    ∃ generated handcrafted, Splits settings filter directory names generated handcrafted ∧
      ∀ files, HasFiles files directory names →
        generated? files filter directory = some generated ∧
        handcrafted? files settings filter directory = some handcrafted := by
  refine ⟨_, _, splits_among hdistinct, ?_⟩
  rintro files ⟨listed, hlisted, hperm⟩
  rw [generated?, handcrafted?, regularNames?, hlisted]
  exact ⟨congrArg some (generatedAmong_eq_of_perm hperm),
    congrArg some (handcraftedAmong_eq_of_perm hperm)⟩

/-- Generated and hand-crafted scenarios in one directory, and files that are neither. -/
def mixedNames : List String :=
  ["u1.00_2.json", "b.json", "u.50_1.json", "ex1.json", "u1.00_1.json", "notes.txt", "u1_3.json"]

/-- A file system with these files, and traces in a directory of their own, in a given order. -/
def mixedFiles (listed : List String) : Files :=
  Files.ofSeen (("scenarios/traces", .directory) ::
    mixedNames.map fun n => ("scenarios/" ++ n, .file ByteArray.empty)) [("scenarios", listed)]

theorem discovery_splits_mixedFiles : mixedNames.Nodup ∧
    HasFiles (mixedFiles (mixedNames ++ ["traces"])) "scenarios" mixedNames ∧
    HasFiles (mixedFiles ("traces" :: mixedNames.reverse)) "scenarios" mixedNames ∧
    ∃ generated handcrafted,
      Splits Settings.default (some "1") "scenarios" mixedNames generated handcrafted ∧
      generated? (mixedFiles (mixedNames ++ ["traces"])) (some "1") "scenarios" = some generated ∧
      generated? (mixedFiles ("traces" :: mixedNames.reverse)) (some "1") "scenarios" =
        some generated := by
  have hdistinct : mixedNames.Nodup := by decide
  have hlisted : HasFiles (mixedFiles (mixedNames ++ ["traces"])) "scenarios" mixedNames :=
    ⟨_, rfl, by decide +kernel⟩
  have hreversed : HasFiles (mixedFiles ("traces" :: mixedNames.reverse)) "scenarios" mixedNames :=
    ⟨_, rfl, by decide +kernel⟩
  obtain ⟨generated, handcrafted, hsplits, hreturns⟩ :=
    discovery_splits hdistinct Settings.default (some "1") "scenarios"
  exact ⟨hdistinct, hlisted, hreversed, generated, handcrafted, hsplits, (hreturns _ hlisted).1,
    (hreturns _ hreversed).1⟩

end Discovery

end SchedAudit

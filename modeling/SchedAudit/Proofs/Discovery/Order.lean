import Mathlib
import SchedAudit.Discovery
import SchedAudit.Proofs.Discovery.Partition
import SchedAudit.Proofs.Text.Bytes

/-!
# The order of hand-crafted scenarios

Hand-crafted scenarios are sorted by name, and a name is what is left of a file name without its
ending. So they ascend strictly in their names, as bytes compare (`handcrafted_ascending_iff`). In the
names of their *files* they need not ascend: `a.json` is found before `a-b.json`, though a dash stands
before a point. Two names decide alike with and without the ending unless one begins with the other
(`append_lt_append_or`); then what goes on after the shorter name has to stand after the ending, and
where it does not, one scenario overtakes the other (`ScenarioFile.Overtakes`). Nothing else can
disturb the order of the files.
-/

namespace SchedAudit

/-! ## Texts with one ending -/

section Ending

variable {s t : String}

theorem append_lt_append_left_iff (s : String) {x y : String} : s ++ x < s ++ y ↔ x < y := by
  have hmono {a b : String} (h : a < b) : s ++ a < s ++ b := by
    rw [String.lt_iff, String.toList_append, String.toList_append]
    exact List.append_left_lt (String.lt_iff.1 h)
  refine ⟨fun h => ?_, hmono⟩
  rcases lt_trichotomy x y with hlt | rfl | hgt
  · exact hlt
  · exact absurd h (lt_irrefl _)
  · exact absurd h (lt_asymm (hmono hgt))

theorem exists_append_or_append_lt {cs ds : List Char} (h : cs < ds) :
    (∃ rest, ds = cs ++ rest) ∨ ∀ x y, cs ++ x < ds ++ y := by
  induction cs generalizing ds with
  | nil => exact .inl ⟨ds, rfl⟩
  | cons c cs ih =>
    cases ds with
    | nil => exact absurd h (List.not_lt_nil _)
    | cons d ds =>
      rcases List.cons_lt_cons_iff.1 h with hlt | ⟨rfl, hrest⟩
      · exact .inr fun x y => List.cons_lt_cons_iff.2 (.inl hlt)
      · rcases ih hrest with ⟨rest, rfl⟩ | hbefore
        · exact .inl ⟨rest, rfl⟩
        · exact .inr fun x y => List.cons_lt_cons_iff.2 (.inr ⟨rfl, hbefore x y⟩)

/-- Of two texts the smaller one begins the other, or it stays the smaller one with any ending. -/
theorem append_lt_append_or (ending : String) (h : s < t) :
    (∃ rest, t = s ++ rest) ∨ s ++ ending < t ++ ending := by
  rcases exists_append_or_append_lt (String.lt_iff.1 h) with ⟨rest, hrest⟩ | hbefore
  · refine .inl ⟨String.ofList rest, ?_⟩
    rw [← String.toList_inj, String.toList_append, String.toList_ofList, hrest]
  · refine .inr (String.lt_iff.2 ?_)
    rw [String.toList_append, String.toList_append]
    exact hbefore _ _

end Ending

/-! ## Names of scenarios and of their files -/

namespace ScenarioFile

variable {s t : ScenarioFile}

/-- The name of the second scenario goes on from that of the first one, with something that stands
before the ending of files. -/
def Overtakes (s t : ScenarioFile) : Prop :=
  ∃ rest, t.name = s.name ++ rest ∧ Utf8.encode (rest ++ ".json") < Utf8.encode ".json"

/-- Scenarios in the strict order of the bytes of a text. -/
def AscendingBy (key : ScenarioFile → String) (found : List ScenarioFile) : Prop :=
  found.Pairwise fun s t => Utf8.encode (key s) < Utf8.encode (key t)

theorem ascendingBy_iff {key : ScenarioFile → String} {found : List ScenarioFile} :
    AscendingBy key found ↔ found.Pairwise fun s t => key s < key t := by
  simp only [AscendingBy, Utf8.lt_iff_encode_lt]

theorem Overtakes.name_lt (h : s.Overtakes t) : s.name < t.name := by
  obtain ⟨rest, hname, hrest⟩ := h
  have hne : rest ≠ "" := by
    rintro rfl
    exact lt_irrefl _ (Utf8.lt_iff_encode_lt.2 hrest)
  have hpos : "" < rest :=
    lt_of_le_of_ne (not_lt.1 fun hlt => List.not_lt_nil _ (String.lt_iff.1 hlt)) hne.symm
  rw [hname]
  simpa using (append_lt_append_left_iff s.name).2 hpos

theorem Overtakes.fileName_lt (h : s.Overtakes t) : t.fileName < s.fileName := by
  obtain ⟨rest, hname, hrest⟩ := h
  rw [fileName, fileName, hname, String.append_assoc, append_lt_append_left_iff]
  exact Utf8.lt_iff_encode_lt.2 hrest

/-- Files are in the order of their scenarios, unless one overtakes another. -/
theorem fileName_lt_of_not_overtakes (hlt : s.name < t.name) (h : ¬s.Overtakes t) :
    s.fileName < t.fileName := by
  rcases append_lt_append_or ".json" hlt with ⟨rest, hname⟩ | hbefore
  · have hle : ".json" ≤ rest ++ ".json" := not_lt.1 fun hrest =>
      h ⟨rest, hname, Utf8.lt_iff_encode_lt.1 hrest⟩
    have hne : ".json" ≠ rest ++ ".json" := by
      intro hjson
      have hempty : rest = "" := (String.append_left_inj ".json").1 (by rw [← hjson]; rfl)
      rw [hname, hempty, String.append_empty] at hlt
      exact lt_irrefl _ hlt
    rw [fileName, fileName, hname, String.append_assoc, append_lt_append_left_iff]
    exact hle.lt_of_ne hne
  · exact hbefore

/-- Scenarios in the order of their names are in the order of their files just in case none overtakes
another. -/
theorem ascendingBy_fileName_iff {found : List ScenarioFile} (h : AscendingBy name found) :
    AscendingBy fileName found ↔ ∀ s ∈ found, ∀ t ∈ found, ¬s.Overtakes t := by
  rw [ascendingBy_iff] at h ⊢
  constructor
  · intro hfiles s hs t ht hover
    obtain ⟨i, hi, rfl⟩ := List.getElem_of_mem hs
    obtain ⟨j, hj, rfl⟩ := List.getElem_of_mem ht
    rw [List.pairwise_iff_getElem] at h hfiles
    -- By the names the first one stands first in the list, by the files the second one does.
    rcases lt_trichotomy i j with hij | rfl | hij
    · exact lt_asymm hover.fileName_lt (hfiles i j hi hj hij)
    · exact lt_irrefl _ hover.name_lt
    · exact lt_asymm hover.name_lt (h j i hj hi hij)
  · intro hnone
    exact h.imp_of_mem fun hs ht hlt => fileName_lt_of_not_overtakes hlt (hnone _ hs _ ht)

end ScenarioFile

/-! ## What is found -/

namespace Discovery

variable {files : Files} {settings : Settings} {filter : Option String} {directory : String}
  {names : List String}

/-- The files of the scenarios are those that were chosen. -/
theorem map_fileName_handcraftedAmong_perm :
    ((handcraftedAmong settings filter directory names).map (·.fileName)).Perm
      (names.filter fun n => isHandcrafted settings n && passes filter n) := by
  refine ((List.mergeSort_perm _ _).map _).trans (List.Perm.of_eq ?_)
  rw [List.map_map]
  refine (List.map_congr_left fun n hn => ?_).trans (List.map_id _)
  exact fileName_handcraftedFile directory (Bool.and_eq_true_iff.1 (List.mem_filter.1 hn).2).1

theorem ascendingBy_name_handcraftedAmong (h : names.Nodup) :
    ScenarioFile.AscendingBy (·.name) (handcraftedAmong settings filter directory names) := by
  rw [ScenarioFile.ascendingBy_iff, handcraftedAmong]
  refine pairwise_lt_mergeSort_of_key name_le_iff ?_
  have hfiles : ((handcraftedAmong settings filter directory names).map (·.fileName)).Nodup :=
    map_fileName_handcraftedAmong_perm.nodup_iff.2 (h.filter _)
  rw [handcraftedAmong, ((List.mergeSort_perm _ _).map _).nodup_iff] at hfiles
  refine List.Nodup.of_map (· ++ ".json") ?_
  rw [List.map_map]
  exact hfiles

/-- Every scenario lies in the file that its name and path tell. -/
theorem fileName_mem_of_mem_handcraftedAmong {s : ScenarioFile}
    (h : s ∈ handcraftedAmong settings filter directory names) :
    s.fileName ∈ names ∧ s.path = Path.join directory s.fileName := by
  obtain ⟨n, hn, hhand, -, rfl⟩ := mem_handcraftedAmong_iff.1 h
  rw [fileName_handcraftedFile directory hhand]
  exact ⟨hn, rfl⟩

theorem handcrafted?_eq_some_among (h : HasFiles files directory names) :
    handcrafted? files settings filter directory =
      some (handcraftedAmong settings filter directory names) := by
  obtain ⟨listed, hlisted, hperm⟩ := h
  rw [handcrafted?, regularNames?, hlisted]
  exact congrArg some (handcraftedAmong_eq_of_perm hperm)

/-- **The order of hand-crafted scenarios.** They ascend strictly in the bytes of their names. In the
bytes of the names of their files they ascend if and only if none overtakes another. -/
theorem handcrafted_ascending_iff (hdistinct : names.Nodup)
    (hfiles : HasFiles files directory names) (settings : Settings) (filter : Option String) :
    ∃ found, handcrafted? files settings filter directory = some found ∧
      (∀ s ∈ found, s.fileName ∈ names ∧ s.path = Path.join directory s.fileName) ∧
      ScenarioFile.AscendingBy (·.name) found ∧
      (ScenarioFile.AscendingBy (·.fileName) found ↔
        ∀ s ∈ found, ∀ t ∈ found, ¬s.Overtakes t) := by
  have hnames : ScenarioFile.AscendingBy (·.name)
      (handcraftedAmong settings filter directory names) :=
    ascendingBy_name_handcraftedAmong hdistinct
  exact ⟨_, handcrafted?_eq_some_among hfiles, fun s => fileName_mem_of_mem_handcraftedAmong, hnames,
    ScenarioFile.ascendingBy_fileName_iff hnames⟩

/-- Two files, one of which goes on with a dash where the other one ends. -/
def dashedNames : List String := ["a.json", "a-b.json"]

/-- A file system that has them in its only directory. -/
def dashedFiles : Files :=
  Files.ofSeen (dashedNames.map fun n => ("d/" ++ n, .file ByteArray.empty)) [("d", dashedNames)]

theorem hasFiles_dashedFiles : HasFiles dashedFiles "d" dashedNames :=
  ⟨_, rfl, by decide +kernel⟩

theorem handcrafted_ascending_dashedFiles :
    let a : ScenarioFile := ⟨"a", "d/a.json", none⟩
    let b : ScenarioFile := ⟨"a-b", "d/a-b.json", none⟩
    dashedNames.Nodup ∧ HasFiles dashedFiles "d" dashedNames ∧
      handcrafted? dashedFiles Settings.default none "d" = some [a, b] ∧
      ScenarioFile.AscendingBy (·.name) [a, b] ∧ a.Overtakes b ∧
      ¬ScenarioFile.AscendingBy (·.fileName) [a, b] := by
  intro a b
  have hdistinct : dashedNames.Nodup := by decide
  have hfound : handcrafted? dashedFiles Settings.default none "d" = some [a, b] := by cbv
  obtain ⟨found, hfound', -, hnames, hfiles⟩ :=
    handcrafted_ascending_iff hdistinct hasFiles_dashedFiles Settings.default none
  obtain rfl := Option.some.inj (hfound.symm.trans hfound')
  have hovertakes : a.Overtakes b := ⟨"-b", by decide +kernel, by decide +kernel⟩
  refine ⟨hdistinct, hasFiles_dashedFiles, hfound, hnames, hovertakes, fun hascending => ?_⟩
  exact hfiles.1 hascending a (by simp) b (by simp) hovertakes

/-- Hand-crafted scenarios are not always in the order of their files. -/
theorem not_ascending_dashedFiles :
    ¬∀ (files : Files) (settings : Settings) (filter : Option String) (directory : String)
      (names : List String) (found : List ScenarioFile), names.Nodup →
      HasFiles files directory names →
      handcrafted? files settings filter directory = some found →
      ScenarioFile.AscendingBy (·.fileName) found := by
  intro h
  have hascending := h dashedFiles Settings.default none "d" dashedNames _ (by decide)
    hasFiles_dashedFiles (handcrafted?_eq_some_among hasFiles_dashedFiles)
  have hmem {n : String} (hn : n ∈ dashedNames)
      (hhand : isHandcrafted Settings.default n = true) :
      handcraftedFile "d" n ∈ handcraftedAmong Settings.default none "d" dashedNames :=
    mem_handcraftedAmong_iff.2 ⟨n, hn, hhand, rfl, rfl⟩
  have hnone := (ScenarioFile.ascendingBy_fileName_iff
    (ascendingBy_name_handcraftedAmong (by decide))).1 hascending
  exact hnone _ (hmem (n := "a.json") (by decide) (by decide +kernel)) _
    (hmem (n := "a-b.json") (by decide) (by decide +kernel))
    ⟨"-b", by decide +kernel, by decide +kernel⟩

end Discovery

end SchedAudit

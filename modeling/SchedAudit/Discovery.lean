import SchedAudit.Binary64
import SchedAudit.Files.Tree
import SchedAudit.Level
import SchedAudit.Settings

/-!
# Discovery of scenarios

The scenarios of a batch are files of one directory. Generated scenarios are those whose names tell
a utilization level; hand-crafted ones are the other `.json` files, save those that the settings
skip. Either kind may be narrowed to the names that contain a given text.

A discovery is a choice from the names of the regular files of the directory, put into an order that
depends on the names alone: so it does not matter in which order the directory lists them.
-/

namespace SchedAudit

/-- A scenario file chosen for a batch. -/
structure ScenarioFile where
  /-- the name of the scenario, which is the name of the file without its ending -/
  name : String
  /-- where the file is -/
  path : String
  /-- the utilization level of a generated scenario -/
  level : Option Float

namespace Discovery

/-- The names of the regular files directly in a directory, links to files among them. -/
def regularNames? (files : Files) (directory : String) : Option (List String) :=
  (files.names? directory).map fun names =>
    names.filter fun name => (files.look (Path.join directory name)).isFile

/-- Whether a name passes a filter. -/
def passes (filter : Option String) (fileName : String) : Bool :=
  match filter with
  | none => true
  | some part => FileName.hasPart part.toList fileName.toList

/-! ## Hand-crafted scenarios -/

/-- Whether a file is a hand-crafted scenario. -/
def isHandcrafted (settings : Settings) (fileName : String) : Bool :=
  FileName.isScenario fileName && !settings.isSkipped fileName &&
    (Level.ofFileName? fileName).isNone

/-- A hand-crafted scenario file. -/
def handcraftedFile (directory fileName : String) : ScenarioFile where
  name := FileName.withoutSuffix fileName
  path := Path.join directory fileName
  level := none

/-- The hand-crafted scenarios among the files of a directory, by name. -/
def handcraftedAmong (settings : Settings) (filter : Option String) (directory : String)
    (fileNames : List String) : List ScenarioFile :=
  let chosen := fileNames.filter fun n => isHandcrafted settings n && passes filter n
  (chosen.map (handcraftedFile directory)).mergeSort fun a b => a.name ≤ b.name

/-- The hand-crafted scenarios in a directory, unless it cannot be listed. -/
def handcrafted? (files : Files) (settings : Settings) (filter : Option String)
    (directory : String) : Option (List ScenarioFile) :=
  (regularNames? files directory).map (handcraftedAmong settings filter directory)

/-! ## Generated scenarios -/

/-- A generated scenario: its level, and the name of its file. -/
abbrev GeneratedName := Float × String

/-- The order of generated scenarios: by level, and by file name within a level. -/
def inOrder (a b : GeneratedName) : Bool :=
  let (ka, kb) := (Binary64.orderKey a.1, Binary64.orderKey b.1)
  decide (ka < kb) || (ka == kb && decide (a.2 ≤ b.2))

/-- A generated scenario file. -/
def generatedFile (directory : String) (g : GeneratedName) : ScenarioFile where
  name := FileName.withoutSuffix g.2
  path := Path.join directory g.2
  level := some g.1

/-- The level in the name of a file, beside the name. -/
def generatedName? (fileName : String) : Option GeneratedName :=
  (Level.ofFileName? fileName).map fun level => (level, fileName)

/-- The generated scenarios among the files of a directory, by level and name. -/
def generatedAmong (filter : Option String) (directory : String) (fileNames : List String) :
    List ScenarioFile :=
  let chosen := (fileNames.filter (passes filter)).filterMap generatedName?
  (chosen.mergeSort inOrder).map (generatedFile directory)

/-- The generated scenarios in a directory, unless it cannot be listed. -/
def generated? (files : Files) (filter : Option String) (directory : String) :
    Option (List ScenarioFile) :=
  (regularNames? files directory).map (generatedAmong filter directory)

end Discovery

end SchedAudit

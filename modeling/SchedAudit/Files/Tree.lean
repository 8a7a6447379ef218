import SchedAudit.Files.Found
import SchedAudit.Files.Path

/-!
# Trees of files

`Files` is all that a batch of runs asks of a file system: what stands at a path, and which names a
directory holds. `FileTree` answers these questions from a list of what there is, with links that
are followed on the way.
-/

namespace SchedAudit

/-- What can be asked of a file system. -/
structure Files where
  /-- what stands at a path -/
  look : String → Found true
  /-- the names in the directory at a path, in no set order, or `none` where there is none -/
  names? : String → Option (List String)

/-- The file system that was seen: what stood at some paths, and the names in some directories. -/
def Files.ofSeen (looked : List (String × Found true)) (listed : List (String × List String)) :
    Files where
  look path := (looked.lookup path).getD .nothing
  names? path := listed.lookup path

/-- Something in a tree of files. -/
inductive FileNode where
  | file (content : ByteArray)
  /-- a file that cannot be read -/
  | sealed
  | directory
  /-- another name for a path, which counts from the root of the tree -/
  | link (target : List String)
  /-- a file that can be started, with a name by which it is known what it does then -/
  | program (name : String)

/-- A tree of files: what stands at which steps from its root. The directories on the way to a node
need not be listed. -/
structure FileTree where
  nodes : List (List String × FileNode)

namespace FileTree

variable (t : FileTree)

/-- The name that a node has directly below some steps, if it lies below them at all. -/
def nameBelow? : (steps node : List String) → Option String
  | [], name :: _ => some name
  | [], [] => none
  | step :: steps, name :: node => if step = name then nameBelow? steps node else none
  | _ :: _, [] => none

/-- What stands at some steps, links not followed. -/
def node? (steps : List String) : Option FileNode :=
  match t.nodes.lookup steps with
  | some node => some node
  | none =>
    if steps = [] ∨ t.nodes.any fun n => (nameBelow? steps n.1).isSome then some .directory
    else none

/-- Takes steps from a place that they have led to so far, and follows at most `links` links. The
result is where the steps lead, and what is there. Only from a directory can a step be taken, be it
one that stays there. -/
def walk (links : Nat) (here : List String) (steps : List String) :
    Option (List String × FileNode) :=
  match t.node? here, links, steps with
  | none, _, _ => none
  | some (.link target), links + 1, steps => walk links [] (target ++ steps)
  | some (.link _), 0, _ => none
  | some node, _, [] => some (here, node)
  | some .directory, links, step :: steps =>
    if step = "" ∨ step = "." then walk links here steps
    else if step = ".." then
      if here = [] then none else walk links here.dropLast steps
    else walk links (here ++ [step]) steps
  | some _, _, _ :: _ => none
termination_by (links, steps.length)

/-- How many links are followed on the way to a file. -/
def maxLinks : Nat := 40

/-- Where a path leads, and what is there. A path from the root of all files leads nowhere. -/
def resolve? (path : String) : Option (List String × FileNode) :=
  match Path.steps path with
  | [""] => none
  | "" :: _ => none
  | steps => t.walk maxLinks [] steps

/-- What stands at a path. -/
def look (path : String) : Found true :=
  match t.resolve? path with
  | none | some (_, .link _) => .nothing
  | some (_, .directory) => .directory
  | some (_, .file content) => .file content
  | some (_, .sealed) => .sealed
  | some (_, .program _) => .file ByteArray.empty

/-- The names in the directory at a path. -/
def names? (path : String) : Option (List String) :=
  match t.resolve? path with
  | some (place, .directory) => some (t.nodes.filterMap fun n => nameBelow? place n.1).eraseDups
  | _ => none

/-- The name by which the program is known that is called by a text. A text without a slash does not
call a program of the tree, but one that would be installed beside it. -/
def programAt? (text : String) : Option String :=
  match Path.hasSlash text, t.resolve? text with
  | true, some (_, .program name) => some name
  | _, _ => none

/-- The tree as a file system. -/
def files : Files := ⟨t.look, t.names?⟩

end FileTree

end SchedAudit

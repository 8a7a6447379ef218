/-!
# What stands at a path

A file is read as a whole and as UTF-8 text. `Found` is what a look at a path brings, and
`Found.text` is its text or the reason why there is none.

To be there and to be readable are two things. What is handed over as data can be read, if there is
anything to read at all; but a file system guards its files, and a regular file may be kept from whoever
asks. So the type of what is found tells whether it was found under guard.
-/

namespace SchedAudit

/-- What stands at a path, links followed. Where it is `guarded`, as in a file system, a file may be
kept from being read. -/
inductive Found : (guarded : Bool := false) → Type where
  /-- no file, or a link that leads nowhere -/
  | nothing {guarded : Bool} : Found guarded
  | directory {guarded : Bool} : Found guarded
  /-- a regular file that can be read -/
  | file {guarded : Bool} (content : ByteArray) : Found guarded
  /-- a regular file that cannot be read -/
  | sealed : Found true

/-- Why a path cannot be read as a text. -/
inductive Unreadable where
  | missing
  | isDirectory
  | denied
  | notText
deriving Repr, DecidableEq

namespace Unreadable

/-- The reason in words. -/
def message : Unreadable → String
  | .missing => "no such file"
  | .isDirectory => "is a directory"
  | .denied => "permission denied"
  | .notText => "is not UTF-8 text"

end Unreadable

namespace Found

variable {guarded : Bool}

/-- The content of a file. -/
def content : Found guarded → Except Unreadable ByteArray
  | .nothing => .error .missing
  | .directory => .error .isDirectory
  | .file content => .ok content
  | .sealed => .error .denied

/-- The text of a file. -/
def text (found : Found guarded) : Except Unreadable String :=
  match found.content with
  | .error reason => .error reason
  | .ok content =>
    match String.fromUTF8? content with
    | some s => .ok s
    | none => .error .notText

/-- A file that a text was written to is read as that text. -/
@[simp]
theorem text_toUTF8 (s : String) : (file s.toUTF8 : Found guarded).text = .ok s := by
  have h : String.fromUTF8? s.toUTF8 = some s := by
    simp only [String.fromUTF8?, String.toUTF8_eq_toByteArray, dif_pos s.isValidUTF8]
    rfl
  simp only [text, content, h]

/-- Whether a regular file stands there. -/
def isFile : Found guarded → Bool
  | .file _ | .sealed => true
  | .nothing | .directory => false

/-- Whether a directory stands there. -/
def isDirectory : Found guarded → Bool
  | .directory => true
  | .nothing | .file _ | .sealed => false

end Found

/-- Why a platform or a task set cannot be loaded from a path. -/
inductive LoadError where
  /-- there is no text at the path -/
  | unreadable (path : String) (reason : Unreadable)
  /-- the text has not the form of what is loaded -/
  | malformed (path : String)
  /-- a platform without any cluster has no reference to normalise speeds against -/
  | emptyPlatform (path : String)
  /-- the cluster of this index has no operating frequency -/
  | noFrequencies (path : String) (cluster : Nat)
deriving Repr, DecidableEq

/-- The error in words. -/
def LoadError.message : LoadError → String
  | .unreadable path reason => s!"cannot read {path}: {reason.message}"
  | .malformed path => s!"failed to parse {path}"
  | .emptyPlatform path => s!"platform {path} declares no cluster"
  | .noFrequencies path cluster => s!"cluster {cluster} in {path} declares no operating frequency"

/-- Reads the text at a path. -/
def Found.textAt {guarded : Bool} (path : String) (found : Found guarded) :
    Except LoadError String :=
  match found.text with
  | .ok s => .ok s
  | .error reason => .error (.unreadable path reason)

end SchedAudit

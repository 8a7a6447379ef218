/-!
# Paths

A path is a text: names with slashes between them. Only these parts of a path matter here, and they
are cut from its text: the name at its end, the stem of that name, and what stands in front of it.
-/

namespace SchedAudit.Path

/-- The path of a name in a directory. -/
def join (directory name : String) : String :=
  match directory.toList.getLast? with
  | none | some '/' => directory ++ name
  | some _ => directory ++ "/" ++ name

/-- The last name of a path. -/
def lastName (path : String) : List Char :=
  (path.toList.reverse.takeWhile (· != '/')).reverse

/-- A path in the place of the last name of another, so relative to the same directory. -/
def beside (path other : String) : String :=
  String.ofList (path.toList.reverse.dropWhile (· != '/')).reverse ++ other

/-- The last name of a path without its extension. A point at the beginning of a name does not set
off an extension. -/
def stem (path : String) : String :=
  let name := lastName path
  match name.reverse.dropWhile (· != '.') with
  | [] | [_] => String.ofList name
  | _ :: before => String.ofList before.reverse

/-- The texts between the slashes of a text. There is always one more than there are slashes. -/
def segments : List Char → List (List Char)
  | [] => [[]]
  | c :: rest =>
    match c, segments rest with
    | '/', parts => [] :: parts
    | _, [] => [[c]]
    | _, part :: parts => (c :: part) :: parts

/-- The steps of a path. -/
def steps (path : String) : List String := (segments path.toList).map String.ofList

/-- Whether a path is more than a name. -/
def hasSlash (path : String) : Bool := path.toList.contains '/'

end SchedAudit.Path

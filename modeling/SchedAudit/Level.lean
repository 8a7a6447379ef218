import SchedAudit.Decimal.Fixed
import SchedAudit.Decimal.Reading

/-!
# Utilization levels in file names

A generated scenario is named after the total utilization that its generator aimed at:
`u<level>_<number>.json`, as in `u.50_1.json` or `u1.00_3.json`. `Level.ofFileName?` recognises such
names, and `Level.label` is how a level is shown.
-/

namespace SchedAudit

namespace FileName

/-- What stands in front of a suffix. -/
def dropSuffix? (suffix chars : List Char) : Option (List Char) :=
  if suffix.isSuffixOf chars then some (chars.take (chars.length - suffix.length)) else none

/-- What stands in front of and behind the first occurrence of a character. -/
def splitOnce? (mark : Char) (chars : List Char) : Option (List Char × List Char) :=
  match chars.dropWhile (· != mark) with
  | [] => none
  | _ :: rest => some (chars.takeWhile (· != mark), rest)

/-- The ending of scenario files. -/
def scenarioSuffix : List Char := ['.', 'j', 's', 'o', 'n']

/-- Whether a file has the ending of scenario files. -/
def isScenario (fileName : String) : Bool := scenarioSuffix.isSuffixOf fileName.toList

/-- A file name without the ending of scenario files. -/
def withoutSuffix (fileName : String) : String :=
  match dropSuffix? scenarioSuffix fileName.toList with
  | some stem => String.ofList stem
  | none => fileName

/-- Whether `part` occurs in `whole`. -/
def hasPart (part : List Char) : List Char → Bool
  | [] => part.isEmpty
  | c :: rest => part.isPrefixOf (c :: rest) || hasPart part rest

end FileName

namespace Level

/-- The level in the name of a generated scenario: `u`, digits which may be missing, a point,
digits, an underscore, digits, `.json`. -/
def ofFileName? (fileName : String) : Option Float := do
  let 'u' :: rest := fileName.toList | none
  let stem ← FileName.dropSuffix? FileName.scenarioSuffix rest
  let (level, number) ← FileName.splitOnce? '_' stem
  let (whole, fraction) ← FileName.splitOnce? '.' level
  if number.isEmpty ∨ !number.all Char.isDigit ∨ fraction.isEmpty ∨ !fraction.all Char.isDigit ∨
      !whole.all Char.isDigit then none
  else return Decimal.nearestPointed whole fraction

/-- A level as summaries show it. -/
def label (level : Float) : String := "U=" ++ Decimal.fixed 2 level

end Level

end SchedAudit

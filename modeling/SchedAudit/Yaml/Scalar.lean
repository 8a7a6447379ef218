import SchedAudit.Json.Token

/-!
# YAML scalars

Settings are written in YAML. This module reads its single values; `Yaml/Token.lean` finds where
they start, and `Yaml/Node.lean` puts them together.

* A **plain** scalar ends at an indicator, a comment or a line that is not indented enough.
* A **quoted** scalar ends at its quotation mark. The double one knows escapes.
* A **block** scalar ends at the first line that is indented less than its own first line.

Plain and quoted scalars may go over several lines, whose breaks are *folded*: `Piece.fold` turns
one break into a blank, and of several all but the first are kept.

Line breaks come in several spellings; `normaliseBreaks` leaves the line feed and the two separators
of Unicode, of which only the line feed is folded.
-/

namespace SchedAudit.Yaml

/-! ## Characters -/

/-- Whether a character may stand in a file at all. -/
def isPrintable (c : Char) : Bool :=
  let n := c.toNat
  n == 0x09 || n == 0x0A || n == 0x0D || (0x20 ≤ n && n ≤ 0x7E) || n == 0x85 ||
    (0xA0 ≤ n && n ≤ 0xD7FF) || (0xE000 ≤ n && n ≤ 0xFFFD) || 0x10000 ≤ n

/-- Spells each line break with one character: a carriage return, with or without a line feed, and
the next-line character become a line feed. -/
def normaliseBreaks : List Char → List Char
  | [] => []
  | '\r' :: '\n' :: rest => '\n' :: normaliseBreaks rest
  | c :: rest => (if c = '\r' ∨ c = '\u0085' then '\n' else c) :: normaliseBreaks rest

/-- A blank within a line. -/
def isBlank (c : Char) : Bool := c == ' ' || c == '\t'

/-- A line break. -/
def isBreak (c : Char) : Bool := c == '\n' || c == '\u2028' || c == '\u2029'

/-- Whether a blank, a line break or the end comes next. -/
def blankNext : List Char → Bool
  | [] => true
  | c :: _ => isBlank c || isBreak c

/-- The characters of names: anchors, directives and tag handles. -/
def isNameChar (c : Char) : Bool := c.isAlphanum || c == '_' || c == '-'

/-- Whether three equal characters and a blank come next. -/
def markNext (mark : Char) : List Char → Bool
  | a :: b :: c :: rest => a == mark && b == mark && c == mark && blankNext rest
  | _ => false

/-- Whether a line that starts here is the mark of a start or an end of a document. -/
def documentMarkNext (chars : List Char) : Bool := markNext '-' chars || markNext '.' chars

/-! ## Folding -/

/-- One element of a plain or quoted scalar as it is written. -/
inductive Piece where
  /-- a character of its text -/
  | char (c : Char)
  /-- a blank -/
  | blank (c : Char)
  /-- a line break -/
  | lineBreak (c : Char)
  /-- a line break that is escaped, and so no text at all -/
  | joined
deriving Repr, DecidableEq

/-- Whether a piece ends a line. -/
def Piece.endsLine : Piece → Bool
  | .lineBreak _ | .joined => true
  | _ => false

/-- Blanks and line breaks between two characters: the blanks, last first, and once a line has ended
the break that ended it (none if it was escaped) with the further breaks, last first. -/
structure Gap where
  /-- blanks before the first line break, last first -/
  blanks : List Char := []
  /-- the line breaks -/
  breaks : Option (Option Char × List Char) := none

/-- The text of a gap. -/
def Gap.text (g : Gap) : List Char :=
  match g.breaks with
  | none => g.blanks.reverse
  | some (some '\n', []) => [' ']
  | some (some '\n', more) => more.reverse
  | some (some c, more) => c :: more.reverse
  | some (none, more) => more.reverse

/-- The text of pieces that follow a gap. -/
def Piece.foldAfter (g : Gap) : List Piece → List Char
  | [] => g.text
  | .char c :: rest => g.text ++ c :: foldAfter {} rest
  | .blank c :: rest =>
    foldAfter (if g.breaks.isNone then { g with blanks := c :: g.blanks } else g) rest
  | .lineBreak c :: rest =>
    match g.breaks with
    | none => foldAfter { g with breaks := some (some c, []) } rest
    | some (first, more) => foldAfter { g with breaks := some (first, c :: more) } rest
  | .joined :: rest => g.text ++ foldAfter { breaks := some (none, []) } rest

/-- The text of a plain or quoted scalar. -/
def Piece.fold (pieces : List Piece) : List Char := foldAfter {} pieces

/-! ## Quoted scalars -/

/-- Reads up to the closing mark of a single-quoted scalar, where the mark itself is written twice.
`quoteSeen` tells that the last character was the mark, `lineStart` that a line begins. The answer
is the pieces and what follows. -/
def singleQuoted (quoteSeen lineStart : Bool) : List Char → Option (List Piece × List Char)
  | [] => if quoteSeen then some ([], []) else none
  | c :: rest =>
    if c = '\'' then
      if quoteSeen then (singleQuoted false false rest).map fun (ps, r) => (.char c :: ps, r)
      else singleQuoted true false rest
    else if quoteSeen then some ([], c :: rest)
    else if lineStart && documentMarkNext (c :: rest) then none
    else
      let piece := if isBlank c then .blank c else if isBreak c then .lineBreak c else .char c
      (singleQuoted false (isBreak c) rest).map fun (ps, r) => (piece :: ps, r)

/-- The character behind an escape of one letter. -/
def escaped? : Char → Option Char
  | '0' => some '\x00'
  | 'a' => some '\x07'
  | 'b' => some '\x08'
  | 't' => some '\t'
  | '\t' => some '\t'
  | 'n' => some '\n'
  | 'v' => some '\x0b'
  | 'f' => some '\x0c'
  | 'r' => some '\r'
  | 'e' => some '\x1b'
  | ' ' => some ' '
  | '"' => some '"'
  | '/' => some '/'
  | '\\' => some '\\'
  | 'N' => some '\u0085'
  | '_' => some '\u00a0'
  | 'L' => some '\u2028'
  | 'P' => some '\u2029'
  | _ => none

/-- How many hexadecimal digits follow the letter of an escape. -/
def hexLength? : Char → Option Nat
  | 'x' => some 2
  | 'u' => some 4
  | 'U' => some 8
  | _ => none

/-- Where the reading of a double-quoted scalar stands. -/
inductive QuotePlace where
  | text
  /-- after a backslash -/
  | escape
  /-- with `missing` more hexadecimal digits to read and the value of those read -/
  | hex (missing value : Nat)

/-- The character of a number, unless it is half a surrogate pair or too large. -/
def charOfCode? (n : Nat) : Option Char :=
  if n.isValidChar then some (Char.ofNat n) else none

/-- Reads up to the closing mark of a double-quoted scalar. `lineStart` tells that a line begins. -/
def doubleQuoted (place : QuotePlace) (lineStart : Bool) :
    List Char → Option (List Piece × List Char)
  | [] => none
  | c :: rest =>
    match place with
    | .escape =>
      if isBreak c then (doubleQuoted .text true rest).map fun (ps, r) => (.joined :: ps, r)
      else
        match hexLength? c with
        | some n => doubleQuoted (.hex n 0) false rest
        | none => do
          let plain ← escaped? c
          let (ps, r) ← doubleQuoted .text false rest
          return (.char plain :: ps, r)
    | .hex missing value => do
      let value := 16 * value + (← Json.hexValue? c)
      if missing ≤ 1 then
        let plain ← charOfCode? value
        let (ps, r) ← doubleQuoted .text false rest
        return (.char plain :: ps, r)
      else doubleQuoted (.hex (missing - 1) value) false rest
    | .text =>
      if lineStart && documentMarkNext (c :: rest) then none
      else if c = '"' then some ([], rest)
      else if c = '\\' then doubleQuoted .escape false rest
      else
        let piece := if isBlank c then .blank c else if isBreak c then .lineBreak c else .char c
        (doubleQuoted .text (isBreak c) rest).map fun (ps, r) => (piece :: ps, r)

/-! ## Plain scalars -/

/-- What is around a scalar. -/
structure Surroundings where
  /-- whether it stands between brackets -/
  inFlow : Bool
  /-- the column of the innermost block around it, minus one where there is none -/
  indent : Int

/-- The characters that end a plain scalar between brackets. -/
def isFlowMark (c : Char) : Bool := c == ',' || c == '[' || c == ']' || c == '\x7b' || c == '\x7d'

/-- A plain scalar as it is written. -/
structure PlainText where
  /-- its pieces, without the blanks and line breaks behind it -/
  pieces : List Piece
  /-- whether a line ended behind it -/
  lineEnded : Bool
  /-- what follows, behind these blanks and line breaks -/
  rest : List Char

/-- Whether a plain scalar ends because of the gap behind its last character: a comment, a mark of
a document or a line that is not indented enough follows. -/
def gapEnds (around : Surroundings) (column : Nat) (gap : List Piece) (chars : List Char) : Bool :=
  !gap.isEmpty &&
    ((!around.inFlow && column < around.indent + 1) || chars.head? == some '#' ||
      (column == 0 && documentMarkNext chars))

/-- Whether a colon stands where it neither ends a plain scalar nor belongs to it. -/
def strayColon (around : Surroundings) (c : Char) (rest : List Char) : Bool :=
  around.inFlow && c == ':' && rest.head?.any fun d => d == '?' || isFlowMark d

/-- Whether a plain scalar ends in front of an indicator. -/
def markEnds (around : Surroundings) (c : Char) (rest : List Char) : Bool :=
  (c == ':' && blankNext rest) || (around.inFlow && isFlowMark c)

/-- Reads a plain scalar from a column on; `gap` are the blanks and line breaks behind its last
character. -/
def plain (around : Surroundings) (column : Nat) (gap : List Piece) :
    List Char → Option PlainText
  | [] => some ⟨[], gap.any Piece.endsLine, []⟩
  | c :: rest =>
    if isBlank c then
      if c == '\t' && gap.any Piece.endsLine && column < around.indent + 1 then none
      else plain around (column + 1) (gap ++ [.blank c]) rest
    else if isBreak c then plain around 0 (gap ++ [.lineBreak c]) rest
    else if gapEnds around column gap (c :: rest) then
      some ⟨[], gap.any Piece.endsLine, c :: rest⟩
    else if strayColon around c rest then none
    else if markEnds around c rest then some ⟨[], gap.any Piece.endsLine, c :: rest⟩
    else do
      let text ← plain around (column + 1) [] rest
      return { text with pieces := gap ++ .char c :: text.pieces }

/-! ## Block scalars -/

/-- Which line breaks at the end of a block scalar are kept. -/
inductive Chomping where
  | strip
  | clip
  | keep
deriving Repr, DecidableEq

/-- What stands behind the indicator of a block scalar: which breaks are kept, by how much it is
indented if that is said, and the rest. -/
def blockHeader? (chars : List Char) : Option (Chomping × Option Nat × List Char) :=
  let chomping? : List Char → Option (Chomping × List Char)
    | '+' :: rest => some (.keep, rest)
    | '-' :: rest => some (.strip, rest)
    | _ => none
  let digit? : List Char → Option (Nat × List Char)
    | c :: rest => if c.isDigit then some (c.toNat - '0'.toNat, rest) else none
    | [] => none
  let (chomping, increment, rest) :=
    match chomping? chars with
    | some (chomping, rest) =>
      match digit? rest with
      | some (n, rest) => (chomping, some n, rest)
      | none => (chomping, none, rest)
    | none =>
      match digit? chars with
      | some (n, rest) =>
        match chomping? rest with
        | some (chomping, rest) => (chomping, some n, rest)
        | none => (.clip, some n, rest)
      | none => (.clip, none, chars)
  if increment = some 0 then none
  else
    let behind := rest.dropWhile isBlank
    let behind := if behind.head? = some '#' then behind.dropWhile (!isBreak ·) else behind
    match behind with
    | [] => some (chomping, increment, [])
    | c :: rest => if isBreak c then some (chomping, increment, rest) else none

/-- Empty lines and the indentation of the line behind them. -/
structure BlockGap where
  /-- the line breaks -/
  breaks : List Char
  /-- the deepest indentation met -/
  deepest : Nat
  /-- the column reached -/
  column : Nat
  /-- what follows -/
  rest : List Char

/-- Reads empty lines and indentation, up to the column `indent` where it is known. -/
def blockGap? (indent : Option Nat) (column deepest : Nat) : List Char → Option BlockGap
  | [] => some ⟨[], deepest, column, []⟩
  | c :: rest =>
    let within := indent.all (column < ·)
    if c == ' ' && within then blockGap? indent (column + 1) (max deepest (column + 1)) rest
    else if c == '\t' && within then none
    else if isBreak c then
      (blockGap? indent 0 deepest rest).map fun g => { g with breaks := c :: g.breaks }
    else some ⟨[], deepest, column, c :: rest⟩

/-- The lines of a block scalar so far. -/
structure BlockText where
  /-- the text, last character first -/
  text : List Char := []
  /-- the break of the last line -/
  leading : Option Char := none
  /-- the breaks of empty lines behind it -/
  trailing : List Char := []
  /-- whether the last line started with a blank -/
  startedBlank : Bool := false

/-- Joins what stands between two lines. In a folded scalar a line feed between two lines that do
not start with a blank becomes a blank, or nothing before empty lines. -/
def BlockText.join (literal nextBlank : Bool) (t : BlockText) : List Char :=
  let between :=
    if !literal && t.leading == some '\n' && !t.startedBlank && !nextBlank then
      if t.trailing.isEmpty then [' '] else t.trailing
    else t.leading.toList ++ t.trailing
  between.reverse ++ t.text

/-- Reads the lines of a block scalar that are indented to the column `indent`. The answer is the
lines, the column reached and what follows. -/
def blockLines? (literal : Bool) (indent : Nat) :
    Nat → BlockText → Nat → List Char → Option (BlockText × Nat × List Char)
  | 0, _, _, _ => none
  | fuel + 1, t, column, chars =>
    match chars with
    | [] => some (t, column, [])
    | c :: _ =>
      if column ≠ indent then some (t, column, chars)
      else do
        let content := chars.takeWhile (!isBreak ·)
        let text := content.reverse ++ t.join literal (isBlank c)
        match chars.dropWhile (!isBreak ·) with
        | [] => some (⟨text, none, [], isBlank c⟩, column + content.length, [])
        | lineBreak :: rest =>
          let gap ← blockGap? (some indent) 0 0 rest
          blockLines? literal indent fuel ⟨text, some lineBreak, gap.breaks, isBlank c⟩ gap.column
            gap.rest

/-- Reads a block scalar behind its indicator. The answer is its text, the column reached and what
follows. -/
def block? (literal : Bool) (parent : Int) (chars : List Char) :
    Option (List Char × Nat × List Char) := do
  let (chomping, increment, rest) ← blockHeader? chars
  let declared := increment.map fun n => (if 0 ≤ parent then parent.toNat else 0) + n
  let gap ← blockGap? declared 0 0 rest
  let indent := declared.getD (max (max gap.deepest (parent + 1).toNat) 1)
  let start : BlockText := { trailing := gap.breaks }
  let (t, column, rest) ← blockLines? literal indent (gap.rest.length + 1) start gap.column gap.rest
  let ending :=
    match chomping with
    | .strip => []
    | .clip => t.leading.toList
    | .keep => t.leading.toList ++ t.trailing
  return (t.text.reverse ++ ending, column, rest)

end SchedAudit.Yaml

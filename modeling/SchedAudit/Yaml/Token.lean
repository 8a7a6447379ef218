import SchedAudit.Yaml.Scalar

/-!
# YAML tokens

The structure of a YAML text is partly written in brackets and partly in indentation. `Token.scan?`
makes both into tokens: where a line is indented deeper than the block around it a block starts, and
where a line is indented less the blocks inside end.

A mapping need not announce its keys: only the colon behind a value tells that the value was a key.
So the scanner remembers, for each level of brackets, the last token that may turn out to be a key
(`KeyCandidate`). A colon in time puts a `key` token in front of it, and the start of a block if the
key is the first of its block. A candidate is given up when its line ends; one that *must* be a key,
because it stands at the column of its block, is then an error.
-/

namespace SchedAudit.Yaml

/-! ## Tokens -/

/-- How a scalar is written. -/
inductive Style where
  | plain
  | quoted
  | literal
  | folded
deriving Repr, DecidableEq

/-- The lexical units of YAML. -/
inductive Token where
  /-- `%YAML` with a version -/
  | version (major minor : Nat)
  /-- `%TAG` with a handle and what it stands for -/
  | tagDirective (handle target : String)
  | documentStart
  | documentEnd
  | blockSequenceStart
  | blockMappingStart
  | blockEnd
  | flowSequenceStart
  | flowSequenceEnd
  | flowMappingStart
  | flowMappingEnd
  | blockElement
  | flowElement
  | key
  | value
  | alias (name : String)
  | anchor (name : String)
  | tag (handle suffix : String)
  | scalar (style : Style) (text : String)
  | streamEnd
deriving Repr, DecidableEq

/-! ## Where the scanner stands -/

/-- A place in the text. -/
structure Cursor where
  /-- what is still to be read -/
  rest : List Char
  /-- how many characters have been read -/
  index : Nat := 0
  /-- how many lines have ended -/
  line : Nat := 0
  /-- how many characters of the line have been read -/
  column : Nat := 0

namespace Cursor

/-- One character further. -/
def next (c : Cursor) : Cursor :=
  match c.rest with
  | [] => c
  | ch :: rest =>
    if isBreak ch then ⟨rest, c.index + 1, c.line + 1, 0⟩
    else ⟨rest, c.index + 1, c.line, c.column + 1⟩

/-- `n` characters further. -/
def forward : Nat → Cursor → Cursor
  | 0, c => c
  | n + 1, c => forward n c.next

/-- On to the place where `rest` is still to be read. -/
def upTo (c : Cursor) (rest : List Char) : Cursor :=
  c.forward (c.rest.length - rest.length)

/-- Over all characters that pass a test. -/
def skipWhile (c : Cursor) (test : Char → Bool) : Cursor := c.upTo (c.rest.dropWhile test)

end Cursor

/-- A token that may turn out to be a key. -/
structure KeyCandidate where
  /-- whether it must be a key -/
  required : Bool
  /-- how many tokens stand in front of it -/
  place : Nat
  /-- where it starts -/
  start : Cursor

/-- The state of the scanner. -/
structure Scanner where
  /-- the place in the text -/
  cursor : Cursor
  /-- the column of the innermost block, minus one where there is none -/
  indent : Int := -1
  /-- the columns of the blocks around it, innermost first -/
  outer : List Int := []
  /-- whether a key may start here -/
  keyAllowed : Bool := true
  /-- the candidate outside all brackets -/
  base : Option KeyCandidate := none
  /-- the candidates inside brackets, innermost first -/
  inside : List (Option KeyCandidate) := []
  /-- the tokens so far -/
  tokens : List Token := []

namespace Scanner

/-- Whether the scanner is between brackets. -/
def inFlow (s : Scanner) : Bool := !s.inside.isEmpty

/-- The candidate of the current level. -/
def candidate (s : Scanner) : Option KeyCandidate := s.inside.headD s.base

/-- Sets the candidate of the current level. -/
def setCandidate (s : Scanner) (k : Option KeyCandidate) : Scanner :=
  match s.inside with
  | [] => { s with base := k }
  | _ :: rest => { s with inside := k :: rest }

/-- Gives the candidate of the current level up. -/
def dropCandidate? (s : Scanner) : Option Scanner :=
  if s.candidate.any (·.required) then none else some (s.setCandidate none)

/-- Adds a token at the end. -/
def emit (s : Scanner) (t : Token) : Scanner := { s with tokens := s.tokens ++ [t] }

/-- Adds a token in front of all but the first `place` ones. -/
def emitAt (s : Scanner) (place : Nat) (t : Token) : Scanner :=
  { s with tokens := s.tokens.take place ++ t :: s.tokens.drop place }

/-- Starts a block at a column, unless one is there already. -/
def openBlock (s : Scanner) (column place : Nat) (start : Token) : Scanner :=
  if s.inFlow || column ≤ s.indent then s
  else { s.emitAt place start with indent := column, outer := s.indent :: s.outer }

/-- Ends the blocks that are deeper than a column. -/
def closeBlocks (s : Scanner) (column : Int) : Scanner :=
  if s.inFlow then s
  else go s.outer s
where
  go : List Int → Scanner → Scanner
    | [], s => s
    | parent :: outer, s =>
      if s.indent ≤ column then s
      else go outer { s.emit .blockEnd with indent := parent, outer := outer }

/-- Whether a candidate can no longer become a key: its line has ended, or it is too far away. -/
def isStale (s : Scanner) (k : KeyCandidate) : Bool :=
  k.start.line < s.cursor.line || k.start.index + 1024 < s.cursor.index

/-- Gives up the candidates that can no longer become keys. -/
def dropStale? (s : Scanner) : Option Scanner :=
  let stale (k : Option KeyCandidate) : Bool := k.any s.isStale
  let mustBe (k : Option KeyCandidate) : Bool := stale k && k.any (·.required)
  if mustBe s.base || s.inside.any mustBe then none
  else
    let fresh (k : Option KeyCandidate) := if stale k then none else k
    some { s with base := fresh s.base, inside := s.inside.map fresh }

/-- Makes the next token a candidate, if a key may start here. -/
def noteCandidate? (s : Scanner) : Option Scanner :=
  if s.keyAllowed then do
    let required := !s.inFlow && s.indent == s.cursor.column
    let s ← s.dropCandidate?
    return s.setCandidate (some ⟨required, s.tokens.length, s.cursor⟩)
  else some s

/-! ## Between tokens -/

/-- Skips blanks, comments and line breaks. A tab is a blank only where no key may start. -/
def skipBlanks : Nat → Scanner → Scanner
  | 0, s => s
  | fuel + 1, s =>
    let tabs := s.inFlow || !s.keyAllowed
    let c := s.cursor.skipWhile fun ch => ch == ' ' || (tabs && ch == '\t')
    let c := if c.rest.head? = some '#' then c.skipWhile (!isBreak ·) else c
    match c.rest with
    | [] => { s with cursor := c }
    | ch :: _ =>
      if isBreak ch then
        skipBlanks fuel { s with cursor := c.next, keyAllowed := s.keyAllowed || !s.inFlow }
      else { s with cursor := c }

/-! ## Directives -/

/-- Reads one number of a version, which has at most nine digits. -/
def versionNumber? (chars : List Char) : Option (Nat × List Char) :=
  let digits := chars.takeWhile Char.isDigit
  if digits.isEmpty || 9 < digits.length then none
  else some (Decimal.ofDigits digits, chars.dropWhile Char.isDigit)

/-- Reads a version `major.minor` and what follows. -/
def version? (chars : List Char) : Option (Token × List Char) := do
  let (major, rest) ← versionNumber? (chars.dropWhile isBlank)
  let '.' :: rest := rest | none
  let (minor, rest) ← versionNumber? rest
  return (.version major minor, rest)

/-- The characters of the target of a tag. -/
def isTagChar (verbatim : Bool) (c : Char) : Bool :=
  isNameChar c || [';', '/', '?', ':', '@', '&', '=', '+', '$', '.', '!', '~', '*', '\'', '(',
    ')'].contains c || (verbatim && (c == ',' || c == '[' || c == ']'))

/-- How many octets the UTF-8 form of a character has, by the first one. -/
def octetCount? (lead : Nat) : Option Nat :=
  if lead < 0x80 then some 1
  else if 0xC0 ≤ lead && lead < 0xE0 then some 2
  else if 0xE0 ≤ lead && lead < 0xF0 then some 3
  else if 0xF0 ≤ lead && lead < 0xF8 then some 4
  else none

/-- Reads the target of a tag, where an octet of a character may be written as a percent sign and
two hexadecimal digits; `owed` octets of a character are still to come. Every octet becomes one
character of the answer, for only targets in ASCII mean anything. -/
def tagText? (verbatim : Bool) (owed : Nat) : List Char → Option (List Char × List Char)
  | '%' :: a :: b :: rest => do
    let octet := 16 * (← Json.hexValue? a) + (← Json.hexValue? b)
    let owed ←
      if owed = 0 then (octetCount? octet).map (· - 1)
      else if 0x80 ≤ octet && octet < 0xC0 then some (owed - 1)
      else none
    let (text, after) ← tagText? verbatim owed rest
    return (Char.ofNat octet :: text, after)
  | c :: rest =>
    if owed ≠ 0 || c == '%' then none
    else if isTagChar verbatim c then do
      let (text, after) ← tagText? verbatim 0 rest
      return (c :: text, after)
    else some ([], c :: rest)
  | [] => if owed = 0 then some ([], []) else none

/-- Reads a tag handle: exclamation marks around a name. -/
def tagHandle? : List Char → Option (List Char × List Char)
  | '!' :: rest =>
    let name := rest.takeWhile isNameChar
    match rest.dropWhile isNameChar with
    | '!' :: after => some ('!' :: name ++ ['!'], after)
    | after => some ('!' :: name, after)
  | _ => none

/-- Reads a handle and its target. -/
def tagDirective? (chars : List Char) : Option (Token × List Char) := do
  let (handle, rest) ← tagHandle? (chars.dropWhile isBlank)
  if handle.getLast? ≠ some '!' || !(rest.head?.any isBlank) then none
  else
    let (target, rest) ← tagText? true 0 (rest.dropWhile isBlank)
    if target.isEmpty || !blankNext rest then none
    else return (.tagDirective (String.ofList handle) (String.ofList target), rest)

/-- Reads a directive behind its percent sign, up to the end of the line. -/
def directive? (chars : List Char) : Option (Token × List Char) := do
  let name := chars.takeWhile isNameChar
  let rest := chars.dropWhile isNameChar
  let (token, rest) ←
    if !blankNext rest then none
    else if name = ['Y', 'A', 'M', 'L'] then version? rest
    else if name = ['T', 'A', 'G'] then tagDirective? rest
    else none
  let rest := rest.dropWhile isBlank
  let rest := if rest.head? = some '#' then rest.dropWhile (!isBreak ·) else rest
  match rest with
  | [] => return (token, [])
  | c :: after => if isBreak c then return (token, after) else none

/-! ## Anchors and tags -/

/-- Reads the name of an anchor or alias. -/
def anchorName? (chars : List Char) : Option (String × List Char) :=
  let name := chars.takeWhile isNameChar
  let rest := chars.dropWhile isNameChar
  let ended := blankNext rest ||
    rest.head?.any fun c => ['?', ':', ',', ']', '\x7d', '%', '@', '\x60'].contains c
  if name.isEmpty || !ended then none else some (String.ofList name, rest)

/-- Reads a tag: verbatim in angle brackets, with a handle, or local. -/
def tag? (inFlow : Bool) (chars : List Char) : Option (Token × List Char) := do
  let (token, rest) ←
    match chars with
    | '!' :: '<' :: rest => do
      let (text, '>' :: after) ← tagText? true 0 rest | none
      if text.isEmpty then none else some (Token.tag "" (String.ofList text), after)
    | _ => do
      let (handle, rest) ← tagHandle? chars
      let (text, after) ← tagText? false 0 rest
      if 1 < handle.length ∧ handle.getLast? = some '!' then
        if text.isEmpty then none
        else some (Token.tag (String.ofList handle) (String.ofList text), after)
      else
        match handle.drop 1 ++ text with
        | [] => some (Token.tag "" "!", after)
        | suffix => some (Token.tag "!" (String.ofList suffix), after)
  if blankNext rest || (inFlow && rest.head? == some ',') then return (token, rest) else none

/-! ## One token -/

/-- Adds a token and goes on behind it. -/
def emitTo (s : Scanner) (t : Token) (rest : List Char) : Scanner :=
  { s.emit t with cursor := s.cursor.upTo rest }

/-- A mark that ends all blocks: of a document, or a directive. -/
def outermost? (s : Scanner) : Option Scanner := do
  let s ← (s.closeBlocks (-1)).dropCandidate?
  return { s with keyAllowed := false }

/-- An opening bracket. -/
def openFlow? (s : Scanner) (t : Token) : Option Scanner := do
  let s ← s.noteCandidate?
  return { s.emitTo t (s.cursor.rest.drop 1) with inside := none :: s.inside, keyAllowed := true }

/-- A closing bracket. -/
def closeFlow? (s : Scanner) (t : Token) : Option Scanner := do
  let s ← s.dropCandidate?
  return { s.emitTo t (s.cursor.rest.drop 1) with inside := s.inside.drop 1, keyAllowed := false }

/-- A comma between brackets, or text with a comma elsewhere. -/
def flowElement? (s : Scanner) : Option Scanner := do
  let s ← s.dropCandidate?
  return { s.emitTo .flowElement (s.cursor.rest.drop 1) with keyAllowed := true }

/-- A dash. -/
def blockElement? (s : Scanner) : Option Scanner := do
  let opened ←
    if s.inFlow then some s
    else if !s.keyAllowed then none
    else some (s.openBlock s.cursor.column s.tokens.length .blockSequenceStart)
  let s ← opened.dropCandidate?
  return { s.emitTo .blockElement (s.cursor.rest.drop 1) with keyAllowed := true }

/-- A question mark. -/
def key? (s : Scanner) : Option Scanner := do
  let opened ←
    if s.inFlow then some s
    else if !s.keyAllowed then none
    else some (s.openBlock s.cursor.column s.tokens.length .blockMappingStart)
  let s ← opened.dropCandidate?
  return { s.emitTo .key (s.cursor.rest.drop 1) with keyAllowed := !s.inFlow }

/-- A colon: the candidate becomes a key. Without one the key is empty. -/
def value? (s : Scanner) : Option Scanner := do
  let s ←
    match s.candidate with
    | some k =>
      let s := s.emitAt k.place .key
      some { (s.openBlock k.start.column k.place .blockMappingStart).setCandidate none with
        keyAllowed := false }
    | none =>
      if s.inFlow then some { s with keyAllowed := false }
      else if !s.keyAllowed then none
      else
        some { s.openBlock s.cursor.column s.tokens.length .blockMappingStart with
          keyAllowed := true }
  return s.emitTo .value (s.cursor.rest.drop 1)

/-- A scalar in quotation marks. -/
def quoted? (s : Scanner) (double : Bool) : Option Scanner := do
  let s ← s.noteCandidate?
  let behind := s.cursor.rest.drop 1
  let (pieces, rest) ←
    if double then doubleQuoted .text false behind else singleQuoted false false behind
  return { s.emitTo (.scalar .quoted (String.ofList (Piece.fold pieces))) rest with
    keyAllowed := false }

/-- A plain scalar. Behind the end of its line a key may start. -/
def plain? (s : Scanner) : Option Scanner := do
  let s ← s.noteCandidate?
  let text ← plain ⟨s.inFlow, s.indent⟩ s.cursor.column [] s.cursor.rest
  return { s.emitTo (.scalar .plain (String.ofList (Piece.fold text.pieces))) text.rest with
    keyAllowed := text.lineEnded }

/-- A block scalar. -/
def blockScalar? (s : Scanner) (literal : Bool) : Option Scanner := do
  let s ← s.dropCandidate?
  let (text, _, rest) ← block? literal s.indent (s.cursor.rest.drop 1)
  return { s.emitTo (.scalar (if literal then .literal else .folded) (String.ofList text)) rest with
    keyAllowed := true }

/-- An anchor or an alias. -/
def anchor? (s : Scanner) (make : String → Token) : Option Scanner := do
  let s ← s.noteCandidate?
  let (name, rest) ← anchorName? (s.cursor.rest.drop 1)
  return { s.emitTo (make name) rest with keyAllowed := false }

/-- The tag of a node. -/
def tagged? (s : Scanner) : Option Scanner := do
  let s ← s.noteCandidate?
  let (token, rest) ← tag? s.inFlow s.cursor.rest
  return { s.emitTo token rest with keyAllowed := false }

/-- The characters that start no plain scalar. -/
def isIndicator (c : Char) : Bool :=
  ['-', '?', ':', ',', '[', ']', '\x7b', '\x7d', '#', '&', '*', '!', '|', '>', '\'', '"', '%', '@',
    '\x60'].contains c

/-- Reads the token that starts with the character `c`. -/
def token? (s : Scanner) (c : Char) (rest : List Char) : Option Scanner :=
  let chars := s.cursor.rest
  let firstColumn := s.cursor.column == 0
  if firstColumn && c == '%' then do
    let s ← s.outermost?
    let (token, rest) ← directive? rest
    return s.emitTo token rest
  else if firstColumn && markNext '-' chars then do
    return (← s.outermost?).emitTo .documentStart (chars.drop 3)
  else if firstColumn && markNext '.' chars then do
    return (← s.outermost?).emitTo .documentEnd (chars.drop 3)
  else if c == '[' then s.openFlow? .flowSequenceStart
  else if c == '\x7b' then s.openFlow? .flowMappingStart
  else if c == ']' then s.closeFlow? .flowSequenceEnd
  else if c == '\x7d' then s.closeFlow? .flowMappingEnd
  else if c == ',' then s.flowElement?
  else if c == '-' && blankNext rest then s.blockElement?
  else if c == '?' && (s.inFlow || blankNext rest) then s.key?
  else if c == ':' && (s.inFlow || blankNext rest) then s.value?
  else if c == '*' then s.anchor? .alias
  else if c == '&' then s.anchor? .anchor
  else if c == '!' then s.tagged?
  else if c == '|' && !s.inFlow then s.blockScalar? true
  else if c == '>' && !s.inFlow then s.blockScalar? false
  else if c == '\'' then s.quoted? false
  else if c == '"' then s.quoted? true
  else if !(isIndicator c || isBlank c) || (c == '-' && !(rest.head?.any isBlank)) ||
      (!s.inFlow && (c == '?' || c == ':') && !blankNext rest) then s.plain?
  else none

/-- Reads tokens up to the end of the text, `fuel` of them at most. -/
def run? : Nat → Scanner → Option (List Token)
  | 0, _ => none
  | fuel + 1, s => do
    let s ← (skipBlanks (s.cursor.rest.length + 1) s).dropStale?
    let s := s.closeBlocks s.cursor.column
    match s.cursor.rest with
    | [] =>
      let s ← (s.closeBlocks (-1)).dropCandidate?
      return s.tokens ++ [.streamEnd]
    | c :: rest => run? fuel (← s.token? c rest)

end Scanner

/-- The tokens of a text. A mark of the byte order at the start is passed over, but takes a column,
and a control character is no text. -/
def Token.scan? (chars : List Char) : Option (List Token) :=
  if chars.all isPrintable then
    let start : Cursor := { rest := normaliseBreaks chars }
    let cursor := if chars.head? = some '\ufeff' then start.next else start
    Scanner.run? (chars.length + 1) { cursor }
  else none

end SchedAudit.Yaml

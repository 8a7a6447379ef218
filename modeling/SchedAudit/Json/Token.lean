import SchedAudit.Decimal.Reading

/-!
# JSON tokens

The first of the two layers of reading JSON. `Token.scan?` walks over the characters once, one
`Scan.step` for each, and hands out tokens; `Json/Value.lean` builds values from them. Because the
walk is a fold, it is total without any measure, and scanning a concatenation is scanning its parts
one after the other.

Inside a text the walk collects **units**: a character that stands for itself, or a 16-bit unit from
a `\u` escape. They become characters when the text ends (`Unit.pairUp?`). Units that do not pair
up are no syntax error: whether they matter depends on who reads the text.
-/

namespace SchedAudit

/-- A number as it is written: `± digits * 10 ^ exponent`. -/
structure Numeral where
  /-- whether a minus sign is written in front -/
  negative : Bool
  /-- all digits before and after the point -/
  digits : Nat
  /-- the power of ten of the last digit -/
  exponent : Int
  /-- whether neither a point nor an exponent is written -/
  integral : Bool
deriving Repr, DecidableEq

namespace Json

/-- The lexical units of JSON. -/
inductive Token where
  | openArray
  | closeArray
  | openObject
  | closeObject
  | colon
  | comma
  | null
  | bool (value : Bool)
  | number (value : Numeral)
  /-- a text, or `none` when its escapes do not pair up to characters -/
  | text (value : Option String)
deriving Repr, DecidableEq

/-! ## Texts -/

/-- One element of a text as it is written. -/
inductive Unit where
  /-- a character that stands for itself or is escaped by one letter -/
  | char (c : Char)
  /-- a 16-bit unit written with four hexadecimal digits -/
  | code (n : Nat)
deriving Repr, DecidableEq

/-- Whether `n` is the first half of a surrogate pair. -/
def isLeading (n : Nat) : Bool := 0xD800 ≤ n && n < 0xDC00

/-- Whether `n` is the second half of a surrogate pair. -/
def isTrailing (n : Nat) : Bool := 0xDC00 ≤ n && n < 0xE000

/-- The characters of a text, given that `lead` is a first half waiting for its second. A half
without its partner is refused. -/
def Unit.pairUpAfter? : Option Nat → List Unit → Option (List Char)
  | none, [] => some []
  | some _, [] => none
  | none, .char c :: rest => (c :: ·) <$> pairUpAfter? none rest
  | some _, .char _ :: _ => none
  | none, .code n :: rest =>
    if isLeading n then pairUpAfter? (some n) rest
    else if isTrailing n then none
    else (Char.ofNat n :: ·) <$> pairUpAfter? none rest
  | some lead, .code n :: rest =>
    if isTrailing n then
      (Char.ofNat (0x10000 + (lead - 0xD800) * 0x400 + (n - 0xDC00)) :: ·) <$>
        pairUpAfter? none rest
    else none

/-- The characters of a text. -/
def Unit.pairUp? (units : List Unit) : Option (List Char) := pairUpAfter? none units

/-- The character behind a one-letter escape. -/
def escaped? : Char → Option Char
  | '"' => some '"'
  | '\\' => some '\\'
  | '/' => some '/'
  | 'b' => some '\x08'
  | 'f' => some '\x0c'
  | 'n' => some '\n'
  | 'r' => some '\r'
  | 't' => some '\t'
  | _ => none

/-- The value of a hexadecimal digit. -/
def hexValue? (c : Char) : Option Nat :=
  if '0' ≤ c ∧ c ≤ '9' then some (c.toNat - '0'.toNat)
  else if 'a' ≤ c ∧ c ≤ 'f' then some (c.toNat - 'a'.toNat + 10)
  else if 'A' ≤ c ∧ c ≤ 'F' then some (c.toNat - 'A'.toNat + 10)
  else none

/-! ## Words: literals and numbers -/

/-- Reads the exponent part of a number: nothing, or `e`, an optional sign and at least one digit.
The answer is the exponent, `none` inside when nothing is written. -/
def exponentPart? : List Char → Option (Option Int)
  | [] => some none
  | c :: rest =>
    if c = 'e' ∨ c = 'E' then
      let negative := rest.head? = some '-'
      let digits := if negative ∨ rest.head? = some '+' then rest.drop 1 else rest
      if digits.isEmpty ∨ !digits.all Char.isDigit then none
      else
        let value : Int := Decimal.ofDigits digits
        some (some (if negative then -value else value))
    else none

/-- Reads the fraction part of a number: nothing, or a point and at least one digit. The answer is
its digits and what follows. -/
def fractionPart? : List Char → Option (List Char × List Char)
  | '.' :: rest =>
    let digits := rest.takeWhile Char.isDigit
    if digits.isEmpty then none else some (digits, rest.dropWhile Char.isDigit)
  | rest => some ([], rest)

/-- Reads a number without its sign: digits without a leading zero, then fraction and exponent. -/
def unsigned? (negative : Bool) (chars : List Char) : Option Numeral := do
  let whole := chars.takeWhile Char.isDigit
  if whole.isEmpty ∨ (whole.head? = some '0' ∧ whole.length ≠ 1) then none
  else
    let (fraction, rest) ← fractionPart? (chars.dropWhile Char.isDigit)
    let exponent ← exponentPart? rest
    return {
      negative
      digits := Decimal.ofDigits (whole ++ fraction)
      exponent := exponent.getD 0 - fraction.length
      integral := fraction.isEmpty && exponent.isNone }

/-- Reads a number. -/
def numeral? : List Char → Option Numeral
  | '-' :: rest => unsigned? true rest
  | chars => unsigned? false chars

/-- The token that a word is, if it is one. -/
def Token.ofWord? (word : List Char) : Option Token :=
  if word = ['n', 'u', 'l', 'l'] then some .null
  else if word = ['t', 'r', 'u', 'e'] then some (.bool true)
  else if word = ['f', 'a', 'l', 's', 'e'] then some (.bool false)
  else (Token.number ·) <$> numeral? word

/-! ## The walk -/

/-- Where the walk stands between two characters. -/
inductive Place where
  /-- between tokens -/
  | between
  /-- in a literal or number, whose characters so far are given last first -/
  | word (chars : List Char)
  /-- in a text, whose units so far are given last first -/
  | text (units : List Unit)
  /-- in a text, after a backslash -/
  | escape (units : List Unit)
  /-- in a text, with `missing` more hexadecimal digits to read and the value of those read -/
  | hex (units : List Unit) (missing value : Nat)
deriving Repr, DecidableEq

/-- The state of the walk: the place, and the tokens found so far, last first. -/
structure Scan where
  /-- where the walk stands -/
  place : Place
  /-- what has been found, last first -/
  found : List Token
deriving Repr, DecidableEq

/-- The blank characters of JSON. -/
def isBlank (c : Char) : Bool := c == ' ' || c == '\n' || c == '\t' || c == '\r'

/-- The characters of literals and numbers. -/
def isWordChar (c : Char) : Bool := c.isAlphanum || c == '+' || c == '-' || c == '.'

/-- The tokens of one character. -/
def Token.ofMark? : Char → Option Token
  | '[' => some .openArray
  | ']' => some .closeArray
  | '{' => some .openObject
  | '}' => some .closeObject
  | ':' => some .colon
  | ',' => some .comma
  | _ => none

/-- Reads a character between tokens. -/
def Scan.start? (found : List Token) (c : Char) : Option Scan :=
  if isBlank c then some ⟨.between, found⟩
  else if c = '"' then some ⟨.text [], found⟩
  else if isWordChar c then some ⟨.word [c], found⟩
  else (Token.ofMark? c).map fun t => ⟨.between, t :: found⟩

/-- Reads one character. Control characters have no place in a text. -/
def Scan.step? (s : Scan) (c : Char) : Option Scan :=
  match s.place with
  | .between => start? s.found c
  | .word chars =>
    if isWordChar c then some { s with place := .word (c :: chars) }
    else do
      let token ← Token.ofWord? chars.reverse
      start? (token :: s.found) c
  | .text units =>
    if c = '"' then
      some ⟨.between, .text (String.ofList <$> Unit.pairUp? units.reverse) :: s.found⟩
    else if c = '\\' then some { s with place := .escape units }
    else if c.toNat < 0x20 then none
    else some { s with place := .text (.char c :: units) }
  | .escape units =>
    if c = 'u' then some { s with place := .hex units 4 0 }
    else (escaped? c).map fun plain => { s with place := .text (.char plain :: units) }
  | .hex units missing value => do
    let digit ← hexValue? c
    if missing ≤ 1 then some { s with place := .text (.code (16 * value + digit) :: units) }
    else some { s with place := .hex units (missing - 1) (16 * value + digit) }

/-- The tokens at the end of the characters: a word may be open, a text may not. -/
def Scan.finish? (s : Scan) : Option (List Token) :=
  match s.place with
  | .between => some s.found.reverse
  | .word chars => do
    let token ← Token.ofWord? chars.reverse
    some (token :: s.found).reverse
  | _ => none

/-- The tokens of a text, or `none` where it breaks the lexical rules. -/
def Token.scan? (chars : List Char) : Option (List Token) :=
  (chars.foldlM Scan.step? ⟨.between, []⟩).bind Scan.finish?

end Json

end SchedAudit

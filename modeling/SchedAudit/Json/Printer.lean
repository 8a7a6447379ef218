import SchedAudit.Json.Value

/-!
# Writing JSON

The counterpart of `Json.parse?`: one text for each value, without blanks. In a text, the quotation
mark, the backslash and the control characters are escaped, and every other character stands for
itself. A number is written as its digits, followed by its power of ten unless that is zero.
-/

namespace SchedAudit.Json

/-- A hexadecimal digit. -/
def hexDigit (n : Nat) : Char :=
  if n < 10 then Char.ofNat ('0'.toNat + n) else Char.ofNat ('a'.toNat + (n - 10))

/-- One character inside a text. -/
def escapeChar (c : Char) : List Char :=
  if c = '"' then ['\\', '"']
  else if c = '\\' then ['\\', '\\']
  else if c.toNat < 0x20 then
    ['\\', 'u', '0', '0', hexDigit (c.toNat / 16), hexDigit (c.toNat % 16)]
  else [c]

/-- A text in quotation marks. -/
def quote (chars : List Char) : List Char := '"' :: (chars.flatMap escapeChar ++ ['"'])

/-- An integer. -/
def integerChars (i : Int) : List Char :=
  (if i < 0 then ['-'] else []) ++ Nat.toDigits 10 i.natAbs

/-- A number. -/
def numeralChars (n : Numeral) : List Char :=
  (if n.negative then ['-'] else []) ++ Nat.toDigits 10 n.digits ++
    (if n.integral then [] else 'e' :: integerChars n.exponent)

/-- A text; one that does not pair up to characters has no written form and is left empty. -/
def textChars (t : Option String) : List Char := quote (t.getD "").toList

mutual

/-- The characters that write a value. -/
def chars : Json → List Char
  | .null => ['n', 'u', 'l', 'l']
  | .bool true => ['t', 'r', 'u', 'e']
  | .bool false => ['f', 'a', 'l', 's', 'e']
  | .number n => numeralChars n
  | .text t => textChars t
  | .array elements => '[' :: elementChars elements
  | .object members => '\x7b' :: memberChars members

/-- The elements of an array, and its end. -/
def elementChars : List Json → List Char
  | [] => [']']
  | v :: rest => chars v ++ moreElementChars rest

/-- The elements of an array after the first one, and its end. -/
def moreElementChars : List Json → List Char
  | [] => [']']
  | v :: rest => ',' :: (chars v ++ moreElementChars rest)

/-- The members of an object, and its end. -/
def memberChars : List (Option String × Json) → List Char
  | [] => ['\x7d']
  | (key, v) :: rest => textChars key ++ ':' :: (chars v ++ moreMemberChars rest)

/-- The members of an object after the first one, and its end. -/
def moreMemberChars : List (Option String × Json) → List Char
  | [] => ['\x7d']
  | (key, v) :: rest => ',' :: (textChars key ++ ':' :: (chars v ++ moreMemberChars rest))

end

/-- The text that writes a value. -/
def render (v : Json) : String := String.ofList (chars v)

/-- A text. -/
def ofString (s : String) : Json := .text (some s)

/-- A natural number. -/
def ofNat (n : Nat) : Json := .number ⟨false, n, 0, true⟩

/-- An object with given keys. -/
def ofMembers (members : List (String × Json)) : Json :=
  .object (members.map fun m => (some m.1, m.2))

end SchedAudit.Json

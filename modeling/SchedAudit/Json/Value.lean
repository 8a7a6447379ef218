import SchedAudit.Json.Token

/-!
# JSON values

The second layer of reading JSON: tokens become values. `Frame` is an open array or object, and a
stack of frames is what is open at a point of the text. `Stack.push?` reads one token, so reading is
again a fold, and a deep nesting costs memory only.

A value keeps what its readers may look at: members in their order and with repetitions, numbers as
they are written, and texts that do not pair up to characters as `none`.
-/

namespace SchedAudit

/-- A JSON value. -/
inductive Json where
  | null
  | bool (value : Bool)
  | number (value : Numeral)
  /-- a text, or `none` when its escapes do not pair up to characters -/
  | text (value : Option String)
  | array (elements : List Json)
  | object (members : List (Option String × Json))
deriving Repr

namespace Json

/-! ## From tokens to values -/

/-- An array or object that is not closed yet. -/
inductive Frame where
  /-- an array with its elements so far, last first; `afterComma` when another one must follow -/
  | array (elements : List Json) (afterComma : Bool)
  /-- an array that goes on with a comma or ends -/
  | arrayNext (elements : List Json)
  /-- an object that goes on with a key; `afterComma` when one must follow -/
  | object (members : List (Option String × Json)) (afterComma : Bool)
  /-- an object with a key, in front of the colon -/
  | objectColon (members : List (Option String × Json)) (key : Option String)
  /-- an object with a key and a colon, in front of the value -/
  | objectValue (members : List (Option String × Json)) (key : Option String)
  /-- an object that goes on with a comma or ends -/
  | objectNext (members : List (Option String × Json))

/-- What is open, innermost first, and the value once everything is closed. -/
structure Stack where
  /-- the open arrays and objects -/
  frames : List Frame
  /-- the value of the whole text -/
  result : Option Json

/-- Nothing read yet. -/
def Stack.empty : Stack := ⟨[], none⟩

/-- Puts a finished value where one is expected. -/
def Stack.place? (s : Stack) (value : Json) : Option Stack :=
  match s.frames with
  | [] => if s.result.isSome then none else some ⟨[], some value⟩
  | .array elements _ :: rest => some { s with frames := .arrayNext (value :: elements) :: rest }
  | .objectValue members key :: rest =>
    some { s with frames := .objectNext ((key, value) :: members) :: rest }
  | _ => none

/-- Whether a value may start here. -/
def Stack.expectsValue (s : Stack) : Bool :=
  match s.frames with
  | [] => s.result.isNone
  | .array .. :: _ => true
  | .objectValue .. :: _ => true
  | _ => false

/-- Opens an array or object where a value may start. -/
def Stack.enter? (s : Stack) (frame : Frame) : Option Stack :=
  if s.expectsValue then some { s with frames := frame :: s.frames } else none

/-- Closes the innermost array or object, which is the value of the frames around it. -/
def Stack.leave? (s : Stack) (around : List Frame) (value : Json) : Option Stack :=
  ({ s with frames := around } : Stack).place? value

/-- Reads one token. -/
def Stack.push? (s : Stack) : Token → Option Stack
  | .null => s.place? .null
  | .bool b => s.place? (.bool b)
  | .number n => s.place? (.number n)
  | .openArray => s.enter? (.array [] false)
  | .openObject => s.enter? (.object [] false)
  | .text t =>
    match s.frames with
    | .object members _ :: rest => some { s with frames := .objectColon members t :: rest }
    | _ => s.place? (.text t)
  | .colon =>
    match s.frames with
    | .objectColon members key :: rest => some { s with frames := .objectValue members key :: rest }
    | _ => none
  | .comma =>
    match s.frames with
    | .arrayNext elements :: rest => some { s with frames := .array elements true :: rest }
    | .objectNext members :: rest => some { s with frames := .object members true :: rest }
    | _ => none
  | .closeArray =>
    match s.frames with
    | .array elements false :: rest => s.leave? rest (.array elements.reverse)
    | .arrayNext elements :: rest => s.leave? rest (.array elements.reverse)
    | _ => none
  | .closeObject =>
    match s.frames with
    | .object members false :: rest => s.leave? rest (.object members.reverse)
    | .objectNext members :: rest => s.leave? rest (.object members.reverse)
    | _ => none

/-- The value that a list of tokens writes. -/
def ofTokens? (tokens : List Token) : Option Json :=
  (tokens.foldlM Stack.push? Stack.empty).bind fun s => if s.frames.isEmpty then s.result else none

/-- The value that a text writes, with nothing but blanks around it. -/
def parse? (source : String) : Option Json :=
  (Token.scan? source.toList).bind ofTokens?

end Json

/-! ## Numbers -/

/-- The double nearest to a numeral, unless it is beyond the largest double. -/
def Numeral.toFloat? (n : Numeral) : Option Float :=
  let x := Decimal.nearest n.digits n.exponent
  if x.isInf then none else some (if n.negative then -x else x)

/-- Without digits but zeros, the exponent does not matter. -/
@[simp]
theorem Numeral.toFloat?_zero (exponent : Int) (integral : Bool) :
    (⟨false, 0, exponent, integral⟩ : Numeral).toFloat? = some 0.0 := by
  have h : (0.0 : Float).isInf = false := by decide
  simp [toFloat?, Decimal.nearest, h]

/-- The natural number of 64 bits that a numeral writes. It must be written as an integer and
without a sign. -/
def Numeral.toNat? (n : Numeral) : Option Nat :=
  if n.integral ∧ !n.negative ∧ n.digits < UInt64.size then some n.digits else none

namespace Json

/-! ## Depth and soundness -/

mutual

/-- How deep arrays and objects are nested. -/
def depth : Json → Nat
  | .array elements => depthOfElements elements + 1
  | .object members => depthOfMembers members + 1
  | _ => 0

/-- The greatest depth of a list of values. -/
def depthOfElements : List Json → Nat
  | [] => 0
  | v :: rest => max (depth v) (depthOfElements rest)

/-- The greatest depth of a list of members. -/
def depthOfMembers : List (Option String × Json) → Nat
  | [] => 0
  | (_, v) :: rest => max (depth v) (depthOfMembers rest)

end

mutual

/-- Whether every text inside pairs up to characters and every number is within the doubles. -/
def isSound : Json → Bool
  | .number n => n.toFloat?.isSome
  | .text t => t.isSome
  | .array elements => allElementsSound elements
  | .object members => allMembersSound members
  | _ => true

/-- Whether all values of a list are sound. -/
def allElementsSound : List Json → Bool
  | [] => true
  | v :: rest => isSound v && allElementsSound rest

/-- Whether all members are sound, their keys included. -/
def allMembersSound : List (Option String × Json) → Bool
  | [] => true
  | (key, v) :: rest => key.isSome && isSound v && allMembersSound rest

end

/-! ## Reading by shape -/

/-- The members of an object whose keys all pair up to characters. -/
def namedMembers? : List (Option String × Json) → Option (List (String × Json))
  | [] => some []
  | (key, v) :: rest => do
    let name ← key
    let others ← namedMembers? rest
    return (name, v) :: others

/-- The values of all members named `name`. -/
def valuesOf (name : String) (members : List (String × Json)) : List Json :=
  (members.filter (·.1 == name)).map (·.2)

/-- The value of a member that may be left out but not repeated. -/
def member? (name : String) (members : List (String × Json)) : Option (Option Json) :=
  match valuesOf name members with
  | [] => some none
  | [v] => some (some v)
  | _ => none

/-- The values of the fields `names` of a structure, each possibly left out. A structure is written
as an object, where other members are passed over and the fields may not repeat, or as an array of
its fields in order. -/
def fields? (names : List String) : Json → Option (List (Option Json))
  | .object members => do
    let named ← namedMembers? members
    names.mapM fun name => member? name named
  | .array elements =>
    if names.length < elements.length then none
    else some (elements.map some ++ List.replicate (names.length - elements.length) none)
  | _ => none

/-- A natural number of 64 bits. -/
def nat? : Json → Option Nat
  | .number n => n.toNat?
  | _ => none

/-- A double; `null` is none. -/
def float? : Json → Option Float
  | .number n => n.toFloat?
  | _ => none

/-- An array whose elements are all read by `read`. -/
def listOf? {α : Type} (read : Json → Option α) : Json → Option (List α)
  | .array elements => elements.mapM read
  | _ => none

end Json

end SchedAudit

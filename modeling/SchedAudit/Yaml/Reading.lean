import SchedAudit.Yaml.Node

/-!
# Reading YAML by type

A scalar has no type of its own: what it means depends on who reads it. `natural?` wants a number,
`text?` takes any scalar as it is, and `optional?` takes a plain scalar that is empty or spelled
like `null` for nothing. Where a list or a mapping is wanted, a plain empty scalar is an empty one.
-/

namespace SchedAudit.Yaml.Document

/-- The tag of integers. -/
def integerTag : String := "tag:yaml.org,2002:int"

/-- The tag of nothing. -/
def nullTag : String := "tag:yaml.org,2002:null"

/-- The spellings of nothing. -/
def isNull (text : String) : Bool := ["null", "Null", "NULL", "~"].contains text

/-- Whether a node is a plain scalar without any text. -/
def isEmptyScalar : Node → Bool
  | .scalar _ .plain text => text.isEmpty
  | _ => false

/-- The value of a digit in a base. -/
def digitOf? (base : Nat) (c : Char) : Option Nat := do
  let n ← Json.hexValue? c
  if n < base then some n else none

/-- The number that digits of a base write; at least one digit is needed. -/
def inBase? (base : Nat) (chars : List Char) : Option Nat :=
  if chars.isEmpty then none
  else chars.foldlM (fun n c => (digitOf? base c).map (base * n + ·)) 0

/-- The natural number of 64 bits that a text writes: decimal without superfluous zeros, or in base
16, 8 or 2 behind `0x`, `0o` or `0b`, with or without a plus sign. -/
def naturalOf? (text : List Char) : Option Nat := do
  let unsigned := if text.head? = some '+' then text.drop 1 else text
  let n ←
    match unsigned with
    | '0' :: 'x' :: digits => inBase? 16 digits
    | '0' :: 'o' :: digits => inBase? 8 digits
    | '0' :: 'b' :: digits => inBase? 2 digits
    | '0' :: _ :: _ => none
    | digits => inBase? 10 digits
  if n < UInt64.size then some n else none

/-- Reads a natural number: a plain scalar, or a literal one with the tag of integers. -/
def natural? (d : Document) (n : Node) : Option Nat := do
  match ← d.resolve? n with
  | .scalar _ .plain text => naturalOf? text.toList
  | .scalar (some tag) .literal text => if tag == integerTag then naturalOf? text.toList else none
  | _ => none

/-- Reads a text: any scalar as it is. -/
def text? (d : Document) (n : Node) : Option String := do
  match ← d.resolve? n with
  | .scalar _ _ text => some text
  | _ => none

/-- Reads something or nothing. -/
def optional? {α : Type} (read : Document → Node → Option α) (d : Document) (n : Node) :
    Option (Option α) := do
  let nothing ←
    match ← d.resolve? n with
    | .scalar tag .plain text =>
      match tag with
      | none => some (text.isEmpty || isNull text)
      | some tag =>
        if tag == nullTag then (if isNull text then some true else none) else some false
    | _ => some false
  if nothing then return none else return some (← read d n)

/-- Reads a list. -/
def list? {α : Type} (read : Document → Node → Option α) (d : Document) (n : Node) :
    Option (List α) := do
  match ← d.resolve? n with
  | .sequence elements => elements.mapM (read d)
  | n => if isEmptyScalar n then some [] else none

/-- Reads the pairs of a mapping. -/
def pairs? {α β : Type} (readKey : Document → Node → Option α) (read : Document → Node → Option β)
    (d : Document) (n : Node) : Option (List (α × β)) := do
  match ← d.resolve? n with
  | .mapping pairs => pairs.mapM fun p => do return (← readKey d p.1, ← read d p.2)
  | n => if isEmptyScalar n then some [] else none

/-- Reads one of several names: a scalar that is the name, or a local tag that is the name with
nothing behind it. -/
def choice? {α : Type} (ofName? : String → Option α) (d : Document) (n : Node) : Option α := do
  match ← d.resolve? n with
  | .scalar (some tag) style text =>
    match tag.toList with
    | '!' :: name =>
      if style == .plain && (text.isEmpty || isNull text) then ofName? (String.ofList name)
      else none
    | _ => ofName? text
  | .scalar none _ text => ofName? text
  | _ => none

/-- The fields of the whole document, each one known and none repeated. A document without content
has none. -/
def fields? (known : List String) (d : Document) : Option (List (String × Node)) := do
  match d.root with
  | none => return []
  | some root =>
    let pairs ← pairs? text? (fun _ n => some n) d root
    let keys := pairs.map (·.1)
    if keys.all known.contains && keys.eraseDups.length == keys.length then return pairs else none

end SchedAudit.Yaml.Document

import SchedAudit.Decimal.Reading

/-!
# Arguments of a program

A program is told options by its arguments. An option is called by its long name, `--jobs`, or by a
letter, `-j`. Its value is attached to the name, `--jobs=2`, `-j2` or `-j=2`, or is the next
argument, which then must not look like an option. Every option is given at most once, and nothing
else is given.

`Arguments.parse?` says what is given for each option. What the values mean is for the program.
-/

namespace SchedAudit

/-- An option of a program. -/
structure ArgumentOption where
  /-- its long name, and the name by which its value is asked for -/
  name : String
  /-- the letter by which it is called too -/
  letter : Option Char := none
  /-- whether it is called by its long name -/
  hasLongName : Bool := true
  /-- whether it has a value; without one it has no letter either -/
  takesValue : Bool := true

namespace Arguments

/-- What is given: the names of options, each beside its value. -/
abbrev Given := List (String × String)

/-- An argument as a call of an option: which one, and the value attached to it. -/
abbrev Call := ArgumentOption × Option (List Char)

/-- The option that a long name calls, with what is behind an equals sign. -/
def longCall? (options : List ArgumentOption) (text : List Char) : Option Call :=
  let name := String.ofList (text.takeWhile (· != '='))
  let attached :=
    match text.dropWhile (· != '=') with
    | [] => none
    | _ :: value => some value
  (options.find? fun o => o.hasLongName && o.name == name).map fun o => (o, attached)

/-- The option that a letter calls, with what is behind the letter or an equals sign. -/
def letterCall? (options : List ArgumentOption) (letter : Char) (text : List Char) : Option Call :=
  let attached :=
    match text with
    | [] => none
    | '=' :: value => some value
    | value => some value
  (options.find? fun o => o.letter == some letter).map fun o => (o, attached)

/-- Reads an argument as a call of an option. -/
def call? (options : List ArgumentOption) (argument : String) : Option Call :=
  match argument.toList with
  | '-' :: '-' :: text => longCall? options text
  | '-' :: letter :: text => letterCall? options letter text
  | _ => none

/-- Whether an argument can be the value of the option in front of it. -/
def isValue (argument : String) : Bool :=
  match argument.toList with
  | '-' :: _ :: _ => false
  | _ => true

/-- The calls of options and their values in the order of the arguments. Two dashes alone end the
options, and there is nothing else to come. -/
def calls? (options : List ArgumentOption) : List String → Option Given
  | [] => some []
  | "--" :: rest => if rest.isEmpty then some [] else none
  | argument :: rest =>
    match call? options argument with
    | none => none
    | some (o, attached) =>
      match o.takesValue, attached with
      | true, some value => do return (o.name, String.ofList value) :: (← calls? options rest)
      | false, none => do return (o.name, "") :: (← calls? options rest)
      | false, some _ => none
      | true, none =>
        match rest with
        | [] => none
        | value :: rest =>
          if isValue value then do return (o.name, value) :: (← calls? options rest) else none

/-- What is given for each option, unless some argument is out of place. -/
def parse? (options : List ArgumentOption) (arguments : List String) : Option Given := do
  let given ← calls? options arguments
  if (given.map (·.1)).Nodup then some given else none

/-! ## Values -/

namespace Given

variable (given : Given) (name : String)

/-- The text given for an option. -/
def text? : Option String := given.lookup name

/-- Whether an option is given. -/
def has : Bool := (text? given name).isSome

/-- Reads the value of an option, which may be left out. -/
def read? {α : Type} (read : String → Option α) : Option (Option α) :=
  match text? given name with
  | none => some none
  | some value => (read value).map some

end Given

/-- A path is any text but the empty one. -/
def path? (value : String) : Option String := if value.isEmpty then none else some value

/-- Reads a natural number of 64 bits. It may have a plus sign. -/
def natural? (value : String) : Option Nat :=
  let digits :=
    match value.toList with
    | '+' :: digits => digits
    | digits => digits
  if digits.isEmpty ∨ !digits.all Char.isDigit then none
  else if Decimal.ofDigits digits < UInt64.size then some (Decimal.ofDigits digits)
  else none

end Arguments

end SchedAudit

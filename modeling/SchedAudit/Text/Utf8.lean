/-!
# Reading bytes as text, whatever they are

What another program writes to its error stream is meant as UTF-8 but need not be. `Utf8.decode`
reads it anyway: each longest beginning of a character that cannot go on stands as one replacement
character, and so does each byte that can begin none.

The reading is a machine over bytes. Between two bytes it is either between characters or inside
one, and then it knows how many bytes are owed and between which bounds the next one must lie; the
bounds keep out overlong forms, surrogates and what is past the last code point.
-/

namespace SchedAudit.Utf8

/-- What stands for bytes that are no text. -/
def replacement : Char := '\uFFFD'

/-- A character of which some bytes are read. -/
structure Begun where
  /-- how many bytes it still lacks, one or more -/
  owed : Nat
  /-- the least byte that may come next -/
  low : Nat
  /-- the greatest byte that may come next -/
  high : Nat
  /-- the bits read so far -/
  bits : Nat
deriving Repr, DecidableEq

/-- What the first byte of a character says. -/
inductive Lead where
  /-- the byte is a character -/
  | whole (c : Char)
  /-- the character goes on -/
  | begun (b : Begun)
  /-- no character begins so -/
  | none

/-- Reads the first byte of a character. -/
def lead (byte : Nat) : Lead :=
  if byte ≤ 0x7F then .whole (Char.ofNat byte)
  else if 0xC2 ≤ byte ∧ byte ≤ 0xDF then .begun ⟨1, 0x80, 0xBF, byte - 0xC0⟩
  else if byte = 0xE0 then .begun ⟨2, 0xA0, 0xBF, 0⟩
  else if byte = 0xED then .begun ⟨2, 0x80, 0x9F, 0xD⟩
  else if 0xE1 ≤ byte ∧ byte ≤ 0xEF then .begun ⟨2, 0x80, 0xBF, byte - 0xE0⟩
  else if byte = 0xF0 then .begun ⟨3, 0x90, 0xBF, 0⟩
  else if 0xF1 ≤ byte ∧ byte ≤ 0xF3 then .begun ⟨3, 0x80, 0xBF, byte - 0xF0⟩
  else if byte = 0xF4 then .begun ⟨3, 0x80, 0x8F, 4⟩
  else .none

/-- Takes a byte between characters: what is read, and where the machine stands then. -/
def start (byte : Nat) : List Char × Option Begun :=
  match lead byte with
  | .whole c => ([c], none)
  | .begun b => ([], some b)
  | .none => ([replacement], none)

/-- Takes a byte. One that cannot continue a character begins another. -/
def step (state : Option Begun) (byte : Nat) : List Char × Option Begun :=
  match state with
  | none => start byte
  | some b =>
    if b.low ≤ byte ∧ byte ≤ b.high then
      let bits := b.bits * 64 + (byte - 0x80)
      if b.owed ≤ 1 then ([Char.ofNat bits], none)
      else ([], some ⟨b.owed - 1, 0x80, 0xBF, bits⟩)
    else
      let (read, state) := start byte
      (replacement :: read, state)

/-- Reads bytes from a state on. -/
def decodeFrom (state : Option Begun) : List UInt8 → List Char
  | [] => if state.isSome then [replacement] else []
  | byte :: rest =>
    let (read, state) := step state byte.toNat
    read ++ decodeFrom state rest

/-- The text that bytes are meant for. -/
def decode (bytes : ByteArray) : List Char := decodeFrom none bytes.data.toList

end SchedAudit.Utf8

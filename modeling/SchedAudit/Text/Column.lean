/-!
# Columns

A table is text in columns of a set width. A cell is filled up with blanks, on the right for names
and on the left for values, and one that is too long is left as it is. Widths count characters.
-/

namespace SchedAudit.Column

/-- Blanks. -/
def blanks (n : Nat) : String := String.ofList (List.replicate n ' ')

/-- A line of one character. -/
def ruled (mark : Char) (n : Nat) : String := String.ofList (List.replicate n mark)

/-- A cell with its text on the left. -/
def left (width : Nat) (text : String) : String := text ++ blanks (width - text.length)

/-- A cell with its text on the right. -/
def right (width : Nat) (text : String) : String := blanks (width - text.length) ++ text

/-- Lines as one text, each of them ended. -/
def unlines (lines : List String) : String := String.join (lines.map (· ++ "\n"))

end SchedAudit.Column

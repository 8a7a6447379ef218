import Mathlib.Data.List.Basic
import SchedAudit.Json.Token

/-!
# How JSON tokens are written

`Token.scan?` reads tokens from characters. Here is the other side: which characters write which
tokens. A token may be written in many ways — blanks around it, escapes in texts, forms of numbers —
so this side is a relation, `Token.AllWrittenBy`, and `scan?_of_writtenBy` says that the walk reads
back whatever was written.

* `NumberForm` is a number as it is written; its proofs keep out what is no number, such as a leading
  zero.
* `Unit.WrittenBy` is one element of a text.
* A word, which is a number or a literal, ends where a character stands that no word contains. Without
  this, `12` would also write the two numbers `1` and `2`.
-/

namespace SchedAudit.Json

/-! ## Numbers -/

/-- Digits end where something else begins. -/
theorem takeWhile_isDigit_append {digits rest : List Char} (hdigits : ∀ c ∈ digits, c.isDigit = true)
    (hrest : ∀ c, rest.head? = some c → c.isDigit = false) :
    (digits ++ rest).takeWhile Char.isDigit = digits ∧
      (digits ++ rest).dropWhile Char.isDigit = rest := by
  rw [List.takeWhile_append_of_pos hdigits, List.dropWhile_append_of_pos hdigits]
  cases rest with
  | nil => simp
  | cons c rest => simp [hrest c rfl]

/-- The exponent of a number as it is written. -/
structure ExponentForm where
  /-- the letter in front -/
  mark : Char
  /-- the sign, if there is one -/
  sign : Option Char
  /-- the digits -/
  digits : List Char
  mark_eq : mark = 'e' ∨ mark = 'E'
  sign_eq : sign = none ∨ sign = some '+' ∨ sign = some '-'
  digits_ne_nil : digits ≠ []
  isDigit : ∀ c ∈ digits, c.isDigit = true

/-- A number as it is written. -/
structure NumberForm where
  /-- whether a minus sign is in front -/
  negative : Bool
  /-- the digits before the point -/
  whole : List Char
  /-- the digits behind the point; without any there is no point -/
  fraction : List Char
  /-- the exponent, if there is one -/
  exponent : Option ExponentForm
  whole_ne_nil : whole ≠ []
  whole_isDigit : ∀ c ∈ whole, c.isDigit = true
  no_leading_zero : whole.head? = some '0' → whole.length = 1
  fraction_isDigit : ∀ c ∈ fraction, c.isDigit = true

namespace ExponentForm

variable (f : ExponentForm)

/-- The characters of an exponent. -/
def chars : List Char := f.mark :: (f.sign.toList ++ f.digits)

/-- The power of ten that an exponent is. -/
def value : Int :=
  if f.sign = some '-' then -(Decimal.ofDigits f.digits : Int) else Decimal.ofDigits f.digits

theorem isDigit_of_head? {c : Char} (h : f.digits.head? = some c) : c.isDigit = true :=
  f.isDigit c (List.mem_of_head? h)

theorem exponentPart?_chars : exponentPart? f.chars = some (some f.value) := by
  have hdigits : ¬(f.digits.isEmpty = true ∨ (!f.digits.all Char.isDigit) = true) := by
    simpa [f.digits_ne_nil] using f.isDigit
  rw [chars, exponentPart?, if_pos f.mark_eq, value]
  rcases f.sign_eq with h | h | h
  · have hminus : f.digits.head? ≠ some '-' := fun hc =>
      absurd (f.isDigit_of_head? hc) (by decide)
    have hplus : f.digits.head? ≠ some '+' := fun hc =>
      absurd (f.isDigit_of_head? hc) (by decide)
    simp only [h, Option.toList_none, List.nil_append, hminus, hplus, or_self, if_false, if_neg hdigits]
    rfl
  · simp only [h, Option.toList_some, List.cons_append, List.nil_append, List.head?_cons, or_true,
      if_true, List.drop_one, List.tail_cons, if_neg hdigits]
  · simp only [h, Option.toList_some, List.cons_append, List.nil_append, List.head?_cons, true_or,
      if_true, List.drop_one, List.tail_cons, if_neg hdigits]

end ExponentForm

namespace NumberForm

variable (f : NumberForm)

/-- The point and the digits behind it. -/
def fractionChars : List Char := if f.fraction = [] then [] else '.' :: f.fraction

/-- The characters of the exponent. -/
def exponentChars : List Char := (f.exponent.map ExponentForm.chars).getD []

/-- The characters of a number without its sign. -/
def unsignedChars : List Char := f.whole ++ (f.fractionChars ++ f.exponentChars)

/-- The characters of a number. -/
def chars : List Char := if f.negative then '-' :: f.unsignedChars else f.unsignedChars

/-- What is written. -/
def numeral : Numeral where
  negative := f.negative
  digits := Decimal.ofDigits (f.whole ++ f.fraction)
  exponent := (f.exponent.map ExponentForm.value).getD 0 - f.fraction.length
  integral := f.fraction.isEmpty && f.exponent.isNone

theorem exponentPart?_exponentChars :
    exponentPart? f.exponentChars = some (f.exponent.map ExponentForm.value) := by
  rw [exponentChars]
  cases f.exponent with
  | none => rfl
  | some e => exact e.exponentPart?_chars

/-- Neither a fraction nor an exponent begins with a digit. -/
theorem head?_exponentChars {c : Char} (h : f.exponentChars.head? = some c) :
    c.isDigit = false ∧ c ≠ '.' := by
  rw [exponentChars] at h
  cases he : f.exponent with
  | none =>
    rw [he] at h
    cases h
  | some e =>
    rw [he] at h
    obtain rfl : e.mark = c := Option.some.inj h
    rcases e.mark_eq with he | he <;> rw [he] <;> decide

theorem head?_fractionChars {c : Char}
    (h : (f.fractionChars ++ f.exponentChars).head? = some c) : c.isDigit = false := by
  rw [fractionChars] at h
  split_ifs at h with hempty
  · exact (f.head?_exponentChars h).1
  · obtain rfl : '.' = c := Option.some.inj h
    decide

theorem fractionPart?_chars :
    fractionPart? (f.fractionChars ++ f.exponentChars) = some (f.fraction, f.exponentChars) := by
  rw [fractionChars]
  split_ifs with hempty
  · rw [List.nil_append, hempty]
    -- The exponent does not begin with a point.
    cases he : f.exponentChars with
    | nil => rfl
    | cons c rest =>
      have hc := (f.head?_exponentChars (c := c) (by rw [he]; rfl)).2
      unfold fractionPart?
      split
      · rename_i heq
        cases heq
        exact absurd rfl hc
      · rfl
  · have hdigits := takeWhile_isDigit_append f.fraction_isDigit fun c hc =>
      (f.head?_exponentChars hc).1
    rw [List.cons_append, fractionPart?]
    rw [hdigits.1, hdigits.2, if_neg (by simpa using hempty)]

theorem unsigned?_chars : unsigned? f.negative f.unsignedChars = some f.numeral := by
  obtain ⟨hwhole, hrest⟩ := takeWhile_isDigit_append f.whole_isDigit fun c => f.head?_fractionChars
  have hbegin : ¬(f.whole.isEmpty = true ∨ f.whole.head? = some '0' ∧ f.whole.length ≠ 1) := by
    rintro (hempty | ⟨hzero, hlong⟩)
    · exact f.whole_ne_nil (List.isEmpty_iff.1 hempty)
    · exact hlong (f.no_leading_zero hzero)
  unfold unsigned?
  rw [unsignedChars, hwhole, hrest, if_neg hbegin, f.fractionPart?_chars]
  simp only [bind, Option.bind, f.exponentPart?_exponentChars, pure]
  rw [numeral, Option.isNone_map]

/-- The first character of a number without its sign is a digit. -/
theorem exists_unsignedChars : ∃ c rest, f.unsignedChars = c :: rest ∧ c.isDigit = true := by
  obtain ⟨c, rest, hwhole⟩ := List.exists_cons_of_ne_nil f.whole_ne_nil
  refine ⟨c, rest ++ (f.fractionChars ++ f.exponentChars), ?_, ?_⟩
  · rw [unsignedChars, hwhole, List.cons_append]
  · exact f.whole_isDigit c (hwhole ▸ List.mem_cons_self)

theorem numeral?_chars : numeral? f.chars = some f.numeral := by
  have hunsigned := f.unsigned?_chars
  rw [chars]
  cases hnegative : f.negative with
  | true =>
    rw [hnegative] at hunsigned
    exact hunsigned
  | false =>
    obtain ⟨c, rest, hchars, hdigit⟩ := f.exists_unsignedChars
    rw [hnegative, hchars] at hunsigned
    rw [if_neg Bool.false_ne_true, hchars]
    have hminus : c ≠ '-' := by
      rintro rfl
      exact absurd hdigit (by decide)
    unfold numeral?
    split
    · rename_i heq
      cases heq
      exact absurd rfl hminus
    · exact hunsigned

end NumberForm

/-! ## Texts -/

/-- The characters of one element of a text. -/
inductive Unit.WrittenBy : Unit → List Char → Prop where
  | plain {c : Char} (hquote : c ≠ '"') (hescape : c ≠ '\\') (hcontrol : 0x20 ≤ c.toNat) :
      WrittenBy (.char c) [c]
  | escape {letter c : Char} (h : escaped? letter = some c) : WrittenBy (.char c) ['\\', letter]
  | code {c₁ c₂ c₃ c₄ : Char} {d₁ d₂ d₃ d₄ : Nat} (h₁ : hexValue? c₁ = some d₁)
      (h₂ : hexValue? c₂ = some d₂) (h₃ : hexValue? c₃ = some d₃) (h₄ : hexValue? c₄ = some d₄) :
      WrittenBy (.code (16 * (16 * (16 * d₁ + d₂) + d₃) + d₄)) ['\\', 'u', c₁, c₂, c₃, c₄]

/-- The characters of a text between its quotation marks. -/
inductive Unit.AllWrittenBy : List Unit → List Char → Prop where
  | nil : AllWrittenBy [] []
  | cons {u : Unit} {units : List Unit} {chars rest : List Char} (first : u.WrittenBy chars)
      (others : AllWrittenBy units rest) : AllWrittenBy (u :: units) (chars ++ rest)

/-- The letter `u` escapes no single character. -/
theorem ne_of_escaped? {letter c : Char} (h : escaped? letter = some c) : letter ≠ 'u' := by
  rintro rfl
  cases h

theorem foldlM_of_unit {u : Unit} {chars : List Char} (h : u.WrittenBy chars) (units : List Unit)
    (found : List Token) :
    chars.foldlM Scan.step? ⟨.text units, found⟩ = some ⟨.text (u :: units), found⟩ := by
  cases h with
  | plain hquote hescape hcontrol =>
    simp [Scan.step?, hquote, hescape, Nat.not_lt.2 hcontrol]
  | escape h => simp [Scan.step?, ne_of_escaped? h, h]
  | code h₁ h₂ h₃ h₄ => simp [Scan.step?, h₁, h₂, h₃, h₄]

theorem foldlM_of_units {units : List Unit} {chars : List Char} (h : Unit.AllWrittenBy units chars)
    (before : List Unit) (found : List Token) :
    chars.foldlM Scan.step? ⟨.text before, found⟩ =
      some ⟨.text (units.reverse ++ before), found⟩ := by
  induction h generalizing before with
  | nil => rfl
  | cons first others ih =>
    rw [List.foldlM_append, foldlM_of_unit first]
    simpa using ih (_ :: before)

/-! ## Words -/

/-- The characters of a word. -/
inductive Token.WrittenBy : Token → List Char → Prop where
  | null : WrittenBy .null ['n', 'u', 'l', 'l']
  | yes : WrittenBy (.bool true) ['t', 'r', 'u', 'e']
  | no : WrittenBy (.bool false) ['f', 'a', 'l', 's', 'e']
  | number (f : NumberForm) : WrittenBy (.number f.numeral) f.chars

theorem isWordChar_of_isDigit {c : Char} (h : c.isDigit = true) : isWordChar c = true := by
  simp [isWordChar, Char.isAlphanum, h]

theorem ExponentForm.isWordChar_of_mem {f : ExponentForm} {c : Char} (h : c ∈ f.chars) :
    isWordChar c = true := by
  rw [chars, List.mem_cons, List.mem_append, Option.mem_toList] at h
  rcases h with rfl | hsign | hdigit
  · rcases f.mark_eq with hmark | hmark <;> rw [hmark] <;> decide
  · rcases f.sign_eq with heq | heq | heq <;> rw [heq] at hsign <;> cases hsign <;> decide
  · exact isWordChar_of_isDigit (f.isDigit c hdigit)

theorem NumberForm.isWordChar_of_mem {f : NumberForm} {c : Char} (h : c ∈ f.chars) :
    isWordChar c = true := by
  have hunsigned (h : c ∈ f.unsignedChars) : isWordChar c = true := by
    rw [unsignedChars, List.mem_append, List.mem_append] at h
    rcases h with h | h | h
    · exact isWordChar_of_isDigit (f.whole_isDigit c h)
    · rw [fractionChars] at h
      split_ifs at h with hempty
      · cases h
      · rcases List.mem_cons.1 h with rfl | h
        · decide
        · exact isWordChar_of_isDigit (f.fraction_isDigit c h)
    · rw [exponentChars] at h
      cases he : f.exponent with
      | none =>
        rw [he] at h
        cases h
      | some e =>
        rw [he] at h
        exact e.isWordChar_of_mem h
  rw [chars] at h
  split_ifs at h
  · rcases List.mem_cons.1 h with rfl | h
    · decide
    · exact hunsigned h
  · exact hunsigned h

/-- The first character of a number is a minus sign or a digit. -/
theorem NumberForm.exists_chars (f : NumberForm) :
    ∃ c rest, f.chars = c :: rest ∧ (c = '-' ∨ c.isDigit = true) := by
  obtain ⟨c, rest, hunsigned, hdigit⟩ := f.exists_unsignedChars
  rw [chars]
  split_ifs
  · exact ⟨'-', _, rfl, .inl rfl⟩
  · exact ⟨c, rest, hunsigned, .inr hdigit⟩

/-- A number is no literal. -/
theorem NumberForm.ofWord?_chars (f : NumberForm) :
    Token.ofWord? f.chars = some (.number f.numeral) := by
  obtain ⟨c, rest, hchars, hfirst⟩ := f.exists_chars
  have hletter (letter : Char) (hletter : letter ≠ '-') (hdigit : letter.isDigit = false)
      (others : List Char) : f.chars ≠ letter :: others := by
    intro h
    obtain rfl : c = letter := List.head_eq_of_cons_eq (hchars.symm.trans h)
    rcases hfirst with h | h
    · exact hletter h
    · exact Bool.false_ne_true (hdigit.symm.trans h)
  rw [Token.ofWord?, if_neg (hletter 'n' (by decide) (by decide) _),
    if_neg (hletter 't' (by decide) (by decide) _), if_neg (hletter 'f' (by decide) (by decide) _),
    f.numeral?_chars]
  rfl

namespace Token.WrittenBy

variable {t : Token} {word : List Char}

theorem ofWord? (h : t.WrittenBy word) : Token.ofWord? word = some t := by
  cases h with
  | null => rfl
  | yes => rfl
  | no => rfl
  | number f => exact f.ofWord?_chars

theorem ne_nil (h : t.WrittenBy word) : word ≠ [] := by
  cases h with
  | number f =>
    obtain ⟨c, rest, hchars, -⟩ := f.exists_chars
    rw [hchars]
    exact List.cons_ne_nil c rest
  | _ => exact List.cons_ne_nil _ _

theorem isWordChar (h : t.WrittenBy word) : ∀ c ∈ word, isWordChar c = true := by
  cases h with
  | number f => exact fun c => f.isWordChar_of_mem
  | _ => exact List.all_eq_true.1 (by decide)

end Token.WrittenBy

/-! ## Tokens one after the other -/

/-- The characters of a list of tokens, with blanks between them. -/
inductive Token.AllWrittenBy : List Token → List Char → Prop where
  | nil : AllWrittenBy [] []
  | blank {c : Char} {tokens : List Token} {rest : List Char} (h : isBlank c = true)
      (others : AllWrittenBy tokens rest) : AllWrittenBy tokens (c :: rest)
  | mark {c : Char} {t : Token} {tokens : List Token} {rest : List Char} (h : ofMark? c = some t)
      (others : AllWrittenBy tokens rest) : AllWrittenBy (t :: tokens) (c :: rest)
  | text {units : List Unit} {chars rest : List Char} {tokens : List Token}
      (h : Unit.AllWrittenBy units chars) (others : AllWrittenBy tokens rest) :
      AllWrittenBy (.text (String.ofList <$> Unit.pairUp? units) :: tokens)
        ('"' :: (chars ++ '"' :: rest))
  | word {t : Token} {word rest : List Char} {tokens : List Token} (h : t.WrittenBy word)
      (hend : ∀ c, rest.head? = some c → isWordChar c = false)
      (others : AllWrittenBy tokens rest) : AllWrittenBy (t :: tokens) (word ++ rest)

theorem start?_of_isWordChar {c : Char} (h : isWordChar c = true) (found : List Token) :
    Scan.start? found c = some ⟨.word [c], found⟩ := by
  have hblank : isBlank c = false := by
    by_contra hblank
    simp only [Bool.not_eq_false, isBlank, Bool.or_eq_true, beq_iff_eq] at hblank
    rcases hblank with ((rfl | rfl) | rfl) | rfl <;> exact absurd h (by decide)
  have hquote : c ≠ '"' := by
    rintro rfl
    exact absurd h (by decide)
  simp [Scan.start?, hblank, hquote, h]

theorem start?_of_ofMark? {c : Char} {t : Token} (h : Token.ofMark? c = some t)
    (found : List Token) : Scan.start? found c = some ⟨.between, t :: found⟩ := by
  unfold Token.ofMark? at h
  split at h <;> cases h <;> rfl

/-- The characters of a word but the first one. -/
theorem foldlM_of_isWordChar {word : List Char} (h : ∀ c ∈ word, isWordChar c = true)
    (before : List Char) (found : List Token) :
    word.foldlM Scan.step? ⟨.word before, found⟩ =
      some ⟨.word (word.reverse ++ before), found⟩ := by
  induction word generalizing before with
  | nil => rfl
  | cons c word ih =>
    have hc := h c List.mem_cons_self
    simpa [Scan.step?, hc] using ih (fun d hd => h d (List.mem_cons_of_mem c hd)) (c :: before)

theorem foldlM_of_word {t : Token} {word : List Char} (h : t.WrittenBy word) (found : List Token) :
    word.foldlM Scan.step? ⟨.between, found⟩ = some ⟨.word word.reverse, found⟩ := by
  obtain ⟨c, rest, rfl⟩ := List.exists_cons_of_ne_nil h.ne_nil
  have hchars := h.isWordChar
  have hfirst : Scan.step? ⟨.between, found⟩ c = some ⟨.word [c], found⟩ :=
    start?_of_isWordChar (hchars c List.mem_cons_self) found
  rw [List.foldlM_cons, hfirst]
  simpa using foldlM_of_isWordChar (fun d hd => hchars d (List.mem_cons_of_mem c hd)) [c] found

/-- After a word the walk goes on as if it stood between tokens. -/
theorem foldlM_after_word {t : Token} {word rest : List Char} (h : t.WrittenBy word)
    (hend : ∀ c, rest.head? = some c → isWordChar c = false) (found : List Token) :
    (rest.foldlM Scan.step? ⟨.word word.reverse, found⟩).bind Scan.finish? =
      (rest.foldlM Scan.step? ⟨.between, t :: found⟩).bind Scan.finish? := by
  have hword := h.ofWord?
  cases rest with
  | nil => simp [Scan.finish?, hword]
  | cons c rest => simp [Scan.step?, hend c rfl, hword]

theorem foldlM_of_writtenBy {tokens : List Token} {chars : List Char}
    (h : Token.AllWrittenBy tokens chars) (found : List Token) :
    (chars.foldlM Scan.step? ⟨.between, found⟩).bind Scan.finish? =
      some (found.reverse ++ tokens) := by
  induction h generalizing found with
  | nil => simp [Scan.finish?]
  | blank h others ih =>
    have hstep : Scan.step? ⟨.between, found⟩ _ = some ⟨.between, found⟩ := if_pos h
    rw [List.foldlM_cons, hstep]
    exact ih found
  | mark h others ih =>
    have hstep : Scan.step? ⟨.between, found⟩ _ = some ⟨.between, _ :: found⟩ :=
      start?_of_ofMark? h found
    rw [List.foldlM_cons, hstep]
    simpa using ih (_ :: found)
  | text h others ih =>
    have hstep : Scan.step? ⟨.between, found⟩ '"' = some ⟨.text [], found⟩ := rfl
    rw [List.foldlM_cons, hstep, Option.bind_eq_bind, Option.bind_some, List.foldlM_append,
      foldlM_of_units h]
    simpa [Scan.step?] using ih (_ :: found)
  | word h hend others ih =>
    rw [List.foldlM_append, foldlM_of_word h]
    simpa using (foldlM_after_word h hend found).trans (ih (_ :: found))

/-- **Tokens are read back.** Whatever way tokens are written, the walk finds them. -/
theorem scan?_of_writtenBy {tokens : List Token} {chars : List Char}
    (h : Token.AllWrittenBy tokens chars) : Token.scan? chars = some tokens :=
  foldlM_of_writtenBy h []

end SchedAudit.Json

import SchedAudit.Json.Printer
import SchedAudit.Proofs.Json.Spelling

/-!
# How JSON values are written

The tokens of a value are set: only what stands between and inside them may vary. `Json.WrittenBy` says
that a text writes a value, and `parse?_of_writtenBy` that `Json.parse?` reads the value back; so no text
writes two values.

`Json.render` is one way to write a value, if it can be written at all (`isPrintable`).
-/

namespace SchedAudit.Json

/-! ## The tokens of a value -/

mutual

/-- The tokens of a value. -/
def tokens : Json → List Token
  | .null => [.null]
  | .bool b => [.bool b]
  | .number n => [.number n]
  | .text t => [.text t]
  | .array elements => .openArray :: elementTokens elements
  | .object members => .openObject :: memberTokens members

/-- The tokens of the elements of an array, and of its end. -/
def elementTokens : List Json → List Token
  | [] => [.closeArray]
  | v :: rest => tokens v ++ moreElementTokens rest

/-- The tokens of the elements of an array after the first one, and of its end. -/
def moreElementTokens : List Json → List Token
  | [] => [.closeArray]
  | v :: rest => .comma :: (tokens v ++ moreElementTokens rest)

/-- The tokens of the members of an object, and of its end. -/
def memberTokens : List (Option String × Json) → List Token
  | [] => [.closeObject]
  | (key, v) :: rest => .text key :: .colon :: (tokens v ++ moreMemberTokens rest)

/-- The tokens of the members of an object after the first one, and of its end. -/
def moreMemberTokens : List (Option String × Json) → List Token
  | [] => [.closeObject]
  | (key, v) :: rest => .comma :: .text key :: .colon :: (tokens v ++ moreMemberTokens rest)

end

/-- A text writes a value: it consists of the tokens of the value. -/
def WrittenBy (v : Json) (source : String) : Prop := Token.AllWrittenBy v.tokens source.toList

/-! ## Reading the tokens -/

theorem push?_text {s : Stack} (h : s.expectsValue = true) (t : Option String) :
    s.push? (.text t) = s.place? (.text t) := by
  obtain ⟨frames, result⟩ := s
  cases frames with
  | nil => rfl
  | cons frame rest =>
    cases frame with
    | object => cases h
    | _ => rfl

mutual

/-- Where a value is expected, its tokens place it. -/
theorem foldlM_tokens {s : Stack} (h : s.expectsValue = true) :
    ∀ v : Json, v.tokens.foldlM Stack.push? s = s.place? v
  | .null => by simp [tokens, Stack.push?]
  | .bool _ => by simp [tokens, Stack.push?]
  | .number _ => by simp [tokens, Stack.push?]
  | .text t => by simp [tokens, push?_text h]
  | .array elements => by
    have hopen : s.push? .openArray = some ⟨.array [] false :: s.frames, s.result⟩ := if_pos h
    rw [tokens, List.foldlM_cons, hopen]
    exact foldlM_elementTokens s.frames s.result elements
  | .object members => by
    have hopen : s.push? .openObject = some ⟨.object [] false :: s.frames, s.result⟩ := if_pos h
    rw [tokens, List.foldlM_cons, hopen]
    exact foldlM_memberTokens s.frames s.result members

theorem foldlM_elementTokens (around : List Frame) (result : Option Json) :
    ∀ elements : List Json,
      (elementTokens elements).foldlM Stack.push? ⟨.array [] false :: around, result⟩ =
        Stack.place? ⟨around, result⟩ (.array elements)
  | [] => by simp [elementTokens, Stack.push?, Stack.leave?]
  | v :: rest => by
    have hplace : (tokens v).foldlM Stack.push? ⟨.array [] false :: around, result⟩ =
        some ⟨.arrayNext [v] :: around, result⟩ := foldlM_tokens rfl v
    rw [elementTokens, List.foldlM_append, hplace]
    exact foldlM_moreElementTokens around result [v] rest

theorem foldlM_moreElementTokens (around : List Frame) (result : Option Json) (before : List Json) :
    ∀ elements : List Json,
      (moreElementTokens elements).foldlM Stack.push? ⟨.arrayNext before :: around, result⟩ =
        Stack.place? ⟨around, result⟩ (.array (before.reverse ++ elements))
  | [] => by simp [moreElementTokens, Stack.push?, Stack.leave?]
  | v :: rest => by
    have hcomma : Stack.push? ⟨.arrayNext before :: around, result⟩ .comma =
        some ⟨.array before true :: around, result⟩ := rfl
    have hplace : (tokens v).foldlM Stack.push? ⟨.array before true :: around, result⟩ =
        some ⟨.arrayNext (v :: before) :: around, result⟩ := foldlM_tokens rfl v
    rw [moreElementTokens, List.foldlM_cons, hcomma, Option.bind_eq_bind, Option.bind_some,
      List.foldlM_append, hplace]
    simpa using foldlM_moreElementTokens around result (v :: before) rest

theorem foldlM_memberTokens (around : List Frame) (result : Option Json) :
    ∀ members : List (Option String × Json),
      (memberTokens members).foldlM Stack.push? ⟨.object [] false :: around, result⟩ =
        Stack.place? ⟨around, result⟩ (.object members)
  | [] => by simp [memberTokens, Stack.push?, Stack.leave?]
  | (key, v) :: rest => by
    have hplace : (tokens v).foldlM Stack.push? ⟨.objectValue [] key :: around, result⟩ =
        some ⟨.objectNext [(key, v)] :: around, result⟩ := foldlM_tokens rfl v
    have hkey : (Token.text key :: .colon :: (tokens v ++ moreMemberTokens rest)).foldlM Stack.push?
        ⟨.object [] false :: around, result⟩ =
          (tokens v ++ moreMemberTokens rest).foldlM Stack.push? ⟨.objectValue [] key :: around, result⟩ :=
      rfl
    rw [memberTokens, hkey, List.foldlM_append, hplace]
    exact foldlM_moreMemberTokens around result [(key, v)] rest

theorem foldlM_moreMemberTokens (around : List Frame) (result : Option Json)
    (before : List (Option String × Json)) :
    ∀ members : List (Option String × Json),
      (moreMemberTokens members).foldlM Stack.push? ⟨.objectNext before :: around, result⟩ =
        Stack.place? ⟨around, result⟩ (.object (before.reverse ++ members))
  | [] => by simp [moreMemberTokens, Stack.push?, Stack.leave?]
  | (key, v) :: rest => by
    have hplace : (tokens v).foldlM Stack.push? ⟨.objectValue before key :: around, result⟩ =
        some ⟨.objectNext ((key, v) :: before) :: around, result⟩ := foldlM_tokens rfl v
    have hkey : (Token.comma :: .text key :: .colon :: (tokens v ++ moreMemberTokens rest)).foldlM
        Stack.push? ⟨.objectNext before :: around, result⟩ =
          (tokens v ++ moreMemberTokens rest).foldlM Stack.push?
            ⟨.objectValue before key :: around, result⟩ := rfl
    rw [moreMemberTokens, hkey, List.foldlM_append, hplace]
    simpa using foldlM_moreMemberTokens around result ((key, v) :: before) rest

end

theorem ofTokens?_tokens (v : Json) : ofTokens? v.tokens = some v := by
  have hempty : Stack.empty.expectsValue = true := rfl
  rw [ofTokens?, foldlM_tokens hempty]
  rfl

/-- **Values are read back.** Whatever text writes a value, the value is read from it. -/
theorem parse?_of_writtenBy {v : Json} {source : String} (h : v.WrittenBy source) :
    parse? source = some v := by
  rw [parse?, scan?_of_writtenBy h]
  exact ofTokens?_tokens v

/-! ## One way to write a value -/

mutual

/-- Whether a value has a written form: every text inside pairs up to characters, and a number without
point and exponent is just its digits. -/
def isPrintable : Json → Bool
  | .number n => !n.integral || n.exponent == 0
  | .text t => t.isSome
  | .array elements => allElementsPrintable elements
  | .object members => allMembersPrintable members
  | _ => true

/-- Whether all values of a list have a written form. -/
def allElementsPrintable : List Json → Bool
  | [] => true
  | v :: rest => isPrintable v && allElementsPrintable rest

/-- Whether all members have a written form, their keys included. -/
def allMembersPrintable : List (Option String × Json) → Bool
  | [] => true
  | (key, v) :: rest => key.isSome && isPrintable v && allMembersPrintable rest

end

theorem isDigit_of_mem_toDigits (n : Nat) : ∀ c ∈ Nat.toDigits 10 n, c.isDigit = true :=
  fun _ => Nat.isDigit_of_mem_toDigits (by decide) (by decide)

theorem ofDigits_toDigits (n : Nat) : Decimal.ofDigits (Nat.toDigits 10 n) = n :=
  Nat.ofDigitChars_ten_toDigits

/-- Only zero begins with a zero. -/
theorem eq_zero_of_head?_toDigits {n : Nat} (h : (Nat.toDigits 10 n).head? = some '0') : n = 0 := by
  induction n using Nat.strongRecOn with
  | ind n ih =>
    rcases Nat.lt_or_ge n 10 with hlt | hge
    · rw [Nat.toDigits_of_lt_base hlt] at h
      have hdigit : ∀ d, d < 10 → [d.digitChar].head? = some '0' → d = 0 := by decide
      exact hdigit n hlt h
    · rw [Nat.toDigits_of_base_le (by decide) hge, List.head?_append_of_ne_nil _ Nat.toDigits_ne_nil] at h
      have := ih (n / 10) (by omega) h
      omega

/-- An exponent as `Json.render` writes it. -/
def ExponentForm.ofInt (i : Int) : ExponentForm where
  mark := 'e'
  sign := if i < 0 then some '-' else none
  digits := Nat.toDigits 10 i.natAbs
  mark_eq := .inl rfl
  sign_eq := by split_ifs <;> simp
  digits_ne_nil := Nat.toDigits_ne_nil
  isDigit := isDigit_of_mem_toDigits _

/-- A number as `Json.render` writes it. -/
def NumberForm.ofNumeral (n : Numeral) : NumberForm where
  negative := n.negative
  whole := Nat.toDigits 10 n.digits
  fraction := []
  exponent := if n.integral then none else some (.ofInt n.exponent)
  whole_ne_nil := Nat.toDigits_ne_nil
  whole_isDigit := isDigit_of_mem_toDigits _
  no_leading_zero := fun h => by rw [eq_zero_of_head?_toDigits h, Nat.toDigits_zero, List.length_singleton]
  fraction_isDigit := fun c h => by cases h

theorem ExponentForm.value_ofInt (i : Int) : (ofInt i).value = i := by
  have hdigits : Decimal.ofDigits (ofInt i).digits = i.natAbs := ofDigits_toDigits i.natAbs
  have hsign : (ofInt i).sign = if i < 0 then some '-' else none := rfl
  rw [value, hdigits, hsign]
  by_cases hnegative : i < 0
  · rw [if_pos hnegative, if_pos rfl]
    omega
  · rw [if_neg hnegative, if_neg (Option.some_ne_none '-').symm]
    omega

theorem NumberForm.chars_ofNumeral (n : Numeral) : (ofNumeral n).chars = numeralChars n := by
  obtain ⟨negative, digits, exponent, integral⟩ := n
  have hexponent : (ExponentForm.ofInt exponent).chars = 'e' :: integerChars exponent := by
    simp only [ExponentForm.chars, ExponentForm.ofInt, integerChars]
    split_ifs <;> rfl
  cases negative <;> cases integral <;>
    simp [chars, unsignedChars, fractionChars, exponentChars, numeralChars, ofNumeral, hexponent]

theorem NumberForm.numeral_ofNumeral {n : Numeral} (h : (Json.number n).isPrintable = true) :
    (ofNumeral n).numeral = n := by
  obtain ⟨negative, digits, exponent, integral⟩ := n
  cases integral with
  | true =>
    obtain rfl : exponent = 0 := by simpa [isPrintable] using h
    simp [numeral, ofNumeral, ofDigits_toDigits]
  | false => simp [numeral, ofNumeral, ofDigits_toDigits, ExponentForm.value_ofInt]

/-- The element of a text that `Json.render` writes for a character. -/
def Unit.ofChar (c : Char) : Unit := if c.toNat < 0x20 then .code c.toNat else .char c

theorem pairUp?_ofChar (chars : List Char) : Unit.pairUp? (chars.map Unit.ofChar) = some chars := by
  induction chars with
  | nil => rfl
  | cons c rest ih =>
    rw [Unit.pairUp?] at ih
    rw [Unit.pairUp?, List.map_cons, Unit.ofChar]
    split_ifs with hcontrol
    · have hleading : isLeading c.toNat = false := by simp [isLeading]; omega
      have htrailing : isTrailing c.toNat = false := by simp [isTrailing]; omega
      simp [Unit.pairUpAfter?, hleading, htrailing, ih]
    · simp [Unit.pairUpAfter?, ih]

theorem hexValue?_hexDigit : ∀ d, d < 16 → hexValue? (hexDigit d) = some d := by decide

theorem writtenBy_escapeChar (c : Char) : (Unit.ofChar c).WrittenBy (escapeChar c) := by
  unfold escapeChar
  split_ifs with hquote hescape hcontrol
  · subst hquote
    exact .escape rfl
  · subst hescape
    exact .escape rfl
  · have hcode : (Unit.code (16 * (16 * (16 * 0 + 0) + c.toNat / 16) + c.toNat % 16)).WrittenBy
        ['\\', 'u', '0', '0', hexDigit (c.toNat / 16), hexDigit (c.toNat % 16)] :=
      .code rfl rfl (hexValue?_hexDigit _ (by omega)) (hexValue?_hexDigit _ (by omega))
    have hnumber : 16 * (16 * (16 * 0 + 0) + c.toNat / 16) + c.toNat % 16 = c.toNat := by omega
    rw [Unit.ofChar, if_pos hcontrol]
    rwa [hnumber] at hcode
  · rw [Unit.ofChar, if_neg hcontrol]
    exact .plain hquote hescape (Nat.not_lt.1 hcontrol)

theorem allWrittenBy_escapeChar (chars : List Char) :
    Unit.AllWrittenBy (chars.map Unit.ofChar) (chars.flatMap escapeChar) := by
  induction chars with
  | nil => exact .nil
  | cons c rest ih => exact .cons (writtenBy_escapeChar c) ih

theorem allWrittenBy_textChars {t : Option String} {tokens : List Token} {rest : List Char}
    (h : t.isSome = true) (hrest : Token.AllWrittenBy tokens rest) :
    Token.AllWrittenBy (.text t :: tokens) (textChars t ++ rest) := by
  obtain ⟨s, rfl⟩ := Option.isSome_iff_exists.1 h
  have htext := Token.AllWrittenBy.text (allWrittenBy_escapeChar s.toList) hrest
  rw [pairUp?_ofChar] at htext
  simpa [textChars, quote] using htext

/-- Behind an element stands a comma or the end of the array. -/
theorem head?_moreElementChars {elements : List Json} {rest : List Char} {c : Char}
    (h : (moreElementChars elements ++ rest).head? = some c) : isWordChar c = false := by
  cases elements <;> (obtain rfl := Option.some.inj h; decide)

/-- Behind a member stands a comma or the end of the object. -/
theorem head?_moreMemberChars {members : List (Option String × Json)} {rest : List Char} {c : Char}
    (h : (moreMemberChars members ++ rest).head? = some c) : isWordChar c = false := by
  cases members <;> (obtain rfl := Option.some.inj h; decide)

mutual

theorem allWrittenBy_chars {tokens : List Token} {rest : List Char} :
    ∀ v : Json, v.isPrintable = true → (∀ c, rest.head? = some c → isWordChar c = false) →
      Token.AllWrittenBy tokens rest → Token.AllWrittenBy (v.tokens ++ tokens) (v.chars ++ rest)
  | .null, _, hend, hrest => .word .null hend hrest
  | .bool true, _, hend, hrest => .word .yes hend hrest
  | .bool false, _, hend, hrest => .word .no hend hrest
  | .number n, h, hend, hrest => by
    have hword := Token.AllWrittenBy.word (.number (.ofNumeral n)) hend hrest
    rwa [NumberForm.numeral_ofNumeral h, NumberForm.chars_ofNumeral] at hword
  | .text _, h, _, hrest => allWrittenBy_textChars h hrest
  | .array elements, h, _, hrest => .mark rfl (allWrittenBy_elementChars elements h hrest)
  | .object members, h, _, hrest => .mark rfl (allWrittenBy_memberChars members h hrest)

theorem allWrittenBy_elementChars {tokens : List Token} {rest : List Char} :
    ∀ elements : List Json, allElementsPrintable elements = true →
      Token.AllWrittenBy tokens rest →
        Token.AllWrittenBy (elementTokens elements ++ tokens) (elementChars elements ++ rest)
  | [], _, hrest => .mark rfl hrest
  | v :: others, h, hrest => by
    rw [allElementsPrintable, Bool.and_eq_true] at h
    rw [elementTokens, elementChars, List.append_assoc, List.append_assoc]
    exact allWrittenBy_chars v h.1 (fun c => head?_moreElementChars)
      (allWrittenBy_moreElementChars others h.2 hrest)

theorem allWrittenBy_moreElementChars {tokens : List Token} {rest : List Char} :
    ∀ elements : List Json, allElementsPrintable elements = true →
      Token.AllWrittenBy tokens rest →
        Token.AllWrittenBy (moreElementTokens elements ++ tokens) (moreElementChars elements ++ rest)
  | [], _, hrest => .mark rfl hrest
  | v :: others, h, hrest => by
    rw [allElementsPrintable, Bool.and_eq_true] at h
    rw [moreElementTokens, moreElementChars, List.cons_append, List.cons_append, List.append_assoc,
      List.append_assoc]
    exact .mark rfl (allWrittenBy_chars v h.1 (fun c => head?_moreElementChars)
      (allWrittenBy_moreElementChars others h.2 hrest))

theorem allWrittenBy_memberChars {tokens : List Token} {rest : List Char} :
    ∀ members : List (Option String × Json), allMembersPrintable members = true →
      Token.AllWrittenBy tokens rest →
        Token.AllWrittenBy (memberTokens members ++ tokens) (memberChars members ++ rest)
  | [], _, hrest => .mark rfl hrest
  | (key, v) :: others, h, hrest => by
    rw [allMembersPrintable, Bool.and_eq_true, Bool.and_eq_true] at h
    have hvalue := allWrittenBy_chars v h.1.2 (fun c => head?_moreMemberChars)
      (allWrittenBy_moreMemberChars others h.2 hrest)
    have hcolon : Token.ofMark? ':' = some .colon := rfl
    simpa [memberTokens, memberChars] using allWrittenBy_textChars h.1.1 (.mark hcolon hvalue)

theorem allWrittenBy_moreMemberChars {tokens : List Token} {rest : List Char} :
    ∀ members : List (Option String × Json), allMembersPrintable members = true →
      Token.AllWrittenBy tokens rest →
        Token.AllWrittenBy (moreMemberTokens members ++ tokens) (moreMemberChars members ++ rest)
  | [], _, hrest => .mark rfl hrest
  | (key, v) :: others, h, hrest => by
    rw [allMembersPrintable, Bool.and_eq_true, Bool.and_eq_true] at h
    have hvalue := allWrittenBy_chars v h.1.2 (fun c => head?_moreMemberChars)
      (allWrittenBy_moreMemberChars others h.2 hrest)
    have hcolon : Token.ofMark? ':' = some .colon := rfl
    have hcomma : Token.ofMark? ',' = some .comma := rfl
    simpa [moreMemberTokens, moreMemberChars] using
      Token.AllWrittenBy.mark hcomma (allWrittenBy_textChars h.1.1 (.mark hcolon hvalue))

end

/-- A value that has a written form is written by what `render` makes of it. -/
theorem writtenBy_render {v : Json} (h : v.isPrintable = true) : v.WrittenBy v.render := by
  have hchars := allWrittenBy_chars v h (fun c h => by cases h) .nil
  rw [WrittenBy, render, String.toList_ofList]
  rwa [List.append_nil, List.append_nil] at hchars

end SchedAudit.Json

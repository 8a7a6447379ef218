import Mathlib
import SchedAudit.Level
import SchedAudit.Proofs.Decimal.Nearest

/-!
# The names that tell a level

A name is taken apart at its ends and at the first underscore and the first point, and then the parts
are looked at. What is accepted is a grammar all the same (`LevelName`): as digits are neither
underscores nor points, there is one way only to write a name with parts of digits
(`splitOnce?_eq_some_iff`), and a name whose parts are no digits is refused wherever it is split.

The level is the double nearest to the decimal in the name. The number at the end takes no part in it.
-/

namespace SchedAudit

/-! ## Taking a name apart -/

namespace FileName

theorem dropSuffix?_eq_some_iff {chars stem suffix : List Char} :
    dropSuffix? suffix chars = some stem ↔ chars = stem ++ suffix := by
  rw [dropSuffix?]
  constructor
  · intro h
    split_ifs at h with hsuffix
    obtain ⟨front, rfl⟩ := List.isSuffixOf_iff_suffix.1 hsuffix
    rw [List.length_append, Nat.add_sub_cancel, List.take_left] at h
    rw [Option.some.inj h]
  · rintro rfl
    rw [if_pos (List.isSuffixOf_iff_suffix.2 (List.suffix_append stem suffix)), List.length_append,
      Nat.add_sub_cancel, List.take_left]

theorem splitOnce?_eq_some_iff {mark : Char} {chars front back : List Char} :
    splitOnce? mark chars = some (front, back) ↔ chars = front ++ mark :: back ∧ mark ∉ front := by
  have hsplit := List.takeWhile_append_dropWhile (p := (· != mark)) (l := chars)
  have hfront : mark ∉ chars.takeWhile (· != mark) := fun h => by
    simpa using List.mem_takeWhile_imp h
  constructor
  · intro h
    rw [splitOnce?] at h
    split at h
    · cases h
    · next c rest hdrop =>
      obtain ⟨rfl, rfl⟩ := Prod.mk.inj (Option.some.inj h)
      have hmark := List.head?_dropWhile_not (· != mark) chars
      rw [hdrop] at hmark hsplit
      have hc : c = mark := by simpa using hmark
      exact ⟨hc ▸ hsplit.symm, hfront⟩
  · rintro ⟨rfl, h⟩
    have hpass : ∀ c ∈ front, (c != mark) = true := by
      intro c hc
      rw [bne_iff_ne]
      rintro rfl
      exact h hc
    rw [splitOnce?, List.dropWhile_append_of_pos hpass, List.takeWhile_append_of_pos hpass]
    simp

end FileName

/-! ## Names -/

/-- A text of decimal digits, which may be empty. -/
def IsDigits (s : String) : Prop := ∀ c ∈ s.toList, '0' ≤ c ∧ c ≤ '9'

/-- The natural number that digits write. -/
def naturalOf (s : String) : ℕ := Nat.ofDigitChars 10 s.toList 0

/-- The parts of the name of a generated scenario. -/
structure LevelName where
  /-- the digits in front of the point -/
  whole : String
  /-- the digits behind the point -/
  fraction : String
  /-- the digits behind the underscore -/
  number : String
  whole_digits : IsDigits whole
  fraction_digits : IsDigits fraction
  fraction_ne : fraction ≠ ""
  number_digits : IsDigits number
  number_ne : number ≠ ""

namespace LevelName

/-- The name of a generated scenario. -/
def text (n : LevelName) : String :=
  "u" ++ n.whole ++ "." ++ n.fraction ++ "_" ++ n.number ++ ".json"

/-- The decimal in a name. -/
def decimal (n : LevelName) : ℚ :=
  naturalOf n.whole + naturalOf n.fraction / 10 ^ n.fraction.toList.length

theorem toList_text (n : LevelName) : n.text.toList =
    'u' :: ((n.whole.toList ++ '.' :: n.fraction.toList) ++ '_' :: n.number.toList ++
      FileName.scenarioSuffix) := by
  simp [text, FileName.scenarioSuffix]

end LevelName

theorem isDigits_iff {s : String} : IsDigits s ↔ s.toList.all Char.isDigit = true := by
  rw [IsDigits, List.all_eq_true]
  refine forall₂_congr fun c _ => ?_
  rw [Char.isDigit, Bool.and_eq_true, decide_eq_true_eq, decide_eq_true_eq]
  rfl

theorem IsDigits.not_mem {s : String} {c : Char} (h : IsDigits s) (hc : c.isDigit = false) :
    c ∉ s.toList := by
  intro hmem
  rw [isDigits_iff, List.all_eq_true] at h
  exact Bool.false_ne_true (hc.symm.trans (h c hmem))

theorem toList_isEmpty_eq_false {s : String} (h : s ≠ "") : s.toList.isEmpty = false := by
  rw [List.isEmpty_eq_false_iff]
  exact fun hnil => h (String.toList_inj.1 hnil)

namespace Level

/-- A name that tells a level can be taken apart. -/
theorem exists_parts {fileName : String} {level : Float} (h : ofFileName? fileName = some level) :
    ∃ whole fraction number, fileName.toList =
      'u' :: ((whole ++ '.' :: fraction) ++ '_' :: number ++ FileName.scenarioSuffix) ∧
      '.' ∉ whole ∧ '_' ∉ whole ++ '.' :: fraction := by
  rw [ofFileName?] at h
  split at h
  · next rest hname =>
    obtain ⟨stem, hstem, h⟩ := Option.bind_eq_some_iff.1 h
    obtain ⟨⟨told, number⟩, htold, h⟩ := Option.bind_eq_some_iff.1 h
    obtain ⟨⟨whole, fraction⟩, hwhole, -⟩ := Option.bind_eq_some_iff.1 h
    obtain ⟨rfl, hpoint⟩ := FileName.splitOnce?_eq_some_iff.1 hwhole
    obtain ⟨rfl, hunderscore⟩ := FileName.splitOnce?_eq_some_iff.1 htold
    obtain rfl := FileName.dropSuffix?_eq_some_iff.1 hstem
    exact ⟨whole, fraction, number, hname, hpoint, hunderscore⟩
  · cases h

/-- Once a name is taken apart, its parts decide. -/
theorem ofFileName?_of_parts {fileName : String} {whole fraction number : List Char}
    (hname : fileName.toList =
      'u' :: ((whole ++ '.' :: fraction) ++ '_' :: number ++ FileName.scenarioSuffix))
    (hpoint : '.' ∉ whole) (hunderscore : '_' ∉ whole ++ '.' :: fraction) :
    ofFileName? fileName =
      if number.isEmpty ∨ !number.all Char.isDigit ∨ fraction.isEmpty ∨
        !fraction.all Char.isDigit ∨ !whole.all Char.isDigit then none
      else some (Decimal.nearestPointed whole fraction) := by
  have hstem : FileName.dropSuffix? FileName.scenarioSuffix
      ((whole ++ '.' :: fraction) ++ '_' :: number ++ FileName.scenarioSuffix) =
        some ((whole ++ '.' :: fraction) ++ '_' :: number) :=
    FileName.dropSuffix?_eq_some_iff.2 rfl
  have htold : FileName.splitOnce? '_' ((whole ++ '.' :: fraction) ++ '_' :: number) =
      some (whole ++ '.' :: fraction, number) :=
    FileName.splitOnce?_eq_some_iff.2 ⟨rfl, hunderscore⟩
  have hwhole : FileName.splitOnce? '.' (whole ++ '.' :: fraction) = some (whole, fraction) :=
    FileName.splitOnce?_eq_some_iff.2 ⟨rfl, hpoint⟩
  simp only [ofFileName?, hname, Option.bind_eq_bind, hstem, htold, hwhole, Option.bind_some]
  rfl

/-- **The grammar.** What is accepted are the names of the grammar, and the level is read from the
digits about the point. -/
theorem ofFileName?_eq_some_iff {fileName : String} {level : Float} :
    ofFileName? fileName = some level ↔ ∃ n : LevelName, fileName = n.text ∧
      level = Decimal.nearestPointed n.whole.toList n.fraction.toList := by
  constructor
  · intro h
    obtain ⟨whole, fraction, number, hname, hpoint, hunderscore⟩ := exists_parts h
    rw [ofFileName?_of_parts hname hpoint hunderscore] at h
    split_ifs at h with hbad
    simp only [not_or, Bool.not_eq_true, Bool.not_eq_false', List.isEmpty_eq_false_iff] at hbad
    obtain ⟨hnumber, hnumber', hfraction, hfraction', hwhole'⟩ := hbad
    have hstring (chars : List Char) : ∃ s : String, chars = s.toList :=
      ⟨String.ofList chars, String.toList_ofList.symm⟩
    obtain ⟨whole, rfl⟩ := hstring whole
    obtain ⟨fraction, rfl⟩ := hstring fraction
    obtain ⟨number, rfl⟩ := hstring number
    have hne {s : String} (h : s.toList ≠ []) : s ≠ "" := fun heq => h (by rw [heq]; rfl)
    refine ⟨⟨whole, fraction, number, isDigits_iff.2 hwhole', isDigits_iff.2 hfraction',
      hne hfraction, isDigits_iff.2 hnumber', hne hnumber⟩, ?_, (Option.some.inj h).symm⟩
    rw [← String.toList_inj, LevelName.toList_text, hname]
  · rintro ⟨n, rfl, rfl⟩
    have hpoint := n.whole_digits.not_mem (c := '.') (by decide)
    have hunderscore : '_' ∉ n.whole.toList ++ '.' :: n.fraction.toList := by
      simp only [List.mem_append, List.mem_cons, not_or]
      exact ⟨n.whole_digits.not_mem (by decide), by decide, n.fraction_digits.not_mem (by decide)⟩
    rw [ofFileName?_of_parts n.toList_text hpoint hunderscore, if_neg]
    simp only [isDigits_iff.1 n.whole_digits, isDigits_iff.1 n.fraction_digits,
      isDigits_iff.1 n.number_digits, toList_isEmpty_eq_false n.fraction_ne,
      toList_isEmpty_eq_false n.number_ne]
    decide

end Level

/-! ## The decimal -/

theorem Decimal.ofDigits_eq (digits : List Char) : ofDigits digits = Nat.ofDigitChars 10 digits 0 :=
  Nat.ofDigitChars_eq_foldl.symm

/-- The digits on both sides of a point write the decimal, with the point at the end. -/
theorem LevelName.decimal_eq (n : LevelName) : n.decimal =
    (Decimal.ofDigits (n.whole.toList ++ n.fraction.toList) : ℕ) *
      10 ^ (-(n.fraction.toList.length : ℤ)) := by
  have hdigits : Decimal.ofDigits (n.whole.toList ++ n.fraction.toList) =
      10 ^ n.fraction.toList.length * naturalOf n.whole + naturalOf n.fraction := by
    rw [Decimal.ofDigits_eq, Nat.ofDigitChars_append, Nat.ofDigitChars_eq_ofDigitChars_zero]
    rfl
  have hpow : (10 : ℚ) ^ n.fraction.toList.length ≠ 0 := pow_ne_zero _ (by norm_num)
  rw [decimal, hdigits, zpow_neg, zpow_natCast]
  push_cast
  field_simp

/-- **The level is the double nearest to the decimal.** -/
theorem LevelName.isNearest_nearestPointed (n : LevelName) :
    Binary64.IsNearest (Decimal.nearestPointed n.whole.toList n.fraction.toList) n.decimal := by
  rw [LevelName.decimal_eq]
  exact Decimal.isNearest_nearest _ _

/-- **The names that tell a level, and the level they tell.** A name tells one just in case it is of the
grammar. The level is the one unsigned double that is nearest to the decimal in the name, and all names
with this decimal tell it, whatever their number. -/
theorem Level.ofFileName?_grammar :
    (∀ fileName, (Level.ofFileName? fileName).isSome = true ↔ ∃ n : LevelName, fileName = n.text) ∧
      ∀ n : LevelName, ∃ level, Binary64.IsUnsigned level ∧ Binary64.IsNearest level n.decimal ∧
        (∀ y, Binary64.IsUnsigned y → Binary64.IsNearest y n.decimal → y = level) ∧
        ∀ m : LevelName, m.whole = n.whole → m.fraction = n.fraction →
          Level.ofFileName? m.text = some level := by
  refine ⟨fun fileName => ?_, fun n => ?_⟩
  · rw [Option.isSome_iff_exists]
    constructor
    · rintro ⟨level, h⟩
      obtain ⟨n, hname, -⟩ := Level.ofFileName?_eq_some_iff.1 h
      exact ⟨n, hname⟩
    · rintro ⟨n, hname⟩
      exact ⟨_, Level.ofFileName?_eq_some_iff.2 ⟨n, hname, rfl⟩⟩
  · have hunsigned := Decimal.isUnsigned_nearest
      (Decimal.ofDigits (n.whole.toList ++ n.fraction.toList)) (-n.fraction.toList.length)
    refine ⟨_, hunsigned, n.isNearest_nearestPointed, fun y hy hnearest => ?_, ?_⟩
    · exact hnearest.unique n.isNearest_nearestPointed hy hunsigned
    · intro m hwhole hfraction
      refine Level.ofFileName?_eq_some_iff.2 ⟨m, rfl, ?_⟩
      rw [hwhole, hfraction]
      rfl

example : Level.ofFileName? "u.50_1.json" = some 0.5 := by decide +kernel

end SchedAudit

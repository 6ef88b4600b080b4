import Mathlib.Data.List.Basic
import Mathlib.Data.List.TakeWhile
import Mathlib.Tactic.Common
import Lisplet.Proofs.Reader.Scanning
import Lisplet.Proofs.Reader.Shapes

/-!
# Texts of numbers as literals

A number is written as a word, so that the scanner keeps its text in one piece, and the text of an
integer is a literal for that integer. Both rest on facts about decimal digits: which characters
they are, which values they have, and how a row of them is read.

For doubles only the first half is stated here. Whether the text of a double reads back as the same
double is a property of the double, called `Real.ReadsBack`.
-/

namespace Lisplet

/-! ## Decimal digits -/

namespace Text

/-- The value of a decimal digit is below ten. -/
lemma lt_ten_of_digitValue? {c : Char} {d : Nat} (h : digitValue? c = some d) : d < 10 := by
  obtain ⟨first, hfind, rfl⟩ := Option.map_eq_some_iff.mp h
  have hrange := List.find?_some hfind
  simp only [Bool.and_eq_true, decide_eq_true_eq] at hrange
  omega

/-- The plain digits are decimal digits, with their distance from zero as value. -/
lemma digitValue?_of_isDigit {c : Char} (h : c.isDigit = true) :
    digitValue? c = some (c.toNat - '0'.toNat) := by
  obtain ⟨hlow, hhigh⟩ := Char.isDigit_iff_toNat.mp h
  have hlow' : 48 ≤ c.toNat := hlow
  have hhigh' : c.toNat < 58 := Nat.lt_succ_of_le hhigh
  simp [digitValue?, digitZeros, hlow', hhigh']

/-- The plain digits are decimal digits. -/
lemma isDecimalDigit_of_isDigit {c : Char} (h : c.isDigit = true) : isDecimalDigit c = true := by
  rw [isDecimalDigit, digitValue?_of_isDigit h]
  rfl

/-- A row of plain digits denotes what it denotes in base ten. -/
lemma digitsValue_filterMap {digits : List Char} (h : ∀ c ∈ digits, c.isDigit = true) :
    digitsValue (digits.filterMap digitValue?) = Nat.ofDigitChars 10 digits 0 := by
  have hmap : digits.filterMap digitValue? = digits.map fun c => c.toNat - '0'.toNat := by
    rw [← List.filterMap_eq_map]
    exact List.filterMap_congr fun c hc => digitValue?_of_isDigit (h c hc)
  rw [hmap, digitsValue, List.foldl_map, Nat.ofDigitChars_eq_foldl]

/-- A row of digit values denotes less than the power of ten of its length. -/
lemma digitsValue_lt {digits : List Nat} (h : ∀ d ∈ digits, d < 10) {count : Nat}
    (hcount : digits.length ≤ count) : digitsValue digits < Nat.pow 10 count := by
  -- the fold carries the value of the digits read so far as its start
  have hfold : ∀ (digits : List Nat) (start : Nat), (∀ d ∈ digits, d < 10) →
      digits.foldl (fun value digit => 10 * value + digit) start <
        (start + 1) * 10 ^ digits.length := by
    intro digits
    induction digits with
    | nil => simp
    | cons d digits ih =>
      intro start hd
      have hstep := ih (10 * start + d) fun e he => hd e (by simp [he])
      have hd10 : d < 10 := hd d (by simp)
      calc (d :: digits).foldl (fun value digit => 10 * value + digit) start
          < (10 * start + d + 1) * 10 ^ digits.length := hstep
        _ ≤ ((start + 1) * 10) * 10 ^ digits.length := Nat.mul_le_mul_right _ (by omega)
        _ = (start + 1) * 10 ^ (d :: digits).length := by
          rw [List.length_cons, Nat.pow_succ', Nat.mul_assoc]
  have hlt : digitsValue digits < 10 ^ digits.length := by
    simpa [digitsValue] using hfold digits 0 h
  exact Nat.lt_of_lt_of_le hlt (Nat.pow_le_pow_right (by decide) hcount)

end Text

/-- The digits of an integer literal have values below ten. -/
lemma Literal.lt_ten_of_read?_integer {text : List Char} {negative : Bool} {values : List Nat}
    (h : Literal.read? text = some (.integer negative values)) : ∀ d ∈ values, d < 10 := by
  obtain ⟨mark, -, body, -, -, -, rfl⟩ := Literal.read?_eq_integer_iff.1 h
  intro d hd
  obtain ⟨c, -, hc⟩ := List.mem_filterMap.1 hd
  exact Text.lt_ten_of_digitValue? hc

/-! ## Texts of integers -/

/-- The decimal digits of a natural number are plain digits. -/
lemma isDigit_of_mem_decimal {n : Nat} : ∀ c ∈ Nat.toDigits 10 n, c.isDigit = true := fun _ hc =>
  Nat.isDigit_of_mem_toDigits (by decide) (by decide) hc

/-- The values of the decimal digits of a natural number denote it. -/
lemma digitsValue_toDigits (n : Nat) :
    Text.digitsValue ((Nat.toDigits 10 n).filterMap Text.digitValue?) = n := by
  rw [Text.digitsValue_filterMap isDigit_of_mem_decimal, Nat.ofDigitChars_ten_toDigits]

/-- The decimal digits of a natural number are a row of digits. -/
lemma toDigits_mem_digits (n : Nat) : Nat.toDigits 10 n ∈ Literal.digits :=
  ⟨Nat.toDigits_ne_nil, fun c hc => Text.isDecimalDigit_of_isDigit (isDigit_of_mem_decimal c hc)⟩

/-- The limit for integers, in digits and by size. -/
lemma length_toDigits_le_limit_iff (n : Nat) :
    (Nat.toDigits 10 n).length ≤ 4300 ↔ n < Nat.pow 10 Number.digitLimit := by
  have hlimit : Number.digitLimit = 4300 := rfl
  -- stated for all counts: the power of ten at the limit is not to be computed
  have hlength : ∀ count, 0 < count →
      ((Nat.toDigits 10 n).length ≤ count ↔ n < Nat.pow 10 count) :=
    fun _ hcount => Nat.length_toDigits_le_iff (by decide) hcount
  rw [← hlimit]
  exact hlength _ (by decide)

/-- The text of an integer is read as that integer, unless it is too long. -/
theorem ofAtom_integerText {n : Int} (h : n.natAbs < Nat.pow 10 Number.digitLimit) :
    Node.ofAtom (Number.integerText n) = .ok (.number (.int n)) := by
  have hlength : (Nat.toDigits 10 n.natAbs).length ≤ Number.digitLimit :=
    (length_toDigits_le_limit_iff n.natAbs).2 h
  have hread : Literal.read? (Number.integerText n).toList =
      some (.integer (n < 0) ((Nat.toDigits 10 n.natAbs).filterMap Text.digitValue?)) := by
    rw [Number.integerText, String.toList_ofList, Literal.read?_eq_integer_iff]
    by_cases hn : n < 0
    · simp only [hn, ↓reduceIte, decide_true]
      exact ⟨['-'], .inr (.inl rfl), _, toDigits_mem_digits _, rfl, rfl, rfl⟩
    · simp only [hn, ↓reduceIte, decide_false]
      exact ⟨[], .inl rfl, _, toDigits_mem_digits _, rfl, rfl, rfl⟩
  have hvalue :
      (if (decide (n < 0)) = true then -Int.ofNat n.natAbs else Int.ofNat n.natAbs) = n := by
    by_cases hn : n < 0
    · simp only [hn, decide_true, ↓reduceIte, Int.ofNat_eq_natCast]
      omega
    · simp only [hn, decide_false, Bool.false_eq_true, ↓reduceIte, Int.ofNat_eq_natCast]
      omega
  rw [Node.ofAtom, hread]
  simp only [Literal.value, Literal.length_filterMap_digitValue? (toDigits_mem_digits _).2, hlength,
    ↓reduceIte, digitsValue_toDigits, hvalue]
  rfl

/-- An integer that a literal denotes is within the limit. -/
lemma natAbs_lt_of_value_eq {negative : Bool} {digits : List Nat} {n : Number}
    (hdigits : ∀ d ∈ digits, d < 10) (h : (Literal.integer negative digits).value = .ok n) :
    ∃ m : Int, n = .int m ∧ m.natAbs < Nat.pow 10 Number.digitLimit := by
  unfold Literal.value at h
  by_cases hlength : digits.length ≤ Number.digitLimit
  swap
  · simp [hlength] at h
  simp only [hlength, ↓reduceIte] at h
  have hlt : Text.digitsValue digits < Nat.pow 10 Number.digitLimit :=
    Text.digitsValue_lt hdigits hlength
  refine ⟨_, (Except.ok.inj h).symm, ?_⟩
  cases negative
  · simpa using hlt
  · simpa using hlt

/-! ## Texts of numbers are words -/

/-- A plain digit may stand in an atom. -/
lemma isAtomChar_of_isDigit {c : Char} (h : c.isDigit = true) : isAtomChar c = true := by
  obtain ⟨hlow, hhigh⟩ := Char.isDigit_iff_toNat.mp h
  have hlow' : 48 ≤ c.toNat := hlow
  have hhigh' : c.toNat ≤ 57 := hhigh
  have hblank : Text.isBlank c = false := by
    simp only [Text.isBlank, Bool.or_eq_false_iff, Bool.and_eq_false_iff, decide_eq_false_iff_not,
      beq_eq_false_iff_ne]
    omega
  have hne : ∀ d : Char, d.isDigit = false → c ≠ d := by
    rintro d hd rfl
    simp [h] at hd
  simp [isAtomChar, hblank, hne '(' (by decide), hne ')' (by decide), hne '\'' (by decide),
    hne '"' (by decide)]

/-- Characters of atoms form a word if there are any. -/
lemma isWord_of_all {text : List Char} (hne : text ≠ []) (h : text.all isAtomChar = true) :
    IsWord text :=
  ⟨hne, List.all_eq_true.1 h⟩

/-- Characters that may stand in an atom form a word as soon as there is one. -/
lemma IsWord.cons {c : Char} {text : List Char} (hc : isAtomChar c = true)
    (h : ∀ d ∈ text, isAtomChar d = true) : IsWord (c :: text) := by
  refine ⟨by simp, ?_⟩
  intro d hd
  rcases List.mem_cons.mp hd with rfl | hd
  · exact hc
  · exact h d hd

/-- The text of an integer is a word. -/
lemma isWord_integerText (n : Int) : IsWord (Number.integerText n).toList := by
  have hdigits : ∀ c ∈ Nat.toDigits 10 n.natAbs, isAtomChar c = true := fun c hc =>
    isAtomChar_of_isDigit (isDigit_of_mem_decimal c hc)
  rw [Number.integerText, String.toList_ofList]
  split_ifs
  · exact IsWord.cons (by decide) hdigits
  · exact ⟨Nat.toDigits_ne_nil, hdigits⟩

namespace Real

/-- The digits of a decimal without trailing zeros are among its digits. -/
lemma isAtomChar_of_mem_scientific {d : Decimal} : ∀ c ∈ d.scientific.1, isAtomChar c = true := by
  intro c hc
  have hmem : c ∈ Nat.toDigits 10 d.digits := by
    have hdrop : c ∈ (Nat.toDigits 10 d.digits).reverse.dropWhile (· == '0') := by
      simpa [Decimal.scientific] using hc
    exact List.mem_reverse.mp ((List.dropWhile_sublist _).subset hdrop)
  exact isAtomChar_of_isDigit (isDigit_of_mem_decimal c hmem)

/-- Digits written positionally form a word. -/
lemma isWord_positional {digits : List Char} (exponent : Int)
    (h : ∀ c ∈ digits, isAtomChar c = true) : IsWord (positional digits exponent) := by
  have hzeros : ∀ count, ∀ c ∈ List.replicate count '0', isAtomChar c = true := by
    intro count c hc
    rw [List.eq_of_mem_replicate hc]
    decide
  unfold positional
  dsimp only
  split_ifs
  · refine ⟨by simp, ?_⟩
    intro c hc
    simp only [List.mem_append] at hc
    rcases hc with (hc | hc) | hc
    · exact h c hc
    · exact hzeros _ c hc
    · exact List.all_eq_true.1 rfl c hc
  · refine ⟨by simp, ?_⟩
    intro c hc
    rcases List.mem_append.mp hc with hc | hc
    · exact h c (List.mem_of_mem_take hc)
    · rcases List.mem_cons.mp hc with rfl | hc
      · decide
      · exact h c (List.mem_of_mem_drop hc)
  · refine ⟨by simp, ?_⟩
    intro c hc
    simp only [List.cons_append, List.mem_cons, List.mem_append] at hc
    rcases hc with rfl | rfl | hc | hc
    · decide
    · decide
    · exact hzeros _ c hc
    · exact h c hc

/-- Digits written with an exponent form a word. -/
lemma isWord_exponential {digits : List Char} (exponent : Int)
    (h : ∀ c ∈ digits, isAtomChar c = true) : IsWord (exponential digits exponent) := by
  have hpower : ∀ c ∈ Nat.toDigits 10 exponent.natAbs, isAtomChar c = true := fun c hc =>
    isAtomChar_of_isDigit (isDigit_of_mem_decimal c hc)
  have htail : ∀ c ∈ 'e' :: (if exponent < 0 then '-' else '+') ::
      (if (Nat.toDigits 10 exponent.natAbs).length < 2 then
        '0' :: Nat.toDigits 10 exponent.natAbs else Nat.toDigits 10 exponent.natAbs),
      isAtomChar c = true := by
    intro c hc
    rcases List.mem_cons.mp hc with rfl | hc
    · decide
    rcases List.mem_cons.mp hc with rfl | hc
    · split_ifs
      · decide
      · decide
    split_ifs at hc
    · rcases List.mem_cons.mp hc with rfl | hc
      · decide
      · exact hpower c hc
    · exact hpower c hc
  unfold exponential
  refine ⟨by simp, ?_⟩
  intro c hc
  rcases List.mem_append.mp hc with hc | hc
  · split at hc
    · simp at hc
    · exact h c hc
    · rename_i first rest hrest
      rcases List.mem_cons.mp hc with rfl | hc
      · exact h c (by simp)
      rcases List.mem_cons.mp hc with rfl | hc
      · decide
      · exact h c (by simp [hc])
  · exact htail c hc

/-- The text of a decimal is a word. -/
lemma isWord_decimalText (d : Decimal) : IsWord d.text := by
  unfold Decimal.text
  simp only
  split_ifs
  · exact isWord_positional _ isAtomChar_of_mem_scientific
  · exact isWord_exponential _ isAtomChar_of_mem_scientific

/-- The text of a double is a word, also when the double is infinite or undefined. -/
theorem isWord_text (x : Float) : IsWord (Real.text x).toList := by
  unfold Real.text
  split
  · exact isWord_of_all (by decide) rfl
  · split_ifs
    · exact isWord_of_all (by decide) rfl
    · exact isWord_of_all (by decide) rfl
  · rename_i negative mantissa shift hshape
    have hdistance : IsWord
        (if mantissa = 0 then ['0', '.', '0'] else (shortest mantissa shift).text) := by
      split_ifs
      · exact isWord_of_all (by decide) rfl
      · exact isWord_decimalText _
    simp only [String.toList_ofList]
    cases negative
    · exact hdistance
    · exact IsWord.cons (by decide) hdistance.2

/-- The text of a double is read as the same double. -/
def ReadsBack (x : Float) : Prop :=
  Node.ofAtom (Real.text x) = .ok (.number (.real x))

/-- A text that is no literal reads as a name, never as a number. -/
lemma not_number_of_read?_eq_none {text : String} (h : Literal.read? text.toList = none)
    (n : Number) : Node.ofAtom text ≠ .ok (.number n) := by
  rw [Node.ofAtom, h]
  simp

/-- Only finite doubles read back: the texts of the others are names. -/
theorem finite_of_readsBack {x : Float} (h : ReadsBack x) :
    ∃ negative mantissa shift, shape x = .finite negative mantissa shift := by
  cases hshape : shape x with
  | undefined =>
    have htext : Real.text x = "nan" := by simp only [Real.text, hshape]
    rw [ReadsBack, htext] at h
    exact absurd h (not_number_of_read?_eq_none (by decide) _)
  | infinite negative =>
    have htext : Real.text x = if negative then "-inf" else "inf" := by
      simp only [Real.text, hshape]
    rw [ReadsBack, htext] at h
    cases negative
    · exact absurd h (not_number_of_read?_eq_none (by decide) _)
    · exact absurd h (not_number_of_read?_eq_none (by decide) _)
  | finite negative mantissa shift => exact ⟨negative, mantissa, shift, rfl⟩

end Real

end Lisplet

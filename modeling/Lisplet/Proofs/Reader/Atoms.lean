import Lisplet.Proofs.Reader.Literals
import Mathlib.Data.Nat.Digits.Defs

/-!
# What atoms are

An atom is an integer, a double or a name, or it is refused for the number of its digits. Which of
these it is depends on its shape only, and an integer is the number that its digits denote in base
ten, whatever scripts they are from.
-/

namespace Lisplet

/-- The integer that a sign and a row of digits denote in base ten. -/
def Literal.signedValue (mark body : List Char) : Int :=
  (if mark = ['-'] then -1 else 1) *
    (Nat.ofDigits (10 : Nat) (body.filterMap Text.digitValue?).reverse : Nat)

/-- The number that a row of digit values denotes, the last digit counting one. -/
lemma Text.digitsValue_eq_ofDigits (values : List Nat) :
    Text.digitsValue values = Nat.ofDigits 10 values.reverse := by
  rw [Text.digitsValue, List.foldl_eq_foldr_reverse, Nat.ofDigits_eq_foldr]
  simp only [Nat.cast_id, Nat.add_comm]

open Literal

namespace Node

variable {text : String}

/-- An atom of the shape of an integer literal is that integer, unless it has too many digits. -/
lemma ofAtom_of_integer {mark body : List Char} (hmark : mark ∈ optional sign)
    (hbody : body ∈ digits) (htext : mark ++ body = text.toList) :
    Node.ofAtom text =
      if body.length ≤ 4300 then .ok (.number (.int (signedValue mark body)))
      else .error (.literalTooLong body.length) := by
  have hread := read?_eq_integer_iff.2 ⟨mark, hmark, body, hbody, htext, rfl, rfl⟩
  have hlimit : Number.digitLimit = 4300 := rfl
  have hvalue : (if (decide (mark = ['-'])) = true
      then -Int.ofNat (Text.digitsValue (body.filterMap Text.digitValue?))
      else Int.ofNat (Text.digitsValue (body.filterMap Text.digitValue?))) =
        signedValue mark body := by
    rw [Text.digitsValue_eq_ofDigits, signedValue]
    by_cases hminus : mark = ['-']
    · simp [hminus]
    · simp [hminus]
  rw [Node.ofAtom, hread]
  simp only [Literal.value, length_filterMap_digitValue? hbody.2, hlimit, hvalue]
  split_ifs
  · rfl
  · rfl

/-- An atom of any other shape is a double if it is a numeral, and otherwise a name. -/
lemma ofAtom_of_not_integer (hinteger : text.toList ∉ integers) :
    (text.toList ∈ numerals ∧ ∃ x, Node.ofAtom text = .ok (.number (.real x))) ∨
      (text.toList ∉ numerals ∧ Node.ofAtom text = .ok (.identifier text)) := by
  by_cases hnumeral : text.toList ∈ numerals
  · obtain ⟨negative, whole, fraction, power, hread⟩ :=
      exists_read?_eq_real_iff.2 ⟨hnumeral, hinteger⟩
    have hvalue : Node.ofAtom text =
        (Literal.real negative whole fraction power).value.map Node.number := by
      rw [Node.ofAtom, hread]
    exact .inl ⟨hnumeral, _, hvalue⟩
  · refine .inr ⟨hnumeral, ?_⟩
    rw [Node.ofAtom, read?_eq_none_of_not_mem hinteger hnumeral]

/-- An atom that is neither a double nor a name has the shape of an integer literal. -/
lemma mem_integers_of_ofAtom_ne (hreal : ∀ x, Node.ofAtom text ≠ .ok (.number (.real x)))
    (hname : Node.ofAtom text ≠ .ok (.identifier text)) : text.toList ∈ integers := by
  by_contra hinteger
  rcases ofAtom_of_not_integer hinteger with ⟨-, x, hx⟩ | ⟨-, hidentifier⟩
  · exact hreal x hx
  · exact hname hidentifier

/-- An atom of the shape of an integer literal is no double and no name. -/
lemma ofAtom_ne_of_mem_integers (hinteger : text.toList ∈ integers) (x : Float) (name : String) :
    Node.ofAtom text ≠ .ok (.number (.real x)) ∧ Node.ofAtom text ≠ .ok (.identifier name) := by
  obtain ⟨mark, hmark, body, hbody, htext⟩ := hinteger
  rw [ofAtom_of_integer hmark hbody htext]
  split_ifs
  · simp
  · simp

/-- An atom is an integer if and only if it consists of at most 4300 digits, with or without a sign.
-/
lemma ofAtom_eq_int_iff {n : Int} : Node.ofAtom text = .ok (.number (.int n)) ↔
    ∃ mark ∈ optional sign, ∃ body ∈ digits, mark ++ body = text.toList ∧ body.length ≤ 4300 ∧
      n = signedValue mark body := by
  constructor
  · intro h
    have hinteger : text.toList ∈ integers := mem_integers_of_ofAtom_ne (by simp [h]) (by simp [h])
    obtain ⟨mark, hmark, body, hbody, htext⟩ := hinteger
    rw [ofAtom_of_integer hmark hbody htext] at h
    split_ifs at h with hlength
    exact ⟨mark, hmark, body, hbody, htext, hlength, by simpa using h.symm⟩
  · rintro ⟨mark, hmark, body, hbody, htext, hlength, rfl⟩
    rw [ofAtom_of_integer hmark hbody htext, if_pos hlength]

/-- An atom is refused if and only if it is an integer with more than 4300 digits. -/
lemma ofAtom_eq_error_iff {error : Error} : Node.ofAtom text = .error error ↔
    ∃ mark ∈ optional sign, ∃ body ∈ digits, mark ++ body = text.toList ∧ 4300 < body.length ∧
      error = .literalTooLong body.length := by
  constructor
  · intro h
    have hinteger : text.toList ∈ integers := mem_integers_of_ofAtom_ne (by simp [h]) (by simp [h])
    obtain ⟨mark, hmark, body, hbody, htext⟩ := hinteger
    rw [ofAtom_of_integer hmark hbody htext] at h
    split_ifs at h with hlength
    exact ⟨mark, hmark, body, hbody, htext, by omega, (Except.error.inj h).symm⟩
  · rintro ⟨mark, hmark, body, hbody, htext, hlength, rfl⟩
    rw [ofAtom_of_integer hmark hbody htext, if_neg (by omega)]

/-- An atom is a real number if and only if it is a numeral but no integer. -/
lemma exists_ofAtom_eq_real_iff : (∃ x, Node.ofAtom text = .ok (.number (.real x))) ↔
    text.toList ∈ numerals ∧ text.toList ∉ integers := by
  constructor
  · rintro ⟨x, h⟩
    have hinteger : text.toList ∉ integers := fun hmem =>
      (ofAtom_ne_of_mem_integers hmem x text).1 h
    rcases ofAtom_of_not_integer hinteger with ⟨hnumeral, -⟩ | ⟨-, hname⟩
    · exact ⟨hnumeral, hinteger⟩
    · simp [hname] at h
  · rintro ⟨hnumeral, hinteger⟩
    rcases ofAtom_of_not_integer hinteger with ⟨-, hreal⟩ | ⟨hnone, -⟩
    · exact hreal
    · exact absurd hnumeral hnone

/-- An atom is a name if and only if it is no number. -/
lemma ofAtom_eq_identifier_iff : Node.ofAtom text = .ok (.identifier text) ↔
    text.toList ∉ integers ∧ text.toList ∉ numerals := by
  constructor
  · intro h
    have hinteger : text.toList ∉ integers := fun hmem =>
      (ofAtom_ne_of_mem_integers hmem 0 text).2 h
    rcases ofAtom_of_not_integer hinteger with ⟨-, x, hreal⟩ | ⟨hnone, -⟩
    · simp [hreal] at h
    · exact ⟨hinteger, hnone⟩
  · rintro ⟨hinteger, hnone⟩
    rcases ofAtom_of_not_integer hinteger with ⟨hnumeral, -⟩ | ⟨-, hname⟩
    · exact absurd hnumeral hnone
    · exact hname

end Node

/-- Numeric literals are recognized by their shapes. An atom is an integer exactly if it has the
shape of an integer literal and at most 4300 digits, and then it is the integer that the digits
denote in base ten. With more digits, leading zeros counted, it is refused. It is a double exactly
if it is any other numeral, and in all other cases it is a name. In particular the texts of integers
are literals for these integers. -/
theorem atoms_recognized_by_shape :
    (∀ (text : String) (n : Int), Node.ofAtom text = .ok (.number (.int n)) ↔
      ∃ mark ∈ optional sign, ∃ body ∈ digits, mark ++ body = text.toList ∧ body.length ≤ 4300 ∧
        n = signedValue mark body) ∧
    (∀ (text : String) (error : Error), Node.ofAtom text = .error error ↔
      ∃ mark ∈ optional sign, ∃ body ∈ digits, mark ++ body = text.toList ∧ 4300 < body.length ∧
        error = .literalTooLong body.length) ∧
    (∀ count, (Error.literalTooLong count).kind = .hostValue) ∧
    (∀ text : String, (∃ x, Node.ofAtom text = .ok (.number (.real x))) ↔
      text.toList ∈ numerals ∧ text.toList ∉ integers) ∧
    (∀ text : String, Node.ofAtom text = .ok (.identifier text) ↔
      text.toList ∉ integers ∧ text.toList ∉ numerals) ∧
    ∀ z : Int, (Nat.toDigits 10 z.natAbs).length ≤ 4300 →
      ∃ text, (Number.int z).text = some text ∧ Node.ofAtom text = .ok (.number (.int z)) := by
  refine ⟨fun _ _ => Node.ofAtom_eq_int_iff, fun _ _ => Node.ofAtom_eq_error_iff, fun _ => rfl,
    fun _ => Node.exists_ofAtom_eq_real_iff, fun _ => Node.ofAtom_eq_identifier_iff, ?_⟩
  intro z hz
  have hlimit : z.natAbs < Nat.pow 10 Number.digitLimit :=
    (length_toDigits_le_limit_iff z.natAbs).1 hz
  refine ⟨Number.integerText z, ?_, ofAtom_integerText hlimit⟩
  rw [Number.text, if_pos hlimit]

/-- A negative integer with digits of two scripts, a row of zeros that is too long, a fraction with
an exponent, a name that starts with a digit, and an integer that is written and read. -/
theorem atoms_of_many_shapes :
    Node.ofAtom "-४2" = .ok (.number (.int (-42))) ∧
    Node.ofAtom (String.ofList (List.replicate 4301 '0')) = .error (.literalTooLong 4301) ∧
    ".5E-3".toList ∈ numerals ∧
    Node.ofAtom "1_0" = .ok (.identifier "1_0") ∧ "1_0".toList ∉ numerals ∧
    (Nat.toDigits 10 (-120 : Int).natAbs).length ≤ 4300 ∧
    ∃ text, (Number.int (-120)).text = some text ∧
      Node.ofAtom text = .ok (.number (.int (-120))) := by
  obtain ⟨hint, herror, -, hreal, hname, hwritten⟩ := atoms_recognized_by_shape
  have hzeros : ∀ count, 0 < count → List.replicate count '0' ∈ digits := by
    intro count hcount
    refine ⟨by simpa using hcount.ne', fun c hc => ?_⟩
    rw [List.eq_of_mem_replicate hc]
    decide
  refine ⟨(hint _ _).2 ⟨['-'], .inr (.inl rfl), ['४', '2'], ⟨by simp, List.all_eq_true.1 rfl⟩, rfl,
    by decide, rfl⟩, ?_, ((hreal _).1 ⟨_, rfl⟩).1, rfl, ((hname _).1 rfl).2, by decide,
    hwritten _ (by decide)⟩
  refine (herror _ _).2 ⟨[], .inl rfl, List.replicate 4301 '0', hzeros _ (by decide), ?_, ?_, ?_⟩
  · rw [String.toList_ofList, List.nil_append]
  · rw [List.length_replicate]
    decide
  · rw [List.length_replicate]

end Lisplet

import Lisplet.Literal
import Mathlib.Computability.Language
import Mathlib.Data.List.TakeWhile
import Mathlib.Tactic.Common

/-!
# The shapes of literals

Which texts are literals is said by two shapes. An integer literal is a row of digits with an
optional sign. A numeral in general has digits before or after an optional point, and an optional
exponent behind them. The shapes are languages, put together from smaller ones, and they overlap:
every integer literal is a numeral too, and a row of digits can be cut in two in several ways.

The reader of literals never tries a second way. It takes the sign, then as many digits as there
are, and so on. Since no digit is a sign, a point or the letter of an exponent, nothing is lost by
this: the reader accepts exactly the texts that have one of the shapes.
-/

namespace Lisplet.Literal

/-! ## Shapes -/

/-- A shape, or nothing. -/
def optional (shape : Language Char) : Language Char :=
  1 + shape

/-- A sign. -/
def sign : Language Char :=
  {['-'], ['+']}

/-- One or more decimal digits, of any scripts. -/
def digits : Language Char :=
  {text | text ≠ [] ∧ ∀ c ∈ text, Text.isDecimalDigit c = true}

/-- The point between whole digits and fraction. -/
def point : Language Char :=
  {['.']}

/-- A power of ten. -/
def exponent : Language Char :=
  ({['e'], ['E']} : Language Char) * optional sign * digits

/-- The shape of an integer literal. -/
def integers : Language Char :=
  optional sign * digits

/-- The shape of a numeric literal. -/
def numerals : Language Char :=
  optional sign * (digits * optional point * optional digits + point * digits) * optional exponent

variable {text mark rest body : List Char} {values : List Nat}

/-- What is optional may be empty. -/
lemma mem_optional_iff {shape : Language Char} :
    text ∈ optional shape ↔ text = [] ∨ text ∈ shape := by
  rw [optional, Language.mem_add, Language.mem_one]

/-- A point is one character. -/
lemma mem_point_iff : text ∈ point ↔ text = ['.'] := Iff.rfl

/-- An exponent is a letter, a sign or none, and digits. -/
lemma mem_exponent_iff : text ∈ exponent ↔
    ∃ c mark body, (c = 'e' ∨ c = 'E') ∧ mark ∈ optional sign ∧ body ∈ digits ∧
      text = c :: (mark ++ body) := by
  simp only [exponent, Language.mem_mul]
  constructor
  · rintro ⟨_, ⟨letter, hletter, mark, hmark, rfl⟩, body, hbody, rfl⟩
    rcases hletter with rfl | rfl
    · exact ⟨'e', mark, body, .inl rfl, hmark, hbody, rfl⟩
    · exact ⟨'E', mark, body, .inr rfl, hmark, hbody, rfl⟩
  · rintro ⟨c, mark, body, hc, hmark, hbody, rfl⟩
    refine ⟨c :: mark, ⟨[c], ?_, mark, hmark, rfl⟩, body, hbody, rfl⟩
    rcases hc with rfl | rfl
    · exact .inl rfl
    · exact .inr rfl

/-! ## Signs -/

/-- A sign is taken off a text that goes on without a second one. -/
lemma takeSign_append (hmark : mark ∈ optional sign)
    (hrest : ∀ c ∈ rest.head?, c ≠ '-' ∧ c ≠ '+') :
    takeSign (mark ++ rest) = (decide (mark = ['-']), rest) := by
  rcases mem_optional_iff.1 hmark with rfl | rfl | rfl
  · rw [List.nil_append]
    unfold takeSign
    split
    · exact absurd rfl (hrest _ rfl).1
    · exact absurd rfl (hrest _ rfl).2
    · rfl
  · rfl
  · rfl

/-- Every text is its sign, or nothing, and the rest. -/
lemma exists_takeSign (text : List Char) : ∃ mark ∈ optional sign,
    mark ++ (takeSign text).2 = text ∧ (takeSign text).1 = decide (mark = ['-']) := by
  unfold takeSign
  split
  · exact ⟨['-'], mem_optional_iff.2 (.inr (.inl rfl)), rfl, rfl⟩
  · exact ⟨['+'], mem_optional_iff.2 (.inr (.inr rfl)), rfl, rfl⟩
  · exact ⟨[], mem_optional_iff.2 (.inl rfl), rfl, rfl⟩

/-! ## Digits -/

/-- Every digit has a value. -/
lemma length_filterMap_digitValue? (h : ∀ c ∈ body, Text.isDecimalDigit c = true) :
    (body.filterMap Text.digitValue?).length = body.length := by
  rw [List.length_filterMap_eq_countP, List.countP_eq_length]
  exact h

/-- Digits are taken off a text that goes on without another one. -/
lemma takeDigits_append (hbody : ∀ c ∈ body, Text.isDecimalDigit c = true)
    (hrest : ∀ c ∈ rest.head?, Text.isDecimalDigit c = false) :
    takeDigits (body ++ rest) = (body.filterMap Text.digitValue?, rest) := by
  have hstop : rest.takeWhile Text.isDecimalDigit = [] ∧
      rest.dropWhile Text.isDecimalDigit = rest := by
    cases rest with
    | nil => exact ⟨rfl, rfl⟩
    | cons c rest =>
      have hc := hrest c rfl
      exact ⟨List.takeWhile_cons_of_neg (by simp [hc]), List.dropWhile_cons_of_neg (by simp [hc])⟩
  rw [takeDigits, List.takeWhile_append_of_pos hbody, List.dropWhile_append_of_pos hbody, hstop.1,
    hstop.2, List.append_nil]

/-- Every text is the digits at its start and the rest. -/
lemma exists_takeDigits (text : List Char) : ∃ body,
    (∀ c ∈ body, Text.isDecimalDigit c = true) ∧ body ++ (takeDigits text).2 = text ∧
      (takeDigits text).1 = body.filterMap Text.digitValue? :=
  ⟨text.takeWhile Text.isDecimalDigit, fun _ hc => List.mem_takeWhile_imp hc,
    List.takeWhile_append_dropWhile, rfl⟩

/-- A text that starts with digits has no sign. -/
lemma head?_of_mem_digits (h : body ∈ digits) (rest : List Char) :
    ∀ c ∈ (body ++ rest).head?, c ≠ '-' ∧ c ≠ '+' := by
  obtain ⟨hne, hall⟩ := h
  cases body with
  | nil => exact absurd rfl hne
  | cons d body =>
    intro c hc
    obtain rfl : d = c := by simpa using hc
    have hd : Text.isDecimalDigit d = true := hall d List.mem_cons_self
    constructor
    · rintro rfl
      exact absurd hd (by decide)
    · rintro rfl
      exact absurd hd (by decide)

/-- A row of digits is taken whole, and at least one value is left. -/
lemma exists_takeDigits_eq (h : body ∈ digits) : ∃ digit more,
    body.filterMap Text.digitValue? = digit :: more ∧ takeDigits body = (digit :: more, []) := by
  have hne : body.filterMap Text.digitValue? ≠ [] := by
    rw [← List.length_pos_iff, length_filterMap_digitValue? h.2, List.length_pos_iff]
    exact h.1
  obtain ⟨digit, more, hvalues⟩ := List.exists_cons_of_ne_nil hne
  have htake : takeDigits (body ++ []) = (body.filterMap Text.digitValue?, []) :=
    takeDigits_append h.2 (by simp)
  rw [List.append_nil, hvalues] at htake
  exact ⟨digit, more, hvalues, htake⟩

/-- A text whose digits are taken whole is a row of digits. -/
lemma mem_digits_of_takeDigits {digit : Nat} {more : List Nat}
    (h : takeDigits text = (digit :: more, [])) :
    text ∈ digits ∧ text.filterMap Text.digitValue? = digit :: more := by
  obtain ⟨body, hbody, happend, hvalues⟩ := exists_takeDigits text
  rw [h, List.append_nil] at happend
  subst happend
  rw [h] at hvalues
  refine ⟨⟨?_, hbody⟩, hvalues.symm⟩
  rintro rfl
  simp at hvalues

/-! ## Exponents -/

/-- The texts that spell an exponent are those of its shape, and the empty one. -/
lemma isSome_exponent?_iff : (exponent? text).isSome ↔ text ∈ optional exponent := by
  rw [mem_optional_iff, mem_exponent_iff]
  constructor
  · intro h
    cases text with
    | nil => exact .inl rfl
    | cons c rest =>
      obtain ⟨mark, hmark, hrest, -⟩ := exists_takeSign rest
      rw [exponent?] at h
      split_ifs at h with hc
      · simp only at h
        split at h
        · rename_i htake
          obtain ⟨hbody, -⟩ := mem_digits_of_takeDigits htake
          refine .inr ⟨c, mark, _, by simpa using hc, hmark, hbody, ?_⟩
          rw [hrest]
        · simp at h
      · simp at h
  · rintro (rfl | ⟨c, mark, body, hc, hmark, hbody, rfl⟩)
    · rfl
    · obtain ⟨digit, more, -, htake⟩ := exists_takeDigits_eq hbody
      have hhead := head?_of_mem_digits hbody []
      rw [List.append_nil] at hhead
      rw [exponent?, if_pos (by simpa using hc), takeSign_append hmark hhead]
      simp only [htake, Option.isSome_some]

/-! ## Integer literals -/

/-- The integer literals are the texts of their shape, with the values of their digits. -/
lemma read?_eq_integer_iff {negative : Bool} :
    read? text = some (.integer negative values) ↔
      ∃ mark ∈ optional sign, ∃ body ∈ digits, mark ++ body = text ∧
        negative = decide (mark = ['-']) ∧ values = body.filterMap Text.digitValue? := by
  constructor
  · intro h
    obtain ⟨mark, hmark, htext, hnegative⟩ := exists_takeSign text
    unfold read? at h
    simp only at h
    split at h
    · rename_i digit more htake
      obtain ⟨hbody, hvalues⟩ := mem_digits_of_takeDigits htake
      obtain ⟨rfl, rfl⟩ : (takeSign text).1 = negative ∧ digit :: more = values := by
        simpa using h
      exact ⟨mark, hmark, _, hbody, htext, hnegative, hvalues.symm⟩
    · split_ifs at h
      simp at h
    · simp at h
    · simp at h
  · rintro ⟨mark, hmark, body, hbody, rfl, rfl, rfl⟩
    obtain ⟨digit, more, hvalues, htake⟩ := exists_takeDigits_eq hbody
    have hhead := head?_of_mem_digits hbody []
    rw [List.append_nil] at hhead
    rw [read?, takeSign_append hmark hhead]
    simp only [htake, hvalues]

/-- The texts that are integer literals are those of the shape. -/
lemma exists_read?_eq_integer_iff :
    (∃ negative values, read? text = some (.integer negative values)) ↔ text ∈ integers := by
  constructor
  · rintro ⟨negative, values, h⟩
    obtain ⟨mark, hmark, body, hbody, htext, -⟩ := read?_eq_integer_iff.1 h
    exact ⟨mark, hmark, body, hbody, htext⟩
  · rintro ⟨mark, hmark, body, hbody, htext⟩
    exact ⟨_, _, read?_eq_integer_iff.2 ⟨mark, hmark, body, hbody, htext, rfl, rfl⟩⟩

/-! ## Numeric literals -/

/-- Optional digits are any number of digits. -/
lemma mem_optional_digits_iff :
    text ∈ optional digits ↔ ∀ c ∈ text, Text.isDecimalDigit c = true := by
  rw [mem_optional_iff]
  constructor
  · rintro (rfl | ⟨-, h⟩)
    · simp
    · exact h
  · intro h
    by_cases hne : text = []
    · exact .inl hne
    · exact .inr ⟨hne, h⟩

/-- A numeral has digits before its exponent, either without a point, or around a point and on at
least one side of it. -/
lemma mem_numerals_iff : text ∈ numerals ↔
    ∃ mark ∈ optional sign, ∃ tail ∈ optional exponent,
      (∃ whole ∈ digits, mark ++ (whole ++ tail) = text) ∨
      ∃ whole ∈ optional digits, ∃ fraction ∈ optional digits, (whole ≠ [] ∨ fraction ≠ []) ∧
        mark ++ (whole ++ '.' :: (fraction ++ tail)) = text := by
  simp only [numerals, Language.mem_mul, Language.mem_add]
  constructor
  · rintro ⟨_, ⟨mark, hmark, middle, hmiddle, rfl⟩, tail, htail, rfl⟩
    refine ⟨mark, hmark, tail, htail, ?_⟩
    rcases hmiddle with ⟨_, ⟨whole, hwhole, dot, hdot, rfl⟩, fraction, hfraction, rfl⟩ |
      ⟨dot, hdot, fraction, hfraction, rfl⟩
    · rcases mem_optional_iff.1 hdot with rfl | rfl
      · -- without a point there is only one row of digits
        have hall : ∀ c ∈ whole ++ fraction, Text.isDecimalDigit c = true := by
          intro c hc
          rcases List.mem_append.1 hc with hc | hc
          · exact hwhole.2 c hc
          · exact mem_optional_digits_iff.1 hfraction c hc
        have hne : whole ++ fraction ≠ [] := by simp [hwhole.1]
        exact .inl ⟨whole ++ fraction, ⟨hne, hall⟩, by simp⟩
      · exact .inr ⟨whole, mem_optional_iff.2 (.inr hwhole), fraction, hfraction, .inl hwhole.1,
          by simp⟩
    · obtain rfl := mem_point_iff.1 hdot
      exact .inr ⟨[], mem_optional_iff.2 (.inl rfl), fraction, mem_optional_iff.2 (.inr hfraction),
        .inr hfraction.1, by simp⟩
  · rintro ⟨mark, hmark, tail, htail, ⟨whole, hwhole, rfl⟩ |
      ⟨whole, hwhole, fraction, hfraction, hne, rfl⟩⟩
    · refine ⟨mark ++ whole, ⟨mark, hmark, whole, .inl ?_, rfl⟩, tail, htail, by simp⟩
      exact ⟨whole, ⟨whole, hwhole, [], mem_optional_iff.2 (.inl rfl), by simp⟩, [],
        mem_optional_iff.2 (.inl rfl), by simp⟩
    · refine ⟨mark ++ (whole ++ '.' :: fraction), ⟨mark, hmark, whole ++ '.' :: fraction, ?_, rfl⟩,
        tail, htail, by simp⟩
      rcases mem_optional_iff.1 hwhole with rfl | hwhole
      · have hfraction' : fraction ∈ digits :=
          (mem_optional_iff.1 hfraction).resolve_left (hne.resolve_left (by simp))
        exact .inr ⟨['.'], rfl, fraction, hfraction', rfl⟩
      · exact .inl ⟨whole ++ ['.'], ⟨whole, hwhole, ['.'], mem_optional_iff.2 (.inr rfl), rfl⟩,
          fraction, hfraction, by simp⟩

/-- An exponent starts with its letter, which is no digit. -/
lemma head?_of_mem_exponent (h : text ∈ optional exponent) :
    ∀ c ∈ text.head?, Text.isDecimalDigit c = false := by
  rcases mem_optional_iff.1 h with rfl | hexponent
  · simp
  · obtain ⟨letter, mark, body, hletter, -, -, rfl⟩ := mem_exponent_iff.1 hexponent
    intro c hc
    obtain rfl : letter = c := by simpa using hc
    rcases hletter with rfl | rfl
    · decide
    · decide

/-- Digits with an exponent are a literal. -/
lemma isSome_read?_of_exponent (hmark : mark ∈ optional sign) (hbody : body ∈ digits)
    (hrest : rest ∈ exponent) : (read? (mark ++ (body ++ rest))).isSome := by
  have htail : rest ∈ optional exponent := mem_optional_iff.2 (.inr hrest)
  have hsome := isSome_exponent?_iff.2 htail
  obtain ⟨digit, more, hvalues, -⟩ := exists_takeDigits_eq hbody
  have htake := takeDigits_append hbody.2 (head?_of_mem_exponent htail)
  obtain ⟨letter, _, _, hletter, -, -, rfl⟩ := mem_exponent_iff.1 hrest
  rw [read?, takeSign_append hmark (head?_of_mem_digits hbody _)]
  simp only [htake, hvalues]
  rcases hletter with rfl | rfl
  · simpa using hsome
  · simpa using hsome

/-- Digits around a point are a literal, with and without an exponent. -/
lemma isSome_read?_of_point {fraction : List Char} (hmark : mark ∈ optional sign)
    (hbody : body ∈ optional digits) (hfraction : fraction ∈ optional digits)
    (hne : body ≠ [] ∨ fraction ≠ []) (hrest : rest ∈ optional exponent) :
    (read? (mark ++ (body ++ '.' :: (fraction ++ rest)))).isSome := by
  have hsome := isSome_exponent?_iff.2 hrest
  have hhead : ∀ c ∈ (body ++ '.' :: (fraction ++ rest)).head?, c ≠ '-' ∧ c ≠ '+' := by
    rcases mem_optional_iff.1 hbody with rfl | hbody
    · simp
    · exact head?_of_mem_digits hbody _
  have hwhole := mem_optional_digits_iff.1 hbody
  have hpart := mem_optional_digits_iff.1 hfraction
  have htake : takeDigits (body ++ '.' :: (fraction ++ rest)) =
      (body.filterMap Text.digitValue?, '.' :: (fraction ++ rest)) := by
    refine takeDigits_append hwhole fun c hc => ?_
    obtain rfl : '.' = c := by simpa using hc
    decide
  have htake' := takeDigits_append hpart (head?_of_mem_exponent hrest)
  have hdigits : ¬ ((body.filterMap Text.digitValue?).isEmpty &&
      (fraction.filterMap Text.digitValue?).isEmpty) = true := by
    rw [Bool.and_eq_true, List.isEmpty_iff_length_eq_zero, List.isEmpty_iff_length_eq_zero,
      length_filterMap_digitValue? hwhole, length_filterMap_digitValue? hpart]
    simpa [imp_iff_not_or] using hne
  rw [read?, takeSign_append hmark hhead]
  simp only [htake]
  generalize body.filterMap Text.digitValue? = values at hdigits
  cases values with
  | nil =>
    simp only [htake']
    rwa [if_neg hdigits, Option.isSome_map]
  | cons digit more =>
    simp only [htake']
    rwa [if_neg hdigits, Option.isSome_map]

/-- Every text of the shape of a numeral is a literal. -/
lemma isSome_read?_of_mem_numerals (h : text ∈ numerals) : (read? text).isSome := by
  obtain ⟨mark, hmark, tail, htail, ⟨whole, hwhole, rfl⟩ |
    ⟨whole, hwhole, fraction, hfraction, hne, rfl⟩⟩ := mem_numerals_iff.1 h
  · rcases mem_optional_iff.1 htail with rfl | hexponent
    · have hinteger := read?_eq_integer_iff.2 ⟨mark, hmark, whole, hwhole, rfl, rfl, rfl⟩
      rw [List.append_nil, hinteger]
      rfl
    · exact isSome_read?_of_exponent hmark hwhole hexponent
  · exact isSome_read?_of_point hmark hwhole hfraction hne htail

/-- A literal for a double has the shape of a numeral. -/
lemma mem_numerals_of_read?_real {negative : Bool} {whole fraction : List Nat} {power : Int}
    (h : read? text = some (.real negative whole fraction power)) : text ∈ numerals := by
  obtain ⟨mark, hmark, htext, -⟩ := exists_takeSign text
  obtain ⟨body, hbody, hunsigned, hvalues⟩ := exists_takeDigits (takeSign text).2
  have hmem := mem_optional_digits_iff.2 hbody
  unfold read? at h
  simp only at h
  split at h
  · simp at h
  · rename_i whole' rest htake
    obtain ⟨body', hbody', hrest, hvalues'⟩ := exists_takeDigits rest
    split_ifs at h with hempty
    obtain ⟨power', hpower, -⟩ := Option.map_eq_some_iff.1 h
    have htail := isSome_exponent?_iff.1 (Option.isSome_of_eq_some hpower)
    refine mem_numerals_iff.2 ⟨mark, hmark, _, htail, .inr ⟨body, hmem, body',
      mem_optional_digits_iff.2 hbody', ?_, ?_⟩⟩
    · by_contra hnone
      obtain ⟨rfl, rfl⟩ : body = [] ∧ body' = [] := by simpa [not_or] using hnone
      have hwhole : whole' = [] := by
        rw [htake] at hvalues
        exact hvalues
      refine hempty ?_
      rw [hwhole, hvalues']
      rfl
    · rw [hrest, ← htext, ← hunsigned, htake]
  · simp at h
  · rename_i whole' rest _ _ hwhole htake
    obtain ⟨power', hpower, -⟩ := Option.map_eq_some_iff.1 h
    have htail := isSome_exponent?_iff.1 (Option.isSome_of_eq_some hpower)
    rw [htake] at hunsigned hvalues
    refine mem_numerals_iff.2 ⟨mark, hmark, rest, htail, .inl ⟨body, ⟨?_, hbody⟩, ?_⟩⟩
    · rintro rfl
      exact hwhole hvalues
    · rw [← htext, ← hunsigned]

/-- The literals for doubles are the numerals that are no integers. -/
lemma exists_read?_eq_real_iff :
    (∃ negative whole fraction power, read? text = some (.real negative whole fraction power)) ↔
      text ∈ numerals ∧ text ∉ integers := by
  rw [← exists_read?_eq_integer_iff]
  constructor
  · rintro ⟨negative, whole, fraction, power, h⟩
    refine ⟨mem_numerals_of_read?_real h, ?_⟩
    rintro ⟨negative', values, hinteger⟩
    cases h.symm.trans hinteger
  · rintro ⟨hnumeral, hinteger⟩
    obtain ⟨literal, hliteral⟩ := Option.isSome_iff_exists.1 (isSome_read?_of_mem_numerals hnumeral)
    cases literal with
    | integer negative values => exact absurd ⟨negative, values, hliteral⟩ hinteger
    | real negative whole fraction power => exact ⟨negative, whole, fraction, power, hliteral⟩

/-- A text of neither shape is no literal. -/
lemma read?_eq_none_of_not_mem (hinteger : text ∉ integers) (hnumeral : text ∉ numerals) :
    read? text = none := by
  cases h : read? text with
  | none => rfl
  | some literal =>
    cases literal with
    | integer negative values =>
      exact absurd (exists_read?_eq_integer_iff.1 ⟨negative, values, h⟩) hinteger
    | real negative whole fraction power => exact absurd (mem_numerals_of_read?_real h) hnumeral

end Lisplet.Literal

import Mathlib.Tactic.Common
import Lisplet.Token

/-!
# What the scanner finds

The scanner is a fold over the characters of a source that gathers finished tokens in an array.
For proofs the same run is written as a recursion over the characters that are left: `scanFrom`
yields the tokens that end in the rest of a source, given the offset and the piece that the
scanner is inside of. `scan_eq_scanFrom` identifies the two.

On top of that come two groups of facts. The first says what the scanner does with one lexeme: a
parenthesis, a quote mark, a blank, a delimited text, and a word that is followed by something that
cannot belong to it. The second says what every token of a scan looks like.
-/

namespace Lisplet

/-! ## The scan of the rest of a source -/

/-- A scan with tokens that were found before. -/
def Scan.after (earlier : List Token) (scan : Scan) : Scan :=
  { scan with tokens := earlier ++ scan.tokens }

/-- What the scanner finds in the rest of a source, given the offset and the piece that it is
inside of. -/
def scanFrom (pos : Nat) (piece : Piece) : List Char → Scan
  | [] =>
    match piece with
    | .string start _ => ⟨[], some start⟩
    | piece => ⟨piece.finished, none⟩
  | c :: rest =>
    (scanFrom (pos + 1) (piece.advance pos c).2 rest).after (piece.advance pos c).1

/-- No earlier tokens change nothing. -/
@[simp]
lemma Scan.after_nil (scan : Scan) : scan.after [] = scan := rfl

/-- Earlier tokens can be added in portions. -/
lemma Scan.after_after (first second : List Token) (scan : Scan) :
    (scan.after second).after first = scan.after (first ++ second) := by
  simp [Scan.after]

/-- Earlier tokens come first. -/
@[simp]
lemma Scan.after_tokens (earlier : List Token) (scan : Scan) :
    (scan.after earlier).tokens = earlier ++ scan.tokens := rfl

/-- Earlier tokens do not change the failure. -/
@[simp]
lemma Scan.after_unterminated (earlier : List Token) (scan : Scan) :
    (scan.after earlier).unterminated = scan.unterminated := rfl

/-- A scanner in the middle of a source finds what `scanFrom` finds, after its own tokens. -/
lemma finish_foldl_step (rest : List Char) (scanner : Scanner) :
    (rest.foldl Scanner.step scanner).finish =
      (scanFrom scanner.pos scanner.piece rest).after scanner.tokens.toList := by
  induction rest generalizing scanner with
  | nil =>
    obtain ⟨pos, piece, tokens⟩ := scanner
    cases piece <;> simp [Scanner.finish, scanFrom, Scan.after, Piece.finished]
  | cons c rest ih =>
    rw [List.foldl_cons, ih, scanFrom, Scan.after_after]
    simp [Scanner.step]

/-- A scan is the scan of the whole source from its start. -/
theorem scan_eq_scanFrom (source : String) :
    scan source = scanFrom 0 .between source.toList := by
  rw [scan, finish_foldl_step]
  rfl

/-! ## One lexeme at a time -/

/-- A word is a non-empty run of characters that may stand in an atom. -/
def IsWord (text : List Char) : Prop :=
  text ≠ [] ∧ ∀ c ∈ text, isAtomChar c = true

/-- The rest of a source that does not prolong a word before it. -/
def Delimited (rest : List Char) : Prop :=
  ∀ c ∈ rest.head?, isAtomChar c = false

/-- The end of the source delimits. -/
lemma delimited_nil : Delimited [] := by
  intro c hc
  simp at hc

/-- A character that may not stand in an atom delimits. -/
lemma delimited_cons {c : Char} (rest : List Char) (hc : isAtomChar c = false) :
    Delimited (c :: rest) := by
  intro d hd
  obtain rfl : c = d := by simpa using hd
  exact hc

/-- What a character does outside texts. -/
def Piece.advanceOutside (pos : Nat) (c : Char) (piece : Piece) : List Token × Piece :=
  if isAtomChar c then ([], piece.extend pos c)
  else (piece.finished ++ (Piece.delimit pos c).1, (Piece.delimit pos c).2)

/-- Between tokens the scanner is outside texts. -/
lemma Piece.advance_between (pos : Nat) (c : Char) :
    Piece.between.advance pos c = Piece.between.advanceOutside pos c := rfl

/-- In an atom the scanner is outside texts. -/
lemma Piece.advance_atom (pos : Nat) (c : Char) (start : Nat) (reversed : List Char) :
    (Piece.atom start reversed).advance pos c =
      (Piece.atom start reversed).advanceOutside pos c := rfl

/-- In a text only a double quote matters. -/
lemma Piece.advance_string (pos : Nat) (c : Char) (start : Nat) (reversed : List Char) :
    (Piece.string start reversed).advance pos c =
      if c = '"' then ([⟨.string, String.ofList (c :: reversed).reverse, start⟩], .between)
      else ([], .string start (c :: reversed)) := rfl

/-- Between tokens, a character outside atoms is what it is by itself. -/
lemma scanFrom_delimit (pos : Nat) {c : Char} (rest : List Char) (hc : isAtomChar c = false) :
    scanFrom pos .between (c :: rest) =
      (scanFrom (pos + 1) (Piece.delimit pos c).2 rest).after (Piece.delimit pos c).1 := by
  simp [scanFrom, Piece.advance_between, Piece.advanceOutside, hc, Piece.finished]

/-- An opening parenthesis is a token. -/
lemma scanFrom_opening (pos : Nat) (rest : List Char) :
    scanFrom pos .between ('(' :: rest) =
      (scanFrom (pos + 1) .between rest).after [⟨.opening, "(", pos⟩] := by
  rw [scanFrom_delimit pos rest (by decide)]
  simp [Piece.delimit]

/-- A closing parenthesis is a token. -/
lemma scanFrom_closing (pos : Nat) (rest : List Char) :
    scanFrom pos .between (')' :: rest) =
      (scanFrom (pos + 1) .between rest).after [⟨.closing, ")", pos⟩] := by
  rw [scanFrom_delimit pos rest (by decide)]
  simp [Piece.delimit]

/-- A quote mark is a token. -/
lemma scanFrom_quoteMark (pos : Nat) (rest : List Char) :
    scanFrom pos .between ('\'' :: rest) =
      (scanFrom (pos + 1) .between rest).after [⟨.quoteMark, "'", pos⟩] := by
  rw [scanFrom_delimit pos rest (by decide)]
  simp [Piece.delimit]

/-- A blank between tokens is skipped. -/
lemma scanFrom_blank (pos : Nat) {c : Char} (rest : List Char) (hc : Text.isBlank c = true) :
    scanFrom pos .between (c :: rest) = scanFrom (pos + 1) .between rest := by
  have hatom : isAtomChar c = false := by simp [isAtomChar, hc]
  have hdelimit : Piece.delimit pos c = ([], .between) := by
    -- none of the four characters that `delimit` knows is blank
    have hne : ∀ d : Char, Text.isBlank d = false → c ≠ d := by
      rintro d hd rfl
      simp [hc] at hd
    simp [Piece.delimit, hne '(' (by decide), hne ')' (by decide), hne '\'' (by decide),
      hne '"' (by decide)]
  rw [scanFrom_delimit pos rest hatom, hdelimit, Scan.after_nil]

/-- Inside a text, everything up to the next double quote belongs to it. -/
lemma scanFrom_inString (pos start : Nat) (reversed body rest : List Char) (hbody : '"' ∉ body) :
    scanFrom pos (.string start reversed) (body ++ '"' :: rest) =
      (scanFrom (pos + body.length + 1) .between rest).after
        [⟨.string, String.ofList (reversed.reverse ++ body ++ ['"']), start⟩] := by
  induction body generalizing pos reversed with
  | nil => simp [scanFrom, Piece.advance_string]
  | cons c body ih =>
    rw [List.mem_cons, not_or] at hbody
    have hc : c ≠ '"' := fun h => hbody.1 h.symm
    rw [List.cons_append, scanFrom, Piece.advance_string, if_neg hc, Scan.after_nil,
      ih _ _ hbody.2]
    simp [Nat.add_assoc, Nat.add_comm 1]

/-- A delimited text is a token. -/
lemma scanFrom_string (pos : Nat) (body rest : List Char) (hbody : '"' ∉ body) :
    scanFrom pos .between ('"' :: body ++ '"' :: rest) =
      (scanFrom (pos + body.length + 2) .between rest).after
        [⟨.string, String.ofList ('"' :: body ++ ['"']), pos⟩] := by
  rw [List.cons_append, scanFrom_delimit pos _ (by decide)]
  have hdelimit : Piece.delimit pos '"' = ([], .string pos ['"']) := by simp [Piece.delimit]
  rw [hdelimit, Scan.after_nil, scanFrom_inString _ _ _ _ _ hbody]
  simp [Nat.add_assoc, Nat.add_comm 1]

/-- Inside a word, the rest of the word belongs to it. -/
lemma scanFrom_inWord (pos start : Nat) (reversed word rest : List Char)
    (hword : ∀ c ∈ word, isAtomChar c = true) (hrest : Delimited rest) :
    scanFrom pos (.atom start reversed) (word ++ rest) =
      (scanFrom (pos + word.length) .between rest).after
        [⟨.atom, String.ofList (reversed.reverse ++ word), start⟩] := by
  induction word generalizing pos reversed with
  | nil =>
    cases rest with
    | nil => simp [scanFrom, Piece.finished, Scan.after]
    | cons c rest =>
      have hc : isAtomChar c = false := hrest c (by simp)
      rw [List.nil_append, List.length_nil, Nat.add_zero, scanFrom_delimit pos rest hc]
      simp [scanFrom, Piece.advance_atom, Piece.advanceOutside, hc, Piece.finished, Scan.after]
  | cons c word ih =>
    have hc : isAtomChar c = true := hword c (by simp)
    have htail : ∀ d ∈ word, isAtomChar d = true := fun d hd => hword d (by simp [hd])
    rw [List.cons_append, scanFrom, Piece.advance_atom, Piece.advanceOutside, if_pos hc,
      Scan.after_nil, Piece.extend, ih _ _ htail]
    simp [Nat.add_assoc, Nat.add_comm 1]

/-- A word is a token, unless the rest of the source prolongs it. -/
lemma scanFrom_word (pos : Nat) {word : List Char} (rest : List Char) (hword : IsWord word)
    (hrest : Delimited rest) :
    scanFrom pos .between (word ++ rest) =
      (scanFrom (pos + word.length) .between rest).after [⟨.atom, String.ofList word, pos⟩] := by
  obtain ⟨hne, hall⟩ := hword
  cases word with
  | nil => exact absurd rfl hne
  | cons c word =>
    have hc : isAtomChar c = true := hall c (by simp)
    have htail : ∀ d ∈ word, isAtomChar d = true := fun d hd => hall d (by simp [hd])
    have hextend : Piece.between.extend pos c = .atom pos [c] := rfl
    rw [List.cons_append, scanFrom, Piece.advance_between, Piece.advanceOutside, if_pos hc,
      Scan.after_nil, hextend, scanFrom_inWord _ _ _ _ _ htail hrest]
    simp [Nat.add_assoc, Nat.add_comm 1]

/-! ## The shape of tokens -/

/-- A text in double quotes, with none between them. -/
def IsDelimitedText (text : List Char) : Prop :=
  ∃ body, text = '"' :: body ++ ['"'] ∧ '"' ∉ body

/-- What a token of a scan looks like. -/
def Token.Shaped (token : Token) : Prop :=
  match token.kind with
  | .opening => token.text = "("
  | .closing => token.text = ")"
  | .quoteMark => token.text = "'"
  | .string => IsDelimitedText token.text.toList
  | .atom => IsWord token.text.toList
  | .other _ => False

/-- What a piece looks like that the scanner is inside of. -/
def Piece.Shaped : Piece → Prop
  | .between => True
  | .atom _ reversed => IsWord reversed.reverse
  | .string _ reversed => ∃ body, reversed = body ++ ['"'] ∧ '"' ∉ body

/-- An atom that ends is a word. -/
lemma Piece.shaped_finished {piece : Piece} (h : piece.Shaped) :
    ∀ token ∈ piece.finished, token.Shaped := by
  intro token htoken
  cases piece with
  | atom start reversed =>
    obtain rfl : token = ⟨.atom, String.ofList reversed.reverse, start⟩ := by
      simpa [Piece.finished] using htoken
    simpa [Token.Shaped, Piece.Shaped] using h
  | between => simp [Piece.finished] at htoken
  | string start reversed => simp [Piece.finished] at htoken

/-- A character outside atoms makes tokens and pieces of the right shape. -/
lemma Piece.shaped_delimit (pos : Nat) (c : Char) :
    (∀ token ∈ (Piece.delimit pos c).1, token.Shaped) ∧ (Piece.delimit pos c).2.Shaped := by
  unfold Piece.delimit
  split_ifs with h1 h2 h3 h4
  · simp [Token.Shaped, Piece.Shaped]
  · simp [Token.Shaped, Piece.Shaped]
  · simp [Token.Shaped, Piece.Shaped]
  · refine ⟨by simp, [], ?_, by simp⟩
    simp [h4]
  · simp [Piece.Shaped]

/-- A word stays a word with one more character of an atom. -/
lemma Piece.shaped_extend {pos : Nat} {c : Char} {piece : Piece} (h : piece.Shaped)
    (hc : isAtomChar c = true) : (piece.extend pos c).Shaped := by
  cases piece with
  | atom start reversed =>
    refine ⟨by simp, ?_⟩
    intro d hd
    rw [List.mem_reverse, List.mem_cons] at hd
    rcases hd with rfl | hd
    · exact hc
    · exact h.2 d (by simpa using hd)
  | between => exact ⟨by simp, by simpa using hc⟩
  | string start reversed => exact ⟨by simp, by simpa using hc⟩

/-- Outside texts, one character makes tokens and a piece of the right shape. -/
lemma Piece.shaped_advanceOutside (pos : Nat) (c : Char) {piece : Piece} (h : piece.Shaped) :
    (∀ token ∈ (piece.advanceOutside pos c).1, token.Shaped) ∧
      (piece.advanceOutside pos c).2.Shaped := by
  obtain ⟨htokens, hnext⟩ := Piece.shaped_delimit pos c
  unfold Piece.advanceOutside
  split_ifs with hc
  · exact ⟨by simp, Piece.shaped_extend h hc⟩
  · refine ⟨?_, hnext⟩
    intro token htoken
    rcases List.mem_append.mp htoken with hmem | hmem
    · exact Piece.shaped_finished h token hmem
    · exact htokens token hmem

/-- One character makes tokens and a piece of the right shape. -/
lemma Piece.shaped_advance (pos : Nat) (c : Char) {piece : Piece} (h : piece.Shaped) :
    (∀ token ∈ (piece.advance pos c).1, token.Shaped) ∧ (piece.advance pos c).2.Shaped := by
  cases piece with
  | between => exact Piece.shaped_advanceOutside pos c h
  | atom start reversed => exact Piece.shaped_advanceOutside pos c h
  | string start reversed =>
    obtain ⟨body, rfl, hbody⟩ := h
    rw [Piece.advance_string]
    split_ifs with hc
    · refine ⟨?_, trivial⟩
      intro token htoken
      obtain rfl := List.mem_singleton.mp htoken
      exact ⟨body.reverse, by simp [hc], by simpa using hbody⟩
    · refine ⟨by simp, c :: body, rfl, ?_⟩
      rw [List.mem_cons, not_or]
      exact ⟨fun h => hc h.symm, hbody⟩

/-- Every token in the rest of a source has the right shape. -/
lemma shaped_of_mem_scanFrom (rest : List Char) {pos : Nat} {piece : Piece} (h : piece.Shaped) :
    ∀ token ∈ (scanFrom pos piece rest).tokens, token.Shaped := by
  induction rest generalizing pos piece with
  | nil =>
    cases piece with
    | string start reversed => simp [scanFrom]
    | between => exact Piece.shaped_finished h
    | atom start reversed => exact Piece.shaped_finished h
  | cons c rest ih =>
    obtain ⟨htokens, hnext⟩ := Piece.shaped_advance pos c h
    intro token htoken
    rw [scanFrom, Scan.after_tokens] at htoken
    rcases List.mem_append.mp htoken with hmem | hmem
    · exact htokens token hmem
    · exact ih hnext token hmem

/-- Every token of a scan has the right shape. -/
theorem shaped_of_mem_scan {source : String} {token : Token} (h : token ∈ (scan source).tokens) :
    token.Shaped := by
  rw [scan_eq_scanFrom] at h
  exact shaped_of_mem_scanFrom _ (by trivial) token h

end Lisplet

import Lisplet.Proofs.Reader.Scanning
import Mathlib.Algebra.Ring.Parity

/-!
# How tokens tile a source

The scanner reads characters, but a source is better described by lexemes: from left to right it is
a row of blanks and tokens, in which a word is never followed by a character that would prolong it.
`Tiles` is that description. A source either has it as a whole, or it has it up to a double quote
that is not followed by another one. `exists_tiles` shows this one lexeme at a time, and
`Tiles.scanFrom_append` shows that the scanner finds exactly the tokens of the description.

What tokens have to do with the source is then read off the description: where they stand, what lies
between them, and that each of them holds an even number of double quotes, so that the scan fails
exactly on sources with an odd number of them.
-/

namespace Lisplet

/-! ## Sources as rows of lexemes -/

/-- From an offset on, a text is laid out as tokens with nothing but blanks between them. -/
inductive Tiles : Nat → List Char → List Token → Prop
  | done {pos} : Tiles pos [] []
  | blank {pos c rest tokens} :
      Text.isBlank c = true → Tiles (pos + 1) rest tokens → Tiles pos (c :: rest) tokens
  | token {pos : Nat} {kind text rest tokens} :
      Token.Shaped ⟨kind, String.ofList text, pos⟩ → (kind = .atom → Delimited rest) →
      Tiles (pos + text.length) rest tokens →
      Tiles pos (text ++ rest) (⟨kind, String.ofList text, pos⟩ :: tokens)

/-- Two texts that do not prolong a word do not do so together. -/
lemma Delimited.append {first rest : List Char} (h : Delimited first) (hrest : Delimited rest) :
    Delimited (first ++ rest) := by
  cases first with
  | nil => exact hrest
  | cons c first => exact delimited_cons (first ++ rest) (h c rfl)

/-- Where a text does not prolong a word, its beginning does not. -/
lemma Delimited.of_append {first rest : List Char} (h : Delimited (first ++ rest)) :
    Delimited first := by
  cases first with
  | nil => exact delimited_nil
  | cons c first => exact delimited_cons first (h c rfl)

/-- The characters of a token, by its kind. -/
lemma Token.Shaped.text_cases {kind : Token.Kind} {text : List Char} {pos : Int}
    (h : Token.Shaped ⟨kind, String.ofList text, pos⟩) :
    (kind = .opening ∧ text = ['(']) ∨ (kind = .closing ∧ text = [')']) ∨
      (kind = .quoteMark ∧ text = ['\'']) ∨
      (kind = .string ∧ ∃ body, text = '"' :: body ++ ['"'] ∧ '"' ∉ body) ∨
      (kind = .atom ∧ IsWord text) := by
  cases kind with
  | opening | closing | quoteMark =>
    have hchars := congrArg String.toList h
    rw [String.toList_ofList] at hchars
    simp [hchars]
  | string => simpa [Token.Shaped, IsDelimitedText] using h
  | atom => simpa [Token.Shaped] using h
  | other name => exact h.elim

/-- A token has at least one character. -/
lemma Token.Shaped.ne_nil {kind : Token.Kind} {text : List Char} {pos : Int}
    (h : Token.Shaped ⟨kind, String.ofList text, pos⟩) : text ≠ [] := by
  rcases h.text_cases with ⟨-, rfl⟩ | ⟨-, rfl⟩ | ⟨-, rfl⟩ | ⟨-, body, rfl, -⟩ | ⟨-, hword⟩
  · simp
  · simp
  · simp
  · simp
  · exact hword.1

/-- Tokens are not empty. -/
lemma Token.Shaped.text_ne_empty {token : Token} (h : token.Shaped) : token.text ≠ "" := by
  obtain ⟨kind, text, pos⟩ := token
  rintro rfl
  exact @Token.Shaped.ne_nil kind [] pos h rfl

/-- The first lexeme of a text: a blank, a token, or a double quote that is not followed by another
one. -/
lemma exists_first_lexeme {text : List Char} (h : text ≠ []) :
    (∃ c rest, text = c :: rest ∧ Text.isBlank c = true) ∨
    (∃ kind lexeme rest, text = lexeme ++ rest ∧
      (∀ pos, Token.Shaped ⟨kind, String.ofList lexeme, pos⟩) ∧ (kind = .atom → Delimited rest)) ∨
    ∃ body, text = '"' :: body ∧ '"' ∉ body := by
  obtain ⟨c, rest, rfl⟩ := List.exists_cons_of_ne_nil h
  by_cases hblank : Text.isBlank c = true
  · exact .inl ⟨c, rest, rfl, hblank⟩
  right
  by_cases hopening : c = '('
  · exact .inl ⟨.opening, ['('], rest, by rw [hopening]; rfl, fun _ => rfl, nofun⟩
  by_cases hclosing : c = ')'
  · exact .inl ⟨.closing, [')'], rest, by rw [hclosing]; rfl, fun _ => rfl, nofun⟩
  by_cases hmark : c = '\''
  · exact .inl ⟨.quoteMark, ['\''], rest, by rw [hmark]; rfl, fun _ => rfl, nofun⟩
  by_cases hstring : c = '"'
  · subst hstring
    by_cases hmem : '"' ∈ rest
    · obtain ⟨body, later, rfl, hbody⟩ := List.eq_append_cons_of_mem hmem
      refine .inl ⟨.string, '"' :: body ++ ['"'], later, by simp, fun _ => ?_, nofun⟩
      exact ⟨body, by simp, hbody⟩
    · exact .inr ⟨rest, rfl, hmem⟩
  · left
    have hatom : isAtomChar c = true := by
      simp [isAtomChar, hblank, hopening, hclosing, hmark, hstring]
    refine ⟨.atom, (c :: rest).takeWhile isAtomChar, (c :: rest).dropWhile isAtomChar,
      List.takeWhile_append_dropWhile.symm, fun _ => ⟨?_, ?_⟩, fun _ => ?_⟩
    · simp [hatom]
    · intro d hd
      rw [String.toList_ofList] at hd
      exact List.all_eq_true.1 List.all_takeWhile d hd
    · intro d hd
      have hhead := List.head?_dropWhile_not isAtomChar (c :: rest)
      rw [Option.mem_def.1 hd] at hhead
      exact hhead

/-- A text is laid out as tokens and blanks as a whole, or up to its last double quote. -/
lemma exists_tiles (pos : Nat) (text : List Char) :
    (∃ tokens, Tiles pos text tokens) ∨
    ∃ front body tokens, text = front ++ '"' :: body ∧ '"' ∉ body ∧ Tiles pos front tokens := by
  induction hlength : text.length using Nat.strong_induction_on generalizing pos text with
  | _ length ih =>
    by_cases hnil : text = []
    · exact .inl ⟨[], hnil ▸ .done⟩
    rcases exists_first_lexeme hnil with
      ⟨c, rest, rfl, hblank⟩ | ⟨kind, lexeme, rest, rfl, hshaped, hatom⟩ | ⟨body, rfl, hbody⟩
    · have hshorter : rest.length < length := by
        rw [← hlength]
        exact Nat.lt_succ_self _
      rcases ih _ hshorter (pos + 1) rest rfl with ⟨tokens, htiles⟩ |
        ⟨front, body, tokens, rfl, hbody, htiles⟩
      · exact .inl ⟨tokens, .blank hblank htiles⟩
      · exact .inr ⟨c :: front, body, tokens, rfl, hbody, .blank hblank htiles⟩
    · have hpos : 0 < lexeme.length := List.length_pos_iff.2 (hshaped pos).ne_nil
      have hshorter : rest.length < length := by
        rw [← hlength, List.length_append]
        omega
      rcases ih _ hshorter (pos + lexeme.length) rest rfl with ⟨tokens, htiles⟩ |
        ⟨front, body, tokens, rfl, hbody, htiles⟩
      · exact .inl ⟨_, .token (hshaped pos) hatom htiles⟩
      · have hfront : kind = .atom → Delimited front := fun hkind => (hatom hkind).of_append
        exact .inr ⟨lexeme ++ front, body, _, (List.append_assoc ..).symm, hbody,
          .token (hshaped pos) hfront htiles⟩
    · exact .inr ⟨[], body, [], rfl, hbody, .done⟩

/-! ## What the scanner finds in them -/

/-- A token is found, unless it is a word that the rest of the source prolongs. -/
lemma scanFrom_token {pos : Nat} {kind : Token.Kind} {text rest : List Char}
    (hshaped : Token.Shaped ⟨kind, String.ofList text, pos⟩)
    (hatom : kind = .atom → Delimited rest) :
    scanFrom pos .between (text ++ rest) =
      (scanFrom (pos + text.length) .between rest).after [⟨kind, String.ofList text, pos⟩] := by
  rcases hshaped.text_cases with
    ⟨rfl, rfl⟩ | ⟨rfl, rfl⟩ | ⟨rfl, rfl⟩ | ⟨rfl, body, rfl, hbody⟩ | ⟨rfl, hword⟩
  · exact scanFrom_opening pos rest
  · exact scanFrom_closing pos rest
  · exact scanFrom_quoteMark pos rest
  · rw [List.append_assoc, List.singleton_append, scanFrom_string pos body rest hbody]
    simp [Nat.add_assoc]
  · exact scanFrom_word pos rest hword (hatom rfl)

/-- The scanner finds the tokens of a text, in front of everything that does not prolong a word. -/
lemma Tiles.scanFrom_append {pos : Nat} {text : List Char} {tokens : List Token}
    (h : Tiles pos text tokens) {rest : List Char} (hrest : Delimited rest) :
    scanFrom pos .between (text ++ rest) =
      (scanFrom (pos + text.length) .between rest).after tokens := by
  induction h with
  | done => rfl
  | @blank pos c text tokens hblank _ ih =>
    rw [List.cons_append, scanFrom_blank pos (text ++ rest) hblank, ih, List.length_cons,
      Nat.add_assoc, Nat.add_comm 1]
  | @token pos kind text later tokens hshaped hatom _ ih =>
    have hdelimited : kind = .atom → Delimited (later ++ rest) :=
      fun hkind => (hatom hkind).append hrest
    rw [List.append_assoc, scanFrom_token hshaped hdelimited, ih, Scan.after_after,
      List.length_append, Nat.add_assoc]
    rfl

/-- A text that is laid out as tokens and blanks is scanned to its end. -/
lemma Tiles.scanFrom_eq {pos : Nat} {text : List Char} {tokens : List Token}
    (h : Tiles pos text tokens) : scanFrom pos .between text = ⟨tokens, none⟩ := by
  have hscan := h.scanFrom_append delimited_nil
  simpa [scanFrom, Piece.finished, Scan.after] using hscan

/-- Inside a text that never ends there are no tokens. -/
lemma scanFrom_inUnterminated (pos start : Nat) (reversed body : List Char) (hbody : '"' ∉ body) :
    scanFrom pos (.string start reversed) body = ⟨[], some start⟩ := by
  induction body generalizing pos reversed with
  | nil => rfl
  | cons c body ih =>
    rw [List.mem_cons, not_or] at hbody
    have hc : c ≠ '"' := fun h => hbody.1 h.symm
    rw [scanFrom, Piece.advance_string, if_neg hc, Scan.after_nil, ih _ _ hbody.2]

/-- A double quote without another one is a text that never ends. -/
lemma scanFrom_unterminated (pos : Nat) (body : List Char) (hbody : '"' ∉ body) :
    scanFrom pos .between ('"' :: body) = ⟨[], some pos⟩ := by
  have hdelimit : Piece.delimit pos '"' = ([], .string pos ['"']) := by simp [Piece.delimit]
  rw [scanFrom_delimit pos body (by decide), hdelimit, Scan.after_nil,
    scanFrom_inUnterminated _ _ _ _ hbody]

/-- A scan finds the tokens of the whole source, or those in front of its last double quote. -/
lemma scan_cases (source : String) :
    (∃ tokens, Tiles 0 source.toList tokens ∧ scan source = ⟨tokens, none⟩) ∨
    ∃ front body tokens, source.toList = front ++ '"' :: body ∧ '"' ∉ body ∧
      Tiles 0 front tokens ∧ scan source = ⟨tokens, some front.length⟩ := by
  rw [scan_eq_scanFrom]
  rcases exists_tiles 0 source.toList with
    ⟨tokens, htiles⟩ | ⟨front, body, tokens, heq, hbody, htiles⟩
  · exact .inl ⟨tokens, htiles, htiles.scanFrom_eq⟩
  · refine .inr ⟨front, body, tokens, heq, hbody, htiles, ?_⟩
    rw [heq, htiles.scanFrom_append (delimited_cons body (by decide)),
      scanFrom_unterminated _ body hbody, Nat.zero_add]
    simp [Scan.after]

/-! ## Where tokens stand -/

/-- The offset right behind a token. -/
def Token.stop (token : Token) : Int :=
  token.pos + token.text.length

/-- The token holds the character at an offset. -/
def Token.Covers (token : Token) (offset : Nat) : Prop :=
  token.pos ≤ offset ∧ offset < token.stop

/-- The token is the piece of a text that starts at its position, and a word is no part of a longer
one. -/
def Token.StandsIn (text : List Char) (token : Token) : Prop :=
  ∃ before after, text = before ++ token.text.toList ++ after ∧ token.pos = before.length ∧
    (token.kind = .atom →
      (∀ c ∈ before.getLast?, isAtomChar c = false) ∧ ∀ c ∈ after.head?, isAtomChar c = false)

/-- A token stands in a longer text as well, if that does not prolong a word. -/
lemma Token.StandsIn.append {text rest : List Char} {token : Token} (h : token.StandsIn text)
    (hrest : Delimited rest) : token.StandsIn (text ++ rest) := by
  obtain ⟨before, after, rfl, hpos, hatom⟩ := h
  refine ⟨before, after ++ rest, List.append_assoc .., hpos, fun hkind => ?_⟩
  obtain ⟨hleft, hright⟩ := hatom hkind
  exact ⟨hleft, Delimited.append hright hrest⟩

/-- The place between two texts is not inside a word. -/
def Apart (first rest : List Char) : Prop :=
  (∀ c ∈ first.getLast?, isAtomChar c = false) ∨ Delimited rest

/-- The beginning is not inside a word. -/
lemma apart_nil (rest : List Char) : Apart [] rest :=
  .inl (by simp)

/-- The place behind a character that no atom has is not inside a word. -/
lemma apart_concat (first : List Char) {c : Char} (hc : isAtomChar c = false) (rest : List Char) :
    Apart (first ++ [c]) rest := by
  left
  simpa using hc

/-- Blanks are not characters of atoms. -/
lemma not_isAtomChar_of_isBlank {c : Char} (h : Text.isBlank c = true) : isAtomChar c = false := by
  simp [isAtomChar, h]

/-- The place behind a token is not inside a word. -/
lemma Token.Shaped.apart {kind : Token.Kind} {text rest : List Char} {pos : Int}
    (h : Token.Shaped ⟨kind, String.ofList text, pos⟩) (hatom : kind = .atom → Delimited rest)
    (first : List Char) : Apart (first ++ text) rest := by
  rcases h.text_cases with ⟨-, rfl⟩ | ⟨-, rfl⟩ | ⟨-, rfl⟩ | ⟨-, body, rfl, -⟩ | ⟨hkind, -⟩
  · exact apart_concat first (by decide) rest
  · exact apart_concat first (by decide) rest
  · exact apart_concat first (by decide) rest
  · rw [← List.append_assoc]
    exact apart_concat _ (by decide) rest
  · exact .inr (hatom hkind)

/-- Where no word is cut, the characters before a word do not belong to it. -/
lemma Apart.not_isAtomChar {first word rest : List Char} (h : Apart first (word ++ rest))
    (hword : IsWord word) : ∀ c ∈ first.getLast?, isAtomChar c = false := by
  rcases h with h | h
  · exact h
  · obtain ⟨c, word, rfl⟩ := List.exists_cons_of_ne_nil hword.1
    have hatom : isAtomChar c = true := hword.2 c (by simp)
    have hnone : isAtomChar c = false := h c rfl
    rw [hatom] at hnone
    cases hnone

/-- Every token stands in the whole source, of which `read` is the part before the text. -/
lemma Tiles.standsIn {pos : Nat} {text : List Char} {tokens : List Token}
    (h : Tiles pos text tokens) (read : List Char) (hread : read.length = pos)
    (hapart : Apart read text) : ∀ token ∈ tokens, token.StandsIn (read ++ text) := by
  induction h generalizing read with
  | done => simp
  | @blank pos c rest tokens hblank _ ih =>
    have hnext := ih (read ++ [c]) (by simp [hread])
      (apart_concat read (not_isAtomChar_of_isBlank hblank) rest)
    simpa using hnext
  | @token pos kind text rest tokens hshaped hatom _ ih =>
    intro token htoken
    rcases List.mem_cons.1 htoken with rfl | htoken
    · refine ⟨read, rest, by simp, by simp [hread], fun hkind => ⟨?_, hatom hkind⟩⟩
      obtain rfl : kind = .atom := hkind
      exact hapart.not_isAtomChar (by simpa [Token.Shaped] using hshaped)
    · have hnext := ih (read ++ text) (by simp [hread]) (hshaped.apart hatom read)
      rw [← List.append_assoc]
      exact hnext token htoken

/-- Tokens start at the beginning of the text or later. -/
lemma Tiles.le_pos {pos : Nat} {text : List Char} {tokens : List Token}
    (h : Tiles pos text tokens) : ∀ token ∈ tokens, (pos : Int) ≤ token.pos := by
  induction h with
  | done => simp
  | blank _ _ ih =>
    intro token htoken
    have hlater := ih token htoken
    push_cast at hlater
    omega
  | token _ _ _ ih =>
    intro token htoken
    rcases List.mem_cons.1 htoken with rfl | htoken
    · exact Int.le_refl _
    · have hlater := ih token htoken
      push_cast at hlater
      omega

/-- Every token starts behind those before it. -/
lemma Tiles.pairwise {pos : Nat} {text : List Char} {tokens : List Token}
    (h : Tiles pos text tokens) :
    tokens.Pairwise fun first second => first.stop ≤ second.pos := by
  induction h with
  | done => exact .nil
  | blank _ _ ih => exact ih
  | token _ _ hrest ih =>
    refine .cons (fun later hlater => ?_) ih
    have hle := hrest.le_pos later hlater
    simpa [Token.stop] using hle

/-- Every character of the text is blank or belongs to a token. -/
lemma Tiles.covers {pos : Nat} {text : List Char} {tokens : List Token}
    (h : Tiles pos text tokens) {index : Nat} {c : Char} (hc : text[index]? = some c) :
    Text.isBlank c = true ∨ ∃ token ∈ tokens, token.Covers (pos + index) := by
  induction h generalizing index with
  | done => simp at hc
  | @blank pos d rest tokens hblank _ ih =>
    cases index with
    | zero =>
      obtain rfl : d = c := by simpa using hc
      exact .inl hblank
    | succ index =>
      rcases ih hc with hc | ⟨token, htoken, hcovers⟩
      · exact .inl hc
      · refine .inr ⟨token, htoken, ?_⟩
        rwa [Nat.add_assoc, Nat.add_comm 1] at hcovers
  | @token pos kind text rest tokens hshaped _ _ ih =>
    by_cases hindex : index < text.length
    · refine .inr ⟨_, List.mem_cons_self .., ?_⟩
      simp only [Token.Covers, Token.stop, String.length_ofList]
      omega
    · rw [List.getElem?_append_right (by omega)] at hc
      rcases ih hc with hc | ⟨token, htoken, hcovers⟩
      · exact .inl hc
      · refine .inr ⟨token, List.mem_cons_of_mem _ htoken, ?_⟩
        rwa [show pos + text.length + (index - text.length) = pos + index by omega] at hcovers

/-- What no token covers is blank. -/
lemma Tiles.isBlank_of_not_covers {text : List Char} {tokens : List Token} (h : Tiles 0 text tokens)
    {index : Nat} {c : Char} (hc : text[index]? = some c)
    (hnone : ∀ token ∈ tokens, ¬ token.Covers index) : Text.isBlank c = true := by
  rcases h.covers hc with hblank | ⟨token, htoken, hcovers⟩
  · exact hblank
  · rw [Nat.zero_add] at hcovers
    exact absurd hcovers (hnone token htoken)

/-! ## Double quotes -/

/-- A token holds no double quote or two of them. -/
lemma Token.Shaped.even_count {kind : Token.Kind} {text : List Char} {pos : Int}
    (h : Token.Shaped ⟨kind, String.ofList text, pos⟩) : Even (text.count '"') := by
  rcases h.text_cases with ⟨-, rfl⟩ | ⟨-, rfl⟩ | ⟨-, rfl⟩ | ⟨-, body, rfl, hbody⟩ | ⟨-, hword⟩
  · decide
  · decide
  · decide
  · have hzero : body.count '"' = 0 := List.count_eq_zero.2 hbody
    simp [hzero]
  · have hnone : '"' ∉ text := fun hmem => absurd (hword.2 '"' hmem) (by decide)
    rw [List.count_eq_zero.2 hnone]
    exact Even.zero

/-- A text that is laid out as tokens and blanks holds an even number of double quotes. -/
lemma Tiles.even_count {pos : Nat} {text : List Char} {tokens : List Token}
    (h : Tiles pos text tokens) : Even (text.count '"') := by
  induction h with
  | done => exact Even.zero
  | @blank _ c rest _ hblank _ ih =>
    have hne : c ≠ '"' := by
      rintro rfl
      exact absurd hblank (by decide)
    rwa [List.count_cons_of_ne hne]
  | token hshaped _ _ ih =>
    rw [List.count_append]
    exact hshaped.even_count.add ih

/-- One more double quote makes the number odd. -/
lemma Tiles.odd_count_append {pos : Nat} {front body : List Char} {tokens : List Token}
    (h : Tiles pos front tokens) (hbody : '"' ∉ body) :
    Odd ((front ++ '"' :: body).count '"') := by
  rw [List.count_append, List.count_cons_self, List.count_eq_zero.2 hbody]
  exact h.even_count.add_one

/-- Behind the last double quote there is none. -/
lemma getElem?_append_ne_of_lt {front body : List Char} (hbody : '"' ∉ body) {index : Nat}
    (hindex : front.length < index) : (front ++ '"' :: body)[index]? ≠ some '"' := by
  intro hc
  obtain ⟨later, rfl⟩ : ∃ later, index = front.length + (later + 1) :=
    ⟨index - front.length - 1, by omega⟩
  rw [List.getElem?_append_right (by omega), Nat.add_sub_cancel_left,
    List.getElem?_cons_succ] at hc
  exact hbody (List.mem_of_getElem? hc)

/-! ## The tokens of a scan -/

/-- The tokens of a source tile it. One starts behind the other, each is not empty, looks as its
kind demands and is the piece of the source at its position, where an atom is as long as it can be.
What no token covers, up to a text that never ends, is blank. The source has a text that never ends
exactly if the number of its double quotes is odd; then that text starts at the last of them, and
the tokens are those of the source before it. -/
theorem scan_tiles_source (source : String) :
    ((scan source).tokens.Pairwise fun first second => first.stop ≤ second.pos) ∧
    (∀ token ∈ (scan source).tokens,
      token.text ≠ "" ∧ token.Shaped ∧ token.StandsIn source.toList) ∧
    (∀ index c, source.toList[index]? = some c →
      (∀ offset ∈ (scan source).unterminated, index < offset) →
      (∀ token ∈ (scan source).tokens, ¬ token.Covers index) → Text.isBlank c = true) ∧
    ((scan source).unterminated.isSome ↔ Odd (source.toList.count '"')) ∧
    ∀ offset ∈ (scan source).unterminated,
      source.toList[offset]? = some '"' ∧
      (∀ index, offset < index → source.toList[index]? ≠ some '"') ∧
      scan (String.ofList (source.toList.take offset)) = ⟨(scan source).tokens, none⟩ := by
  have hshaped : ∀ token ∈ (scan source).tokens, token.Shaped := fun _ => shaped_of_mem_scan
  rcases scan_cases source with
    ⟨tokens, htiles, hscan⟩ | ⟨front, body, tokens, hsource, hbody, htiles, hscan⟩
  · have hstands := htiles.standsIn [] rfl (apart_nil _)
    rw [hscan] at hshaped ⊢
    refine ⟨htiles.pairwise, fun token htoken => ?_, fun index c hc _ hnone => ?_, ?_, nofun⟩
    · exact ⟨(hshaped token htoken).text_ne_empty, hshaped token htoken, hstands token htoken⟩
    · exact htiles.isBlank_of_not_covers hc hnone
    · simpa using htiles.even_count
  · have hstands := htiles.standsIn [] rfl (apart_nil _)
    have hquote : Delimited ('"' :: body) := delimited_cons body (by decide)
    rw [hscan] at hshaped ⊢
    rw [hsource]
    refine ⟨htiles.pairwise, fun token htoken => ?_, fun index c hc hbefore hnone => ?_, ?_, ?_⟩
    · exact ⟨(hshaped token htoken).text_ne_empty, hshaped token htoken,
        (hstands token htoken).append hquote⟩
    · have hindex : index < front.length := hbefore front.length rfl
      rw [List.getElem?_append_left hindex] at hc
      exact htiles.isBlank_of_not_covers hc hnone
    · exact ⟨fun _ => htiles.odd_count_append hbody, fun _ => rfl⟩
    · rintro _ ⟨⟩
      refine ⟨by simp, fun index => getElem?_append_ne_of_lt hbody, ?_⟩
      rw [List.take_left' rfl, scan_eq_scanFrom, String.toList_ofList]
      exact htiles.scanFrom_eq

/-- In `x"a b"('y "z` the third double quote has no partner. The scan fails at it and yields the
tokens before it. -/
theorem scan_tiles_unterminated :
    (scan "x\"a b\"('y \"z").unterminated = some 10 ∧
      Odd ("x\"a b\"('y \"z".toList.count '"') ∧
      scan "x\"a b\"('y " = ⟨(scan "x\"a b\"('y \"z").tokens, none⟩ := by
  have hfails : (scan "x\"a b\"('y \"z").unterminated = some 10 := rfl
  obtain ⟨-, -, -, hodd, hlast⟩ := scan_tiles_source "x\"a b\"('y \"z"
  obtain ⟨-, -, hfront⟩ := hlast 10 hfails
  exact ⟨hfails, hodd.1 (by rw [hfails]; rfl), hfront⟩

end Lisplet

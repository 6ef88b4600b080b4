import Lisplet.Proofs.Reader.Grammar
import Lisplet.Proofs.Reader.Tiling

/-!
# Blanks between sources

What the scanner finds in a source does not depend on where the source stands. So two sources with
blanks between them have the tokens of the first and those of the second, which stand as much later
as the second source does. Nothing can reach over the blanks: the first source is laid out as tokens
and blanks up to its end, and a blank is no part of a word.

As a consequence, the tokens of a source can be written down one after the other with any blanks
between them, and the result is read as the source is.
-/

namespace Lisplet

/-- One or more blanks. -/
structure Gap where
  /-- The blanks. -/
  text : String
  /-- There is at least one. -/
  ne_empty : text ≠ ""
  /-- There is nothing else. -/
  isBlank : ∀ c ∈ text.toList, Text.isBlank c = true

/-! ## Sources that stand later -/

/-- A token that stands later. -/
def Token.shift (offset : Nat) (token : Token) : Token :=
  { token with pos := token.pos + offset }

/-- A scan of a source that stands later. -/
def Scan.shift (offset : Nat) (scan : Scan) : Scan :=
  ⟨scan.tokens.map (.shift offset), scan.unterminated.map (· + offset)⟩

@[simp]
lemma Token.lexeme_shift (offset : Nat) (token : Token) :
    (token.shift offset).lexeme = token.lexeme := rfl

/-- Tokens that are moved keep their lexemes. -/
lemma map_lexeme_shift (offset : Nat) (tokens : List Token) :
    (tokens.map (.shift offset)).map Token.lexeme = tokens.map Token.lexeme := by
  simp

/-- A layout can be moved. -/
lemma Tiles.shift {pos : Nat} {text : List Char} {tokens : List Token} (h : Tiles pos text tokens)
    (offset : Nat) : Tiles (pos + offset) text (tokens.map (.shift offset)) := by
  induction h with
  | done => exact .done
  | @blank pos c rest tokens hblank _ ih =>
    rw [Nat.add_right_comm] at ih
    exact .blank hblank ih
  | @token pos kind text rest tokens hshaped hatom _ ih =>
    have hmoved : Token.shift offset ⟨kind, String.ofList text, pos⟩ =
        ⟨kind, String.ofList text, ↑(pos + offset)⟩ := by
      simp [Token.shift]
    rw [Nat.add_right_comm] at ih
    rw [List.map_cons, hmoved]
    exact .token hshaped hatom ih

/-- The scanner finds the same wherever it starts. -/
lemma scanFrom_eq_shift (offset : Nat) (text : List Char) :
    scanFrom offset .between text = (scanFrom 0 .between text).shift offset := by
  rcases exists_tiles 0 text with ⟨tokens, htiles⟩ | ⟨front, body, tokens, rfl, hbody, htiles⟩
  · have hmoved := htiles.shift offset
    rw [Nat.zero_add] at hmoved
    rw [htiles.scanFrom_eq, hmoved.scanFrom_eq]
    rfl
  · have hmoved := htiles.shift offset
    have hquote : Delimited ('"' :: body) := delimited_cons body (by decide)
    rw [Nat.zero_add] at hmoved
    rw [htiles.scanFrom_append hquote, hmoved.scanFrom_append hquote,
      scanFrom_unterminated _ body hbody, scanFrom_unterminated _ body hbody]
    simp [Scan.after, Scan.shift, Nat.add_comm]

/-! ## Sources with a gap between them -/

/-- The scanner skips blanks. -/
lemma scanFrom_blanks (pos : Nat) {blanks : List Char} (rest : List Char)
    (h : ∀ c ∈ blanks, Text.isBlank c = true) :
    scanFrom pos .between (blanks ++ rest) = scanFrom (pos + blanks.length) .between rest := by
  induction blanks generalizing pos with
  | nil => rfl
  | cons c blanks ih =>
    have hrest := ih (pos + 1) fun d hd => h d (List.mem_cons_of_mem c hd)
    rw [List.cons_append, scanFrom_blank pos _ (h c (List.mem_cons_self ..)), hrest,
      List.length_cons, Nat.add_assoc, Nat.add_comm 1]

/-- A gap does not prolong a word. -/
lemma Gap.delimited (gap : Gap) (rest : List Char) : Delimited (gap.text.toList ++ rest) := by
  have hne : gap.text.toList ≠ [] := fun h => gap.ne_empty (String.toList_eq_nil_iff.1 h)
  obtain ⟨c, blanks, hblanks⟩ := List.exists_cons_of_ne_nil hne
  have hc : Text.isBlank c = true := gap.isBlank c (by rw [hblanks]; exact List.mem_cons_self ..)
  rw [hblanks]
  exact delimited_cons _ (not_isAtomChar_of_isBlank hc)

/-- A source that is scanned to its end is laid out as its tokens. -/
lemma tiles_of_unterminated_eq_none {source : String} (h : (scan source).unterminated = none) :
    Tiles 0 source.toList (scan source).tokens := by
  rcases scan_cases source with ⟨tokens, htiles, hscan⟩ | ⟨front, body, tokens, -, -, -, hscan⟩
  · rw [hscan]
    exact htiles
  · rw [hscan] at h
    cases h

/-- Two sources with a gap between them are scanned one after the other. -/
lemma scan_append_gap {first : String} (h : (scan first).unterminated = none) (gap : Gap)
    (second : String) :
    scan (first ++ gap.text ++ second) =
      ((scan second).shift (first.length + gap.text.length)).after (scan first).tokens := by
  have hfirst := tiles_of_unterminated_eq_none h
  have hchars : (first ++ gap.text ++ second).toList =
      first.toList ++ (gap.text.toList ++ second.toList) := by simp
  have hlength : 0 + first.toList.length + gap.text.toList.length =
      first.length + gap.text.length := by
    rw [Nat.zero_add, String.length_toList, String.length_toList]
  calc scan (first ++ gap.text ++ second)
      = scanFrom 0 .between (first.toList ++ (gap.text.toList ++ second.toList)) := by
        rw [scan_eq_scanFrom, hchars]
    _ = (scanFrom (0 + first.toList.length) .between (gap.text.toList ++ second.toList)).after
          (scan first).tokens := hfirst.scanFrom_append (gap.delimited _)
    _ = (scanFrom (first.length + gap.text.length) .between second.toList).after
          (scan first).tokens := by rw [scanFrom_blanks _ _ gap.isBlank, hlength]
    _ = ((scan second).shift (first.length + gap.text.length)).after (scan first).tokens := by
        rw [scanFrom_eq_shift, ← scan_eq_scanFrom]

/-! ## Tokens with gaps between them -/

/-- Texts one after the other, with gaps between them. -/
def Gap.join (gaps : Nat → Gap) : List String → String
  | [] => ""
  | [text] => text
  | text :: next :: more =>
    text ++ (gaps 0).text ++ Gap.join (fun place => gaps (place + 1)) (next :: more)

/-- The text of a token is that token and nothing else. -/
lemma Token.Shaped.scan_text {token : Token} (h : token.Shaped) :
    scan token.text = ⟨[⟨token.kind, token.text, 0⟩], none⟩ := by
  have hshaped : Token.Shaped ⟨token.kind, String.ofList token.text.toList, (0 : Nat)⟩ := by
    rw [String.ofList_toList]
    exact h
  have hscan := scanFrom_token hshaped fun _ => delimited_nil
  rw [List.append_nil, String.ofList_toList] at hscan
  rw [scan_eq_scanFrom, hscan]
  rfl

/-- The texts of tokens, with gaps between them, are scanned as these tokens. -/
lemma scan_join (gaps : Nat → Gap) {tokens : List Token} (h : ∀ token ∈ tokens, token.Shaped) :
    (scan (Gap.join gaps (tokens.map Token.text))).unterminated = none ∧
    (scan (Gap.join gaps (tokens.map Token.text))).tokens.map Token.lexeme =
      tokens.map Token.lexeme := by
  induction tokens generalizing gaps with
  | nil => exact ⟨rfl, rfl⟩
  | cons token rest ih =>
    have htoken := (h token (List.mem_cons_self ..)).scan_text
    cases rest with
    | nil =>
      rw [List.map_singleton, Gap.join, htoken]
      exact ⟨rfl, rfl⟩
    | cons next more =>
      obtain ⟨hends, hlexemes⟩ := ih (fun place => gaps (place + 1)) fun later hlater =>
        h later (List.mem_cons_of_mem token hlater)
      have hunterminated : (scan token.text).unterminated = none := by rw [htoken]
      rw [List.map_cons, List.map_cons, Gap.join, scan_append_gap hunterminated, ← List.map_cons,
        htoken]
      constructor
      · rw [Scan.after_unterminated, Scan.shift, hends]
        rfl
      · rw [Scan.after_tokens, Scan.shift, List.map_append, map_lexeme_shift, hlexemes]
        rfl

/-- Sources without failures whose tokens have the same kinds and texts are read alike. -/
lemma parse_eq_ok_iff_of_lexemes {source source' : String}
    (h : (scan source).unterminated = none) (h' : (scan source').unterminated = none)
    (hlexemes : (scan source').tokens.map Token.lexeme = (scan source).tokens.map Token.lexeme)
    (node : Node) : parse source' = .ok node ↔ parse source = .ok node := by
  rw [parse_eq_ok_iff, parse_eq_ok_iff, readTree_eq_tree_iff, readTree_eq_tree_iff]
  constructor
  · rintro ⟨-, hderives⟩
    exact ⟨h, hderives.of_lexemes hlexemes.symm⟩
  · rintro ⟨-, hderives⟩
    exact ⟨h', hderives.of_lexemes hlexemes⟩

/-- Blanks separate sources. If a source is scanned without a failure, then blanks and any other
source can be put behind it: the scan gives the tokens of the one, and then the tokens and the
failure of the other, which stand later by the length of what is before them. And if the tokens of
the source are written down with any blanks between them, there are tokens of the same kinds and
texts, and the reader makes the same tree of them. -/
theorem scan_separated_by_gap (source other : String) (gap : Gap) (gaps : Nat → Gap)
    (h : (scan source).unterminated = none) :
    ((scan (source ++ gap.text ++ other)).tokens = (scan source).tokens ++
        (scan other).tokens.map (.shift (source.length + gap.text.length)) ∧
      (scan (source ++ gap.text ++ other)).unterminated =
        (scan other).unterminated.map (· + (source.length + gap.text.length))) ∧
    (scan (Gap.join gaps ((scan source).tokens.map Token.text))).unterminated = none ∧
    (scan (Gap.join gaps ((scan source).tokens.map Token.text))).tokens.map Token.lexeme =
      (scan source).tokens.map Token.lexeme ∧
    ∀ node, parse (Gap.join gaps ((scan source).tokens.map Token.text)) = .ok node ↔
      parse source = .ok node := by
  have hshaped : ∀ token ∈ (scan source).tokens, token.Shaped := fun _ => shaped_of_mem_scan
  obtain ⟨hends, hlexemes⟩ := scan_join gaps hshaped
  refine ⟨?_, hends, hlexemes, parse_eq_ok_iff_of_lexemes h hends hlexemes⟩
  rw [scan_append_gap h gap other]
  exact ⟨rfl, rfl⟩

/-- A plain space and an ideographic one. -/
def wideGap : Gap where
  text := " \u3000"
  ne_empty := by decide
  isBlank := List.all_eq_true.1 rfl

/-- The double quote in `y "z` has no partner, and so it fails behind `('x)` as well. The tokens of
`('x)` are read as the same tree when there are wide gaps between them. -/
theorem quotedName_separated_by_wideGap :
    (scan "('x)").unterminated = none ∧
      (scan "('x) \u3000y \"z").tokens = (scan "('x)").tokens ++ [⟨.atom, "y", 6⟩] ∧
      (scan "('x) \u3000y \"z").unterminated = some 8 ∧
      parse (Gap.join (fun _ => wideGap) ["(", "'", "x", ")"]) =
        .ok (.form [.quote (.identifier "x")]) := by
  have hends : (scan "('x)").unterminated = none := rfl
  have hparse : parse "('x)" = .ok (.form [.quote (.identifier "x")]) := rfl
  obtain ⟨⟨htokens, hfailure⟩, -, -, hread⟩ :=
    scan_separated_by_gap "('x)" "y \"z" wideGap (fun _ => wideGap) hends
  exact ⟨hends, htokens, hfailure, (hread _).2 hparse⟩

end Lisplet

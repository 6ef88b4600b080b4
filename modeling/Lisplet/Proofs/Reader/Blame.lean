import Lisplet.Proofs.Reader.Faults

/-!
# Where the reader puts the blame

An error of the reader is either about a token or about the end of the tokens. In the first case
that token is the earliest at which the row of tokens is lost: what comes before it can be continued
to a row that is accepted, and with it no continuation is. In the second case the whole row can be
continued, and the error names what is missing: everything, something to quote, or the closing
parenthesis of the innermost form that is open.

Which parenthesis that is can be said without the reader, by pairing parentheses: `hasPartner` walks
on from an opening one and counts how deep it is.
-/

namespace Lisplet

/-! ## Partners of parentheses -/

/-- Whether the tokens after an opening parenthesis hold the closing one that belongs to it. The
depth is the number of parentheses that were opened on the way and are still open. -/
def hasPartner : Nat → List Token → Bool
  | _, [] => false
  | depth, token :: rest =>
    match token.kind, depth with
    | .opening, depth => hasPartner (depth + 1) rest
    | .closing, 0 => true
    | .closing, depth + 1 => hasPartner depth rest
    | _, depth => hasPartner depth rest

/-- Every opening parenthesis among the tokens has its partner among them. -/
def EachClosed (tokens : List Token) : Prop :=
  ∀ opening after, opening :: after <:+ tokens → opening.kind = .opening →
    hasPartner 0 after = true

/-- The last opening parenthesis among the tokens that has no partner. -/
def IsLastUnclosed (tokens : List Token) (opening : Token) : Prop :=
  ∃ after, opening :: after <:+ tokens ∧ opening.kind = .opening ∧
    hasPartner 0 after = false ∧ EachClosed after

/-- A partner stays one when more tokens follow. -/
lemma hasPartner_append_of_eq_true {depth : Nat} {tokens : List Token}
    (h : hasPartner depth tokens = true) (rest : List Token) :
    hasPartner depth (tokens ++ rest) = true := by
  induction tokens generalizing depth with
  | nil => cases h
  | cons token tokens ih =>
    obtain ⟨kind, text, pos⟩ := token
    cases kind with
    | closing =>
      cases depth with
      | zero => rfl
      | succ depth => exact ih h
    | _ => exact ih h

mutual

/-- The spelling of a tree is no place to look for a partner. -/
theorem Derives.hasPartner_append {tokens : List Token} {node : Node} :
    Derives tokens node → ∀ (depth : Nat) (rest : List Token),
      hasPartner depth (tokens ++ rest) = hasPartner depth rest
  | .atom _, _, _ => rfl
  | .string, _, _ => rfl
  | .quote hinner, depth, rest => hinner.hasPartner_append depth rest
  | @Derives.form _ _ inner _ text' pos' hnodes, depth, rest => by
    have hinside := hnodes.hasPartner_append (depth + 1) (⟨.closing, text', pos'⟩ :: rest)
    rw [List.cons_append, List.append_assoc, List.singleton_append]
    exact hinside

/-- The spellings of a row of trees are no place to look for a partner. -/
theorem DerivesAll.hasPartner_append {tokens : List Token} {nodes : List Node} :
    DerivesAll tokens nodes → ∀ (depth : Nat) (rest : List Token),
      hasPartner depth (tokens ++ rest) = hasPartner depth rest
  | .nil, _, _ => rfl
  | @DerivesAll.cons _ later _ _ hfirst hrest, depth, rest => by
    rw [List.append_assoc, hfirst.hasPartner_append, hrest.hasPartner_append]

end

/-- Without tokens nothing is left open. -/
lemma eachClosed_nil : EachClosed [] := by
  intro opening after hsuffix
  cases List.suffix_nil.1 hsuffix

/-- Each parenthesis is closed if the first one is, and those after it are. -/
lemma eachClosed_cons_iff {token : Token} {rest : List Token} :
    EachClosed (token :: rest) ↔
      (token.kind = .opening → hasPartner 0 rest = true) ∧ EachClosed rest := by
  constructor
  · intro h
    refine ⟨h token rest List.suffix_rfl, ?_⟩
    intro opening after hsuffix
    exact h opening after (hsuffix.trans (List.suffix_cons token rest))
  · rintro ⟨htoken, hrest⟩ opening after hsuffix
    rcases List.suffix_cons_iff.1 hsuffix with heq | hsuffix
    · cases heq
      exact htoken
    · exact hrest opening after hsuffix

/-- Tokens that close their own parentheses can be put after each other. -/
lemma EachClosed.append {tokens rest : List Token} (h : EachClosed tokens)
    (hrest : EachClosed rest) : EachClosed (tokens ++ rest) := by
  induction tokens with
  | nil => exact hrest
  | cons token tokens ih =>
    obtain ⟨htoken, htokens⟩ := eachClosed_cons_iff.1 h
    refine eachClosed_cons_iff.2 ⟨fun hopening => ?_, ih htokens⟩
    exact hasPartner_append_of_eq_true (htoken hopening) rest

mutual

/-- In the spelling of a tree every opening parenthesis has its partner. -/
theorem Derives.eachClosed {tokens : List Token} {node : Node} :
    Derives tokens node → EachClosed tokens
  | .atom _ => eachClosed_cons_iff.2 ⟨nofun, eachClosed_nil⟩
  | .string => eachClosed_cons_iff.2 ⟨nofun, eachClosed_nil⟩
  | .quote hinner => eachClosed_cons_iff.2 ⟨nofun, hinner.eachClosed⟩
  | @Derives.form _ _ inner _ text' pos' hnodes => by
    have hlast : EachClosed [⟨.closing, text', pos'⟩] :=
      eachClosed_cons_iff.2 ⟨nofun, eachClosed_nil⟩
    refine eachClosed_cons_iff.2 ⟨fun _ => ?_, hnodes.eachClosed.append hlast⟩
    rw [hnodes.hasPartner_append]
    rfl

/-- In the spellings of a row of trees every opening parenthesis has its partner. -/
theorem DerivesAll.eachClosed {tokens : List Token} {nodes : List Node} :
    DerivesAll tokens nodes → EachClosed tokens
  | .nil => eachClosed_nil
  | .cons hfirst hrest => hfirst.eachClosed.append hrest.eachClosed

end

/-- The innermost open form is that of the last opening parenthesis without a partner. -/
lemma Opens.isLastUnclosed {tokens : List Token} {pos : Int} {reversed : List Node}
    {outer : List Construct} (h : Opens tokens (.form pos reversed :: outer)) :
    ∃ opening, IsLastUnclosed tokens opening ∧ opening.pos = pos := by
  cases h with
  | @form front _ text _ inner _ hopens hinner =>
    have hnone : hasPartner 0 inner = false := by
      have hwalk := hinner.hasPartner_append 0 []
      rwa [List.append_nil] at hwalk
    exact ⟨⟨.opening, text, pos⟩, ⟨inner, List.suffix_append front _, rfl, hnone,
      hinner.eachClosed⟩, rfl⟩

/-! ## Going on after a beginning -/

/-- A beginning that leaves constructs open hands them to the rest. -/
lemma readTree_append_of_cut {pending middle : List Construct} {first : List Token}
    (h : readTree pending first = .cut middle) (rest : List Token) :
    readTree pending (first ++ rest) = readTree middle rest := by
  induction first generalizing pending with
  | nil =>
    obtain rfl : pending = middle := by simpa [readTree] using h
    rfl
  | cons token first ih =>
    obtain ⟨pending', hconsume, hfirst⟩ := exists_consume_of_cut h
    rw [List.cons_append, readTree_cons_of_ok (first ++ rest) hconsume]
    exact ih hfirst

/-- What leaves constructs open has done so all along. -/
lemma exists_cut_of_append {pending last : List Construct} {first rest : List Token}
    (h : readTree pending (first ++ rest) = .cut last) :
    ∃ middle, readTree pending first = .cut middle := by
  induction first generalizing pending with
  | nil => exact ⟨pending, rfl⟩
  | cons token first ih =>
    obtain ⟨pending', hconsume, hfirst⟩ := exists_consume_of_cut h
    rw [readTree_cons_of_ok first hconsume]
    exact ih hfirst

/-- After a quote mark, what is open is the quote. -/
lemma exists_quote_of_cut {before : List Token} {mark : Token} {pending : List Construct}
    (hmark : mark.kind = .quoteMark) (h : readTree [] (before ++ [mark]) = .cut pending) :
    ∃ outer, pending = .quote mark.pos :: outer := by
  obtain ⟨outer, hbefore⟩ := exists_cut_of_append h
  refine ⟨outer, ?_⟩
  have hconsume : consume outer mark = .ok (.inr (.quote mark.pos :: outer)) := by
    simp [consume, hmark]
  rw [readTree_append_of_cut hbefore, readTree_cons_of_ok [] hconsume] at h
  simpa [resume, readTree] using h.symm

/-! ## Rows that can be continued -/

/-- A row of tokens that the reader accepts. -/
def Accepted (tokens : List Token) : Prop :=
  ∃ node, parseTokens tokens = .ok node

/-- Tokens are accepted if and only if they are those of a tree. -/
lemma accepted_iff_exists_derives {tokens : List Token} :
    Accepted tokens ↔ ∃ node, Derives tokens node := by
  unfold Accepted
  simp only [parseTokens_eq_ok_iff, readTree_eq_tree_iff]

/-- Tokens that are blamed are not accepted. -/
lemma not_accepted_of_verdict {tokens : List Token} (error : Error)
    (h : (readTree [] tokens).verdict none = .error error) : ¬ Accepted tokens := by
  rintro ⟨node, hnode⟩
  rw [parseTokens_eq_verdict, h] at hnode
  cases hnode

/-- Open constructs can be completed around any tree that comes next. -/
lemma Opens.exists_derives {tokens last : List Token} {pending : List Construct} {node : Node}
    (h : Opens tokens pending) (hlast : Derives last node) :
    ∃ more whole, Derives (tokens ++ (last ++ more)) whole := by
  induction h generalizing last node with
  | nil =>
    refine ⟨[], node, ?_⟩
    rwa [List.append_nil]
  | @quote front pending text pos _ ih =>
    have hquote : Derives (⟨.quoteMark, text, pos⟩ :: last) (.quote node) := .quote hlast
    obtain ⟨more, whole, hwhole⟩ := ih hquote
    refine ⟨more, whole, ?_⟩
    rwa [List.append_assoc, List.singleton_append]
  | @form front pending text pos inner reversed _ hinner ih =>
    -- the form is closed right after the tree, and what is open around it is left to the induction
    have hform : Derives (⟨.opening, text, pos⟩ :: ((inner ++ last) ++ [⟨.closing, ")", 0⟩]))
        (.form (reversed.reverse ++ [node])) := .form (hinner.concat hlast)
    obtain ⟨more, whole, hwhole⟩ := ih hform
    refine ⟨⟨.closing, ")", 0⟩ :: more, whole, ?_⟩
    simpa using hwhole

/-- What leaves constructs open can be continued. -/
lemma Opens.exists_accepted {tokens : List Token} {pending : List Construct}
    (h : Opens tokens pending) : ∃ more, Accepted (tokens ++ more) := by
  have htext : Derives [⟨.string, "\"\"", 0⟩] (.string (literalText "\"\"")) := .string
  obtain ⟨more, whole, hwhole⟩ := h.exists_derives htext
  exact ⟨_, accepted_iff_exists_derives.2 ⟨whole, hwhole⟩⟩

/-! ## Blame -/

/-- A token at which a row of tokens is lost: what comes before it can be continued to a row that is
accepted, but not together with it. -/
def IsLostAt (before : List Token) (token : Token) : Prop :=
  (∃ more, Accepted (before ++ more)) ∧ ∀ more, ¬ Accepted (before ++ token :: more)

/-- What is missing at the end of the tokens: a tree, something to quote, or the partner of the last
opening parenthesis that has none. -/
structure BlamesEnd (tokens : List Token) (error : Error) : Prop where
  /-- Nothing at all is there. -/
  empty : error = .emptyInput ↔ tokens = []
  /-- The last token is a quote mark. -/
  quote : ∀ pos, error = .nothingToQuote pos ↔
    ∃ mark ∈ tokens.getLast?, mark.kind = .quoteMark ∧ mark.pos = pos
  /-- Otherwise a form is open. -/
  form : tokens ≠ [] → (∀ last ∈ tokens.getLast?, last.kind ≠ .quoteMark) →
    ∃ opening, IsLastUnclosed tokens opening ∧ error = .unmatchedOpen opening.pos

/-- The token that the open constructs have no use for is one at which the row is lost. -/
lemma isLostAt_of_consume {used : List Token} {token : Token} {pending : List Construct}
    {error : Error} (hused : readTree [] used = .cut pending)
    (hconsume : consume pending token = .error error) : IsLostAt used token := by
  refine ⟨(Opens.nil.cut hused).exists_accepted, fun more => ?_⟩
  apply not_accepted_of_verdict error
  rw [readTree_append_of_cut hused, readTree_cons, hconsume]
  rfl

/-- A row that spells a tree is lost at any token that follows. -/
lemma Derives.isLostAt {used : List Token} {node : Node} (h : Derives used node) (token : Token) :
    IsLostAt used token := by
  refine ⟨⟨[], ?_⟩, fun more => ?_⟩
  · rw [List.append_nil]
    exact accepted_iff_exists_derives.2 ⟨node, h⟩
  · apply not_accepted_of_verdict (Stream.trailing token)
    rw [h.readTree_append]
    rfl

/-- Constructs that are open at the end of the tokens are what is incomplete. -/
lemma blamesEnd_of_cut {tokens : List Token} {pending : List Construct} {error : Error}
    (hread : readTree [] tokens = .cut pending)
    (herror : (Reading.cut pending).verdict none = .error error) : BlamesEnd tokens error := by
  have hopens : Opens tokens pending := Opens.nil.cut hread
  rcases pending with _ | ⟨construct, outer⟩
  · obtain rfl := hopens.eq_nil
    obtain rfl : Error.emptyInput = error := Except.error.inj herror
    exact ⟨by simp, by simp, fun h => absurd rfl h⟩
  · have hne : tokens ≠ [] := by
      rintro rfl
      simp [readTree] at hread
    cases construct with
    | quote pos =>
      obtain rfl : Error.nothingToQuote pos = error := Except.error.inj herror
      cases hopens with
      | @quote front _ text _ _ =>
        refine ⟨by simp, fun pos' => ?_, fun _ hlast => ?_⟩
        · simp
        · exact absurd rfl (hlast ⟨.quoteMark, text, pos⟩ (by simp))
    | form pos reversed =>
      obtain rfl : Error.unmatchedOpen pos = error := Except.error.inj herror
      refine ⟨by simp [hne], fun pos' => ?_, fun _ _ => ?_⟩
      · -- a quote mark at the end would leave a quote open, not a form
        constructor
        · rintro ⟨⟩
        · rintro ⟨mark, hmark, hkind, -⟩
          obtain ⟨before, rfl⟩ := List.getLast?_eq_some_iff.1 hmark
          obtain ⟨_, hquote⟩ := exists_quote_of_cut hkind hread
          cases hquote
      · obtain ⟨opening, hlast, rfl⟩ := hopens.isLastUnclosed
        exact ⟨opening, hlast, rfl⟩

/-- The reader finds an error at the earliest token and puts the blame where it belongs. Let all
tokens be of known kinds and all atoms be names or numbers. If the row is not accepted, then either
the error names a token at which the row is lost, as a parenthesis too many or as a token too many,
or the row can be continued to one that is accepted, and the error names what is missing. -/
theorem parseTokens_blames_earliest_token (tokens : List Token) (error : Error)
    (hkinds : ∀ token ∈ tokens, ∀ name, token.kind ≠ .other name)
    (hatoms : ∀ token ∈ tokens, token.kind = .atom → ∃ node, Node.ofAtom token.text = .ok node)
    (h : parseTokens tokens = .error error) :
    (∃ before token after, tokens = before ++ token :: after ∧ IsLostAt before token ∧
      ((token.kind = .closing ∧ error = .unmatchedClose token.pos) ∨
        (token.kind ≠ .closing ∧ error = .trailingToken token.text token.pos))) ∨
    ((∃ more, more ≠ [] ∧ Accepted (tokens ++ more)) ∧ BlamesEnd tokens error) := by
  rw [parseTokens_eq_verdict] at h
  cases hread : readTree [] tokens with
  | fault found rest =>
    left
    rw [hread] at h
    obtain rfl : found = error := Except.error.inj h
    obtain ⟨used, token, pending, rfl, hused, hconsume⟩ := exists_cut_of_fault hread
    refine ⟨used, token, rest, rfl, isLostAt_of_consume hused hconsume, ?_⟩
    have hmem : token ∈ used ++ token :: rest := by simp
    rcases consume_eq_error hconsume with ⟨hatom, hfail⟩ | hclosing | ⟨name, hname, -⟩
    · obtain ⟨node, hnode⟩ := hatoms token hmem hatom
      cases hfail.symm.trans hnode
    · exact .inl hclosing
    · exact absurd hname (hkinds token hmem name)
  | tree node rest =>
    obtain ⟨used, rfl, hderives⟩ := Opens.nil.derives hread
    rw [hread] at h
    cases rest with
    | nil => cases h
    | cons token rest =>
      left
      obtain rfl : Stream.trailing token = error := Except.error.inj h
      refine ⟨used, token, rest, rfl, hderives.isLostAt token, ?_⟩
      by_cases hclosing : token.kind = .closing
      · exact .inl ⟨hclosing, by simp [Stream.trailing, hclosing]⟩
      · exact .inr ⟨hclosing, by simp [Stream.trailing]⟩
  | cut pending =>
    right
    rw [hread] at h
    refine ⟨?_, blamesEnd_of_cut hread h⟩
    obtain ⟨more, hmore⟩ := (Opens.nil.cut hread).exists_accepted
    refine ⟨more, ?_, hmore⟩
    rintro rfl
    have hrefused : ¬ Accepted tokens := by
      apply not_accepted_of_verdict error
      rw [hread]
      exact h
    rw [List.append_nil] at hmore
    exact hrefused hmore

/-- The tokens of `((a) '(b (c)`. -/
def unfinishedQuote : List Token :=
  [⟨.opening, "(", 0⟩, ⟨.opening, "(", 1⟩, ⟨.atom, "a", 2⟩, ⟨.closing, ")", 3⟩,
    ⟨.quoteMark, "'", 5⟩, ⟨.opening, "(", 6⟩, ⟨.atom, "b", 7⟩, ⟨.opening, "(", 9⟩,
    ⟨.atom, "c", 10⟩, ⟨.closing, ")", 11⟩]

/-- Two of the four parentheses that these tokens open are not closed, and the error names the
second of them, inside the quote. -/
theorem unfinishedQuote_blamed :
    parseTokens unfinishedQuote = .error (.unmatchedOpen 6) ∧
      (∃ more, more ≠ [] ∧ Accepted (unfinishedQuote ++ more)) ∧
      ∃ opening, IsLastUnclosed unfinishedQuote opening ∧ opening.pos = 6 := by
  have herror : parseTokens unfinishedQuote = .error (.unmatchedOpen 6) := rfl
  have hkinds : ∀ token ∈ unfinishedQuote, ∀ name, token.kind ≠ .other name := by
    simp [unfinishedQuote]
  have hatoms : ∀ token ∈ unfinishedQuote, token.kind = .atom →
      ∃ node, Node.ofAtom token.text = .ok node := by
    have ha : Node.ofAtom "a" = .ok (.identifier "a") := rfl
    have hb : Node.ofAtom "b" = .ok (.identifier "b") := rfl
    have hc : Node.ofAtom "c" = .ok (.identifier "c") := rfl
    simp [unfinishedQuote, ha, hb, hc]
  rcases parseTokens_blames_earliest_token unfinishedQuote _ hkinds hatoms herror with
    ⟨before, token, after, -, -, ⟨-, hfalse⟩ | ⟨-, hfalse⟩⟩ | ⟨hmore, hblame⟩
  · cases hfalse
  · cases hfalse
  · obtain ⟨opening, hlast, hpos⟩ := hblame.form (by simp [unfinishedQuote])
      (by simp [unfinishedQuote])
    exact ⟨herror, hmore, opening, hlast, (Error.unmatchedOpen.inj hpos).symm⟩

end Lisplet

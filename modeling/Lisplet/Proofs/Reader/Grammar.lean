import Lisplet.Proofs.Reader.RoundTrip

/-!
# The grammar of trees

Which rows of tokens spell which trees is said by a grammar, without reading order and without
lookahead. An atom spells a name or a number, a delimited text spells a text, a quote mark before
the spelling of a tree spells its quote, and parentheses around the spellings of trees spell the
form of these trees.

The reader takes one token after the other and keeps the constructs that are still open. What the
tokens so far have to do with the grammar is `Opens`: they are the opening tokens of all open
constructs, with the spellings of the completed children of forms in between. One more token either
keeps this invariant or completes the spelling of a tree, so whatever the reader accepts is in the
grammar. Conversely, the reader goes through the spelling of a tree without looking at what comes
after it, whatever is open around it.
-/

namespace Lisplet

mutual

/-- A row of tokens spells a tree. -/
inductive Derives : List Token → Node → Prop
  | atom {text pos node} : Node.ofAtom text = .ok node → Derives [⟨.atom, text, pos⟩] node
  | string {text pos} : Derives [⟨.string, text, pos⟩] (.string (literalText text))
  | quote {text pos tokens node} :
      Derives tokens node → Derives (⟨.quoteMark, text, pos⟩ :: tokens) (.quote node)
  | form {text pos tokens nodes text' pos'} :
      DerivesAll tokens nodes →
      Derives (⟨.opening, text, pos⟩ :: (tokens ++ [⟨.closing, text', pos'⟩])) (.form nodes)

/-- A row of tokens spells a row of trees, one after the other. -/
inductive DerivesAll : List Token → List Node → Prop
  | nil : DerivesAll [] []
  | cons {first rest node nodes} :
      Derives first node → DerivesAll rest nodes → DerivesAll (first ++ rest) (node :: nodes)

end

/-! ## What the reader accepts is in the grammar -/

/-- One more tree at the end of a row. -/
lemma DerivesAll.concat {tokens last : List Token} {nodes : List Node} {node : Node}
    (h : DerivesAll tokens nodes) (hlast : Derives last node) :
    DerivesAll (tokens ++ last) (nodes ++ [node]) := by
  induction nodes generalizing tokens with
  | nil =>
    cases h with
    | nil =>
      have hsingle : DerivesAll (last ++ []) [node] := .cons hlast .nil
      rwa [List.append_nil] at hsingle
  | cons first nodes ih =>
    cases h with
    | cons hfirst hrest =>
      rw [List.append_assoc, List.cons_append]
      exact .cons hfirst (ih hrest)

/-- The tokens that were read leave these constructs open. -/
inductive Opens : List Token → List Construct → Prop
  | nil : Opens [] []
  | quote {tokens pending text pos} :
      Opens tokens pending → Opens (tokens ++ [⟨.quoteMark, text, pos⟩]) (.quote pos :: pending)
  | form {tokens pending text pos inner reversed} :
      Opens tokens pending → DerivesAll inner reversed.reverse →
      Opens (tokens ++ ⟨.opening, text, pos⟩ :: inner) (.form pos reversed :: pending)

/-- The tokens that were read amount to this progress. -/
def Progress.Spelling (tokens : List Token) : Progress → Prop
  | .inl node => Derives tokens node
  | .inr pending => Opens tokens pending

/-- The spelling of a tree after the tokens of open constructs. -/
lemma Opens.complete {tokens last : List Token} {pending : List Construct} {node : Node}
    (h : Opens tokens pending) (hlast : Derives last node) :
    Progress.Spelling (tokens ++ last) (complete node pending) := by
  induction h generalizing last node with
  | nil => exact hlast
  | @quote tokens pending text pos _ ih =>
    have hquote : Derives (⟨.quoteMark, text, pos⟩ :: last) (.quote node) := .quote hlast
    rw [List.append_assoc]
    exact ih hquote
  | @form tokens pending text pos inner reversed hopens hinner _ =>
    have hchildren : DerivesAll (inner ++ last) (node :: reversed).reverse := by
      rw [List.reverse_cons]
      exact hinner.concat hlast
    rw [List.append_assoc, List.cons_append]
    exact .form hopens hchildren

/-- One more token that the open constructs have a use for. -/
lemma Opens.consume {tokens : List Token} {pending : List Construct} {token : Token}
    {progress : Progress} (h : Opens tokens pending)
    (hconsume : consume pending token = .ok progress) :
    Progress.Spelling (tokens ++ [token]) progress := by
  obtain ⟨kind, text, pos⟩ := token
  cases kind with
  | atom =>
    cases hatom : Node.ofAtom text with
    | error error => simp [consume_atom, hatom, Except.map] at hconsume
    | ok node =>
      obtain rfl : Lisplet.complete node pending = progress := by
        simpa [consume_atom, hatom, Except.map] using hconsume
      exact h.complete (.atom hatom)
  | string =>
    obtain rfl : Lisplet.complete (.string (literalText text)) pending = progress := by
      simpa [consume_string] using hconsume
    exact h.complete .string
  | quoteMark =>
    obtain rfl : Sum.inr (.quote pos :: pending) = progress := by
      simpa [Lisplet.consume] using hconsume
    exact .quote h
  | opening =>
    obtain rfl : Sum.inr (.form pos [] :: pending) = progress := by
      simpa [Lisplet.consume] using hconsume
    exact .form h .nil
  | closing =>
    cases h with
    | nil => simp [Lisplet.consume] at hconsume
    | quote _ => simp [Lisplet.consume] at hconsume
    | @form tokens pending text' pos' inner reversed hopens hinner =>
      obtain rfl : Lisplet.complete (.form reversed.reverse) pending = progress := by
        simpa [Lisplet.consume] using hconsume
      have hform : Derives (⟨.opening, text', pos'⟩ :: (inner ++ [⟨.closing, text, pos⟩]))
          (.form reversed.reverse) := .form hinner
      rw [List.append_assoc, List.cons_append]
      exact hopens.complete hform
  | other name => simp [Lisplet.consume] at hconsume

/-- The tokens that were read, and those that the reader takes to complete a tree, spell the
tree. -/
lemma Opens.derives {read tokens rest : List Token} {pending : List Construct} {node : Node}
    (h : Opens read pending) (hread : readTree pending tokens = .tree node rest) :
    ∃ used, tokens = used ++ rest ∧ Derives (read ++ used) node := by
  induction tokens generalizing read pending with
  | nil => simp [readTree] at hread
  | cons token tokens ih =>
    cases hconsume : Lisplet.consume pending token with
    | error error => simp [readTree_cons, hconsume] at hread
    | ok progress =>
      have hspelling := h.consume hconsume
      rw [readTree_cons_of_ok tokens hconsume] at hread
      cases progress with
      | inl found =>
        obtain ⟨rfl, rfl⟩ : found = node ∧ tokens = rest := by simpa [resume] using hread
        exact ⟨[token], rfl, hspelling⟩
      | inr pending' =>
        have hopens : Opens (read ++ [token]) pending' := hspelling
        obtain ⟨used, rfl, hderives⟩ := ih hopens hread
        rw [List.append_assoc] at hderives
        exact ⟨token :: used, rfl, hderives⟩

/-! ## The reader accepts what is in the grammar -/

mutual

/-- The reader takes the spelling of a tree and completes the tree, whatever is open around it and
whatever comes after it. -/
theorem Derives.readTree_append {tokens : List Token} {node : Node} :
    Derives tokens node → ∀ (pending : List Construct) (rest : List Token),
      readTree pending (tokens ++ rest) = resume rest (complete node pending)
  | .atom hatom, pending, rest => by
    rw [List.singleton_append, readTree_cons, consume_atom, hatom]
    rfl
  | .string, pending, rest => by
    rw [List.singleton_append, readTree_cons, consume_string]
  | @Derives.quote _ pos _ _ hinner, pending, rest =>
    hinner.readTree_append (.quote pos :: pending) rest
  | @Derives.form _ pos _ nodes text' pos' hnodes, pending, rest => by
    have hopen := hnodes.readTree_append pos [] pending (⟨.closing, text', pos'⟩ :: rest)
    have hclose : consume (.form pos (nodes.reverse ++ []) :: pending) ⟨.closing, text', pos'⟩ =
        .ok (complete (.form nodes) pending) := by
      simp [consume]
    rw [List.cons_append, List.append_assoc, List.singleton_append]
    rw [readTree_cons_of_ok _ hclose] at hopen
    exact hopen

/-- The reader takes the spellings of a row of trees and adds the trees to the form that is open
around them. -/
theorem DerivesAll.readTree_append {tokens : List Token} {nodes : List Node} :
    DerivesAll tokens nodes →
      ∀ (pos : Int) (reversed : List Node) (outer : List Construct) (rest : List Token),
        readTree (.form pos reversed :: outer) (tokens ++ rest) =
          readTree (.form pos (nodes.reverse ++ reversed) :: outer) rest
  | .nil, pos, reversed, outer, rest => rfl
  | @DerivesAll.cons _ later node _ hfirst hrest, pos, reversed, outer, rest => by
    have hnode := hfirst.readTree_append (.form pos reversed :: outer) (later ++ rest)
    have hlater := hrest.readTree_append pos (node :: reversed) outer rest
    rw [List.append_assoc, hnode, List.reverse_cons, List.append_assoc, List.singleton_append]
    exact hlater

end

/-- The reader makes a tree of exactly the rows of tokens that spell it. -/
lemma readTree_eq_tree_iff {tokens : List Token} {node : Node} :
    readTree [] tokens = .tree node [] ↔ Derives tokens node := by
  constructor
  · intro hread
    obtain ⟨used, rfl, hderives⟩ := Opens.nil.derives hread
    rw [List.append_nil]
    exact hderives
  · intro hderives
    have hread := hderives.readTree_append [] []
    rwa [List.append_nil] at hread

/-! ## Positions -/

mutual

/-- The grammar does not look at positions. -/
theorem Derives.of_lexemes {tokens : List Token} {node : Node} :
    Derives tokens node → ∀ {tokens' : List Token},
      tokens'.map Token.lexeme = tokens.map Token.lexeme → Derives tokens' node
  | .atom hatom, tokens', h => by
    obtain ⟨pos, rfl⟩ := exists_token_of_map_lexeme h
    exact .atom hatom
  | .string, tokens', h => by
    obtain ⟨pos, rfl⟩ := exists_token_of_map_lexeme h
    exact .string
  | .quote hinner, tokens', h => by
    obtain ⟨mark, inner, rfl, hmark, hrest⟩ := List.map_eq_cons_iff.1 h
    rw [Token.kind_of_lexeme hmark]
    exact .quote (hinner.of_lexemes hrest)
  | .form hnodes, tokens', h => by
    obtain ⟨opening, inner, rfl, hopening, hinner⟩ := List.map_eq_cons_iff.1 h
    rw [List.map_append] at hinner
    obtain ⟨middle, last, rfl, hmiddle, hlast⟩ := List.map_eq_append_iff.1 hinner
    obtain ⟨closing, rfl⟩ := exists_token_of_map_lexeme hlast
    rw [Token.kind_of_lexeme hopening]
    exact .form (hnodes.of_lexemes hmiddle)

/-- The grammar of rows does not look at positions. -/
theorem DerivesAll.of_lexemes {tokens : List Token} {nodes : List Node} :
    DerivesAll tokens nodes → ∀ {tokens' : List Token},
      tokens'.map Token.lexeme = tokens.map Token.lexeme → DerivesAll tokens' nodes
  | .nil, tokens', h => by
    obtain rfl : tokens' = [] := by simpa using h
    exact .nil
  | .cons hfirst hrest, tokens', h => by
    rw [List.map_append] at h
    obtain ⟨first, later, rfl, hfirst', hlater⟩ := List.map_eq_append_iff.1 h
    exact .cons (hfirst.of_lexemes hfirst') (hrest.of_lexemes hlater)

end

/-! ## The reader and the grammar -/

/-- The reader accepts exactly the rows of tokens that the grammar derives a tree from, and makes
that tree. So no row of tokens spells two trees, and rows that differ in positions only are read
alike. -/
theorem parseTokens_eq_ok_iff_derives (tokens : List Token) :
    (∀ node, parseTokens tokens = .ok node ↔ Derives tokens node) ∧
    (∀ node node', Derives tokens node → Derives tokens node' → node = node') ∧
    ∀ tokens' : List Token, tokens'.map Token.lexeme = tokens.map Token.lexeme →
      ∀ node, parseTokens tokens' = .ok node ↔ parseTokens tokens = .ok node := by
  have hiff : ∀ (tokens : List Token) (node : Node),
      parseTokens tokens = .ok node ↔ Derives tokens node := by
    intro tokens node
    rw [parseTokens_eq_ok_iff, readTree_eq_tree_iff]
  refine ⟨hiff tokens, ?_, ?_⟩
  · intro node node' h h'
    have hparse : parseTokens tokens = .ok node := (hiff tokens node).2 h
    have hparse' : parseTokens tokens = .ok node' := (hiff tokens node').2 h'
    exact Except.ok.inj (hparse.symm.trans hparse')
  · intro tokens' hlexemes node
    rw [hiff, hiff]
    exact ⟨fun h => h.of_lexemes hlexemes.symm, fun h => h.of_lexemes hlexemes⟩

/-- The tokens of `'(f ())`, each at a given position. -/
def quotedCall (pos : Nat → Int) : List Token :=
  [⟨.quoteMark, "'", pos 0⟩, ⟨.opening, "(", pos 1⟩, ⟨.atom, "f", pos 2⟩, ⟨.opening, "(", pos 3⟩,
    ⟨.closing, ")", pos 4⟩, ⟨.closing, ")", pos 5⟩]

/-- The tokens spell a quoted form, and no other tree, wherever they stand. With a quote mark after
them they spell nothing. -/
theorem derives_quotedCall :
    parseTokens (quotedCall fun place => -place) =
        .ok (.quote (.form [.identifier "f", .form []])) ∧
      (∀ node, Derives (quotedCall fun place => place) node →
        node = .quote (.form [.identifier "f", .form []])) ∧
      ∀ node, ¬ Derives ((quotedCall fun place => place) ++ [⟨.quoteMark, "'", 6⟩]) node := by
  have hparse : parseTokens (quotedCall fun place => place) =
      .ok (.quote (.form [.identifier "f", .form []])) := rfl
  have htrailing : parseTokens ((quotedCall fun place => place) ++ [⟨.quoteMark, "'", 6⟩]) =
      .error (.trailingToken "'" 6) := rfl
  obtain ⟨hiff, hunique, hpositions⟩ :=
    parseTokens_eq_ok_iff_derives (quotedCall fun place => place)
  refine ⟨(hpositions _ rfl _).2 hparse, ?_, ?_⟩
  · intro node hnode
    exact hunique _ _ hnode ((hiff _).1 hparse)
  · intro node hnode
    have hok := ((parseTokens_eq_ok_iff_derives _).1 node).2 hnode
    cases htrailing.symm.trans hok

end Lisplet

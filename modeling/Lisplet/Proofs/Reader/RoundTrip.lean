import Mathlib.Tactic.Common
import Lisplet.Proofs.Reader.Literals
import Lisplet.Proofs.Reader.Reading
import Lisplet.Proofs.Values.Criterion
import Lisplet.Value.Render

/-!
# Writing and reading trees

The source text of a tree is read back as the same tree exactly when the tree is well-formed. Names
must be words that are no numbers, texts must not hold a double quote, integers must not be too
long, doubles must read back from their own texts, and there may be no constants and no foreign
values at all.

Of these conditions the one on doubles is special: the reader can make a double that does not read
back, because a literal may be too large. So `Node.Spelled` leaves it open which doubles are
allowed. Every tree that the reader makes is spelled in this loose sense, and for such trees the
scanner splits the source text into exactly the lexemes of the tree. What the reader makes of these
lexemes is the tree with every atom read once more, and that is the same tree if and only if all
doubles in it read back.
-/

namespace Lisplet

/-! ## Well-formed trees -/

/-- A number that has a literal: an integer that is not too long, or a double of a given sort. -/
def Number.Legible (real : Float → Prop) : Number → Prop
  | .int n => n.natAbs < Nat.pow 10 Number.digitLimit
  | .real x => real x
  | .bool _ | .undefined _ _ => False

/-- A word that is no literal. -/
def IsName (name : String) : Prop :=
  IsWord name.toList ∧ Literal.read? name.toList = none

mutual

/-- A tree that has a source text of its own, apart from the doubles in it, which are of a given
sort. -/
def Node.Spelled (real : Float → Prop) : Node → Prop
  | .identifier name => IsName name
  | .number n => n.Legible real
  | .string s => '"' ∉ s.toList
  | .form children => Node.AllSpelled real children
  | .quote inner => inner.Spelled real
  | .constant _ => False
  | .foreign _ => False

/-- A row of trees that have source texts of their own, apart from the doubles. -/
def Node.AllSpelled (real : Float → Prop) : List Node → Prop
  | [] => True
  | node :: rest => node.Spelled real ∧ Node.AllSpelled real rest

end

/-- A tree that can be written and read back. -/
def Node.WellFormed (node : Node) : Prop :=
  node.Spelled Real.ReadsBack

/-- Every tree of a spelled row is spelled. -/
lemma Node.allSpelled_iff {real : Float → Prop} {nodes : List Node} :
    Node.AllSpelled real nodes ↔ ∀ node ∈ nodes, node.Spelled real := by
  induction nodes with
  | nil => simp [Node.AllSpelled]
  | cons node rest ih => simp [Node.AllSpelled, ih]

/-! ## The reader makes spelled trees -/

/-- An open construct whose trees are spelled. -/
def Construct.Spelled (real : Float → Prop) : Construct → Prop
  | .form _ reversed => ∀ node ∈ reversed, node.Spelled real
  | .quote _ => True

/-- A progress whose trees are spelled. -/
def Progress.Spelled (real : Float → Prop) : Progress → Prop
  | .inl node => node.Spelled real
  | .inr pending => ∀ construct ∈ pending, construct.Spelled real

/-- A token that a scan may yield, if it is a literal for a double then for one of a given sort. -/
def Token.Spelled (real : Float → Prop) (token : Token) : Prop :=
  token.Shaped ∧ ∀ x, token.kind = .atom → Node.ofAtom token.text = .ok (.number (.real x)) → real x

/-- The tree of an atom is spelled. -/
lemma Node.spelled_of_ofAtom {real : Float → Prop} {text : String} {node : Node}
    (hword : IsWord text.toList)
    (hreal : ∀ x, Node.ofAtom text = .ok (.number (.real x)) → real x)
    (h : Node.ofAtom text = .ok node) : node.Spelled real := by
  have h' := h
  unfold Node.ofAtom at h
  cases hread : Literal.read? text.toList with
  | none =>
    simp only [hread, Except.ok.injEq] at h
    subst h
    exact ⟨hword, hread⟩
  | some literal =>
    simp only [hread] at h
    cases hvalue : literal.value with
    | error error => simp [hvalue, Except.map] at h
    | ok n =>
      obtain rfl : Node.number n = node := by simpa [hvalue, Except.map] using h
      cases literal with
      | integer negative digits =>
        obtain ⟨m, rfl, hm⟩ :=
          natAbs_lt_of_value_eq (Literal.lt_ten_of_read?_integer hread) hvalue
        exact hm
      | real negative whole fraction exponent =>
        simp only [Literal.value, Except.ok.injEq] at hvalue
        subst hvalue
        exact hreal _ h'

/-- A completed tree makes spelled progress in spelled constructs. -/
lemma spelled_complete {real : Float → Prop} {node : Node} {pending : List Construct}
    (hnode : node.Spelled real) (hpending : ∀ construct ∈ pending, construct.Spelled real) :
    Progress.Spelled real (complete node pending) := by
  induction pending generalizing node with
  | nil => exact hnode
  | cons construct outer ih =>
    have houter : ∀ construct ∈ outer, construct.Spelled real := fun c hc =>
      hpending c (by simp [hc])
    cases construct with
    | quote pos =>
      have hquote : (Node.quote node).Spelled real := hnode
      exact ih hquote houter
    | form pos reversed =>
      have hform := hpending (.form pos reversed) (by simp)
      intro construct hconstruct
      rcases List.mem_cons.mp hconstruct with rfl | hmem
      · intro child hchild
        rcases List.mem_cons.mp hchild with rfl | hmem
        · exact hnode
        · exact hform child hmem
      · exact houter construct hmem

/-- The characters between the two quotes of a delimited text. -/
lemma toList_literalText {text : String} {body : List Char}
    (h : text.toList = '"' :: body ++ ['"']) : (literalText text).toList = body := by
  simp [literalText, h]

/-- One token makes spelled progress in spelled constructs. -/
lemma spelled_consume {real : Float → Prop} {pending : List Construct} {token : Token}
    {progress : Progress} (hpending : ∀ construct ∈ pending, construct.Spelled real)
    (htoken : token.Spelled real) (h : consume pending token = .ok progress) :
    Progress.Spelled real progress := by
  obtain ⟨kind, text, pos⟩ := token
  obtain ⟨hshape, hreal⟩ := htoken
  cases kind with
  | atom =>
    cases hatom : Node.ofAtom text with
    | error error => simp [consume, hatom, Except.map] at h
    | ok node =>
      obtain rfl : complete node pending = progress := by
        simpa [consume, hatom, Except.map] using h
      exact spelled_complete (Node.spelled_of_ofAtom hshape (fun x => hreal x rfl) hatom) hpending
  | string =>
    obtain rfl : complete (.string (literalText text)) pending = progress := by
      simpa [consume] using h
    obtain ⟨body, htext, hbody⟩ := hshape
    refine spelled_complete ?_ hpending
    show '"' ∉ (literalText text).toList
    rw [toList_literalText htext]
    exact hbody
  | quoteMark =>
    obtain rfl : Sum.inr (.quote pos :: pending) = progress := by simpa [consume] using h
    intro construct hconstruct
    rcases List.mem_cons.mp hconstruct with rfl | hmem
    · trivial
    · exact hpending construct hmem
  | opening =>
    obtain rfl : Sum.inr (.form pos [] :: pending) = progress := by simpa [consume] using h
    intro construct hconstruct
    rcases List.mem_cons.mp hconstruct with rfl | hmem
    · simp [Construct.Spelled]
    · exact hpending construct hmem
  | closing =>
    match pending with
    | [] => simp [consume] at h
    | .quote _ :: _ => simp [consume] at h
    | .form start reversed :: outer =>
      obtain rfl : complete (.form reversed.reverse) outer = progress := by
        simpa [consume] using h
      have hform := hpending (.form start reversed) (by simp)
      refine spelled_complete ?_ fun c hc => hpending c (by simp [hc])
      exact Node.allSpelled_iff.mpr fun node hnode => hform node (by simpa using hnode)
  | other name => simp [consume] at h

/-- Reading spelled tokens into spelled constructs makes a spelled tree. -/
lemma spelled_of_readTree {real : Float → Prop} {tokens rest : List Token} {node : Node}
    {pending : List Construct} (hpending : ∀ construct ∈ pending, construct.Spelled real)
    (htokens : ∀ token ∈ tokens, token.Spelled real)
    (h : readTree pending tokens = .tree node rest) : node.Spelled real := by
  -- the invariant is that all open constructs hold spelled trees only
  induction tokens generalizing pending with
  | nil => simp [readTree] at h
  | cons token tokens ih =>
    cases hconsume : consume pending token with
    | error error => simp [readTree_cons, hconsume] at h
    | ok progress =>
      have hprogress := spelled_consume hpending (htokens token (by simp)) hconsume
      rw [readTree_cons_of_ok tokens hconsume] at h
      cases progress with
      | inl found =>
        obtain ⟨rfl, -⟩ : found = node ∧ tokens = rest := by simpa [resume] using h
        exact hprogress
      | inr pending' => exact ih hprogress (fun t ht => htokens t (by simp [ht])) h

/-- Every tree that the reader makes of a source is spelled, with doubles of the sort that the
literals of the source denote. -/
theorem spelled_of_parse {real : Float → Prop} {source : String} {node : Node}
    (hreal : ∀ token ∈ (scan source).tokens, ∀ x, token.kind = .atom →
      Node.ofAtom token.text = .ok (.number (.real x)) → real x)
    (h : parse source = .ok node) : node.Spelled real := by
  obtain ⟨-, hread⟩ := parse_eq_ok_iff.mp h
  refine spelled_of_readTree (by simp) ?_ hread
  intro token htoken
  exact ⟨shaped_of_mem_scan htoken, hreal token htoken⟩

/-! ## What occurs in trees that are read -/

/-- Names, texts, and numbers that have a text and that no call has made. -/
def Criterion.spelled : Criterion where
  number n := n.text.isSome ∧ n.origin? = none
  name _ := True
  identity _ := False
  scope _ := False
  callable _ := False
  foreign := False

/-- An integer that is not too long has a text. -/
lemma Number.isSome_text_int {n : Int} (h : n.natAbs < Nat.pow 10 Number.digitLimit) :
    (Number.int n).text.isSome := by
  rw [Number.text, if_pos h]
  rfl

mutual

/-- Only names, texts and numbers occur in a spelled tree. -/
theorem Node.Spelled.meets {real : Float → Prop} :
    ∀ {node : Node}, node.Spelled real → node.Meets .spelled
  | .identifier _, _ | .string _, _ => trivial
  | .number (.int _), h => ⟨Number.isSome_text_int h, rfl⟩
  | .number (.real _), _ => ⟨rfl, rfl⟩
  | .form _, h => Node.AllSpelled.allMeet h
  | .quote inner, h => show inner.Meets .spelled from Node.Spelled.meets h

/-- Only names, texts and numbers occur in a spelled row of trees. -/
theorem Node.AllSpelled.allMeet {real : Float → Prop} :
    ∀ {nodes : List Node}, Node.AllSpelled real nodes → Node.AllMeet .spelled nodes
  | [], _ => trivial
  | _ :: _, h => ⟨Node.Spelled.meets h.1, Node.AllSpelled.allMeet h.2⟩

end

/-- Only names, texts and numbers occur in a tree that was read. -/
lemma meets_spelled_of_parse {source : String} {node : Node} (h : parse source = .ok node) :
    node.Meets .spelled := by
  have hspelled : node.Spelled fun _ => True := spelled_of_parse (by simp) h
  exact hspelled.meets

/-! ## The lexemes of a tree -/

/-- A token without its position. -/
def Token.lexeme (token : Token) : Token.Kind × String :=
  (token.kind, token.text)

mutual

/-- The kinds and texts of the tokens that a tree is written with. -/
def Node.lexemes : Node → List (Token.Kind × String)
  | .identifier name => [(.atom, name)]
  | .number n => [(.atom, n.text.getD "")]
  | .string s => [(.string, "\"" ++ s ++ "\"")]
  | .form children => (.opening, "(") :: Node.allLexemes children ++ [(.closing, ")")]
  | .quote inner => (.quoteMark, "'") :: inner.lexemes
  | .constant _ => []
  | .foreign _ => []

/-- The kinds and texts of the tokens that a row of trees is written with. -/
def Node.allLexemes : List Node → List (Token.Kind × String)
  | [] => []
  | node :: rest => node.lexemes ++ Node.allLexemes rest

end

/-- A text that the scanner splits into given lexemes, whatever follows that does not prolong a
word. -/
def SplitsInto (text : List Char) (lexemes : List (Token.Kind × String)) : Prop :=
  ∀ (pos : Nat) (rest : List Char), Delimited rest → ∃ tokens : List Token,
    tokens.map Token.lexeme = lexemes ∧
      scanFrom pos .between (text ++ rest) =
        (scanFrom (pos + text.length) .between rest).after tokens

/-- Nothing splits into nothing. -/
lemma splitsInto_nil : SplitsInto [] [] := fun pos rest _ => ⟨[], by simp, by simp⟩

/-- A word is one atom. -/
lemma splitsInto_word {word : List Char} (h : IsWord word) :
    SplitsInto word [(.atom, String.ofList word)] := by
  intro pos rest hrest
  exact ⟨[⟨.atom, String.ofList word, pos⟩], by simp [Token.lexeme],
    scanFrom_word pos rest h hrest⟩

/-- A delimited text is one lexeme. -/
lemma splitsInto_string {body : List Char} (h : '"' ∉ body) :
    SplitsInto ('"' :: body ++ ['"']) [(.string, String.ofList ('"' :: body ++ ['"']))] := by
  intro pos rest _
  refine ⟨[⟨.string, String.ofList ('"' :: body ++ ['"']), pos⟩], by simp [Token.lexeme], ?_⟩
  have hlength : ('"' :: body ++ ['"']).length = body.length + 2 := by simp
  rw [List.append_assoc, List.singleton_append, scanFrom_string pos body rest h, hlength,
    Nat.add_assoc]

/-- A quote mark before a text adds its lexeme. -/
lemma SplitsInto.quote {text : List Char} {lexemes : List (Token.Kind × String)}
    (h : SplitsInto text lexemes) : SplitsInto ('\'' :: text) ((.quoteMark, "'") :: lexemes) := by
  intro pos rest hrest
  obtain ⟨tokens, htokens, hscan⟩ := h (pos + 1) rest hrest
  refine ⟨⟨.quoteMark, "'", pos⟩ :: tokens, by simp [Token.lexeme, htokens], ?_⟩
  rw [List.cons_append, scanFrom_quoteMark, hscan, Scan.after_after, List.length_cons,
    List.singleton_append, Nat.add_assoc, Nat.add_comm 1]

/-- A plain space between two texts separates them. -/
lemma SplitsInto.space {first second : List Char} {lexemes lexemes' : List (Token.Kind × String)}
    (h : SplitsInto first lexemes) (h' : SplitsInto second lexemes') :
    SplitsInto (first ++ ' ' :: second) (lexemes ++ lexemes') := by
  intro pos rest hrest
  obtain ⟨tokens, htokens, hscan⟩ :=
    h pos (' ' :: (second ++ rest)) (delimited_cons _ (by decide))
  obtain ⟨tokens', htokens', hscan'⟩ := h' (pos + first.length + 1) rest hrest
  refine ⟨tokens ++ tokens', by simp [htokens, htokens'], ?_⟩
  have hlength :
      pos + (first ++ ' ' :: second).length = pos + first.length + 1 + second.length := by
    simp only [List.length_append, List.length_cons]
    omega
  rw [List.append_assoc, List.cons_append, hscan, scanFrom_blank _ _ (by decide), hscan',
    Scan.after_after, hlength]

/-- Parentheses around a text add theirs. -/
lemma SplitsInto.parenthesised {text : List Char} {lexemes : List (Token.Kind × String)}
    (h : SplitsInto text lexemes) :
    SplitsInto ('(' :: text ++ [')']) ((.opening, "(") :: lexemes ++ [(.closing, ")")]) := by
  intro pos rest _
  obtain ⟨tokens, htokens, hscan⟩ := h (pos + 1) (')' :: rest) (delimited_cons _ (by decide))
  refine ⟨⟨.opening, "(", pos⟩ :: tokens ++ [⟨.closing, ")", ↑(pos + 1 + text.length)⟩],
    by simp [Token.lexeme, htokens], ?_⟩
  have hlength : pos + ('(' :: text ++ [')']).length = pos + 1 + text.length + 1 := by
    simp only [List.cons_append, List.length_append, List.length_cons, List.length_nil]
    omega
  rw [List.append_assoc, List.singleton_append, List.cons_append, scanFrom_opening, hscan,
    scanFrom_closing, Scan.after_after, Scan.after_after, hlength]
  simp

/-- A number with a literal is written as one atom. -/
lemma Number.splitsInto_text {real : Float → Prop} {n : Number} (h : n.Legible real) :
    ∃ text, n.text = some text ∧ SplitsInto text.toList [(.atom, text)] := by
  cases n with
  | int n =>
    have hlimit : n.natAbs < Nat.pow 10 Number.digitLimit := h
    refine ⟨Number.integerText n, by rw [Number.text, if_pos hlimit], ?_⟩
    simpa using splitsInto_word (isWord_integerText n)
  | real x =>
    refine ⟨Real.text x, rfl, ?_⟩
    simpa using splitsInto_word (Real.isWord_text x)
  | bool | undefined => exact h.elim

/-- A numeric literal is written as its number. -/
lemma Style.surface_ofNumber (number : String) : Style.surface.ofNumber number = number := rfl

/-- A form is written as its children in parentheses. -/
lemma Style.surface_ofForm (children : List String) :
    Style.surface.ofForm children = "(" ++ Text.joined " " children ++ ")" := rfl

/-- A quote is written as a quote mark before its tree. -/
lemma Style.surface_ofQuote (inner : String) : Style.surface.ofQuote inner = "'" ++ inner := rfl

/-- The texts of a row of trees are that of the first one and those of the others. -/
lemma Node.renderAll_cons_eq_some {style : Style} {node : Node} {rest : List Node}
    {texts : List String} :
    Node.renderAll style (node :: rest) = some texts ↔
      ∃ text others, node.render style = some text ∧ Node.renderAll style rest = some others ∧
        texts = text :: others := by
  rw [Node.renderAll]
  cases node.render style with
  | none => simp
  | some text =>
    cases Node.renderAll style rest with
    | none => simp
    | some others => simp [eq_comm]

mutual

/-- A spelled tree has a source text, and that splits into the lexemes of the tree. -/
lemma Node.splitsInto_source {real : Float → Prop} : ∀ node : Node, node.Spelled real →
    ∃ text, node.source = some text ∧ SplitsInto text.toList node.lexemes
  | .identifier name, h => by
    refine ⟨name, rfl, ?_⟩
    simpa [Node.lexemes] using splitsInto_word h.1
  | .number n, h => by
    obtain ⟨text, htext, hsplit⟩ := Number.splitsInto_text h
    refine ⟨text, by simp [Node.source, Node.render, htext, Style.surface_ofNumber], ?_⟩
    simpa [Node.lexemes, htext] using hsplit
  | .string s, h => by
    refine ⟨"\"" ++ s ++ "\"", rfl, ?_⟩
    have hchars : ("\"" ++ s ++ "\"").toList = '"' :: s.toList ++ ['"'] := by simp
    have hsplit : SplitsInto ('"' :: s.toList ++ ['"'])
        [(.string, String.ofList ('"' :: s.toList ++ ['"']))] := splitsInto_string h
    rw [← hchars, String.ofList_toList] at hsplit
    exact hsplit
  | .form children, h => by
    obtain ⟨texts, htexts, hsplit⟩ := Node.splitsInto_joined children h
    refine ⟨"(" ++ Text.joined " " texts ++ ")",
      by simp [Node.source, Node.render, htexts, Style.surface_ofForm], ?_⟩
    simpa [Node.lexemes] using hsplit.parenthesised
  | .quote inner, h => by
    obtain ⟨text, htext, hsplit⟩ := Node.splitsInto_source inner h
    refine ⟨"'" ++ text, ?_, ?_⟩
    · rw [Node.source] at htext
      simp [Node.source, Node.render, htext, Style.surface_ofQuote]
    · simpa [Node.lexemes] using hsplit.quote

/-- A spelled row of trees has source texts, and these split into the lexemes of the row when they
stand in a row with spaces between them. -/
lemma Node.splitsInto_joined {real : Float → Prop} : ∀ nodes : List Node,
    Node.AllSpelled real nodes → ∃ texts, Node.renderAll .surface nodes = some texts ∧
      SplitsInto (Text.joined " " texts).toList (Node.allLexemes nodes)
  | [], _ => ⟨[], rfl, by simpa [Text.joined, Node.allLexemes] using splitsInto_nil⟩
  | [node], h => by
    obtain ⟨text, htext, hsplit⟩ := Node.splitsInto_source node h.1
    rw [Node.source] at htext
    refine ⟨[text], by simp [Node.renderAll, htext], ?_⟩
    simpa [Text.joined, Node.allLexemes] using hsplit
  | node :: next :: rest, h => by
    obtain ⟨text, htext, hsplit⟩ := Node.splitsInto_source node h.1
    obtain ⟨texts, htexts, hsplits⟩ := Node.splitsInto_joined (next :: rest) h.2
    rw [Node.source] at htext
    refine ⟨text :: texts, Node.renderAll_cons_eq_some.mpr ⟨_, _, htext, htexts, rfl⟩, ?_⟩
    obtain ⟨second, others, -, -, rfl⟩ := Node.renderAll_cons_eq_some.mp htexts
    have hjoined : (Text.joined " " (text :: second :: others)).toList =
        text.toList ++ ' ' :: (Text.joined " " (second :: others)).toList := by
      simp [Text.joined]
    rw [hjoined, Node.allLexemes]
    exact hsplit.space hsplits

end

/-! ## Reading the lexemes of a tree -/

mutual

/-- A tree with each of its atoms read once more. -/
def Node.reread : Node → Except Error Node
  | .number n => Node.ofAtom (n.text.getD "")
  | .form children => (Node.rereadAll children).map Node.form
  | .quote inner => inner.reread.map Node.quote
  | node => .ok node

/-- A row of trees with each of their atoms read once more. -/
def Node.rereadAll : List Node → Except Error (List Node)
  | [] => .ok []
  | node :: rest =>
    match node.reread with
    | .error error => .error error
    | .ok node' => (Node.rereadAll rest).map (node' :: ·)

end

/-- Reading goes on from a given progress, or stops at an error. -/
def Reading.Follows (reading : Reading) (rest : List Token) : Except Error Progress → Prop
  | .ok progress => reading = resume rest progress
  | .error error => ∃ left, reading = .fault error left

/-- The kind of a token with a known lexeme. -/
lemma Token.kind_of_lexeme {token : Token} {kind : Token.Kind} {text : String}
    (h : token.lexeme = (kind, text)) : token = ⟨kind, text, token.pos⟩ := by
  obtain ⟨kind', text', pos⟩ := token
  simp only [Token.lexeme, Prod.mk.injEq] at h
  rw [h.1, h.2]

/-- One lexeme is one token. -/
lemma exists_token_of_map_lexeme {tokens : List Token} {kind : Token.Kind} {text : String}
    (h : tokens.map Token.lexeme = [(kind, text)]) : ∃ pos, tokens = [⟨kind, text, pos⟩] := by
  obtain ⟨token, rfl, htoken⟩ := List.map_eq_singleton_iff.mp h
  exact ⟨token.pos, by rw [← Token.kind_of_lexeme htoken]⟩

/-- Reading an atom. -/
lemma follows_atom (pending : List Construct) (text : String) (pos : Int) (rest : List Token) :
    (readTree pending (⟨.atom, text, pos⟩ :: rest)).Follows rest
      ((Node.ofAtom text).map (complete · pending)) := by
  rw [readTree_cons, consume_atom]
  cases Node.ofAtom text with
  | error error => exact ⟨rest, rfl⟩
  | ok node => rfl

mutual

/-- What the reader makes of the lexemes of a spelled tree is the tree with its atoms read once
more. -/
lemma Node.follows_reread {real : Float → Prop} : ∀ (node : Node), node.Spelled real →
    ∀ (tokens : List Token), tokens.map Token.lexeme = node.lexemes →
    ∀ (pending : List Construct) (rest : List Token),
      (readTree pending (tokens ++ rest)).Follows rest (node.reread.map (complete · pending))
  | .identifier name, h, tokens, htokens, pending, rest => by
    obtain ⟨pos, rfl⟩ := exists_token_of_map_lexeme htokens
    have hatom : Node.ofAtom name = .ok (.identifier name) := by simp [Node.ofAtom, h.2]
    have hfollows := follows_atom pending name pos rest
    rw [hatom] at hfollows
    exact hfollows
  | .number n, _, tokens, htokens, pending, rest => by
    obtain ⟨pos, rfl⟩ := exists_token_of_map_lexeme htokens
    exact follows_atom pending _ pos rest
  | .string s, _, tokens, htokens, pending, rest => by
    obtain ⟨pos, rfl⟩ := exists_token_of_map_lexeme htokens
    have htext : literalText ("\"" ++ s ++ "\"") = s := by
      rw [← String.toList_inj]
      exact toList_literalText (by simp)
    rw [List.singleton_append, readTree_cons, consume_string, htext]
    rfl
  | .form children, h, tokens, htokens, pending, rest => by
    obtain ⟨opening, inner, rfl, hopening, hinner⟩ := List.map_eq_cons_iff.mp htokens
    obtain ⟨middle, last, rfl, hmiddle, hlast⟩ := List.map_eq_append_iff.mp hinner
    obtain ⟨closing, rfl⟩ := exists_token_of_map_lexeme hlast
    rw [Token.kind_of_lexeme hopening, List.cons_append, List.append_assoc, readTree_cons]
    have hfollows := Node.follows_rereadAll children h middle hmiddle opening.pos [] pending
      ([⟨.closing, ")", closing⟩] ++ rest)
    rw [Node.reread]
    cases hall : Node.rereadAll children with
    | error error =>
      rw [hall] at hfollows
      exact hfollows
    | ok nodes =>
      rw [hall] at hfollows
      have hread : readTree (.form opening.pos [] :: pending)
          (middle ++ ([⟨.closing, ")", closing⟩] ++ rest)) =
          readTree (.form opening.pos nodes.reverse :: pending)
            (⟨.closing, ")", closing⟩ :: rest) := by
        simpa [Reading.Follows, Except.map, resume] using hfollows
      show readTree (.form opening.pos [] :: pending)
          (middle ++ ([⟨.closing, ")", closing⟩] ++ rest)) =
        resume rest (complete (.form nodes) pending)
      rw [hread, readTree_cons, consume, List.reverse_reverse]
  | .quote inner, h, tokens, htokens, pending, rest => by
    obtain ⟨mark, others, rfl, hmark, hothers⟩ := List.map_eq_cons_iff.mp htokens
    rw [Token.kind_of_lexeme hmark, List.cons_append, readTree_cons]
    have hfollows := Node.follows_reread inner h others hothers (.quote mark.pos :: pending) rest
    rw [Node.reread]
    cases hinner : inner.reread with
    | error error =>
      rw [hinner] at hfollows
      exact hfollows
    | ok node =>
      rw [hinner] at hfollows
      exact hfollows

/-- What the reader makes of the lexemes of a spelled row of trees inside a form is the row with its
atoms read once more, in reverse. -/
lemma Node.follows_rereadAll {real : Float → Prop} : ∀ (nodes : List Node),
    Node.AllSpelled real nodes → ∀ (tokens : List Token),
    tokens.map Token.lexeme = Node.allLexemes nodes →
    ∀ (pos : Int) (reversed : List Node) (outer : List Construct) (rest : List Token),
      (readTree (.form pos reversed :: outer) (tokens ++ rest)).Follows rest
        ((Node.rereadAll nodes).map fun nodes' =>
          .inr (.form pos (nodes'.reverse ++ reversed) :: outer))
  | [], _, tokens, htokens, pos, reversed, outer, rest => by
    obtain rfl : tokens = [] := by simpa [Node.allLexemes] using htokens
    rfl
  | node :: others, h, tokens, htokens, pos, reversed, outer, rest => by
    obtain ⟨first, later, rfl, hfirst, hlater⟩ := List.map_eq_append_iff.mp htokens
    have hnode := Node.follows_reread node h.1 first hfirst (.form pos reversed :: outer)
      (later ++ rest)
    rw [List.append_assoc, Node.rereadAll]
    cases hreread : node.reread with
    | error error =>
      rw [hreread] at hnode
      exact hnode
    | ok node' =>
      rw [hreread] at hnode
      have hread : readTree (.form pos reversed :: outer) (first ++ (later ++ rest)) =
          readTree (.form pos (node' :: reversed) :: outer) (later ++ rest) := hnode
      rw [hread]
      have hothers := Node.follows_rereadAll others h.2 later hlater pos (node' :: reversed) outer
        rest
      cases hall : Node.rereadAll others with
      | error error =>
        rw [hall] at hothers
        exact hothers
      | ok nodes =>
        rw [hall] at hothers
        simpa [Reading.Follows, Except.map] using hothers

end

/-- The source text of a spelled tree is read as the tree with its atoms read once more. -/
theorem parse_source_eq_reread {real : Float → Prop} {node : Node} (h : node.Spelled real) :
    ∃ text, node.source = some text ∧
      ∀ node', parse text = .ok node' ↔ node.reread = .ok node' := by
  obtain ⟨text, htext, hsplit⟩ := Node.splitsInto_source node h
  refine ⟨text, htext, ?_⟩
  intro node'
  obtain ⟨tokens, htokens, hscan⟩ := hsplit 0 [] delimited_nil
  have htext' : scan text = ⟨tokens, none⟩ := by
    rw [scan_eq_scanFrom, ← List.append_nil text.toList, hscan]
    simp [scanFrom, Piece.finished, Scan.after]
  have hfollows := Node.follows_reread node h tokens htokens [] []
  rw [List.append_nil] at hfollows
  rw [parse_eq_ok_iff, htext']
  cases hreread : node.reread with
  | error error =>
    rw [hreread] at hfollows
    obtain ⟨left, hread⟩ := hfollows
    simp [hread]
  | ok found =>
    rw [hreread] at hfollows
    have hread : readTree [] tokens = .tree found [] := hfollows
    simp [hread]

mutual

/-- Reading the atoms of a spelled tree once more changes nothing exactly when its doubles read
back. -/
lemma Node.reread_eq_self_iff {real : Float → Prop} : ∀ node : Node, node.Spelled real →
    (node.reread = .ok node ↔ node.WellFormed)
  | .identifier name, h => by
    simp only [Node.reread, Node.WellFormed, true_iff]
    exact h
  | .number (.int n), h => by
    have hlimit : n.natAbs < Nat.pow 10 Number.digitLimit := h
    have htext : Number.text (.int n) = some (Number.integerText n) := by
      rw [Number.text, if_pos hlimit]
    rw [Node.reread, htext, Option.getD_some, ofAtom_integerText hlimit]
    exact ⟨fun _ => hlimit, fun _ => rfl⟩
  | .number (.real x), _ => by
    rw [Node.reread, Number.text, Option.getD_some]
    exact Iff.rfl
  | .number (.bool _), h | .number (.undefined _ _), h => h.elim
  | .string s, h => by
    simp only [Node.reread, Node.WellFormed, true_iff]
    exact h
  | .form children, h => by
    have hall := Node.rereadAll_eq_self_iff children h
    rw [Node.reread]
    cases hreread : Node.rereadAll children with
    | error error =>
      rw [hreread] at hall
      simpa [Except.map, Node.WellFormed, Node.Spelled] using hall
    | ok nodes =>
      rw [hreread] at hall
      simpa [Except.map, Node.WellFormed, Node.Spelled] using hall
  | .quote inner, h => by
    have hinner := Node.reread_eq_self_iff inner h
    rw [Node.reread]
    cases hreread : inner.reread with
    | error error =>
      rw [hreread] at hinner
      simpa [Except.map, Node.WellFormed, Node.Spelled] using hinner
    | ok node =>
      rw [hreread] at hinner
      simpa [Except.map, Node.WellFormed, Node.Spelled] using hinner
  | .constant _, h => h.elim
  | .foreign _, h => h.elim

/-- Reading the atoms of a spelled row of trees once more changes nothing exactly when its doubles
read back. -/
lemma Node.rereadAll_eq_self_iff {real : Float → Prop} : ∀ nodes : List Node,
    Node.AllSpelled real nodes →
    (Node.rereadAll nodes = .ok nodes ↔ Node.AllSpelled Real.ReadsBack nodes)
  | [], _ => by simp [Node.rereadAll, Node.AllSpelled]
  | node :: rest, h => by
    have hnode := Node.reread_eq_self_iff node h.1
    have hrest := Node.rereadAll_eq_self_iff rest h.2
    rw [Node.WellFormed] at hnode
    rw [Node.rereadAll, Node.AllSpelled, ← hnode, ← hrest]
    cases node.reread with
    | error error => simp
    | ok node' =>
      cases Node.rereadAll rest with
      | error error => simp [Except.map]
      | ok rest' => simp [Except.map]

end

/-! ## The round trip -/

/-- A tree is read back from its own source text if and only if it is well-formed, and the reader
makes well-formed trees only, as long as the doubles that the source has literals for read back.
A well-formed number is never a truth value, an infinity or an undefined double. -/
theorem source_reads_back_iff_wellFormed :
    (∀ node : Node,
      (∃ text, node.source = some text ∧ parse text = .ok node) ↔ node.WellFormed) ∧
    (∀ (source : String) (node : Node), parse source = .ok node →
      (∀ token ∈ (scan source).tokens, ∀ x, token.kind = .atom →
        Node.ofAtom token.text = .ok (.number (.real x)) → Real.ReadsBack x) →
      node.WellFormed) ∧
    (∀ n : Number, (Node.number n).WellFormed →
      (∃ m : Int, n = .int m ∧ m.natAbs < Nat.pow 10 Number.digitLimit) ∨
      ∃ x negative mantissa shift,
        n = .real x ∧ Real.shape x = .finite negative mantissa shift) := by
  refine ⟨?_, ?_, ?_⟩
  · intro node
    constructor
    · rintro ⟨text, htext, hparse⟩
      -- the reader made the tree, so it is spelled, and reading its atoms again gives them back
      have hspelled : node.Spelled fun _ => True := spelled_of_parse (by simp) hparse
      obtain ⟨text', htext', hreread⟩ := parse_source_eq_reread hspelled
      obtain rfl : text = text' := Option.some.inj (htext.symm.trans htext')
      exact (Node.reread_eq_self_iff node hspelled).mp ((hreread node).mp hparse)
    · intro h
      obtain ⟨text, htext, hreread⟩ := parse_source_eq_reread h
      exact ⟨text, htext, (hreread node).mpr ((Node.reread_eq_self_iff node h).mpr h)⟩
  · intro source node hparse hreal
    exact spelled_of_parse hreal hparse
  · intro n h
    cases n with
    | int m => exact .inl ⟨m, rfl, h⟩
    | real x =>
      obtain ⟨negative, mantissa, shift, hshape⟩ := Real.finite_of_readsBack h
      exact .inr ⟨x, negative, mantissa, shift, rfl, hshape⟩
    | bool | undefined => exact h.elim

/-- The double nearest to one and a half reads back. -/
lemma Real.readsBack_three_halves : Real.ReadsBack (Real.ofDecimal false 15 (-1)) := by
  have htext : Real.text (Real.ofDecimal false 15 (-1)) = "1.5" := by decide +kernel
  rw [Real.ReadsBack, htext]
  rfl

/-- A source with a parenthesis inside a text, a negative integer and a double is read as a
well-formed tree, and that tree is read back from its own source text. -/
theorem source_reads_back_mixed :
    ∃ node, parse "(f '(\"a (b\" -12) 1.5)" = .ok node ∧ node.WellFormed ∧
      ∃ text, node.source = some text ∧ parse text = .ok node := by
  have hscan : (scan "(f '(\"a (b\" -12) 1.5)").tokens =
      [⟨.opening, "(", 0⟩, ⟨.atom, "f", 1⟩, ⟨.quoteMark, "'", 3⟩, ⟨.opening, "(", 4⟩,
        ⟨.string, "\"a (b\"", 5⟩, ⟨.atom, "-12", 12⟩, ⟨.closing, ")", 15⟩, ⟨.atom, "1.5", 17⟩,
        ⟨.closing, ")", 20⟩] := by decide
  have hparse : parse "(f '(\"a (b\" -12) 1.5)" =
      .ok (.form [.identifier "f", .quote (.form [.string "a (b", .number (.int (-12))]),
        .number (.real (Real.ofDecimal false 15 (-1)))]) := rfl
  have hwell := source_reads_back_iff_wellFormed.2.1 _ _ hparse (by
    intro token htoken x hkind hatom
    rw [hscan] at htoken
    simp only [List.mem_cons, List.not_mem_nil, or_false] at htoken
    rcases htoken with rfl | rfl | rfl | rfl | rfl | rfl | rfl | rfl | rfl
    · simp at hkind
    · have hname : Node.ofAtom "f" = .ok (.identifier "f") := rfl
      rw [hname] at hatom
      simp at hatom
    · simp at hkind
    · simp at hkind
    · simp at hkind
    · have hint : Node.ofAtom "-12" = .ok (.number (.int (-12))) := rfl
      rw [hint] at hatom
      simp at hatom
    · simp at hkind
    · have hreal : Node.ofAtom "1.5" = .ok (.number (.real (Real.ofDecimal false 15 (-1)))) := rfl
      rw [hreal] at hatom
      obtain rfl : Real.ofDecimal false 15 (-1) = x := by simpa using hatom
      exact Real.readsBack_three_halves
    · simp at hkind)
  exact ⟨_, hparse, hwell, (source_reads_back_iff_wellFormed.1 _).mpr hwell⟩

end Lisplet

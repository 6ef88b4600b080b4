import Lisplet.Proofs.Reader.Grammar

/-!
# Flattened trees and quote marks

Flattening a tree keeps the nesting of its forms and the values of its leaves, and forgets the
quotes. On the side of the tokens this means that quote marks do not count: the tokens without their
quote marks spell the tree without its quotes, and both trees have the same bare data.

What else the bare data keep is said by an outline, in which a list is an opening bracket, the
outlines of its items and a closing bracket. The outline of the bare data has exactly one mark for
each token that is no quote mark, in the order of the tokens. No two values have the same outline,
so the tokens determine the bare data completely.
-/

namespace Lisplet

/-! ## Outlines of values -/

/-- A bracket, or what stands between brackets. -/
inductive Mark where
  /-- The start of a list. -/
  | opening
  /-- The end of a list. -/
  | closing
  /-- A value that is no list. -/
  | item (value : Value)

/-- The value that stands between brackets. -/
def Mark.item? : Mark → Option Value
  | .item value => some value
  | _ => none

mutual

/-- A value written out with a bracket for each start and each end of a list. -/
def Value.outline : Value → List Mark
  | .list items => .opening :: (Value.outlineAll items ++ [.closing])
  | value => [.item value]

/-- The outlines of values one after the other. -/
def Value.outlineAll : List Value → List Mark
  | [] => []
  | value :: rest => value.outline ++ Value.outlineAll rest

end

mutual

/-- The values in a value that are no lists, from left to right. -/
def Value.leaves : Value → List Value
  | .list items => Value.leavesAll items
  | value => [value]

/-- The leaves of values one after the other. -/
def Value.leavesAll : List Value → List Value
  | [] => []
  | value :: rest => value.leaves ++ Value.leavesAll rest

end

mutual

/-- The leaves are what stands between the brackets. -/
theorem Value.filterMap_outline : ∀ value : Value, value.outline.filterMap Mark.item? = value.leaves
  | .list items => by
    have hitems := Value.filterMap_outlineAll items
    rw [Value.outline, Value.leaves, List.filterMap_cons_none rfl, List.filterMap_append, hitems]
    exact List.append_nil _
  | .number _ | .text _ | .empty | .absent | .nothing => rfl
  | .quoted _ | .closure _ _ _ _ | .host _ => rfl

/-- The items in the outline of a row of values are its leaves. -/
theorem Value.filterMap_outlineAll :
    ∀ values : List Value, (Value.outlineAll values).filterMap Mark.item? = Value.leavesAll values
  | [] => rfl
  | value :: rest => by
    have hvalue := Value.filterMap_outline value
    have hrest := Value.filterMap_outlineAll rest
    rw [Value.outlineAll, Value.leavesAll, List.filterMap_append, hvalue, hrest]

end

/-! ### An outline determines its value -/

/-- The outline of a value starts with no closing bracket. -/
lemma Value.outline_append_ne_closing (value : Value) (rest later : List Mark) :
    value.outline ++ rest ≠ .closing :: later := by
  cases value with
  | list items => simp [Value.outline]
  | _ => simp [Value.outline]

/-- A value that is no list is told by its only mark. -/
lemma Value.eq_of_item_eq {value other : Value} {rest rest' : List Mark}
    (h : .item value :: rest = other.outline ++ rest') : value = other ∧ rest = rest' := by
  cases other with
  | list items => simp [Value.outline] at h
  | _ => simpa [Value.outline] using h

mutual

/-- In a row of marks that starts with the outline of a value, the value and the marks after its
outline are determined. -/
theorem Value.outline_append_inj : ∀ {value other : Value} {rest rest' : List Mark},
    value.outline ++ rest = other.outline ++ rest' → value = other ∧ rest = rest'
  | .list items, other, rest, rest', h => by
    cases other with
    | list items' =>
      have hmarks : Value.outlineAll items ++ .closing :: rest =
          Value.outlineAll items' ++ .closing :: rest' := by
        simpa [Value.outline] using h
      obtain ⟨rfl, rfl⟩ := Value.outlineAll_append_inj hmarks
      exact ⟨rfl, rfl⟩
    | _ => simp [Value.outline] at h
  | .number _, _, _, _, h | .text _, _, _, _, h | .empty, _, _, _, h | .absent, _, _, _, h
  | .nothing, _, _, _, h | .quoted _, _, _, _, h | .closure _ _ _ _, _, _, _, h
  | .host _, _, _, _, h => Value.eq_of_item_eq h

/-- In a row of marks that starts with the outlines of values and closes the list around them, the
values and the marks after the bracket are determined. -/
theorem Value.outlineAll_append_inj : ∀ {values others : List Value} {rest rest' : List Mark},
    Value.outlineAll values ++ .closing :: rest = Value.outlineAll others ++ .closing :: rest' →
      values = others ∧ rest = rest'
  | [], [], _, _, h => ⟨rfl, (List.cons.inj h).2⟩
  | [], other :: others, _, _, h => by
    rw [Value.outlineAll, Value.outlineAll, List.append_assoc] at h
    exact absurd h.symm (other.outline_append_ne_closing _ _)
  | value :: values, [], _, _, h => by
    rw [Value.outlineAll, Value.outlineAll, List.append_assoc] at h
    exact absurd h (value.outline_append_ne_closing _ _)
  | value :: values, other :: others, _, _, h => by
    rw [Value.outlineAll, Value.outlineAll, List.append_assoc, List.append_assoc] at h
    obtain ⟨rfl, hrest⟩ := Value.outline_append_inj h
    obtain ⟨rfl, rfl⟩ := Value.outlineAll_append_inj hrest
    exact ⟨rfl, rfl⟩

end

/-- No two values have the same outline. -/
lemma Value.outline_injective : Function.Injective Value.outline := by
  intro value other h
  have happend : value.outline ++ [] = other.outline ++ [] := congrArg (· ++ []) h
  exact (Value.outline_append_inj happend).1

/-! ## Marks of tokens -/

/-- The value of an atom or of a delimited text. -/
def Token.datum? (token : Token) : Option Value :=
  match token.kind with
  | .atom =>
    match Node.ofAtom token.text with
    | .ok (.number n) => some (.number n)
    | .ok (.identifier name) => some (.text name)
    | _ => none
  | .string => some (.text (literalText token.text))
  | _ => none

/-- The mark that a token leaves in an outline. -/
def Token.mark? (token : Token) : Option Mark :=
  match token.kind with
  | .opening => some .opening
  | .closing => some .closing
  | _ => token.datum?.map .item

/-- Whether a token is an atom or a delimited text. -/
def Token.isItem (token : Token) : Bool :=
  token.kind = .atom || token.kind = .string

/-- The tokens without the quote marks. -/
def withoutQuoteMarks (tokens : List Token) : List Token :=
  tokens.filter fun token => token.kind ≠ .quoteMark

/-- Quote marks are dropped part by part. -/
lemma withoutQuoteMarks_append (tokens later : List Token) :
    withoutQuoteMarks (tokens ++ later) = withoutQuoteMarks tokens ++ withoutQuoteMarks later :=
  List.filter_append ..

/-- An atom is a name or a number. -/
lemma Node.ofAtom_cases {text : String} {node : Node} (h : Node.ofAtom text = .ok node) :
    node = .identifier text ∨ ∃ n, node = .number n := by
  unfold Node.ofAtom at h
  split at h
  · rename_i literal _
    cases hvalue : literal.value with
    | error error => simp [hvalue, Except.map] at h
    | ok n => exact .inr ⟨n, by simpa [hvalue, Except.map] using h.symm⟩
  · exact .inl (Except.ok.inj h).symm

/-- The items of a row of tokens are the items of the marks that the tokens leave. -/
lemma map_datum?_of_marks {tokens : List Token} {marks : List Mark}
    (h : tokens.map Token.mark? = marks.map some) :
    (tokens.filter Token.isItem).map Token.datum? = (marks.filterMap Mark.item?).map some := by
  induction tokens generalizing marks with
  | nil =>
    obtain rfl : marks = [] := by simpa using h.symm
    rfl
  | cons token tokens ih =>
    cases marks with
    | nil => simp at h
    | cons mark marks =>
      obtain ⟨hmark, hrest⟩ := List.cons.inj h
      have hitems := ih hrest
      obtain ⟨kind, text, pos⟩ := token
      cases kind with
      | opening =>
        obtain rfl : Mark.opening = mark := Option.some.inj hmark
        exact hitems
      | closing =>
        obtain rfl : Mark.closing = mark := Option.some.inj hmark
        exact hitems
      | atom =>
        obtain ⟨value, hvalue, rfl⟩ := Option.map_eq_some_iff.1 hmark
        rw [List.filter_cons_of_pos rfl, List.map_cons, hitems, hvalue]
        rfl
      | string =>
        obtain rfl : Mark.item (.text (literalText text)) = mark := Option.some.inj hmark
        rw [List.filter_cons_of_pos rfl, List.map_cons, hitems]
        rfl
      | quoteMark => simp [Token.mark?, Token.datum?] at hmark
      | other name => simp [Token.mark?, Token.datum?] at hmark

/-! ## Trees without quotes -/

mutual

/-- The tree without the quotes in it. -/
def Node.unquoted : Node → Node
  | .form children => .form (Node.unquotedAll children)
  | .quote inner => inner.unquoted
  | node => node

/-- The trees of a row without the quotes in them. -/
def Node.unquotedAll : List Node → List Node
  | [] => []
  | node :: rest => node.unquoted :: Node.unquotedAll rest

end

mutual

/-- Quotes do not show in the bare data of a tree. -/
theorem Node.flatten_unquoted : ∀ node : Node, node.unquoted.flatten = node.flatten
  | .form children => by
    rw [Node.unquoted, Node.flatten, Node.flatten, Node.flattenAll_unquotedAll children]
  | .quote inner => by
    rw [Node.unquoted, Node.flatten, Node.flatten_unquoted inner]
  | .identifier _ | .number _ | .string _ | .constant _ | .foreign _ => rfl

/-- Quote marks in a row of trees do not change what it is flattened to. -/
theorem Node.flattenAll_unquotedAll :
    ∀ nodes : List Node, Node.flattenAll (Node.unquotedAll nodes) = Node.flattenAll nodes
  | [] => rfl
  | node :: rest => by
    rw [Node.unquotedAll, Node.flattenAll, Node.flattenAll, Node.flatten_unquoted node,
      Node.flattenAll_unquotedAll rest]

end

mutual

/-- Without their quote marks, the tokens of a tree spell the tree without its quotes. -/
theorem Derives.unquoted {tokens : List Token} {node : Node} :
    Derives tokens node → Derives (withoutQuoteMarks tokens) node.unquoted
  | .atom hatom => by
    have hnode : node.unquoted = node := by
      rcases Node.ofAtom_cases hatom with rfl | ⟨n, rfl⟩ <;> rfl
    rw [hnode]
    exact .atom hatom
  | .string => .string
  | .quote hinner => hinner.unquoted
  | @Derives.form text pos inner nodes text' pos' hnodes => by
    have hrow : withoutQuoteMarks (⟨.opening, text, pos⟩ :: (inner ++ [⟨.closing, text', pos'⟩])) =
        ⟨.opening, text, pos⟩ :: (withoutQuoteMarks inner ++ [⟨.closing, text', pos'⟩]) := by
      simp [withoutQuoteMarks]
    rw [hrow]
    exact .form hnodes.unquoted

/-- Without their quote marks, the tokens of a row of trees spell the trees without their
quotes. -/
theorem DerivesAll.unquoted {tokens : List Token} {nodes : List Node} :
    DerivesAll tokens nodes → DerivesAll (withoutQuoteMarks tokens) (Node.unquotedAll nodes)
  | .nil => .nil
  | .cons hfirst hrest => by
    rw [withoutQuoteMarks_append]
    exact .cons hfirst.unquoted hrest.unquoted

end

/-! ## The outline of the bare data -/

mutual

/-- A tree that is spelled by tokens has bare data, and their outline has one mark for each token
that is no quote mark. -/
theorem Derives.exists_flatten {tokens : List Token} {node : Node} :
    Derives tokens node → ∃ data, node.flatten = .ok data ∧
      (withoutQuoteMarks tokens).map Token.mark? = data.outline.map some
  | @Derives.atom text pos _ hatom => by
    rcases Node.ofAtom_cases hatom with rfl | ⟨n, rfl⟩
    · refine ⟨.text text, rfl, ?_⟩
      simp [withoutQuoteMarks, Token.mark?, Token.datum?, hatom, Value.outline]
    · refine ⟨.number n, rfl, ?_⟩
      simp [withoutQuoteMarks, Token.mark?, Token.datum?, hatom, Value.outline]
  | .string => ⟨_, rfl, rfl⟩
  | .quote hinner => hinner.exists_flatten
  | .form hnodes => by
    obtain ⟨values, hvalues, hmarks⟩ := hnodes.exists_flattenAll
    refine ⟨.list values, ?_, ?_⟩
    · rw [Node.flatten, hvalues]
      rfl
    · rw [Value.outline, List.map_cons, List.map_append, ← hmarks]
      simp [withoutQuoteMarks, Token.mark?]

/-- The trees of a row that is spelled by tokens have bare data, and their outlines have one mark
for each token that is no quote mark. -/
theorem DerivesAll.exists_flattenAll {tokens : List Token} {nodes : List Node} :
    DerivesAll tokens nodes → ∃ values, Node.flattenAll nodes = .ok values ∧
      (withoutQuoteMarks tokens).map Token.mark? = (Value.outlineAll values).map some
  | .nil => ⟨[], rfl, rfl⟩
  | .cons hfirst hrest => by
    obtain ⟨data, hdata, hmarks⟩ := hfirst.exists_flatten
    obtain ⟨values, hvalues, hmarks'⟩ := hrest.exists_flattenAll
    refine ⟨data :: values, ?_, ?_⟩
    · rw [Node.flattenAll, hdata, hvalues]
      rfl
    · rw [withoutQuoteMarks_append, List.map_append, hmarks, hmarks', ← List.map_append]
      rfl

end

/-- Flattening forgets the quotes and nothing else of the nesting. Tokens that spell a tree spell
one also without their quote marks, and the two trees have the same bare data. The leaves of the
bare data are the values of the atoms and delimited texts in order, each once, and their nesting is
that of the parentheses: each token but the quote marks leaves its mark in the outline, and no other
value has this outline. -/
theorem flatten_forgets_quoteMarks {tokens : List Token} {node : Node}
    (h : parseTokens tokens = .ok node) :
    ∃ (bare : Node) (data : Value),
      parseTokens (withoutQuoteMarks tokens) = .ok bare ∧
      node.flatten = .ok data ∧ bare.flatten = .ok data ∧
      data.leaves.map some = (tokens.filter Token.isItem).map Token.datum? ∧
      data.outline.map some = (withoutQuoteMarks tokens).map Token.mark? ∧
      ∀ other : Value,
        other.outline.map some = (withoutQuoteMarks tokens).map Token.mark? → other = data := by
  have hderives : Derives tokens node := readTree_eq_tree_iff.1 (parseTokens_eq_ok_iff.1 h)
  obtain ⟨data, hdata, hmarks⟩ := hderives.exists_flatten
  have hbare : parseTokens (withoutQuoteMarks tokens) = .ok node.unquoted :=
    parseTokens_eq_ok_iff.2 (readTree_eq_tree_iff.2 hderives.unquoted)
  have hitems : (withoutQuoteMarks tokens).filter Token.isItem = tokens.filter Token.isItem := by
    rw [withoutQuoteMarks, List.filter_filter]
    refine List.filter_congr fun token _ => ?_
    cases hkind : token.kind <;> simp [Token.isItem, hkind]
  refine ⟨node.unquoted, data, hbare, hdata, ?_, ?_, hmarks.symm, ?_⟩
  · rw [Node.flatten_unquoted, hdata]
  · rw [← hitems, map_datum?_of_marks hmarks, Value.filterMap_outline]
  · intro other hother
    have hsame : other.outline.map some = data.outline.map some := hother.trans hmarks
    have houtline : other.outline = data.outline :=
      List.map_injective_iff.2 (fun _ _ => Option.some.inj) hsame
    exact Value.outline_injective houtline

/-- The tokens of `'(a '"b" (''7))`. -/
def nestedQuotes : List Token :=
  [⟨.quoteMark, "'", 0⟩, ⟨.opening, "(", 1⟩, ⟨.atom, "a", 2⟩, ⟨.quoteMark, "'", 4⟩,
    ⟨.string, "\"b\"", 5⟩, ⟨.opening, "(", 9⟩, ⟨.quoteMark, "'", 10⟩, ⟨.quoteMark, "'", 11⟩,
    ⟨.atom, "7", 12⟩, ⟨.closing, ")", 13⟩, ⟨.closing, ")", 14⟩]

/-- Quotes before a form, a text and a number, one of them twice, leave no trace in the bare
data. -/
theorem nestedQuotes_flattened :
    parseTokens nestedQuotes = .ok (.quote (.form [.identifier "a", .quote (.string "b"),
      .form [.quote (.quote (.number (.int 7)))]])) ∧
    ∃ bare, parseTokens (withoutQuoteMarks nestedQuotes) = .ok bare ∧
      bare.flatten = .ok (.list [.text "a", .text "b", .list [.int 7]]) ∧
      (nestedQuotes.filter Token.isItem).map Token.datum? =
        [some (.text "a"), some (.text "b"), some (.int 7)] := by
  have hparse : parseTokens nestedQuotes = .ok (.quote (.form [.identifier "a",
      .quote (.string "b"), .form [.quote (.quote (.number (.int 7)))]])) := rfl
  obtain ⟨bare, data, hbare, hdata, hflat, hleaves, -⟩ := flatten_forgets_quoteMarks hparse
  obtain rfl : Value.list [.text "a", .text "b", .list [.int 7]] = data := Except.ok.inj hdata
  exact ⟨hparse, bare, hbare, hflat, hleaves.symm⟩

end Lisplet

import Lisplet.Proofs.Reader.Grammar

/-!
# What the reader says about what it does not accept

The reader asks for one token after the other and stops at the first that the open constructs have
no use for. A text that never ends is not noticed before the reader asks for the token that would
start there. So two things can be wrong with a source, and which of them is reported depends on how
far the reader gets.

Reading one tree ends in one of three ways: with a tree, at a token, or at the end of the tokens.
`Reading.verdict` says what each of them means for a row of tokens as a whole, once with and once
without a failure behind the last token. An error at a token is the same in both cases. At the end
of the tokens, and after a complete tree, the failure of the source comes first.

For all this it makes no difference that a source is split to its end before it is read. `readFrom`
goes through the characters only once and stops at the first error, and it comes to the same result.
-/

namespace Lisplet

/-! ## Verdicts -/

/-- What is reported behind the last token: the failure of the source if there is one, otherwise a
given result. -/
def reportAtEnd (unterminated : Option Nat) (result : Except Error Node) : Except Error Node :=
  match unterminated with
  | some offset => .error (.unterminatedString offset)
  | none => result

/-- What the reading of one tree means for the row of tokens as a whole. -/
def Reading.verdict (unterminated : Option Nat) : Reading → Except Error Node
  | .fault error _ => .error error
  | .tree _ (token :: _) => .error (Stream.trailing token)
  | .tree node [] => reportAtEnd unterminated (.ok node)
  | .cut [] => reportAtEnd unterminated (.error .emptyInput)
  | .cut (construct :: outer) => reportAtEnd unterminated (.error (incomplete (construct :: outer)))

/-- Reading ends at the end of the tokens if each of them leaves constructs open. -/
lemma exists_consume_of_cut {pending last : List Construct} {token : Token} {rest : List Token}
    (h : readTree pending (token :: rest) = .cut last) :
    ∃ middle, consume pending token = .ok (.inr middle) ∧ readTree middle rest = .cut last := by
  cases hconsume : consume pending token with
  | error error => simp [readTree_cons, hconsume] at h
  | ok progress =>
    rw [readTree_cons_of_ok rest hconsume] at h
    cases progress with
    | inl node => simp [resume] at h
    | inr middle => exact ⟨middle, rfl, h⟩

/-- Reading that ends at the end of the tokens leaves open what these tokens open. -/
lemma Opens.cut {read tokens : List Token} {pending pending' : List Construct}
    (h : Opens read pending) (hread : readTree pending tokens = .cut pending') :
    Opens (read ++ tokens) pending' := by
  induction tokens generalizing read pending with
  | nil =>
    obtain rfl : pending = pending' := by simpa [readTree] using hread
    rwa [List.append_nil]
  | cons token tokens ih =>
    obtain ⟨middle, hconsume, hrest⟩ := exists_consume_of_cut hread
    have hopens : Opens (read ++ [token]) middle := h.consume hconsume
    have hall := ih hopens hrest
    rwa [List.append_assoc, List.singleton_append] at hall

/-- As soon as there is a token, something is open. -/
lemma Opens.eq_nil {tokens : List Token} (h : Opens tokens []) : tokens = [] := by
  cases h
  rfl

/-- A stream that has not been looked at yields what the reading of one tree means for it. -/
lemma Stream.onlyTree_eq_verdict (tokens : List Token) (unterminated : Option Nat) :
    (Stream.onlyTree ⟨[], tokens, unterminated⟩).1 =
      (readTree [] tokens).verdict unterminated := by
  cases tokens with
  | nil => cases unterminated <;> rfl
  | cons token rest =>
    have hpeek : peek ⟨[], token :: rest, unterminated⟩ =
        (.ok (some token), ⟨[token], rest, unterminated⟩) := by
      simp [peek]
    have htokens : Stream.tokens ⟨[token], rest, unterminated⟩ = token :: rest := by
      simp [Stream.tokens]
    rw [onlyTree, hpeek]
    simp only [tree, htokens]
    cases hread : readTree [] (token :: rest) with
    | fault error left => rfl
    | tree node left => cases left <;> cases unterminated <;> rfl
    | cut pending =>
      have hopens : Opens (token :: rest) pending := Opens.nil.cut hread
      cases pending with
      | nil => cases hopens.eq_nil
      | cons construct outer => cases unterminated <;> rfl

/-- What is said about a row of tokens. -/
lemma parseTokens_eq_verdict (tokens : List Token) :
    parseTokens tokens = (readTree [] tokens).verdict none :=
  Stream.onlyTree_eq_verdict tokens none

/-- What is said about a source. -/
lemma parse_eq_verdict (source : String) :
    parse source = (readTree [] (scan source).tokens).verdict (scan source).unterminated :=
  Stream.onlyTree_eq_verdict _ _

/-! ## Reading without splitting first -/

/-- What one more token makes of a progress. Nothing may follow a complete tree. -/
def Progress.take : Progress → Token → Except Error Progress
  | .inl _, token => .error (Stream.trailing token)
  | .inr pending, token => consume pending token

/-- What a progress means where the source ends. -/
def Progress.result : Progress → Except Error Node
  | .inl node => .ok node
  | .inr [] => .error .emptyInput
  | .inr (construct :: outer) => .error (incomplete (construct :: outer))

/-- Reads the rest of a source without splitting it first. A token is taken as soon as its last
character is known, and the first error ends the reading: the characters behind it are not looked
at. -/
def readFrom (pos : Nat) (piece : Piece) (progress : Progress) : List Char → Except Error Node
  | [] =>
    match piece with
    | .string start _ => .error (.unterminatedString start)
    | piece => do
      let progress ← piece.finished.foldlM Progress.take progress
      progress.result
  | c :: rest => do
    let progress ← (piece.advance pos c).1.foldlM Progress.take progress
    readFrom (pos + 1) (piece.advance pos c).2 progress rest

/-- Taking the tokens one by one comes to the verdict on all of them. -/
lemma verdict_readTree (pending : List Construct) (tokens : List Token)
    (unterminated : Option Nat) :
    (readTree pending tokens).verdict unterminated = (do
      let progress ← tokens.foldlM Progress.take (.inr pending)
      reportAtEnd unterminated progress.result) := by
  induction tokens generalizing pending with
  | nil => cases pending <;> rfl
  | cons token tokens ih =>
    have htake : Progress.take (.inr pending) token = consume pending token := rfl
    rw [List.foldlM_cons, htake, readTree_cons]
    cases consume pending token with
    | error error => rfl
    | ok progress =>
      cases progress with
      | inl node => cases tokens <;> rfl
      | inr pending' => exact ih pending'

/-- Reading the rest of a source takes the tokens that the scanner finds in it. -/
lemma readFrom_eq (pos : Nat) (piece : Piece) (progress : Progress) (rest : List Char) :
    readFrom pos piece progress rest = (do
      let progress ← (scanFrom pos piece rest).tokens.foldlM Progress.take progress
      reportAtEnd (scanFrom pos piece rest).unterminated progress.result) := by
  induction rest generalizing pos piece progress with
  | nil => cases piece <;> rfl
  | cons c rest ih =>
    simp only [readFrom, scanFrom, Scan.after_tokens, Scan.after_unterminated, List.foldlM_append,
      bind_assoc, ih]

/-- Splitting a source first makes no difference. -/
lemma parse_eq_readFrom (source : String) :
    parse source = readFrom 0 .between (.inr []) source.toList := by
  rw [parse_eq_verdict, verdict_readTree, readFrom_eq, scan_eq_scanFrom]

/-! ## Errors at tokens and errors at the end -/

namespace Error

/-- The errors that are the fault of a token. -/
def IsAtToken : Error → Prop
  | unmatchedClose _ | trailingToken _ _ | literalTooLong _ => True
  | _ => False

/-- The errors of tokens that end too early. -/
def IsAtEnd : Error → Prop
  | emptyInput | unmatchedOpen _ | nothingToQuote _ => True
  | _ => False

/-- No error is both the fault of a token and that of an early end. -/
lemma IsAtToken.not_isAtEnd {error : Error} (h : error.IsAtToken) : ¬ error.IsAtEnd := by
  cases error with
  | unmatchedClose | trailingToken | literalTooLong => exact id
  | _ => exact h.elim

/-- Errors at tokens are none of the two that sources never cause. -/
lemma IsAtToken.ne_unexpected {error : Error} (h : error.IsAtToken) :
    error ≠ .endOfInput ∧ ∀ kind text, error ≠ .unknownToken kind text := by
  cases error with
  | unmatchedClose | trailingToken | literalTooLong => exact ⟨nofun, nofun⟩
  | _ => exact h.elim

/-- Errors at the end are none of the two that sources never cause. -/
lemma IsAtEnd.ne_unexpected {error : Error} (h : error.IsAtEnd) :
    error ≠ .endOfInput ∧ ∀ kind text, error ≠ .unknownToken kind text := by
  cases error with
  | emptyInput | unmatchedOpen | nothingToQuote => exact ⟨nofun, nofun⟩
  | _ => exact h.elim

end Error

/-- An atom is only refused if it is an integer literal with too many digits. -/
lemma exists_literalTooLong_of_ofAtom {text : String} {error : Error}
    (h : Node.ofAtom text = .error error) : ∃ digits, error = .literalTooLong digits := by
  unfold Node.ofAtom at h
  split at h
  · rename_i literal _
    cases literal with
    | integer negative digits =>
      by_cases hlimit : digits.length ≤ Number.digitLimit
      · simp [Literal.value, hlimit, Except.map] at h
      · refine ⟨digits.length, ?_⟩
        simpa [Literal.value, hlimit, Except.map] using h.symm
    | real negative whole fraction exponent => cases h
  · cases h

/-- Which tokens the open constructs have no use for, and what is said about them. -/
lemma consume_eq_error {pending : List Construct} {token : Token} {error : Error}
    (h : consume pending token = .error error) :
    (token.kind = .atom ∧ Node.ofAtom token.text = .error error) ∨
      (token.kind = .closing ∧ error = .unmatchedClose token.pos) ∨
      ∃ name, token.kind = .other name ∧ error = .unknownToken name token.text := by
  obtain ⟨kind, text, pos⟩ := token
  cases kind with
  | atom =>
    left
    refine ⟨rfl, ?_⟩
    cases hatom : Node.ofAtom text with
    | ok node => simp [consume_atom, hatom, Except.map] at h
    | error found => simpa [consume_atom, hatom, Except.map] using h
  | string => simp [consume_string] at h
  | quoteMark => simp [consume] at h
  | opening => simp [consume] at h
  | closing =>
    right
    left
    refine ⟨rfl, ?_⟩
    rcases pending with _ | ⟨construct, outer⟩
    · cases h
      rfl
    · cases construct with
      | form => cases h
      | quote =>
        cases h
        rfl
  | other name =>
    obtain rfl : Error.unknownToken name text = error := by simpa [consume] using h
    exact .inr (.inr ⟨name, rfl, rfl⟩)

/-- Reading that stops at a token has come to that token with constructs open that have no use for
it. -/
lemma exists_cut_of_fault {pending : List Construct} {tokens rest : List Token} {error : Error}
    (h : readTree pending tokens = .fault error rest) :
    ∃ used token middle, tokens = used ++ token :: rest ∧ readTree pending used = .cut middle ∧
      consume middle token = .error error := by
  induction tokens generalizing pending with
  | nil => simp [readTree] at h
  | cons token tokens ih =>
    cases hconsume : consume pending token with
    | error found =>
      obtain ⟨rfl, rfl⟩ : found = error ∧ tokens = rest := by
        simpa [readTree_cons, hconsume] using h
      exact ⟨[], token, pending, rfl, rfl, hconsume⟩
    | ok progress =>
      rw [readTree_cons_of_ok tokens hconsume] at h
      cases progress with
      | inl node => simp [resume] at h
      | inr pending' =>
        obtain ⟨used, bad, middle, rfl, hused, hbad⟩ := ih h
        refine ⟨token :: used, bad, middle, rfl, ?_, hbad⟩
        rw [readTree_cons_of_ok used hconsume]
        exact hused

/-- Among tokens of known kinds, reading stops at a token only with the fault of that token. -/
lemma isAtToken_of_fault {pending : List Construct} {tokens rest : List Token} {error : Error}
    (hkinds : ∀ token ∈ tokens, ∀ name, token.kind ≠ .other name)
    (h : readTree pending tokens = .fault error rest) : error.IsAtToken := by
  obtain ⟨used, token, middle, rfl, -, hconsume⟩ := exists_cut_of_fault h
  rcases consume_eq_error hconsume with ⟨-, hatom⟩ | ⟨-, rfl⟩ | ⟨name, hname, -⟩
  · obtain ⟨digits, rfl⟩ := exists_literalTooLong_of_ofAtom hatom
    trivial
  · trivial
  · exact absurd hname (hkinds token (by simp) name)

/-- The error on a token after the tree is at that token. -/
lemma isAtToken_trailing (token : Token) : (Stream.trailing token).IsAtToken := by
  unfold Stream.trailing
  split <;> trivial

/-- The error on an open construct is at the end. -/
lemma isAtEnd_incomplete (construct : Construct) (outer : List Construct) :
    (incomplete (construct :: outer)).IsAtEnd := by
  cases construct <;> trivial

/-! ## Sources and their tokens -/

/-- The scanner only knows the kinds that the reader knows. -/
lemma kind_ne_other_of_mem_scan {source : String} {token : Token}
    (h : token ∈ (scan source).tokens) (name : String) : token.kind ≠ .other name := by
  intro hname
  have hshaped := shaped_of_mem_scan h
  simp only [Token.Shaped, hname] at hshaped

/-- How the reading of the tokens of a source ends: its verdict is an error at a token, whatever is
behind the tokens, or else it waits for what is there. -/
lemma verdict_cases (source : String) :
    (∃ error, error.IsAtToken ∧
      ∀ unterminated, (readTree [] (scan source).tokens).verdict unterminated = .error error) ∨
    ∃ result, (∀ error, result = .error error → error.IsAtEnd) ∧
      ∀ unterminated,
        (readTree [] (scan source).tokens).verdict unterminated =
          reportAtEnd unterminated result := by
  cases hread : readTree [] (scan source).tokens with
  | fault error rest =>
    have htoken := isAtToken_of_fault (fun _ hmem => kind_ne_other_of_mem_scan hmem) hread
    exact .inl ⟨error, htoken, fun _ => rfl⟩
  | tree node rest =>
    cases rest with
    | nil =>
      refine .inr ⟨.ok node, ?_, fun _ => rfl⟩
      rintro error ⟨⟩
    | cons token rest => exact .inl ⟨_, isAtToken_trailing token, fun _ => rfl⟩
  | cut pending =>
    right
    cases pending with
    | nil =>
      refine ⟨.error .emptyInput, ?_, fun _ => rfl⟩
      rintro error ⟨⟩
      trivial
    | cons construct outer =>
      refine ⟨.error (incomplete (construct :: outer)), ?_, fun _ => rfl⟩
      rintro error ⟨⟩
      exact isAtEnd_incomplete construct outer

/-- Reading a source while it is split into tokens agrees with splitting it first. If the source can
be split to its end, the two have the same result as reading its tokens. If it has a text that never
ends, an error at a token before that text stands, and everything else gives way to the failure of
the source: a tree, and every error at the end of the tokens. So a source that cannot be split to
its end is never accepted, and no source is said to end where a tree must start or to hold an
unknown token. -/
theorem parse_agrees_with_scanned_tokens (source : String) :
    parse source = readFrom 0 .between (.inr []) source.toList ∧
    ((scan source).unterminated = none → parse source = parseTokens (scan source).tokens) ∧
    (∀ offset, (scan source).unterminated = some offset →
      (∀ error, parseTokens (scan source).tokens = .error error → error.IsAtToken →
        parse source = .error error) ∧
      ((∀ error, parseTokens (scan source).tokens = .error error → error.IsAtEnd) →
        parse source = .error (.unterminatedString offset))) ∧
    (∀ error, parseTokens (scan source).tokens = .error error →
      error.IsAtToken ∨ error.IsAtEnd) ∧
    (∀ node, parse source = .ok node → (scan source).unterminated = none) ∧
    ∀ error, parse source = .error error →
      error ≠ .endOfInput ∧ ∀ kind text, error ≠ .unknownToken kind text := by
  refine ⟨parse_eq_readFrom source, ?_⟩
  rw [parse_eq_verdict, parseTokens_eq_verdict]
  rcases verdict_cases source with ⟨found, htoken, hverdict⟩ | ⟨result, hend, hverdict⟩
  · -- the reader stops at a token, and does not get to know how the source ends
    rw [hverdict, hverdict]
    refine ⟨fun _ => rfl, fun _ _ => ⟨fun _ herror _ => herror, fun hall => ?_⟩, ?_, nofun, ?_⟩
    · exact absurd (hall found rfl) htoken.not_isAtEnd
    · rintro error ⟨⟩
      exact .inl htoken
    · rintro error ⟨⟩
      exact htoken.ne_unexpected
  · rw [hverdict, hverdict]
    have hkind : ∀ error, result = .error error → error.IsAtToken ∨ error.IsAtEnd :=
      fun error herror => .inr (hend error herror)
    cases (scan source).unterminated with
    | none =>
      exact ⟨fun _ => rfl, nofun, hkind, fun _ _ => rfl,
        fun error herror => (hend error herror).ne_unexpected⟩
    | some start =>
      refine ⟨nofun, ?_, hkind, nofun, ?_⟩
      · rintro offset ⟨⟩
        refine ⟨fun error herror htoken => ?_, fun _ => rfl⟩
        exact absurd (hend error herror) htoken.not_isAtEnd
      · rintro error ⟨⟩
        exact ⟨nofun, nofun⟩

/-- Two sources end in a text that never ends. In `('a))"b` a parenthesis before that text is one
too many, and this is reported. In `(f 'a "b` the tokens before the text only leave a form open, and
the text is reported. -/
theorem parse_fault_before_unterminated :
    (parse "('a))\"b" = .error (.unmatchedClose 4) ∧
      (scan "('a))\"b").unterminated = some 5) ∧
    parse "(f 'a \"b" = .error (.unterminatedString 6) ∧
      parseTokens (scan "(f 'a \"b").tokens = .error (.unmatchedOpen 0) := by
  have hclose : parseTokens (scan "('a))\"b").tokens = .error (.unmatchedClose 4) := rfl
  have hopen : parseTokens (scan "(f 'a \"b").tokens = .error (.unmatchedOpen 0) := rfl
  have hfirst : (scan "('a))\"b").unterminated = some 5 := rfl
  have hsecond : (scan "(f 'a \"b").unterminated = some 6 := rfl
  obtain ⟨-, -, hfault, -⟩ := parse_agrees_with_scanned_tokens "('a))\"b"
  obtain ⟨-, -, hend, -⟩ := parse_agrees_with_scanned_tokens "(f 'a \"b"
  refine ⟨⟨(hfault 5 hfirst).1 _ hclose trivial, hfirst⟩, (hend 6 hsecond).2 ?_, hopen⟩
  intro error herror
  obtain rfl : Error.unmatchedOpen 0 = error := Except.error.inj (hopen.symm.trans herror)
  trivial

end Lisplet

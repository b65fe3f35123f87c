import TinyLang.Proofs.Grammar.Completeness
import TinyLang.Proofs.Grammar.Lookahead
import TinyLang.Proofs.Grammar.Viability

namespace TinyLang

def Sentence (trailing : Bool) (word : List Token.Kind) : Prop :=
  ∃ D : Derivation trailing .program, Token.kinds D.tokens = word

def Continuable (trailing : Bool) (word : List Token.Kind) : Prop :=
  ∃ rest, Sentence trailing (word ++ rest)

/-- The place of the end of the input after the first `count` tokens: directly after the last one of
them, or else at the token that ends the input. -/
def Token.endSpan (tokens : List Token) : Nat → Span
  | 0 => tokens.head?.elim {} Token.span
  | count + 1 => tokens[count]?.elim {} fun last => last.span.after

/-- The error is about the first token, at index `count`, that cannot be right. If there is none, it
is about the end of the input, where the tokens should have gone on. -/
structure FirstError (trailing : Bool) (tokens : List Token) (error : SyntaxError) (count : Nat) :
    Prop where
  count_le : count ≤ tokens.length
  isEnd_eq : ∀ token ∈ tokens.take count, token.isEnd = false
  continuable : Continuable trailing (Token.kinds (tokens.take count))
  of_token : ∀ token, tokens[count]? = some token → token.isEnd = false →
    ¬ Continuable trailing (Token.kinds (tokens.take (count + 1))) ∧ error.location = token.span
  of_end : (∀ token, tokens[count]? = some token → token.isEnd = true) →
    ¬ Sentence trailing (Token.kinds (tokens.take count)) ∧
      error.location = Token.endSpan tokens count
  unclosedComment_iff : error.cause = .unclosedComment ↔
    ∃ token, tokens[count]? = some token ∧ token.kind = .unknown ∧ token.lexeme = "\x7b"
  unknownCharacter_iff : ∀ text, error.cause = .unknownCharacter text ↔
    ∃ token, tokens[count]? = some token ∧ token.kind = .unknown ∧ token.lexeme ≠ "\x7b" ∧
      token.lexeme = text
  found_eq : (∀ token, tokens[count]? = some token → token.kind ≠ .unknown) →
    error.cause.found? =
      some (tokens[count]?.getD (.endAt error.location.offset error.location.start))

/-- The error is about a number that does not fit in 64 bits, at index `count`. -/
structure NumberError (trailing : Bool) (tokens : List Token) (error : SyntaxError) (text : String)
    (count : Nat) : Prop where
  isEnd_eq : ∀ token ∈ tokens.take count, token.isEnd = false
  continuable : Continuable trailing (Token.kinds (tokens.take count))
  of_token : ∃ token, tokens[count]? = some token ∧ token.kind = .number ∧ token.lexeme = text ∧
    error.location = token.span
  value_eq : Decimal.signed64? text = none

/-- No derived number is too large. -/
theorem Derivation.fits {trailing : Bool} {symbol : Symbol} (D : Derivation trailing symbol) :
    ∀ token ∈ D.tokens, token.Fits := by
  induction D <;> grind [tokens, Token.Fits, Token.Sign.kind_eq]

theorem Derivation.Begins.continuable {trailing : Bool} {tokens : List Token}
    (h : Begins trailing .program tokens) : Continuable trailing (Token.kinds tokens) := by
  obtain ⟨D, rest, hrest⟩ := h
  exact ⟨Token.kinds rest, D, by rw [← hrest, Token.kinds_append]⟩

namespace SyntaxError.Cause.Blames

variable {cause : SyntaxError.Cause} {found : Token}

theorem cases (h : cause.Blames found) :
    found.kind = .unknown ∧ cause = .ofUnknown found.lexeme ∨
      found.kind ≠ .unknown ∧ cause.found? = some found := by
  unfold Blames at h
  split at h
  · next hunknown => exact .inl ⟨hunknown, h⟩
  · next hknown => exact .inr ⟨hknown, h⟩

theorem ne_numberTooLarge (h : cause.Blames found) (text : String) :
    cause ≠ .numberTooLarge text := by
  rintro rfl
  rcases h.cases with ⟨-, h⟩ | ⟨-, h⟩
  · exact (blamesKind_ofUnknown _).1 text h.symm
  · cases h

theorem unclosedComment_iff (h : cause.Blames found) :
    cause = .unclosedComment ↔ found.kind = .unknown ∧ found.lexeme = "\x7b" := by
  rcases h.cases with ⟨hkind, rfl⟩ | ⟨hkind, hfound⟩
  · unfold ofUnknown
    split <;> simp_all
  · refine ⟨?_, fun h => absurd h.1 hkind⟩
    rintro rfl
    cases hfound

theorem unknownCharacter_iff (h : cause.Blames found) (text : String) :
    cause = .unknownCharacter text ↔
      found.kind = .unknown ∧ found.lexeme ≠ "\x7b" ∧ found.lexeme = text := by
  rcases h.cases with ⟨hkind, rfl⟩ | ⟨hkind, hfound⟩
  · unfold ofUnknown
    split <;> simp_all
  · refine ⟨?_, fun h => absurd h.1 hkind⟩
    rintro rfl
    cases hfound

end SyntaxError.Cause.Blames

namespace Parser

variable {config : ParserConfig} {tokens front : List Token} {error : SyntaxError} {t : State}

namespace State

/-- The token ahead is that at the index of the number of consumed tokens. -/
theorem Moved.getElem?_eq (h : Moved { ahead := tokens } front t) :
    tokens[front.length]? = t.ahead.head? := by
  rw [show tokens = front ++ t.ahead from h.ahead_eq, List.getElem?_append_right (Nat.le_refl _),
    Nat.sub_self, List.head?_eq_getElem?]

theorem Moved.take_eq (h : Moved { ahead := tokens } front t) :
    tokens.take front.length = front := by
  rw [show tokens = front ++ t.ahead from h.ahead_eq]
  simp

theorem Moved.endSpan_eq (h : Moved { ahead := tokens } front t) :
    t.endSpan = Token.endSpan tokens front.length := by
  obtain ⟨passed, ahead, stack, events⟩ := t
  obtain rfl : tokens = front ++ ahead := h.ahead_eq
  obtain rfl : passed = front.reverse ++ [] := h.passed_eq
  rcases List.eq_nil_or_concat front with rfl | ⟨init, last, rfl⟩
  · cases ahead <;> rfl
  · simp [endSpan, Token.endSpan]

/-- Only a token that is there can be of unknown kind. -/
theorem found_unknown_iff (P : String → Prop) :
    t.found.kind = .unknown ∧ P t.found.lexeme ↔
      ∃ token, t.ahead.head? = some token ∧ token.kind = .unknown ∧ P token.lexeme := by
  cases h : t.ahead.head? with
  | none => simp [found, h, Token.endAt]
  | some token => simp [found, h]

end State

/-- A sentence does not go on with the kind at which a parse failed: it would fail there too. -/
theorem not_echoes (h : (program config).run { ahead := tokens } = .error error t)
    (hblame : error.cause.BlamesKind) (hmoved : State.Moved { ahead := tokens } front t)
    (D : Derivation config.trailingSemicolon .program) (rest : List Token) :
    ¬ Echoes (Token.kinds front) t.kind D.tokens rest := by
  intro hecho
  obtain ⟨front', hmoved', hfails⟩ := (mimics_program config).error h hblame
  obtain rfl : front' = front := hmoved'.eq hmoved
  obtain ⟨error', t', hrun, hblame'⟩ := hfails { ahead := D.tokens } rest hecho
  have herror : Program.parse config D.tokens = .error error' := parse_eq_error_iff.mpr ⟨t', hrun⟩
  obtain ⟨hok, hdeep⟩ := Program.parse_of_derivation D D.beforeEnd_tokens.symm
  by_cases hfits : D.need ≤ config.maxDepth
  · rw [hok hfits] at herror
    cases herror
  · obtain ⟨error'', herror', hcause⟩ := hdeep hfits
    rw [herror'] at herror
    cases herror
    exact hblame'.2 _ hcause

theorem not_continuable (h : (program config).run { ahead := tokens } = .error error t)
    (hblame : error.cause.BlamesKind) (hmoved : State.Moved { ahead := tokens } front t) :
    ¬ Continuable config.trailingSemicolon (Token.kinds front ++ [t.kind]) := by
  rintro ⟨word, D, hD⟩
  rw [List.append_assoc] at hD
  obtain ⟨copy, rest, hcopy, hfront, hrest⟩ := List.map_eq_append_iff.mp hD
  obtain ⟨token, rest', rfl, hkind, -⟩ := List.map_eq_cons_iff.mp hrest
  refine not_echoes h hblame hmoved D (token :: rest') ⟨copy, hcopy, hfront, ?_, hkind⟩
  intro token' hmem
  exact D.fits token' (hcopy ▸ List.mem_append_left _ hmem)

theorem not_sentence (h : (program config).run { ahead := tokens } = .error error t)
    (hblame : error.cause.BlamesKind) (hmoved : State.Moved { ahead := tokens } front t)
    (hend : t.kind = .endOfInput) :
    ¬ Sentence config.trailingSemicolon (Token.kinds front) := by
  rintro ⟨D, hD⟩
  exact not_echoes h hblame hmoved D [] ⟨D.tokens, by simp, hD, D.fits, hend.symm⟩

theorem firstError (h : (program config).run { ahead := tokens } = .error error t)
    (hblame : error.cause.BlamesKind) (hmoved : State.Moved { ahead := tokens } front t)
    (hcause : error.cause.Blames t.found) (hlocation : error.location = t.location)
    (hbegins : Derivation.Begins config.trailingSemicolon .program front) :
    FirstError config.trailingSemicolon tokens error front.length where
  count_le := by
    rw [show tokens = front ++ t.ahead from hmoved.ahead_eq]
    simp
  isEnd_eq := by
    rw [hmoved.take_eq]
    exact hmoved.isEnd_eq
  continuable := by
    rw [hmoved.take_eq]
    exact hbegins.continuable
  of_token token htoken hend := by
    rw [List.take_add_one, hmoved.take_eq, htoken]
    rw [hmoved.getElem?_eq] at htoken
    obtain ⟨rest, hahead⟩ := List.head?_eq_some_iff.mp htoken
    constructor
    · have hnot := not_continuable h hblame hmoved
      rwa [State.kind_cons hahead, ← Token.kinds_nil, ← Token.kinds_cons, ← Token.kinds_append]
        at hnot
    · rw [hlocation, State.location, hahead]
      simp [hend]
  of_end hend := by
    rw [hmoved.take_eq]
    rw [hmoved.getElem?_eq] at hend
    -- Where a token ends the input, the error is not at it, but after the token before.
    have hkind : t.kind = .endOfInput ∧ t.location = t.endSpan := by
      cases hahead : t.ahead with
      | nil => exact ⟨State.kind_nil hahead, by rw [State.location, hahead]⟩
      | cons token rest =>
        have htoken : token.isEnd = true := hend token (by rw [hahead]; rfl)
        refine ⟨(State.kind_cons hahead).trans (by simpa [Token.isEnd] using htoken), ?_⟩
        rw [State.location, hahead]
        simp [htoken]
    exact ⟨not_sentence h hblame hmoved hkind.1, by rw [hlocation, hkind.2, hmoved.endSpan_eq]⟩
  unclosedComment_iff := by
    rw [hmoved.getElem?_eq, hcause.unclosedComment_iff]
    exact State.found_unknown_iff (· = "\x7b")
  unknownCharacter_iff text := by
    rw [hmoved.getElem?_eq, hcause.unknownCharacter_iff]
    exact State.found_unknown_iff fun lexeme => lexeme ≠ "\x7b" ∧ lexeme = text
  found_eq hknown := by
    rw [hmoved.getElem?_eq] at hknown ⊢
    rcases hcause.cases with ⟨hunknown, -⟩ | ⟨-, hfound⟩
    · obtain ⟨token, htoken, hkind, -⟩ := (State.found_unknown_iff fun _ => True).mp ⟨hunknown, trivial⟩
      exact absurd hkind (hknown token htoken)
    · rw [hfound, hlocation]
      cases hahead : t.ahead with
      | nil => rw [State.found, State.location, hahead]
      | cons token rest => rw [State.found, hahead]; rfl

end Parser

namespace Program

open TinyLang.Parser

/-- An error is about the first token that cannot be right, or about a number that is too large, or
levels were missing. -/
theorem firstError_of_parse {config : ParserConfig} {tokens : List Token} {error : SyntaxError}
    (h : parse config tokens = .error error) :
    (error.cause.BlamesKind →
      ∃ count, FirstError config.trailingSemicolon tokens error count) ∧
    ∀ text, error.cause = .numberTooLarge text →
      ∃ count, NumberError config.trailingSemicolon tokens error text count := by
  obtain ⟨t, hrun⟩ := parse_eq_error_iff.mp h
  cases fails_program config hrun with
  | tooDeep limit hcause =>
    refine ⟨fun hblame => absurd hcause (hblame.2 limit), fun text htext => ?_⟩
    rw [hcause] at htext
    cases htext
  | number front token hmoved hkind hvalue hcause hlocation hbegins =>
    refine ⟨fun hblame => absurd hcause (hblame.1 _), fun text htext => ?_⟩
    obtain rfl : token.lexeme = text := by
      rw [hcause] at htext
      exact SyntaxError.Cause.numberTooLarge.inj htext
    have htokens : tokens = front ++ token :: t.ahead := by
      simpa using hmoved.ahead_eq
    have htake : tokens.take front.length = front := by simp [htokens]
    refine ⟨front.length, ?_, ?_, ⟨token, by simp [htokens], hkind, rfl, hlocation⟩, hvalue⟩
    · rw [htake]
      exact fun token' hmem => hmoved.isEnd_eq token' (List.mem_append_left _ hmem)
    · rw [htake]
      exact hbegins.continuable
  | unexpected front hmoved hcause hlocation hbegins _ =>
    refine ⟨fun hblame => ⟨front.length, ?_⟩, fun text htext => ?_⟩
    · exact firstError hrun hblame hmoved hcause hlocation hbegins
    · exact absurd htext (hcause.ne_numberTooLarge text)

/-- The second name of `write x y` cannot be right, and the number of `write 9223372036854775808` is
just too large. -/
theorem firstError_of_write :
    (∃ count, FirstError false
      [⟨.keyword .writeWord, "write", {}⟩, ⟨.identifier, "x", {}⟩, ⟨.identifier, "y", {}⟩]
      ⟨.expectedToken [.semicolon, .endOfInput] ⟨.identifier, "y", {}⟩, {}, [.program]⟩ count) ∧
    ∃ count, NumberError false
      [⟨.keyword .writeWord, "write", {}⟩, ⟨.number, "9223372036854775808", {}⟩]
      ⟨.numberTooLarge "9223372036854775808", {}, [.program, .sequence, .statement, .write,
        .comparison, .sum, .product, .factor]⟩ "9223372036854775808" count := by
  constructor
  · exact (@firstError_of_parse {} _ _ rfl).1 ⟨fun _ => nofun, fun _ => nofun⟩
  · exact (@firstError_of_parse {} _ _ rfl).2 _ rfl

end Program

end TinyLang

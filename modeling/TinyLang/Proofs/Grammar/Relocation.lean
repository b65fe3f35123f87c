import TinyLang.Proofs.Grammar.Ending

namespace TinyLang

def Token.bare (token : Token) : Token := { token with span := {} }

def SyntaxError.Cause.bare : SyntaxError.Cause → SyntaxError.Cause
  | expectedToken expected found => expectedToken expected found.bare
  | expectedStatement found => expectedStatement found.bare
  | expectedExpression found => expectedExpression found.bare
  | cause => cause

theorem SyntaxError.Cause.bare_withFound {found found' : Token} (h : found.bare = found'.bare)
    (cause : SyntaxError.Cause) : (cause.withFound found).bare = (cause.withFound found').bare := by
  cases cause <;> simp [withFound, bare, h]

theorem Token.bare_eq_iff {token token' : Token} :
    token.bare = token'.bare ↔ token.kind = token'.kind ∧ token.lexeme = token'.lexeme := by
  simp [bare]

theorem Token.isEnd_of_bare_eq {token token' : Token} (h : token.bare = token'.bare) :
    token.isEnd = token'.isEnd := by
  rw [isEnd, isEnd, (bare_eq_iff.mp h).1]

theorem Token.twin_of_bare_eq {token token' : Token} (h : token.bare = token'.bare) :
    token.Twin token' where
  kind_eq := (bare_eq_iff.mp h).1
  lexeme_eq _ := (bare_eq_iff.mp h).2

/-- Lists of the same tokens have the same one at an index. -/
theorem Token.bare_foundAt {tokens tokens' : List Token}
    (hsame : List.Forall₂ (fun token token' => token.bare = token'.bare) tokens tokens')
    (count : Nat) : (foundAt tokens count).bare = (foundAt tokens' count).bare := by
  cases htoken : tokens[count]? with
  | none =>
    have hcount := hsame.length_eq ▸ List.getElem?_eq_none_iff.mp htoken
    rw [foundAt, foundAt, htoken, List.getElem?_eq_none hcount]
    rfl
  | some token =>
    obtain ⟨token', htoken', hbare⟩ := exists_getElem?_of_forall₂ hsame htoken
    rw [foundAt, foundAt, htoken, htoken']
    exact hbare

/-- Where the errors of two parses may be placed: at the tokens of one index, or directly after them.
Without any token, both are at the start of the text. -/
inductive PlaceTwin (tokens tokens' : List Token) : Span → Span → Prop
  | token {index : Nat} {token token' : Token} (h : tokens[index]? = some token)
      (h' : tokens'[index]? = some token') : PlaceTwin tokens tokens' token.span token'.span
  | after {index : Nat} {token token' : Token} (h : tokens[index]? = some token)
      (h' : tokens'[index]? = some token') :
      PlaceTwin tokens tokens' token.span.after token'.span.after
  | start (h : tokens = []) (h' : tokens' = []) : PlaceTwin tokens tokens' {} {}

section Place

variable {tokens tokens' : List Token} {count : Nat}
  (hsame : List.Forall₂ Token.Twin tokens tokens') (hcount : count ≤ tokens.length)
include hsame hcount

theorem placeTwin_endSpan :
    PlaceTwin tokens tokens' (Token.endSpan tokens count) (Token.endSpan tokens' count) := by
  cases count with
  | zero =>
    cases hsame with
    | nil => exact .start rfl rfl
    | cons htwin hrest => exact .token List.getElem?_cons_zero List.getElem?_cons_zero
  | succ index =>
    have htoken : tokens[index]? = some tokens[index] := List.getElem?_eq_getElem hcount
    obtain ⟨token', htoken', -⟩ := exists_getElem?_of_forall₂ hsame htoken
    rw [Token.endSpan, Token.endSpan, htoken, htoken']
    exact .after htoken htoken'

/-- Errors at the same index are placed alike. -/
theorem placeTwin_errorSpan :
    PlaceTwin tokens tokens' (Token.errorSpan tokens count) (Token.errorSpan tokens' count) := by
  have hend := placeTwin_endSpan hsame hcount
  cases htoken : tokens[count]? with
  | none =>
    have hbehind : tokens'.length ≤ count := hsame.length_eq ▸ List.getElem?_eq_none_iff.mp htoken
    rw [Token.errorSpan, Token.errorSpan, htoken, List.getElem?_eq_none hbehind]
    exact hend
  | some token =>
    obtain ⟨token', htoken', htwin⟩ := exists_getElem?_of_forall₂ hsame htoken
    rw [Token.errorSpan, Token.errorSpan, htoken, htoken']
    simp only [← htwin.isEnd_eq]
    split
    · exact hend
    · exact .token htoken htoken'

end Place

inductive Relocated (tokens tokens' : List Token) :
    Except SyntaxError Program → Except SyntaxError Program → Prop
  | ok {program program' : Program} (h : Parser.ProgramTwin tokens tokens' program program') :
      Relocated tokens tokens' (.ok program) (.ok program')
  | error {error error' : SyntaxError} (hcause : error.cause.bare = error'.cause.bare)
      (hstack : error.stack = error'.stack)
      (hplace : PlaceTwin tokens tokens' error.location error'.location) :
      Relocated tokens tokens' (.error error) (.error error')

/-- Twins at the same place. Their texts may differ where no parse looks at them. -/
structure Token.Respelled (token token' : Token) : Prop extends Token.Twin token token' where
  span_eq : token.span = token'.span

def SyntaxError.reword (lexeme : String) (error : SyntaxError) : SyntaxError :=
  { error with
    cause := error.cause.found?.elim error.cause fun found =>
      error.cause.withFound { found with lexeme } }

/-- A cause that finds a token, if it finds one at all, is reworded with the token. -/
theorem SyntaxError.cause_reword {error : SyntaxError} {found : Token}
    (h : error.cause.withFound found = error.cause) (lexeme : String) :
    (error.reword lexeme).cause = error.cause.withFound { found with lexeme } := by
  obtain ⟨cause, location, stack⟩ := error
  cases cause <;> simp_all [reword, Cause.found?, Cause.withFound]

section Respelled

variable {tokens tokens' : List Token} (hsame : List.Forall₂ Token.Respelled tokens tokens')
include hsame

theorem getElem?_span_eq {index : Nat} {token token' : Token} (h : tokens[index]? = some token)
    (h' : tokens'[index]? = some token') : token.span = token'.span := by
  obtain ⟨other, hother, hrespelled⟩ := exists_getElem?_of_forall₂ hsame h
  obtain rfl := Option.some.inj (hother.symm.trans h')
  exact hrespelled.span_eq

theorem PlaceTwin.eq_of_respelled {span span' : Span} (h : PlaceTwin tokens tokens' span span') :
    span = span' := by
  cases h with
  | token h h' => exact getElem?_span_eq hsame h h'
  | after h h' => rw [getElem?_span_eq hsame h h']
  | start h h' => rfl

theorem Parser.ProgramTwin.eq_of_respelled {program program' : Program}
    (h : ProgramTwin tokens tokens' program program') : program = program' := by
  refine h.eq_of_corresponding ?_
  rintro token token' ⟨index, htoken, htoken', -⟩
  exact getElem?_span_eq hsame htoken htoken'

/-- At an index the same is found, but for its text. -/
theorem Token.foundAt_respelled {count : Nat} (hcount : count ≤ tokens.length) :
    foundAt tokens' count = { foundAt tokens count with lexeme := (foundAt tokens' count).lexeme } := by
  have htwins : List.Forall₂ Token.Twin tokens tokens' := hsame.imp fun _ _ h => h.toTwin
  cases htoken : tokens[count]? with
  | none =>
    have hbehind : tokens'.length ≤ count := hsame.length_eq ▸ List.getElem?_eq_none_iff.mp htoken
    have hend := (placeTwin_endSpan htwins hcount).eq_of_respelled hsame
    rw [foundAt, foundAt, htoken, List.getElem?_eq_none hbehind, hend]
  | some token =>
    obtain ⟨token', htoken', hrespelled⟩ := exists_getElem?_of_forall₂ hsame htoken
    rw [foundAt, foundAt, htoken, htoken']
    simp [hrespelled.kind_eq, hrespelled.span_eq]

theorem Parser.ErrorTwin.eq_reword {count : Nat} {error error' : SyntaxError}
    (h : ErrorTwin tokens tokens' count error error') :
    error' = error.reword (Token.foundAt tokens' count).lexeme := by
  have htwins : List.Forall₂ Token.Twin tokens tokens' := hsame.imp fun _ _ h => h.toTwin
  have hplace := placeTwin_errorSpan htwins h.count_le
  rw [← h.location_eq, ← h.location_eq'] at hplace
  have hcause : error'.cause = (error.reword (Token.foundAt tokens' count).lexeme).cause := by
    rw [SyntaxError.cause_reword h.cause_eq, ← Token.foundAt_respelled hsame h.count_le]
    exact h.cause_eq'.symm
  exact SyntaxError.ext hcause (hplace.eq_of_respelled hsame).symm h.stack_eq.symm

end Respelled

namespace Program

open TinyLang.Parser

/-- The same tokens in other places are parsed to the same program or the same error, with the places
of the tokens at the same indices. Of a token that is neither a name nor a number nor an unknown
character the text does not matter, except that an error may have found the token. -/
theorem parse_of_same_kinds (config : ParserConfig) :
    (∀ tokens tokens' : List Token,
      List.Forall₂ (fun token token' => token.bare = token'.bare) tokens tokens' →
        Relocated tokens tokens' (parse config tokens) (parse config tokens')) ∧
    ∀ tokens tokens' : List Token, List.Forall₂ Token.Respelled tokens tokens' →
      ∃ lexeme, parse config tokens' = (parse config tokens).mapError (·.reword lexeme) := by
  refine ⟨fun tokens tokens' hsame => ?_, fun tokens tokens' hsame => ?_⟩
  · have htwins : List.Forall₂ Token.Twin tokens tokens' :=
      hsame.imp fun _ _ => Token.twin_of_bare_eq
    have hparse := parse_twin htwins config
    generalize parse config tokens = result at hparse
    generalize parse config tokens' = result' at hparse
    cases hparse with
    | ok h => exact .ok h
    | @error error error' count h =>
      have hcause : error.cause.bare = error'.cause.bare := by
        rw [← h.cause_eq, ← h.cause_eq']
        exact SyntaxError.Cause.bare_withFound (Token.bare_foundAt hsame count) error.cause
      have hplace := placeTwin_errorSpan htwins h.count_le
      rw [← h.location_eq, ← h.location_eq'] at hplace
      exact .error hcause h.stack_eq hplace
  · have hparse := parse_twin (hsame.imp fun _ _ h => h.toTwin) config
    generalize parse config tokens = result at hparse
    generalize parse config tokens' = result' at hparse
    cases hparse with
    | ok h => exact ⟨"", congrArg Except.ok (h.eq_of_respelled hsame).symm⟩
    | @error error error' count h =>
      exact ⟨_, congrArg Except.error (h.eq_reword hsame)⟩

/-- The error of `read end` is at `end`, wherever the two tokens stand. In `READ END` it is the same
but for the text found. -/
theorem parse_of_same_kinds_of_read :
    let tokens (first second : String) (place : Span) : List Token :=
      [⟨.keyword .readWord, first, {}⟩, ⟨.keyword .endWord, second, place⟩]
    let here : Span := ⟨5, 3, ⟨1, 6⟩, ⟨1, 9⟩⟩
    let below : Span := ⟨7, 3, ⟨3, 1⟩, ⟨3, 4⟩⟩
    Relocated (tokens "read" "end" here) (tokens "read" "end" below)
      (parse {} (tokens "read" "end" here)) (parse {} (tokens "read" "end" below)) ∧
    ∃ lexeme, parse {} (tokens "READ" "END" here) =
      (parse {} (tokens "read" "end" here)).mapError (·.reword lexeme) := by
  intro tokens here below
  constructor
  · exact (parse_of_same_kinds {}).1 _ _ (.cons rfl (.cons rfl .nil))
  · refine (parse_of_same_kinds {}).2 _ _ (.cons ?_ (.cons ?_ .nil)) <;>
      exact { kind_eq := rfl, lexeme_eq := by decide, span_eq := rfl }

end Program

end TinyLang

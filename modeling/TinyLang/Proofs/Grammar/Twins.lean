import Mathlib.Data.List.Forall2
import TinyLang.Proofs.Grammar.FirstError
import TinyLang.Proofs.Syntax.Bare

/-!
Two parses go side by side: after every step both stand at the same index inside of the same rules.
-/
namespace TinyLang

/-- Related lists have related elements at the same index. -/
theorem exists_getElem?_of_forall₂ {α β : Type} {R : α → β → Prop} {front : List α} {back : List β}
    (h : List.Forall₂ R front back) {index : Nat} {a : α} (ha : front[index]? = some a) :
    ∃ b, back[index]? = some b ∧ R a b := by
  obtain ⟨hlength, hall⟩ := List.forall₂_iff_get.mp h
  obtain ⟨hindex, rfl⟩ := List.getElem?_eq_some_iff.mp ha
  exact ⟨_, List.getElem?_eq_getElem (hlength ▸ hindex), hall index hindex _⟩

namespace Token

/-- Tokens that no parse treats differently: they are of one kind, and of one text where it is the
text that matters. -/
structure Twin (token token' : Token) : Prop where
  kind_eq : token.kind = token'.kind
  lexeme_eq : token.kind ∈ [.identifier, .number, .unknown] → token.lexeme = token'.lexeme

theorem Twin.isEnd_eq {token token' : Token} (h : token.Twin token') :
    token.isEnd = token'.isEnd := by
  rw [isEnd, isEnd, h.kind_eq]

/-- Twins end at the same index. -/
theorem Twin.forall₂_beforeEnd {tokens tokens' : List Token} (h : List.Forall₂ Twin tokens tokens') :
    List.Forall₂ Twin (beforeEnd tokens) (beforeEnd tokens') := by
  induction h with
  | nil => exact .nil
  | cons htwin _ ih =>
    rw [beforeEnd, beforeEnd, List.takeWhile_cons, List.takeWhile_cons, htwin.isEnd_eq]
    split
    · exact .cons htwin ih
    · exact .nil

/-- Before the end of the input, a token stands where it does in the whole list. -/
theorem getElem?_beforeEnd {tokens : List Token} {index : Nat}
    (h : ∀ earlier ∈ tokens.take (index + 1), earlier.isEnd = false) :
    (beforeEnd tokens)[index]? = tokens[index]? := by
  have hsplit := beforeEnd_append h (tokens.drop (index + 1))
  rw [List.take_append_drop] at hsplit
  by_cases hindex : index < tokens.length
  · have hfront : index < (tokens.take (index + 1)).length := by
      rw [List.length_take]
      omega
    rw [hsplit, List.getElem?_append_left hfront, List.getElem?_take_of_lt (Nat.lt_succ_self index)]
  · have hlength : tokens.length ≤ index + 1 := by omega
    rw [List.take_of_length_le hlength] at h
    rw [beforeEnd_eq_self h]

def foundAt (tokens : List Token) (count : Nat) : Token :=
  tokens[count]?.getD (.endAt (endSpan tokens count).offset (endSpan tokens count).start)

def errorSpan (tokens : List Token) (count : Nat) : Span :=
  match tokens[count]? with
  | some token => if token.isEnd then endSpan tokens count else token.span
  | none => endSpan tokens count

end Token

def SyntaxError.Cause.withFound (found : Token) : SyntaxError.Cause → SyntaxError.Cause
  | expectedToken expected _ => expectedToken expected found
  | expectedStatement _ => expectedStatement found
  | expectedExpression _ => expectedExpression found
  | cause => cause

theorem SyntaxError.Cause.withFound_ofUnknown (found : Token) (lexeme : String) :
    (ofUnknown lexeme).withFound found = ofUnknown lexeme := by
  unfold ofUnknown
  split <;> rfl

namespace Parser

variable {α β : Type} (tokens tokens' : List Token)

def Corresponding (token token' : Token) : Prop :=
  ∃ index, tokens[index]? = some token ∧ tokens'[index]? = some token' ∧
    ∀ earlier ∈ tokens.take (index + 1), earlier.isEnd = false

def SpanTwin (span span' : Span) : Prop :=
  ∃ token token', Corresponding tokens tokens' token token' ∧ token.span = span ∧
    token'.span = span'

/-- Trees that differ in spans only, and have at the same nodes spans of tokens at the same index. -/
structure TreeTwin {Tree : Type} (bare : Tree → Tree) (spans : Tree → List Span)
    (tree tree' : Tree) : Prop where
  bare_eq : bare tree = bare tree'
  spans : List.Forall₂ (SpanTwin tokens tokens') (spans tree) (spans tree')

abbrev ExprTwin : Expr → Expr → Prop := TreeTwin tokens tokens' Expr.bare Expr.spans

abbrev StmtTwin : Stmt → Stmt → Prop := TreeTwin tokens tokens' Stmt.bare Stmt.spans

abbrev BodyTwin : List Stmt → List Stmt → Prop := TreeTwin tokens tokens' Stmt.bareAll Stmt.spansAll

abbrev ProgramTwin : Program → Program → Prop :=
  TreeTwin tokens tokens' Program.bare Program.spans

structure ErrorTwin (count : Nat) (error error' : SyntaxError) : Prop where
  count_le : count ≤ tokens.length
  isEnd_eq : ∀ token ∈ tokens.take count, token.isEnd = false
  location_eq : error.location = Token.errorSpan tokens count
  location_eq' : error'.location = Token.errorSpan tokens' count
  stack_eq : error.stack = error'.stack
  cause_eq : error.cause.withFound (Token.foundAt tokens count) = error.cause
  cause_eq' : error.cause.withFound (Token.foundAt tokens' count) = error'.cause

structure StateTwin (s s' : State) : Prop where
  moved : ∃ front front', State.Moved { ahead := tokens } front s ∧
    State.Moved { ahead := tokens' } front' s' ∧ front.length = front'.length
  stack_eq : s.stack = s'.stack

inductive ResultTwin (V : α → β → Prop) :
    EStateM.Result SyntaxError State α → EStateM.Result SyntaxError State β → Prop
  | ok {a : α} {b : β} {t t' : State} (hvalue : V a b) (hstate : StateTwin tokens tokens' t t') :
      ResultTwin V (.ok a t) (.ok b t')
  | error {e e' : SyntaxError} {t t' : State} {count : Nat}
      (h : ErrorTwin tokens tokens' count e e') : ResultTwin V (.error e t) (.error e' t')

structure Parallel (V : α → β → Prop) (p : Parser α) (q : Parser β) : Prop where
  run : ∀ {s s' : State}, StateTwin tokens tokens' s s' →
    ResultTwin tokens tokens' V (p.run s) (q.run s')

variable {tokens tokens' : List Token}

theorem Corresponding.spanTwin {token token' : Token}
    (h : Corresponding tokens tokens' token token') :
    SpanTwin tokens tokens' token.span token'.span :=
  ⟨token, token', h, rfl, rfl⟩

namespace StateTwin

variable {s s' : State}

theorem of_still {t t' : State} (h : StateTwin tokens tokens' s s') (hs : s.Moved [] t)
    (hs' : s'.Moved [] t') (hstack : t.stack = t'.stack) : StateTwin tokens tokens' t t' := by
  obtain ⟨⟨front, front', hmoved, hmoved', hlength⟩, -⟩ := h
  refine ⟨⟨front, front', ?_, ?_, hlength⟩, hstack⟩
  · simpa using hmoved.trans hs
  · simpa using hmoved'.trans hs'

theorem pushed (h : StateTwin tokens tokens' s s') (rule : Rule) :
    StateTwin tokens tokens' (s.pushed rule) (s'.pushed rule) :=
  h.of_still (s.moved_pushed rule) (s'.moved_pushed rule) (congrArg (rule :: ·) h.stack_eq)

theorem popped (h : StateTwin tokens tokens' s s') :
    StateTwin tokens tokens' s.popped s'.popped :=
  h.of_still s.moved_popped s'.moved_popped (congrArg List.tail h.stack_eq)

theorem report (h : StateTwin tokens tokens' s s') (event event' : ParseEvent) :
    StateTwin tokens tokens' (s.report event) (s'.report event') :=
  h.of_still (.still rfl rfl) (.still rfl rfl) h.stack_eq

end StateTwin

section Index

variable {front : List Token} {s : State}

theorem State.Moved.found_eq (h : Moved { ahead := tokens } front s) :
    s.found = Token.foundAt tokens front.length := by
  rw [found, Token.foundAt, h.getElem?_eq, h.endSpan_eq]

theorem State.Moved.location_eq (h : Moved { ahead := tokens } front s) :
    s.location = Token.errorSpan tokens front.length := by
  rw [location, Token.errorSpan, h.getElem?_eq, h.endSpan_eq]
  cases s.ahead <;> rfl

end Index

/-- An error at the token ahead. -/
theorem StateTwin.errorTwin {s s' : State} {cause cause' : SyntaxError.Cause}
    (hs : StateTwin tokens tokens' s s') (hcause : cause.withFound s.found = cause)
    (hcause' : cause.withFound s'.found = cause') :
    ∃ count, ErrorTwin tokens tokens' count ⟨cause, s.location, s.stack.reverse⟩
      ⟨cause', s'.location, s'.stack.reverse⟩ := by
  obtain ⟨⟨front, front', hmoved, hmoved', hlength⟩, hstack⟩ := hs
  refine ⟨front.length, ?_⟩
  rw [hmoved.found_eq] at hcause
  rw [hmoved'.found_eq, ← hlength] at hcause'
  exact
    { count_le := hmoved.length_tokens_le
      isEnd_eq := by
        rw [hmoved.take_eq]
        exact hmoved.isEnd_eq
      location_eq := hmoved.location_eq
      location_eq' := by rw [hlength, hmoved'.location_eq]
      stack_eq := by rw [hstack]
      cause_eq := hcause
      cause_eq' := hcause' }

theorem ResultTwin.cases {V : α → β → Prop} {r : EStateM.Result SyntaxError State α}
    {r' : EStateM.Result SyntaxError State β} (h : ResultTwin tokens tokens' V r r') :
    (∃ a t b t', r = .ok a t ∧ r' = .ok b t' ∧ V a b ∧ StateTwin tokens tokens' t t') ∨
      ∃ e t e' t' count, r = .error e t ∧ r' = .error e' t' ∧
        ErrorTwin tokens tokens' count e e' := by
  cases h with
  | ok hvalue hstate => exact .inl ⟨_, _, _, _, rfl, rfl, hvalue, hstate⟩
  | error h => exact .inr ⟨_, _, _, _, _, rfl, rfl, h⟩

namespace Parallel

section

variable {V : α → β → Prop} {p : Parser α} {q : Parser β}

theorem pure {a : α} {b : β} (h : V a b) :
    Parallel tokens tokens' V (Pure.pure a) (Pure.pure b) :=
  ⟨fun hs => .ok h hs⟩

theorem bind {γ δ : Type} {W : γ → δ → Prop} {f : α → Parser γ} {g : β → Parser δ}
    (hp : Parallel tokens tokens' V p q)
    (hf : ∀ a b, V a b → Parallel tokens tokens' W (f a) (g b)) :
    Parallel tokens tokens' W (p >>= f) (q >>= g) := by
  refine ⟨fun {s s'} hs => ?_⟩
  obtain ⟨a, t, b, t', hrun, hrun', hvalue, ht⟩ | ⟨e, t, e', t', count, hrun, hrun', herror⟩ :=
    (hp.run hs).cases
  · rw [run_bind_of_ok hrun, run_bind_of_ok hrun']
    exact (hf a b hvalue).run ht
  · rw [run_bind_of_error hrun, run_bind_of_error hrun']
    exact .error herror

theorem rounds {f : Nat → Parser α} {g : Nat → Parser β} (hf : EnoughRounds f)
    (hg : EnoughRounds g) (h : ∀ count, Parallel tokens tokens' V (f count) (g count)) :
    Parallel tokens tokens' V (get >>= fun s => f s.ahead.length)
      (get >>= fun s => g s.ahead.length) := by
  refine ⟨fun {s s'} hs => ?_⟩
  change ResultTwin tokens tokens' V ((f s.ahead.length).run s) ((g s'.ahead.length).run s')
  -- What follows the end of the input may be longer in one parse, so that it has more rounds.
  rw [hf s (max s.ahead.length s'.ahead.length) (Nat.le_max_left _ _),
    hg s' (max s.ahead.length s'.ahead.length) (Nat.le_max_right _ _)]
  exact (h _).run hs

/-- An error at a token that has been consumed. -/
theorem failAt {token token' : Token} {cause : SyntaxError.Cause}
    (h : Corresponding tokens tokens' token token') (hend : token.isEnd = token'.isEnd)
    (hcause : ∀ found, cause.withFound found = cause) :
    Parallel tokens tokens' V (Parser.failAt token.span cause)
      (Parser.failAt token'.span cause) := by
  refine ⟨fun {s s'} hs => ?_⟩
  -- The parse stands behind the token by now, so the index is that of the token.
  obtain ⟨index, htoken, htoken', hearlier⟩ := h
  rw [List.take_add_one, htoken] at hearlier
  have hnotEnd : token.isEnd = false := hearlier token (by simp)
  have herror : ErrorTwin tokens tokens' index ⟨cause, token.span, s.stack.reverse⟩
      ⟨cause, token'.span, s'.stack.reverse⟩ :=
    { count_le := Nat.le_of_lt (List.getElem?_eq_some_iff.mp htoken).1
      isEnd_eq := fun earlier hmem => hearlier earlier (List.mem_append_left _ hmem)
      location_eq := by simp [Token.errorSpan, htoken, hnotEnd]
      location_eq' := by simp [Token.errorSpan, htoken', ← hend, hnotEnd]
      stack_eq := congrArg List.reverse hs.stack_eq
      cause_eq := hcause _
      cause_eq' := hcause _ }
  exact .error herror

theorem fail {cause : SyntaxError.Cause} (h : ∀ found, cause.withFound found = cause) :
    Parallel tokens tokens' V (Parser.fail cause) (Parser.fail cause) := by
  refine ⟨fun {s s'} hs => ?_⟩
  rw [run_fail, run_fail]
  obtain ⟨count, herror⟩ := hs.errorTwin (h _) (h _)
  exact .error herror

end

end Parallel

section Same

/-! What follows the first end of the input is not looked at, so that only the tokens before it need
to be twins. -/

variable (hsame : List.Forall₂ Token.Twin (Token.beforeEnd tokens) (Token.beforeEnd tokens'))
include hsame

theorem Corresponding.twin {token token' : Token} (h : Corresponding tokens tokens' token token') :
    token.Twin token' := by
  obtain ⟨index, htoken, htoken', hearlier⟩ := h
  have hfront : (Token.beforeEnd tokens)[index]? = some token :=
    (Token.getElem?_beforeEnd hearlier).trans htoken
  obtain ⟨found, hfound, htwin⟩ := exists_getElem?_of_forall₂ hsame hfront
  obtain ⟨rest, hrest, -⟩ := Token.exists_eq_beforeEnd_append tokens'
  have hback : tokens'[index]? = some found := by
    rw [hrest, List.getElem?_append_left (List.getElem?_eq_some_iff.mp hfound).1, hfound]
  obtain rfl : found = token' := Option.some.inj (hback.symm.trans htoken')
  exact htwin

theorem StateTwin.beforeEnd_ahead {s s' : State} (hs : StateTwin tokens tokens' s s') :
    List.Forall₂ Token.Twin (Token.beforeEnd s.ahead) (Token.beforeEnd s'.ahead) := by
  obtain ⟨⟨front, front', hmoved, hmoved', hlength⟩, -⟩ := hs
  have htokens : Token.beforeEnd tokens = front ++ Token.beforeEnd s.ahead := hmoved.beforeEnd_ahead
  have htokens' : Token.beforeEnd tokens' = front' ++ Token.beforeEnd s'.ahead :=
    hmoved'.beforeEnd_ahead
  rw [htokens, htokens'] at hsame
  have hdrop := List.forall₂_drop front.length hsame
  rwa [List.drop_left, hlength, List.drop_left] at hdrop

/-- The two parses have tokens at the same index ahead, or both stand at an end of the input. -/
theorem StateTwin.cases {s s' : State} (hs : StateTwin tokens tokens' s s') :
    (s.kind = .endOfInput ∧ s'.kind = .endOfInput) ∨
      ∃ token rest token' rest', s.ahead = token :: rest ∧ s'.ahead = token' :: rest' ∧
        token.isEnd = false ∧ token'.isEnd = false ∧ token.Twin token' ∧
        Corresponding tokens tokens' token token' := by
  have hahead := hs.beforeEnd_ahead hsame
  obtain ⟨hkind, hstop⟩ | ⟨token, rest, hrest, hend, hfirst⟩ := Token.beforeEnd_cases s.ahead <;>
  obtain ⟨hkind', hstop'⟩ | ⟨token', rest', hrest', hend', hfirst'⟩ :=
    Token.beforeEnd_cases s'.ahead
  · exact .inl ⟨hkind, hkind'⟩
  · rw [hstop, hfirst'] at hahead
    cases hahead
  · rw [hfirst, hstop'] at hahead
    cases hahead
  · rw [hfirst, hfirst'] at hahead
    have htwin := (List.forall₂_cons.mp hahead).1
    refine .inr ⟨token, rest, token', rest', hrest, hrest', hend, hend', htwin, ?_⟩
    obtain ⟨⟨front, front', hmoved, hmoved', hlength⟩, -⟩ := hs
    have htoken : tokens[front.length]? = some token := by rw [hmoved.getElem?_eq, hrest]; rfl
    have htoken' : tokens'[front.length]? = some token' := by
      rw [hlength, hmoved'.getElem?_eq, hrest']
      rfl
    refine ⟨front.length, htoken, htoken', ?_⟩
    rw [List.take_add_one, hmoved.take_eq, htoken]
    intro earlier hearlier
    rcases List.mem_append.mp hearlier with hfront | hlast
    · exact hmoved.isEnd_eq earlier hfront
    · rwa [List.mem_singleton.mp hlast]

theorem StateTwin.kind_eq {s s' : State} (hs : StateTwin tokens tokens' s s') :
    s.kind = s'.kind := by
  obtain ⟨h, h'⟩ | ⟨token, rest, token', rest', h, h', -, -, htwin, -⟩ := hs.cases hsame
  · rw [h, h']
  · rw [State.kind_cons h, State.kind_cons h', htwin.kind_eq]

theorem StateTwin.found_twin {s s' : State} (hs : StateTwin tokens tokens' s s') :
    s.found.Twin s'.found := by
  obtain ⟨h, h'⟩ | ⟨token, rest, token', rest', h, h', -, -, htwin, -⟩ := hs.cases hsame
  · -- The two ends may have different texts, but no parse looks at them.
    have hkind : s.found.kind = .endOfInput := s.found_kind.trans h
    refine ⟨hkind.trans (s'.found_kind.trans h').symm, fun hmem => ?_⟩
    simp [hkind] at hmem
  · rw [State.found, State.found, h, h']
    exact htwin

namespace Parallel

theorem kind : Parallel tokens tokens' (· = ·) Parser.kind Parser.kind := by
  refine ⟨fun {s s'} hs => ?_⟩
  rw [run_kind, run_kind]
  exact .ok (hs.kind_eq hsame) hs

theorem unexpected {V : α → β → Prop} {cause : Token → SyntaxError.Cause}
    (hcause : SyntaxError.Cause.Expects cause) :
    Parallel tokens tokens' V (Parser.unexpected cause) (Parser.unexpected cause) := by
  refine ⟨fun {s s'} hs => ?_⟩
  have h (token found : Token) : (cause token).withFound found = cause found := by
    cases hcause <;> rfl
  have htwin := hs.found_twin hsame
  rw [run_unexpected, run_unexpected]
  by_cases hunknown : s.found.kind = .unknown
  · have hlexeme := htwin.lexeme_eq (by simp [hunknown])
    simp only [← htwin.kind_eq, hunknown, if_true, ← hlexeme]
    obtain ⟨count, herror⟩ := hs.errorTwin (SyntaxError.Cause.withFound_ofUnknown s.found _)
      (SyntaxError.Cause.withFound_ofUnknown s'.found _)
    exact .error herror
  · simp only [← htwin.kind_eq, hunknown, if_false]
    obtain ⟨count, herror⟩ := hs.errorTwin (h s.found s.found) (h s.found s'.found)
    exact .error herror

/-- Tokens of a wanted kind at the same index. -/
theorem accept? (wanted : Token.Kind → Bool) :
    Parallel tokens tokens'
      (Option.Rel fun token token' => wanted token.kind = true ∧
        Corresponding tokens tokens' token token')
      (Parser.accept? wanted) (Parser.accept? wanted) := by
  refine ⟨fun {s s'} hs => ?_⟩
  obtain ⟨h, h'⟩ | ⟨token, rest, token', rest', h, h', hend, hend', htwin, hcorresponding⟩ :=
    hs.cases hsame
  · rw [run_accept?_of_end wanted h, run_accept?_of_end wanted h']
    exact .ok .none hs
  · rw [run_accept?_cons wanted h, run_accept?_cons wanted h', hend, hend', ← htwin.kind_eq]
    split
    · next hwanted =>
      refine .ok (.some ⟨by simpa using hwanted, hcorresponding⟩) ⟨?_, hs.stack_eq⟩
      obtain ⟨⟨front, front', hmoved, hmoved', hlength⟩, -⟩ := hs
      refine ⟨front ++ [token], front' ++ [token'], ?_, ?_, by simp [hlength]⟩
      · exact hmoved.trans (State.moved_advance h hend)
      · exact hmoved'.trans (State.moved_advance h' hend')
    · exact .ok .none hs

theorem numeral {token token' : Token} (h : Corresponding tokens tokens' token token')
    (hkind : token.kind = .number) :
    Parallel tokens tokens' (ExprTwin tokens tokens') (Parser.numeral token)
      (Parser.numeral token') := by
  have htwin := h.twin hsame
  rw [Parser.numeral, Parser.numeral, ← htwin.lexeme_eq (by simp [hkind])]
  cases Decimal.signed64? token.lexeme with
  | some value => exact pure ⟨rfl, .cons h.spanTwin .nil⟩
  | none => exact failAt h htwin.isEnd_eq fun _ => rfl

end Parallel

def twins : Likeness where
  token := Corresponding tokens tokens'
  expr := ExprTwin tokens tokens'
  stmt := StmtTwin tokens tokens'
  body := BodyTwin tokens tokens'
  kind_eq h := (h.twin hsame).kind_eq
  name h hkind := by
    rw [(h.twin hsame).lexeme_eq (by simp [hkind])]
    exact ⟨rfl, .cons h.spanTwin .nil⟩
  binary op h hleft hright := ⟨by simp [hleft.bare_eq, hright.bare_eq],
    .cons h.spanTwin (List.rel_append hleft.spans hright.spans)⟩
  conditional h hcondition hbranch := ⟨by simp [hcondition.bare_eq, hbranch.bare_eq],
    .cons h.spanTwin (List.rel_append hcondition.spans hbranch.spans)⟩
  loop h hbody hcondition := ⟨by simp [hcondition.bare_eq, hbody.bare_eq],
    .cons h.spanTwin (List.rel_append hbody.spans hcondition.spans)⟩
  assign h hkind hvalue := by
    rw [(h.twin hsame).lexeme_eq (by simp [hkind])]
    exact ⟨by simp [hvalue.bare_eq], .cons h.spanTwin hvalue.spans⟩
  read h htarget hkind := by
    rw [(htarget.twin hsame).lexeme_eq (by simp [hkind])]
    exact ⟨rfl, .cons h.spanTwin .nil⟩
  write h hvalue := ⟨by simp [hvalue.bare_eq], .cons h.spanTwin hvalue.spans⟩
  nil := ⟨rfl, .nil⟩
  cons hfirst hrest :=
    ⟨by simp [hfirst.bare_eq, hrest.bare_eq], List.rel_append hfirst.spans hrest.spans⟩

theorem compositional_parallel : (twins hsame).Compositional (Parallel tokens tokens') where
  pure := .pure
  bind := .bind
  rounds := .rounds
  kind := .kind hsame
  accept? := .accept? hsame
  numeral := .numeral hsame
  unexpected := .unexpected hsame
  tooDeep _ := .fail fun _ => rfl
  enter rule := ⟨fun hs => .ok trivial (hs.pushed rule)⟩
  leave := ⟨fun hs => .ok trivial hs.popped⟩
  start _ := ⟨fun hs => .ok trivial (hs.report _ _)⟩
  finished _ := ⟨fun hs => .ok trivial (hs.report _ _)⟩
  parsed _ := ⟨fun hs => .ok trivial (hs.report _ _)⟩

theorem parallel_program (config : ParserConfig) : Parallel tokens tokens'
    (fun program program' => BodyTwin tokens tokens' program.body program'.body)
    (program config) (program config) :=
  (compositional_parallel hsame).program config

end Same

end Parser

namespace Program

open TinyLang.Parser

inductive ParseTwin (tokens tokens' : List Token) :
    Except SyntaxError Program → Except SyntaxError Program → Prop
  | ok {program program' : Program} (h : ProgramTwin tokens tokens' program program') :
      ParseTwin tokens tokens' (.ok program) (.ok program')
  | error {error error' : SyntaxError} {count : Nat}
      (h : ErrorTwin tokens tokens' count error error') :
      ParseTwin tokens tokens' (.error error) (.error error')

/-- Token lists that differ before the end of the input in places only, and in texts that do not
matter, are parsed alike. -/
theorem parse_twin_of_beforeEnd {tokens tokens' : List Token}
    (hsame : List.Forall₂ Token.Twin (Token.beforeEnd tokens) (Token.beforeEnd tokens'))
    (config : ParserConfig) :
    ParseTwin tokens tokens' (parse config tokens) (parse config tokens') := by
  have hstart : StateTwin tokens tokens' { ahead := tokens } { ahead := tokens' } :=
    ⟨⟨[], [], .refl _, .refl _, rfl⟩, rfl⟩
  obtain ⟨program, t, program', t', hrun, hrun', hprogram, -⟩ |
    ⟨error, t, error', t', count, hrun, hrun', herror⟩ :=
    ((parallel_program hsame config).run hstart).cases
  · rw [parse_eq_ok_iff.mpr ⟨t, hrun⟩, parse_eq_ok_iff.mpr ⟨t', hrun'⟩]
    exact .ok ⟨congrArg Program.mk hprogram.bare_eq, hprogram.spans⟩
  · rw [parse_eq_error_iff.mpr ⟨t, hrun⟩, parse_eq_error_iff.mpr ⟨t', hrun'⟩]
    exact .error herror

/-- Token lists that differ in places only, and in texts that do not matter, are parsed alike. -/
theorem parse_twin {tokens tokens' : List Token} (hsame : List.Forall₂ Token.Twin tokens tokens')
    (config : ParserConfig) :
    ParseTwin tokens tokens' (parse config tokens) (parse config tokens') :=
  parse_twin_of_beforeEnd (Token.Twin.forall₂_beforeEnd hsame) config

end Program

end TinyLang

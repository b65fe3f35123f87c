import TinyLang.Proofs.Grammar.Twins

namespace TinyLang

attribute [ext] SyntaxError

namespace Token

def endOf (tokens : List Token) : Token :=
  match tokens.getLast? with
  | some last => .endAt (last.span.offset + last.span.length) last.span.stop
  | none => .endAt 0 .first

variable {front : List Token} {count : Nat}

theorem endSpan_append (hcount : count ≤ front.length) (hfront : front ≠ []) (back : List Token) :
    endSpan (front ++ back) count = endSpan front count := by
  cases count with
  | zero =>
    obtain ⟨first, rest, rfl⟩ := List.exists_cons_of_ne_nil hfront
    rfl
  | succ index => rw [endSpan, endSpan, List.getElem?_append_left hcount]

theorem foundAt_append (hcount : count < front.length) (back : List Token) :
    foundAt (front ++ back) count = foundAt front count := by
  have htoken : (front ++ back)[count]? = front[count]? := List.getElem?_append_left hcount
  have hfront : front ≠ [] := List.ne_nil_of_length_pos (by omega)
  rw [foundAt, foundAt, htoken, endSpan_append (Nat.le_of_lt hcount) hfront]

theorem errorSpan_append (hcount : count < front.length) (back : List Token) :
    errorSpan (front ++ back) count = errorSpan front count := by
  have htoken : (front ++ back)[count]? = front[count]? := List.getElem?_append_left hcount
  have hfront : front ≠ [] := List.ne_nil_of_length_pos (by omega)
  rw [errorSpan, errorSpan, htoken, endSpan_append (Nat.le_of_lt hcount) hfront]

theorem isEnd_endOf (tokens : List Token) : (endOf tokens).isEnd = true := by
  unfold endOf
  split <;> rfl

theorem endSpan_length (tokens : List Token) :
    endSpan tokens tokens.length = (endOf tokens).span := by
  rcases List.eq_nil_or_concat tokens with rfl | ⟨init, last, rfl⟩
  · rfl
  · simp [endSpan, endOf, Span.after, endAt]

/-- An end of the input that is made up is the one directly after the last token. -/
theorem foundAt_length (tokens : List Token) : foundAt tokens tokens.length = endOf tokens := by
  rw [foundAt, List.getElem?_eq_none (Nat.le_refl _), Option.getD_none, endSpan_length, endOf]
  cases tokens.getLast? <;> rfl

theorem errorSpan_length (tokens : List Token) :
    errorSpan tokens tokens.length = (endOf tokens).span := by
  rw [errorSpan, List.getElem?_eq_none (Nat.le_refl _)]
  exact endSpan_length tokens

variable {last : Token} (hlast : last.isEnd = true)

theorem foundAt_end (tokens back : List Token) :
    foundAt (tokens ++ last :: back) tokens.length = last := by
  simp [foundAt]

include hlast

/-- An error at a token that ends the input is placed after the token before it, if there is one. -/
theorem errorSpan_end (tokens back : List Token) :
    errorSpan (tokens ++ last :: back) tokens.length =
      if tokens = [] then last.span else (endOf tokens).span := by
  have htoken : (tokens ++ last :: back)[tokens.length]? = some last := by simp
  simp only [errorSpan, htoken, hlast, if_true]
  split
  · next hnil =>
    subst hnil
    rfl
  · next hfront => rw [endSpan_append (Nat.le_refl _) hfront, endSpan_length]

/-- Only the tokens before an end of the input are all open. -/
theorem count_le_of_isEnd {tokens back : List Token}
    (h : ∀ token ∈ (tokens ++ last :: back).take count, token.isEnd = false) :
    count ≤ tokens.length := by
  by_contra hbehind
  have hmem : last ∈ (tokens ++ last :: back).take count :=
    List.mem_take_iff_getElem.mpr ⟨tokens.length, by simp; omega, by simp⟩
  have hend := h last hmem
  rw [hlast] at hend
  cases hend

end Token

/-- The errors differ in the end of the input that they found only. They are at the end that is made
up behind the tokens and at the one that is given, which have different places if no token stands
before them. -/
structure SyntaxError.EndTwin (tokens : List Token) (last : Token) (error error' : SyntaxError) :
    Prop where
  stack_eq : error.stack = error'.stack
  cause_eq : error.cause.withFound (Token.endOf tokens) = error.cause
  cause_eq' : error.cause.withFound last = error'.cause
  location_eq : tokens ≠ [] → error.location = error'.location
  location_of_nil : tokens = [] → error.location = {} ∧ error'.location = last.span

theorem SyntaxError.Cause.withFound_withFound (cause : Cause) (found found' : Token) :
    (cause.withFound found).withFound found' = cause.withFound found' := by
  cases cause <;> rfl

namespace Parser

variable {tokens back back' : List Token} {last : Token}

/-- Before an end of the input, tokens at the same index of two lists that begin alike are the same
token. -/
theorem Corresponding.eq_of_append (hlast : last.isEnd = true) {token token' : Token}
    (h : Corresponding (tokens ++ last :: back) (tokens ++ back') token token') : token = token' := by
  obtain ⟨index, htoken, htoken', hearlier⟩ := h
  have hindex : index < tokens.length := Token.count_le_of_isEnd hlast hearlier
  rw [List.getElem?_append_left hindex] at htoken htoken'
  exact Option.some.inj (htoken.symm.trans htoken')

/-- Where tokens at the same index have the same place, programs that correspond are the same. -/
theorem ProgramTwin.eq_of_corresponding {program program' : Program}
    (h : ProgramTwin tokens back program program')
    (hspan : ∀ token token', Corresponding tokens back token token' → token.span = token'.span) :
    program = program' := by
  have hspans : List.Forall₂ (· = ·) program.spans program'.spans := by
    refine h.spans.imp ?_
    rintro _ _ ⟨token, token', hcorresponding, rfl, rfl⟩
    exact hspan token token' hcorresponding
  rw [List.forall₂_eq_eq_eq] at hspans
  exact Program.eq_of_bare_of_spans h.bare_eq hspans

theorem ProgramTwin.eq_of_append (hlast : last.isEnd = true) {program program' : Program}
    (h : ProgramTwin (tokens ++ last :: back) (tokens ++ back') program program') :
    program = program' :=
  h.eq_of_corresponding fun _ _ hcorresponding =>
    congrArg Token.span (hcorresponding.eq_of_append hlast)

namespace ErrorTwin

variable {count : Nat} {error error' : SyntaxError}

/-- Errors that find the same at the same place are the same error. -/
theorem eq_of_found (h : ErrorTwin back back' count error error')
    (hfound : Token.foundAt back count = Token.foundAt back' count)
    (hspan : Token.errorSpan back count = Token.errorSpan back' count) : error = error' := by
  have hcause : error.cause = error'.cause := by
    rw [← h.cause_eq, ← h.cause_eq', hfound]
  have hlocation : error.location = error'.location := by
    rw [h.location_eq, h.location_eq', hspan]
  exact SyntaxError.ext hcause hlocation h.stack_eq

end ErrorTwin

end Parser

namespace Program

open TinyLang.Parser

variable {tokens : List Token} {last : Token}

/-- Whatever stands behind the end of the input, and whether there is one or not, the parse is the
same, or fails at the same token or at the end. -/
theorem parse_append_of_end (hopen : ∀ token ∈ tokens, token.isEnd = false)
    (hlast : last.isEnd = true) (junk : List Token) {back : List Token}
    (hback : Token.nextKind back = .endOfInput) (config : ParserConfig) :
    (∃ program, parse config (tokens ++ last :: junk) = .ok program ∧
      parse config (tokens ++ back) = .ok program) ∨
    ∃ error error' count, parse config (tokens ++ last :: junk) = .error error ∧
      parse config (tokens ++ back) = .error error' ∧ count ≤ tokens.length ∧
      ErrorTwin (tokens ++ last :: junk) (tokens ++ back) count error error' := by
  have hstop (rest : List Token) (hrest : Token.nextKind rest = .endOfInput) :
      Token.beforeEnd (tokens ++ rest) = tokens := by
    rw [Token.beforeEnd_append hopen]
    obtain ⟨-, hnil⟩ | ⟨token, rest', rfl, hend, -⟩ := Token.beforeEnd_cases rest
    · rw [hnil, List.append_nil]
    · rw [Token.nextKind_cons] at hrest
      simp [Token.isEnd, hrest] at hend
  have hjunk : Token.nextKind (last :: junk) = .endOfInput := of_decide_eq_true hlast
  have hsame : List.Forall₂ Token.Twin (Token.beforeEnd (tokens ++ last :: junk))
      (Token.beforeEnd (tokens ++ back)) := by
    rw [hstop _ hjunk, hstop _ hback]
    exact List.forall₂_same.mpr fun token _ => ⟨rfl, fun _ => rfl⟩
  have htwin := parse_twin_of_beforeEnd hsame config
  generalize hparse : parse config (tokens ++ last :: junk) = result at htwin
  generalize hparse' : parse config (tokens ++ back) = result' at htwin
  cases htwin with
  | ok h =>
    obtain rfl := h.eq_of_append hlast
    exact .inl ⟨_, rfl, rfl⟩
  | error h => exact .inr ⟨_, _, _, rfl, rfl, Token.count_le_of_isEnd hlast h.isEnd_eq, h⟩

/-- What follows the end of the input does not matter. -/
theorem parse_append_junk (hopen : ∀ token ∈ tokens, token.isEnd = false)
    (hlast : last.isEnd = true) (junk : List Token) (config : ParserConfig) :
    parse config (tokens ++ last :: junk) = parse config (tokens ++ [last]) := by
  have hend : Token.nextKind [last] = .endOfInput := of_decide_eq_true hlast
  obtain ⟨program, hparse, hparse'⟩ | ⟨error, error', count, hparse, hparse', hcount, h⟩ :=
    parse_append_of_end hopen hlast junk hend config
  · rw [hparse, hparse']
  · have hindex : count < (tokens ++ [last]).length := by simp; omega
    have hsplit : tokens ++ last :: junk = (tokens ++ [last]) ++ junk := by simp
    have herror : error = error' := by
      apply h.eq_of_found
      · rw [hsplit, Token.foundAt_append hindex]
      · rw [hsplit, Token.errorSpan_append hindex]
    rw [hparse, hparse', herror]

/-- Without an end of the input the parse is that of the tokens with any end, but for errors that
find the end. -/
theorem parse_append_last (hopen : ∀ token ∈ tokens, token.isEnd = false)
    (hlast : last.isEnd = true) (config : ParserConfig) :
    parse config tokens = parse config (tokens ++ [last]) ∨
    ∃ error error', parse config tokens = .error error ∧
      parse config (tokens ++ [last]) = .error error' ∧ error.EndTwin tokens last error' := by
  have hnone : Token.nextKind [] = .endOfInput := rfl
  obtain ⟨program, hparse, hparse'⟩ | ⟨error, error', count, hparse, hparse', hcount, h⟩ :=
    parse_append_of_end hopen hlast [] hnone config <;> rw [List.append_nil] at hparse'
  · exact .inl (hparse'.trans hparse.symm)
  · rw [List.append_nil] at h
    rcases Nat.lt_or_eq_of_le hcount with hindex | rfl
    · have herror : error = error' :=
        h.eq_of_found (Token.foundAt_append hindex _) (Token.errorSpan_append hindex _)
      rw [herror] at hparse
      exact .inl (hparse'.trans hparse.symm)
    · have hfound := h.cause_eq
      have hfound' := h.cause_eq'
      have hlocation := h.location_eq
      have hlocation' := h.location_eq'
      rw [Token.foundAt_end] at hfound
      rw [Token.foundAt_length] at hfound'
      rw [Token.errorSpan_end hlast] at hlocation
      rw [Token.errorSpan_length] at hlocation'
      refine .inr ⟨error', error, hparse', hparse, ?_⟩
      exact
        { stack_eq := h.stack_eq.symm
          cause_eq := by rw [← hfound', SyntaxError.Cause.withFound_withFound]
          cause_eq' := by rw [← hfound', SyntaxError.Cause.withFound_withFound, hfound]
          location_eq := fun hne => by rw [hlocation', hlocation, if_neg hne]
          location_of_nil := by
            rintro rfl
            exact ⟨hlocation', hlocation⟩ }

/-- Without an end of the input the parse is that of the tokens with the end directly after them. -/
theorem parse_append_endOf (hopen : ∀ token ∈ tokens, token.isEnd = false) (config : ParserConfig) :
    parse config tokens = parse config (tokens ++ [Token.endOf tokens]) := by
  obtain hsame | ⟨error, error', hparse, hparse', h⟩ :=
    parse_append_last hopen (Token.isEnd_endOf tokens) config
  · exact hsame
  · have hcause : error.cause = error'.cause := h.cause_eq.symm.trans h.cause_eq'
    have hlocation : error.location = error'.location := by
      by_cases hnil : tokens = []
      · obtain ⟨hlocation, hlocation'⟩ := h.location_of_nil hnil
        rw [hlocation, hlocation', hnil]
        rfl
      · exact h.location_eq hnil
    have herror : error = error' := SyntaxError.ext hcause hlocation h.stack_eq
    rw [hparse, hparse', herror]

/-- The end of the input is uniform: what follows it is not looked at, a missing one is made up
directly after the last token, and any other one is told from that by errors at the end only. -/
theorem parse_uniform_at_end (hopen : ∀ token ∈ tokens, token.isEnd = false)
    (hlast : last.isEnd = true) (junk : List Token) (config : ParserConfig) :
    parse config (tokens ++ [last] ++ junk) = parse config (tokens ++ [last]) ∧
    parse config tokens = parse config (tokens ++ [Token.endOf tokens]) ∧
    (parse config tokens = parse config (tokens ++ [last]) ∨
      ∃ error error', parse config tokens = .error error ∧
        parse config (tokens ++ [last]) = .error error' ∧ error.EndTwin tokens last error') := by
  have hjunk : tokens ++ [last] ++ junk = tokens ++ last :: junk := by simp
  refine ⟨?_, parse_append_endOf hopen config, parse_append_last hopen hlast config⟩
  rw [hjunk, parse_append_junk hopen hlast]

/-- The end after `write` may stand on the next line, with a token behind it. -/
theorem parse_uniform_at_end_of_write :
    let tokens : List Token := [⟨.keyword .writeWord, "write", ⟨0, 5, ⟨1, 1⟩, ⟨1, 6⟩⟩⟩]
    let last : Token := .endAt 6 ⟨2, 1⟩
    (∀ token ∈ tokens, token.isEnd = false) ∧ last.isEnd = true ∧
      parse {} (tokens ++ [last] ++ tokens) = parse {} (tokens ++ [last]) ∧
      parse {} tokens = parse {} (tokens ++ [.endAt 5 ⟨1, 6⟩]) ∧
      (parse {} tokens = parse {} (tokens ++ [last]) ∨
        ∃ error error', parse {} tokens = .error error ∧
          parse {} (tokens ++ [last]) = .error error' ∧ error.EndTwin tokens last error') := by
  intro tokens last
  have hopen : ∀ token ∈ tokens, token.isEnd = false := by decide
  have hlast : last.isEnd = true := rfl
  exact ⟨hopen, hlast, parse_uniform_at_end hopen hlast tokens {}⟩

end Program

end TinyLang

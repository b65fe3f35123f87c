import TinyLang.Proofs.Grammar.Twins

namespace TinyLang

def SyntaxError.Cause.IsAbout (token : Token) : SyntaxError.Cause → Prop
  | expectedToken _ found | expectedStatement found | expectedExpression found => found = token
  | unknownCharacter text => token.kind = .unknown ∧ token.lexeme = text
  | unclosedComment => token.kind = .unknown ∧ token.lexeme = "\x7b"
  | numberTooLarge text => token.kind = .number ∧ token.lexeme = text
  | nestingTooDeep _ => True

inductive SyntaxError.Located (tokens : List Token) (error : SyntaxError) : Prop
  | token {token : Token} (hmem : token ∈ tokens) (hopen : token.isEnd = false)
    (hlocation : error.location = token.span) (habout : error.cause.IsAbout token)
  | ending {count : Nat} (hopen : ∀ token ∈ tokens.take count, token.isEnd = false)
    (hend : ∀ token, tokens[count]? = some token → token.isEnd = true)
    (hlocation : error.location = Token.endSpan tokens count)

variable {trailing : Bool} {tokens : List Token} {error : SyntaxError} {count : Nat}

/-- An error about a token of the wrong kind names this token. -/
theorem FirstError.isAbout {token : Token} (h : FirstError trailing tokens error count)
    (hblame : error.cause.BlamesKind) (htoken : tokens[count]? = some token) :
    error.cause.IsAbout token := by
  have hfound (found : Token) (hcause : error.cause.found? = some found) : found = token := by
    by_cases hkind : token.kind = .unknown
    · by_cases hlexeme : token.lexeme = "\x7b"
      · rw [h.unclosedComment_iff.mpr ⟨token, htoken, hkind, hlexeme⟩] at hcause
        cases hcause
      · rw [(h.unknownCharacter_iff _).mpr ⟨token, htoken, hkind, hlexeme, rfl⟩] at hcause
        cases hcause
    · have hknown : ∀ other, tokens[count]? = some other → other.kind ≠ .unknown := by
        intro other hother
        rwa [← Option.some.inj (htoken.symm.trans hother)]
      have heq := hcause.symm.trans (h.found_eq hknown)
      rw [htoken] at heq
      exact Option.some.inj heq
  cases hcause : error.cause with
  | expectedToken expected found => exact hfound found (by rw [hcause]; rfl)
  | expectedStatement found => exact hfound found (by rw [hcause]; rfl)
  | expectedExpression found => exact hfound found (by rw [hcause]; rfl)
  | unknownCharacter text =>
    obtain ⟨token', htoken', hkind, -, hlexeme⟩ := (h.unknownCharacter_iff text).mp hcause
    obtain rfl : token' = token := Option.some.inj (htoken'.symm.trans htoken)
    exact ⟨hkind, hlexeme⟩
  | unclosedComment =>
    obtain ⟨token', htoken', hkind, hlexeme⟩ := h.unclosedComment_iff.mp hcause
    obtain rfl : token' = token := Option.some.inj (htoken'.symm.trans htoken)
    exact ⟨hkind, hlexeme⟩
  | numberTooLarge text => exact absurd hcause (hblame.1 text)
  | nestingTooDeep limit => exact absurd hcause (hblame.2 limit)

theorem FirstError.located (h : FirstError trailing tokens error count)
    (hblame : error.cause.BlamesKind) : error.Located tokens := by
  by_cases hend : ∀ token, tokens[count]? = some token → token.isEnd = true
  · exact .ending h.isEnd_eq hend (h.of_end hend).2
  · simp only [not_forall, Bool.not_eq_true] at hend
    obtain ⟨token, htoken, hopen⟩ := hend
    exact .token (List.mem_of_getElem? htoken) hopen (h.of_token token htoken hopen).2
      (h.isAbout hblame htoken)

theorem NumberError.located {text : String} (h : NumberError trailing tokens error text count)
    (hcause : error.cause = .numberTooLarge text) : error.Located tokens := by
  obtain ⟨token, htoken, hkind, hlexeme, hlocation⟩ := h.of_token
  have hopen : token.isEnd = false := by simp [Token.isEnd, hkind]
  refine .token (List.mem_of_getElem? htoken) hopen hlocation ?_
  rw [hcause]
  exact ⟨hkind, hlexeme⟩

namespace Program

/-- Whatever the cause, an error is at the token after some others, or at the end. -/
theorem exists_location_of_parse {config : ParserConfig} (h : parse config tokens = .error error) :
    ∃ count, (∀ token ∈ tokens.take count, token.isEnd = false) ∧
      error.location = Token.errorSpan tokens count := by
  have hsame : List.Forall₂ Token.Twin (Token.beforeEnd tokens) (Token.beforeEnd tokens) :=
    List.forall₂_same.mpr fun token _ => ⟨rfl, fun _ => rfl⟩
  have htwin := parse_twin_of_beforeEnd hsame config
  rw [h] at htwin
  cases htwin with
  | @error _ _ count herror => exact ⟨count, herror.isEnd_eq, herror.location_eq⟩

theorem located_of_parse {config : ParserConfig} (h : parse config tokens = .error error) :
    error.Located tokens := by
  obtain ⟨hfirst, hnumber⟩ := firstError_of_parse h
  cases hcause : error.cause with
  | numberTooLarge text =>
    obtain ⟨count, hcount⟩ := hnumber text hcause
    exact hcount.located hcause
  | nestingTooDeep limit =>
    obtain ⟨count, hopen, hlocation⟩ := exists_location_of_parse h
    rw [Token.errorSpan] at hlocation
    cases htoken : tokens[count]? with
    | none =>
      rw [htoken] at hlocation
      exact .ending hopen (fun token hmem => by cases htoken.symm.trans hmem) hlocation
    | some token =>
      rw [htoken] at hlocation
      cases hend : token.isEnd with
      | true =>
        simp only [hend, if_true] at hlocation
        refine .ending hopen (fun other hother => ?_) hlocation
        rwa [← Option.some.inj (htoken.symm.trans hother)]
      | false =>
        simp only [hend, Bool.false_eq_true, if_false] at hlocation
        refine .token (List.mem_of_getElem? htoken) hend hlocation ?_
        rw [hcause]
        trivial
  | _ =>
    have hblame : error.cause.BlamesKind := by
      rw [hcause]
      constructor <;> intro _ heq <;> cases heq
    obtain ⟨count, hcount⟩ := hfirst hblame
    exact hcount.located hblame

end Program

end TinyLang

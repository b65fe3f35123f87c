import TinyLang.Proofs.Grammar.FirstError

/-!
There is one exception to what an error says to be expected. After a trailing semicolon it asks for
another one or the end of the input, although no sentence has two semicolons in a row.
-/
namespace TinyLang

/-- Goes over kinds and remembers whether the last one was a semicolon. There is no result if two
semicolons meet. -/
def Token.spaced (word : List Token.Kind) (after : Bool) : Option Bool :=
  word.foldlM (fun after kind =>
    if kind = .semicolon then if after then none else some true else some false) after

namespace Token

@[simp] theorem spaced_nil (after : Bool) : spaced [] after = some after := rfl

@[simp] theorem spaced_cons_semicolon (word : List Kind) :
    spaced (.semicolon :: word) false = spaced word true := rfl

theorem spaced_cons {kind : Kind} (h : kind ≠ .semicolon) (word : List Kind) (after : Bool) :
    spaced (kind :: word) after = spaced word false := by
  rw [spaced, List.foldlM_cons, if_neg h]
  rfl

@[simp] theorem spaced_append (front back : List Kind) (after : Bool) :
    spaced (front ++ back) after = spaced front after >>= spaced back := by
  rw [spaced, List.foldlM_append]
  rfl

/-- After a semicolon no other one is let through. -/
theorem spaced_semicolon_twice (front back : List Kind) (after : Bool) :
    spaced (front ++ .semicolon :: .semicolon :: back) after = none := by
  rw [spaced_append]
  cases spaced front after with
  | none => rfl
  | some after => cases after <;> rfl

end Token

namespace Derivation

open Token

variable {trailing : Bool}

/-- How the tokens of a symbol take part in the spacing of semicolons. Only what follows the first
statement of a sequence begins with one, and only a sequence ends with one. -/
def Spaced : (symbol : Symbol) → Derivation trailing symbol → Prop
  | .program, D | .sequence, D => ∀ after, (spaced (kinds D.tokens) after).isSome
  | .followers, D => (spaced (kinds D.tokens) false).isSome
  | .links _, D => spaced (kinds D.tokens) false = some false
  | .statement, D | .comparison, D | .chain _, D | .factor, D =>
    ∀ after, spaced (kinds D.tokens) after = some false

theorem Spaced.operand {level : Precedence} {D : Derivation trailing level.operand}
    (h : Spaced level.operand D) (after : Bool) : spaced (kinds D.tokens) after = some false := by
  cases level with
  | sum => exact h after
  | product => exact h after

theorem spaced_token {kind : Kind} (token : Token.OfKind kind) (h : kind ≠ .semicolon)
    (word : List Kind) (after : Bool) : spaced (token.1.kind :: word) after = spaced word false :=
  spaced_cons (by rwa [token.2]) word after

theorem spaced_sign {wanted : List Operator} (sign : Token.Sign wanted) (word : List Kind)
    (after : Bool) : spaced (sign.token.kind :: word) after = spaced word false :=
  spaced_cons (by rw [sign.kind_eq]; nofun) word after

theorem spaced_derived {symbol : Symbol} (D : Derivation trailing symbol) : Spaced symbol D := by
  -- On the derivation: each token that is no semicolon lets one come next.
  induction D with
  | program B hB => exact hB
  | sequence F R hF hR =>
    intro after
    simp only [tokens, kinds_append, spaced_append, hF after]
    exact hR
  | done => rfl
  | doneAfter semicolon _ =>
    simp only [Spaced, tokens, kinds_cons, kinds_nil, semicolon.2]
    rfl
  | next semicolon F R hF hR =>
    simp only [Spaced, tokens, kinds_cons, kinds_append, semicolon.2, spaced_cons_semicolon,
      spaced_append, hF true]
    exact hR
  | conditional ifWord C thenWord B endWord hC hB =>
    intro after
    obtain ⟨last, hlast⟩ := Option.isSome_iff_exists.mp (hB false)
    simp only [tokens, kinds_cons, kinds_append, kinds_nil, spaced_append, hC false, hlast,
      spaced_token ifWord nofun, spaced_token thenWord nofun, spaced_token endWord nofun,
      Option.bind_eq_bind, Option.bind_some, spaced_nil]
  | loop repeatWord B untilWord C hB hC =>
    intro after
    obtain ⟨last, hlast⟩ := Option.isSome_iff_exists.mp (hB false)
    simp only [tokens, kinds_cons, kinds_append, spaced_append, hlast, hC false,
      spaced_token repeatWord nofun, spaced_token untilWord nofun, Option.bind_eq_bind,
      Option.bind_some]
  | assign target sign V hV =>
    intro after
    simp only [tokens, kinds_cons, spaced_token target nofun, spaced_token sign nofun, hV false]
  | read readWord target =>
    intro after
    simp only [tokens, kinds_cons, kinds_nil, spaced_token readWord nofun,
      spaced_token target nofun, spaced_nil]
  | write writeWord V hV =>
    intro after
    simp only [tokens, kinds_cons, spaced_token writeWord nofun, hV false]
  | single L hL => exact hL
  | compared L sign R hL hR =>
    intro after
    simp only [tokens, kinds_cons, kinds_append, spaced_append, hL after, spaced_sign, hR false,
      Option.bind_eq_bind, Option.bind_some]
  | chain level F R hF hR =>
    intro after
    simp only [tokens, kinds_append, spaced_append, hF.operand after, Option.bind_eq_bind,
      Option.bind_some]
    exact hR
  | stop level => rfl
  | link level sign O R hO hR =>
    simp only [Spaced, tokens, kinds_cons, kinds_append, spaced_append, spaced_sign,
      hO.operand false, Option.bind_eq_bind, Option.bind_some]
    exact hR
  | brackets opening I closing hI =>
    intro after
    simp only [tokens, kinds_cons, kinds_append, kinds_nil, spaced_append, hI false,
      spaced_token opening nofun, spaced_token closing nofun, Option.bind_eq_bind,
      Option.bind_some, spaced_nil]
  | number token _ _ =>
    intro after
    simp only [tokens, kinds_cons, kinds_nil, spaced_token token nofun, spaced_nil]
  | name token =>
    intro after
    simp only [tokens, kinds_cons, kinds_nil, spaced_token token nofun, spaced_nil]

/-- Statements can go on with a semicolon and one more statement, unless they end with a trailing
semicolon. -/
theorem exists_next_or_trailing (R : Derivation trailing .followers) :
    (∃ R' : Derivation trailing .followers, ∃ semicolon : Token.OfKind .semicolon,
      R.tokens ++ [semicolon.1] <+: R'.tokens) ∨
    trailing = true ∧ ∃ front, kinds R.tokens = front ++ [.semicolon] := by
  cases R with
  | done => exact .inl ⟨.next (sample _) shortestStatement .done, sample _, by simp⟩
  | doneAfter semicolon allowed => exact .inr ⟨allowed, [], congrArg (fun k => [k]) semicolon.2⟩
  | next semicolon F R =>
    rcases exists_next_or_trailing R with ⟨R', semicolon', h⟩ | ⟨allowed, front, h⟩
    · exact .inl ⟨.next semicolon F R', semicolon', by simpa using h⟩
    · refine .inr ⟨allowed, .semicolon :: (kinds F.tokens ++ front), ?_⟩
      simp [h, semicolon.2]

end Derivation

/-- No sentence has two semicolons in a row. -/
theorem not_continuable_semicolon_twice (trailing : Bool) (front : List Token.Kind) :
    ¬ Continuable trailing (front ++ [.semicolon] ++ [.semicolon]) := by
  rintro ⟨rest, D, hD⟩
  have hsome : (Token.spaced (Token.kinds D.tokens) false).isSome := D.spaced_derived false
  have hword : front ++ [.semicolon] ++ [.semicolon] ++ rest =
      front ++ Token.Kind.semicolon :: .semicolon :: rest := by simp
  rw [hD, hword, Token.spaced_semicolon_twice] at hsome
  cases hsome

/-- After the statements of a program a semicolon can come unless they end with one. -/
theorem continuable_semicolon_iff {trailing : Bool} (B : Derivation trailing .sequence) :
    Continuable trailing (Token.kinds B.tokens ++ [.semicolon]) ↔
      ¬ (trailing = true ∧ (Token.kinds B.tokens).getLast? = some .semicolon) := by
  constructor
  · rintro hcontinuable ⟨-, hlast⟩
    obtain ⟨front, hfront⟩ := List.getLast?_eq_some_iff.mp hlast
    rw [hfront] at hcontinuable
    exact not_continuable_semicolon_twice trailing front hcontinuable
  · intro hlast
    cases B with
    | sequence F R =>
      rcases R.exists_next_or_trailing with ⟨R', semicolon, h⟩ | ⟨allowed, front, h⟩
      · have hbegins : Derivation.Begins trailing .program
            ((F.tokens ++ R.tokens) ++ [semicolon.1]) :=
          ⟨.program (.sequence F R'), by simpa using h⟩
        simpa [semicolon.2] using hbegins.continuable
      · exact absurd ⟨allowed, by simp [h, ← List.append_assoc]⟩ hlast

namespace Program

open TinyLang.Parser

def consumed (config : ParserConfig) (tokens : List Token) : List Token :=
  match (Parser.program config).run { ahead := tokens } with
  | .ok _ t | .error _ t => t.passed.reverse

theorem consumed_of_error {config : ParserConfig} {tokens front : List Token} {error : SyntaxError}
    {t : State} (h : (Parser.program config).run { ahead := tokens } = .error error t)
    (hmoved : State.Moved { ahead := tokens } front t) : consumed config tokens = front := by
  rw [consumed, h]
  simp [hmoved.passed_eq]

/-- What is expected after the consumed tokens. -/
theorem expectation_of_parse {config : ParserConfig} {tokens : List Token} {error : SyntaxError}
    {expected : List Token.Kind} {found : Token} (h : parse config tokens = .error error)
    (hcause : error.cause = .expectedToken expected found) :
    consumed config tokens <+: tokens ∧
      Expectation config.trailingSemicolon .program (consumed config tokens) expected := by
  obtain ⟨t, hrun⟩ := parse_eq_error_iff.mp h
  cases fails_program config hrun with
  | tooDeep limit hdeep => rw [hdeep] at hcause; cases hcause
  | number front token hmoved hkind hvalue hnumber => rw [hnumber] at hcause; cases hcause
  | unexpected front hmoved hblames hlocation hbegins hexpected =>
    rw [consumed_of_error hrun hmoved]
    exact ⟨⟨t.ahead, hmoved.ahead_eq.symm⟩, hexpected expected found hcause⟩

/-- An expected kind can come after the consumed tokens, and these are a sentence if the end of the
input is expected. Only a semicolon after a trailing semicolon cannot come. -/
theorem continuable_iff_of_expected {config : ParserConfig} {tokens : List Token}
    {error : SyntaxError} {expected : List Token.Kind} {found : Token}
    (h : parse config tokens = .error error)
    (hcause : error.cause = .expectedToken expected found) :
    consumed config tokens <+: tokens ∧
    (∀ kind ∈ expected, kind ≠ .endOfInput →
      (Continuable config.trailingSemicolon (Token.kinds (consumed config tokens) ++ [kind]) ↔
        ¬ (config.trailingSemicolon = true ∧ kind = .semicolon ∧
          (Token.kinds (consumed config tokens)).getLast? = some .semicolon))) ∧
    (.endOfInput ∈ expected →
      Sentence config.trailingSemicolon (Token.kinds (consumed config tokens))) := by
  obtain ⟨hconsumed, hexpectation⟩ := expectation_of_parse h hcause
  refine ⟨hconsumed, ?_⟩
  generalize consumed config tokens = front at hexpectation
  cases hexpectation with
  | one token begins =>
    have hcontinuable := begins.continuable
    rw [Token.kinds_append, Token.kinds_cons, token.2] at hcontinuable
    constructor
    · rintro kind hkind -
      obtain rfl := List.mem_singleton.mp hkind
      refine iff_of_true hcontinuable ?_
      rintro ⟨-, rfl, hlast⟩
      obtain ⟨word, hword⟩ := List.getLast?_eq_some_iff.mp hlast
      rw [hword] at hcontinuable
      exact not_continuable_semicolon_twice _ word hcontinuable
    · -- The end of the input is not derived, so that it is never the one kind that is needed.
      intro hend
      obtain ⟨D, hprefix⟩ := begins
      have hmem : token.1 ∈ D.tokens := hprefix.subset (by simp)
      have hkind := D.isEnd_eq_false _ hmem
      rw [Token.isEnd, token.2, ← List.mem_singleton.mp hend] at hkind
      cases hkind
  | ending body =>
    constructor
    · intro kind hkind hend
      obtain rfl : kind = .semicolon := by simpa [hend] using hkind
      simpa using continuable_semicolon_iff body
    · exact fun _ => ⟨.program body, rfl⟩

/-- In `read x end` a semicolon can come before `end`, and so can the end of the input. -/
theorem continuable_iff_of_read :
    parse ⟨256, true⟩ [⟨.keyword .readWord, "read", {}⟩, ⟨.identifier, "x", {}⟩,
      ⟨.keyword .endWord, "end", {}⟩] =
      .error ⟨.expectedToken [.semicolon, .endOfInput] ⟨.keyword .endWord, "end", {}⟩, {},
        [.program]⟩ ∧
    Continuable true [.keyword .readWord, .identifier, .semicolon] ∧
    Sentence true [.keyword .readWord, .identifier] := by
  obtain ⟨-, hkind, hend⟩ := @continuable_iff_of_expected ⟨256, true⟩
    [⟨.keyword .readWord, "read", {}⟩, ⟨.identifier, "x", {}⟩, ⟨.keyword .endWord, "end", {}⟩]
    _ [.semicolon, .endOfInput] _ rfl rfl
  refine ⟨rfl, (hkind .semicolon (by simp) nofun).mpr ?_, hend (by simp)⟩
  exact fun h => nomatch h.2.2

/-- In `read x; end` the trailing semicolon is allowed, and after it no other one can come, but the
error at `end` says that a semicolon is expected. -/
theorem not_continuable_of_read :
    parse ⟨256, true⟩ [⟨.keyword .readWord, "read", {}⟩, ⟨.identifier, "x", {}⟩,
      ⟨.semicolon, ";", {}⟩, ⟨.keyword .endWord, "end", {}⟩, ⟨.endOfInput, "", {}⟩] =
      .error ⟨.expectedToken [.semicolon, .endOfInput] ⟨.keyword .endWord, "end", {}⟩, {},
        [.program]⟩ ∧
    consumed ⟨256, true⟩ [⟨.keyword .readWord, "read", {}⟩, ⟨.identifier, "x", {}⟩,
      ⟨.semicolon, ";", {}⟩, ⟨.keyword .endWord, "end", {}⟩, ⟨.endOfInput, "", {}⟩] =
      [⟨.keyword .readWord, "read", {}⟩, ⟨.identifier, "x", {}⟩, ⟨.semicolon, ";", {}⟩] ∧
    ¬ Continuable true (Token.kinds [⟨.keyword .readWord, "read", {}⟩, ⟨.identifier, "x", {}⟩,
      ⟨.semicolon, ";", {}⟩] ++ [.semicolon]) := by
  refine ⟨rfl, rfl, ?_⟩
  exact not_continuable_semicolon_twice true [.keyword .readWord, .identifier]

end Program

end TinyLang

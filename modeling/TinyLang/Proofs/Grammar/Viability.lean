import TinyLang.Proofs.Grammar.Soundness

/-! For every place at which a rule may fail, a derivation that begins with the consumed tokens. -/
namespace TinyLang

def Token.sample (kind : Token.Kind) : Token.OfKind kind := ⟨⟨kind, "", {}⟩, rfl⟩

def SyntaxError.Cause.found? : SyntaxError.Cause → Option Token
  | expectedToken _ found | expectedStatement found | expectedExpression found => some found
  | _ => none

def SyntaxError.Cause.Blames (cause : SyntaxError.Cause) (found : Token) : Prop :=
  if found.kind = .unknown then cause = .ofUnknown found.lexeme else cause.found? = some found

theorem Precedence.operand_ne_program (level : Precedence) : level.operand ≠ .program := by
  cases level <;> nofun

namespace Derivation

variable {trailing : Bool}

def shortestFactor : Derivation trailing .factor := name (Token.sample .identifier)

def shortestOperand : (level : Precedence) → Derivation trailing level.operand
  | .sum => chain .product shortestFactor (stop .product)
  | .product => shortestFactor

def shortestComparison : Derivation trailing .comparison :=
  single (chain .sum (shortestOperand .sum) (stop .sum))

def shortestStatement : Derivation trailing .statement :=
  read (Token.sample _) (Token.sample _)

def shortestSequence : Derivation trailing .sequence := sequence shortestStatement done

def Begins (trailing : Bool) (symbol : Symbol) (tokens : List Token) : Prop :=
  ∃ D : Derivation trailing symbol, tokens <+: D.tokens

theorem Begins.of_append {symbol : Symbol} {front back : List Token}
    (h : Begins trailing symbol (front ++ back)) : Begins trailing symbol front := by
  obtain ⟨D, hprefix⟩ := h
  exact ⟨D, (List.prefix_append front back).trans hprefix⟩

end Derivation

namespace Parser

open TinyLang.Derivation (Begins)

variable {α β : Type} {trailing : Bool} {symbol inner : Symbol} {front : List Token}
  {s t : State} {e : SyntaxError}

/-- What is said to be expected after the tokens of a symbol: the one kind that is needed to go on, or
what may come after the statements of a whole program. -/
inductive Expectation (trailing : Bool) : Symbol → List Token → List Token.Kind → Prop where
  | one {symbol : Symbol} {tokens : List Token} {kind : Token.Kind} (token : Token.OfKind kind)
      (begins : Begins trailing symbol (tokens ++ [token.1])) :
      Expectation trailing symbol tokens [kind]
  | ending (body : Derivation trailing .sequence) :
      Expectation trailing .program body.tokens [.semicolon, .endOfInput]

/-- Inside of a larger symbol the same is expected. -/
theorem Expectation.within {tokens : List Token} {kinds : List Token.Kind}
    (h : Expectation trailing inner tokens kinds) (hinner : inner ≠ .program)
    (hbegins : ∀ back, Begins trailing inner back → Begins trailing symbol (front ++ back)) :
    Expectation trailing symbol (front ++ tokens) kinds := by
  cases h with
  | one token begins => exact .one token (by simpa only [List.append_assoc] using hbegins _ begins)
  | ending body => exact absurd rfl hinner

/-- How a parser fails that runs after `front` in a derivation of the symbol. If levels are missing,
nothing is said. A number that is too large has been consumed, but any other token at fault is still
ahead. -/
inductive Failure (trailing : Bool) (symbol : Symbol) (front : List Token) (s : State)
    (e : SyntaxError) (t : State) : Prop where
  | tooDeep (limit : Nat) (cause : e.cause = .nestingTooDeep limit)
  | number (back : List Token) (token : Token) (moved : s.Moved (back ++ [token]) t)
      (kind : token.kind = .number) (value : Decimal.signed64? token.lexeme = none)
      (cause : e.cause = .numberTooLarge token.lexeme) (location : e.location = token.span)
      (begins : Begins trailing symbol (front ++ back))
  | unexpected (back : List Token) (moved : s.Moved back t) (cause : e.cause.Blames t.found)
      (location : e.location = t.location) (begins : Begins trailing symbol (front ++ back))
      (expected : ∀ kinds found, e.cause = .expectedToken kinds found →
        Expectation trailing symbol (front ++ back) kinds)

/-- Tokens that were consumed before a failure count as consumed by it. -/
theorem Failure.after {tokens : List Token} {s' : State}
    (h : Failure trailing symbol (front ++ tokens) s e t) (hmoved : s'.Moved tokens s) :
    Failure trailing symbol front s' e t := by
  cases h with
  | tooDeep limit cause => exact .tooDeep limit cause
  | number back token moved kind value cause location begins =>
    rw [List.append_assoc] at begins
    refine .number (tokens ++ back) token ?_ kind value cause location begins
    simpa only [List.append_assoc] using hmoved.trans moved
  | unexpected back moved cause location begins expected =>
    rw [List.append_assoc] at begins expected
    exact .unexpected (tokens ++ back) (hmoved.trans moved) cause location begins expected

/-- Entering a rule consumes nothing. -/
theorem Failure.entering {s' : State} (h : Failure trailing symbol front s e t)
    (hmoved : s'.Moved [] s) : Failure trailing symbol front s' e t :=
  .after (by rwa [List.append_nil]) hmoved

/-- A failure stays one for a larger symbol. -/
theorem Failure.within (h : Failure trailing inner [] s e t) (hinner : inner ≠ .program)
    (hbegins : ∀ back, Begins trailing inner back → Begins trailing symbol (front ++ back)) :
    Failure trailing symbol front s e t := by
  cases h with
  | tooDeep limit cause => exact .tooDeep limit cause
  | number back token moved kind value cause location begins =>
    exact .number back token moved kind value cause location (hbegins back begins)
  | unexpected back moved cause location begins expected =>
    refine .unexpected back moved cause location (hbegins back begins) fun kinds found hcause => ?_
    exact (expected kinds found hcause).within hinner hbegins

def Fails (trailing : Bool) (symbol : Symbol) (front : List Token) (p : Parser α) : Prop :=
  ∀ ⦃s : State⦄ ⦃e : SyntaxError⦄ ⦃t : State⦄, p.run s = .error e t →
    Failure trailing symbol front s e t

namespace Fails

variable {p : Parser α} {f : α → Parser β}

theorem pure (a : α) : Fails trailing symbol front (Pure.pure a) := by
  intro s e t hrun
  cases hrun

theorem bind {R : List Token → α → Prop} (hp : Fails trailing symbol front p) (hok : Yields p R)
    (hf : ∀ tokens a, R tokens a → Fails trailing symbol (front ++ tokens) (f a)) :
    Fails trailing symbol front (p >>= f) := by
  intro s e u hrun
  rcases run_bind_eq_error hrun with h₁ | ⟨a, t, h₁, h₂⟩
  · exact hp h₁
  · obtain ⟨tokens, hmoved, ha⟩ := hok h₁
    exact (hf tokens a ha h₂).after hmoved

/-- A parser of one symbol runs inside of another. -/
theorem within (h : Fails trailing inner [] p)
    (hbegins : ∀ back, Begins trailing inner back → Begins trailing symbol (front ++ back))
    (hinner : inner ≠ .program) : Fails trailing symbol front p := by
  intro s e t hrun
  exact (h hrun).within hinner hbegins

theorem unexpected {cause : Token → SyntaxError.Cause} (h : ∀ token, (cause token).found? = some token)
    (hbegins : Begins trailing symbol front)
    (hexpected : ∀ token kinds found, cause token = .expectedToken kinds found →
      Expectation trailing symbol front kinds) :
    Fails trailing symbol front (Parser.unexpected cause : Parser α) := by
  intro s e t hrun
  rw [run_unexpected] at hrun
  cases hrun
  refine .unexpected [] (.still rfl rfl) ?_ rfl (by simpa using hbegins) ?_
  · change SyntaxError.Cause.Blames (if s.found.kind = .unknown then _ else _) s.found
    unfold SyntaxError.Cause.Blames
    split
    · rfl
    · exact h _
  · intro kinds found hcause
    dsimp only at hcause
    split at hcause
    · unfold SyntaxError.Cause.ofUnknown at hcause
      split at hcause <;> cases hcause
    · rw [List.append_nil]
      exact hexpected _ kinds found hcause

theorem refuse (limit : Nat) (rule : Rule) :
    Fails trailing symbol front (Parser.refuse limit rule : Parser α) := by
  intro s e t hrun
  cases hrun
  exact .tooDeep limit rfl

theorem tooDeep (limit : Nat) :
    Fails trailing symbol front (fail (.nestingTooDeep limit) : Parser α) := by
  intro s e t hrun
  cases hrun
  exact .tooDeep limit rfl

theorem inside (rule : Rule) (h : Fails trailing symbol front p) :
    Fails trailing symbol front (Parser.inside rule p) := by
  intro s e t hrun
  exact (h (run_inside_eq_error hrun)).entering (s.moved_pushed rule)

theorem parsing (rule : Rule) (h : Fails trailing symbol front p) :
    Fails trailing symbol front (Parser.parsing rule p) := by
  intro s e t hrun
  exact (h (run_parsing_eq_error hrun)).entering (s.moved_entered rule)

theorem kind {f : Token.Kind → Parser β} (h : ∀ kind, Fails trailing symbol front (f kind)) :
    Fails trailing symbol front (Parser.kind >>= f) :=
  fun s _ _ hrun => h s.kind hrun

theorem get {f : State → Parser β} (h : ∀ s, Fails trailing symbol front (f s)) :
    Fails trailing symbol front (MonadState.get >>= f) :=
  fun s _ _ hrun => h s hrun

theorem expect {wanted : Token.Kind} {f : Token → Parser β} (hend : wanted ≠ .endOfInput)
    (token : Token.OfKind wanted) (hbegins : Begins trailing symbol (front ++ [token.1]))
    (hf : ∀ token : Token.OfKind wanted, Fails trailing symbol (front ++ [token.1]) (f token.1)) :
    Fails trailing symbol front (Parser.expect wanted >>= f) := by
  refine bind (fun s e t hrun => ?_) (Yields.expect wanted hend) ?_
  · by_cases h : s.kind = wanted
    · obtain ⟨token, t', hrun', -⟩ := run_expect_of_eq hend h
      rw [hrun'] at hrun
      cases hrun
    · rw [run_expect_of_ne h] at hrun
      refine unexpected (fun _ => rfl) hbegins.of_append (fun _ kinds found hcause => ?_) hrun
      cases hcause
      exact .one token hbegins
  · rintro _ token ⟨hkind, rfl⟩
    exact hf ⟨token, hkind⟩

theorem accept {wanted : Token.Kind → Bool} {f : Option Token → Parser β}
    (hend : wanted .endOfInput = false) (hnone : Fails trailing symbol front (f none))
    (hsome : ∀ token, wanted token.kind = true →
      Fails trailing symbol (front ++ [token]) (f (some token))) :
    Fails trailing symbol front (Parser.accept? wanted >>= f) := by
  refine bind (fun s e t hrun => ?_) (Yields.accept? hend) ?_
  · exact absurd hrun (run_accept?_ne_error wanted s e t)
  · rintro _ _ (⟨rfl, rfl⟩ | ⟨token, hkind, rfl, rfl⟩)
    · simpa using hnone
    · exact hsome token hkind

theorem operator {wanted : List Operator} {f : Option (Operator × Span) → Parser β}
    (hnone : Fails trailing symbol front (f none))
    (hsome : ∀ sign : Token.Sign wanted,
      Fails trailing symbol (front ++ [sign.token]) (f (some (sign.op, sign.token.span)))) :
    Fails trailing symbol front (Parser.operator? wanted >>= f) := by
  refine bind (fun s e t hrun => ?_) (Yields.operator? wanted) ?_
  · exact absurd hrun (run_operator?_ne_error wanted s e t)
  · rintro _ _ (⟨rfl, rfl⟩ | ⟨sign, rfl, rfl⟩)
    · simpa using hnone
    · exact hsome sign

end Fails

variable (config : ParserConfig) (depth : Nat)

structure Viable : Prop where
  sequence : Fails config.trailingSemicolon .sequence [] (sequence config depth)
  statement : Fails config.trailingSemicolon .statement [] (statement config depth)
  conditional : Fails config.trailingSemicolon .statement [] (conditional config depth)
  loop : Fails config.trailingSemicolon .statement [] (loop config depth)
  assign : Fails config.trailingSemicolon .statement [] (assign config depth)
  read : Fails config.trailingSemicolon .statement [] (read config depth)
  write : Fails config.trailingSemicolon .statement [] (write config depth)
  comparison : Fails config.trailingSemicolon .comparison [] (comparison config depth)
  chain (level : Precedence) :
    Fails config.trailingSemicolon (.chain level) [] (chain config level depth)
  links (level : Precedence) (left : Expr) :
    Fails config.trailingSemicolon (.links level) [] (links config level depth left)
  factor : Fails config.trailingSemicolon .factor [] (factor config depth)

variable {config depth}

open TinyLang.Derivation

theorem fails_followers (h : Fails config.trailingSemicolon .statement [] (statement config depth))
    (rounds : Nat) :
    Fails config.trailingSemicolon .followers []
      (followers config (statement config depth) rounds) := by
  induction rounds with
  | zero => exact .pure _
  | succ rounds ih =>
    rw [followers]
    refine .accept rfl (.pure _) fun token htoken => .kind fun kind => ?_
    have hsemicolon : token.kind = .semicolon := by simpa using htoken
    split
    · exact .pure _
    · have hfirst (back : List Token) (hback : Begins config.trailingSemicolon .statement back) :
          Begins config.trailingSemicolon .followers ([token] ++ back) := by
        obtain ⟨F, hback⟩ := hback
        exact ⟨.next ⟨token, hsemicolon⟩ F .done, by simpa using hback⟩
      have hrest (F : Derivation config.trailingSemicolon .statement) (back : List Token)
          (hback : Begins config.trailingSemicolon .followers back) :
          Begins config.trailingSemicolon .followers ([token] ++ F.tokens ++ back) := by
        obtain ⟨R, hback⟩ := hback
        exact ⟨.next ⟨token, hsemicolon⟩ F R, by simpa using hback⟩
      refine .bind (h.within hfirst (by decide)) (sound config depth).statement ?_
      rintro _ _ ⟨F, rfl, -⟩
      exact .bind (ih.within (hrest F) (by decide))
        (yields_followers (sound config depth).statement rounds)
        fun _ _ _ => .pure _

/-- A number that is too large has been consumed before its text is read. -/
theorem fails_number : Fails config.trailingSemicolon .factor [] number := by
  intro s e t hrun
  rcases run_bind_eq_error hrun with h₁ | ⟨token, t₁, h₁, h₂⟩
  · -- Where a number is missing, a zero could have come.
    let zero : Token.OfKind .number := ⟨⟨.number, "0", {}⟩, rfl⟩
    have hzero : Decimal.signed64? zero.1.lexeme = some 0 := by decide
    have hexpect : Fails config.trailingSemicolon .factor []
        (Parser.expect .number >>= (Pure.pure : Token → Parser Token)) :=
      .expect (by decide) zero ⟨.number zero 0 hzero, List.prefix_rfl⟩ fun _ => .pure _
    exact hexpect (run_bind_of_error h₁)
  · obtain ⟨_, hmoved, hkind, rfl⟩ := Yields.expect _ (by decide) h₁
    split at h₂
    · cases h₂
    · next hvalue =>
      cases h₂
      have hbegins : Begins config.trailingSemicolon .factor [] :=
        ⟨shortestFactor, List.nil_prefix⟩
      exact .number [] token (hmoved.trans (.still rfl rfl)) hkind hvalue rfl rfl hbegins

theorem fails_name : Fails config.trailingSemicolon .factor [] name :=
  .expect (by decide) (Token.sample _) ⟨shortestFactor, List.prefix_rfl⟩ fun _ => .pure _

namespace Viable

theorem sequence_succ (h : Viable config depth) :
    Fails config.trailingSemicolon .sequence [] (Parser.sequence config (depth + 1)) := by
  rw [Parser.sequence]
  have hfirst (back : List Token) (hback : Begins config.trailingSemicolon .statement back) :
      Begins config.trailingSemicolon .sequence ([] ++ back) := by
    obtain ⟨F, hback⟩ := hback
    exact ⟨.sequence F .done, by simpa using hback⟩
  have hrest (F : Derivation config.trailingSemicolon .statement) (back : List Token)
      (hback : Begins config.trailingSemicolon .followers back) :
      Begins config.trailingSemicolon .sequence ([] ++ F.tokens ++ back) := by
    obtain ⟨R, hback⟩ := hback
    exact ⟨.sequence F R, by simpa using hback⟩
  refine .parsing _ (.bind (h.statement.within hfirst (by decide)) (sound config depth).statement ?_)
  rintro _ _ ⟨F, rfl, -⟩
  exact .get fun s => .bind ((fails_followers h.statement _).within (hrest F) (by decide))
    (yields_followers (sound config depth).statement _) fun _ _ _ => .pure _

theorem statement_succ (h : Viable config depth) :
    Fails config.trailingSemicolon .statement [] (Parser.statement config (depth + 1)) := by
  rw [Parser.statement_succ]
  refine .parsing _ (.kind fun first => ?_)
  unfold form
  split
  · exact h.conditional
  · exact h.loop
  · exact h.assign
  · exact h.read
  · exact h.write
  · exact .unexpected (fun _ => rfl) ⟨shortestStatement, List.nil_prefix⟩
      fun _ _ _ h => by simp at h

/-- Each step has its own derivation: what was read so far is kept, and the rest is the shortest. -/
theorem conditional_succ (h : Viable config depth) :
    Fails config.trailingSemicolon .statement [] (Parser.conditional config (depth + 1)) := by
  rw [Parser.conditional]
  refine .parsing _ (.expect (by decide) (Token.sample _) ?_ fun ifWord => ?_)
  · exact ⟨.conditional (Token.sample _) shortestComparison (Token.sample _) shortestSequence
      (Token.sample _), by simp⟩
  have hcondition (back : List Token) (hback : Begins config.trailingSemicolon .comparison back) :
      Begins config.trailingSemicolon .statement ([] ++ [ifWord.1] ++ back) := by
    obtain ⟨C, hback⟩ := hback
    have hlonger (tail : List Token) : back <+: C.tokens ++ tail :=
      hback.trans (List.prefix_append _ _)
    exact ⟨.conditional ifWord C (Token.sample _) shortestSequence (Token.sample _), by
      simpa using hlonger _⟩
  refine .bind (h.comparison.within hcondition (by decide)) (sound config depth).comparison ?_
  rintro _ _ ⟨C, rfl, -⟩
  refine .expect (by decide) (Token.sample _) ?_ fun thenWord => ?_
  · exact ⟨.conditional ifWord C (Token.sample _) shortestSequence (Token.sample _), by simp⟩
  have hbranch (back : List Token) (hback : Begins config.trailingSemicolon .sequence back) :
      Begins config.trailingSemicolon .statement
        ([] ++ [ifWord.1] ++ C.tokens ++ [thenWord.1] ++ back) := by
    obtain ⟨B, hback⟩ := hback
    have hlonger (tail : List Token) : back <+: B.tokens ++ tail :=
      hback.trans (List.prefix_append _ _)
    exact ⟨.conditional ifWord C thenWord B (Token.sample _), by simpa using hlonger _⟩
  refine .bind (h.sequence.within hbranch (by decide)) (sound config depth).sequence ?_
  rintro _ _ ⟨B, rfl, -⟩
  refine .expect (by decide) (Token.sample _) ?_ fun endWord => .pure _
  exact ⟨.conditional ifWord C thenWord B (Token.sample _), by simp⟩

theorem loop_succ (h : Viable config depth) :
    Fails config.trailingSemicolon .statement [] (Parser.loop config (depth + 1)) := by
  rw [Parser.loop]
  refine .parsing _ (.expect (by decide) (Token.sample _) ?_ fun repeatWord => ?_)
  · exact ⟨.loop (Token.sample _) shortestSequence (Token.sample _) shortestComparison, by simp⟩
  have hbody (back : List Token) (hback : Begins config.trailingSemicolon .sequence back) :
      Begins config.trailingSemicolon .statement ([] ++ [repeatWord.1] ++ back) := by
    obtain ⟨B, hback⟩ := hback
    have hlonger (tail : List Token) : back <+: B.tokens ++ tail :=
      hback.trans (List.prefix_append _ _)
    exact ⟨.loop repeatWord B (Token.sample _) shortestComparison, by simpa using hlonger _⟩
  refine .bind (h.sequence.within hbody (by decide)) (sound config depth).sequence ?_
  rintro _ _ ⟨B, rfl, -⟩
  refine .expect (by decide) (Token.sample _) ?_ fun untilWord => ?_
  · exact ⟨.loop repeatWord B (Token.sample _) shortestComparison, by simp⟩
  have hcondition (back : List Token) (hback : Begins config.trailingSemicolon .comparison back) :
      Begins config.trailingSemicolon .statement
        ([] ++ [repeatWord.1] ++ B.tokens ++ [untilWord.1] ++ back) := by
    obtain ⟨C, hback⟩ := hback
    exact ⟨.loop repeatWord B untilWord C, by simpa using hback⟩
  exact .bind (h.comparison.within hcondition (by decide))
    (sound config depth).comparison fun _ _ _ => .pure _

theorem assign_succ (h : Viable config depth) :
    Fails config.trailingSemicolon .statement [] (Parser.assign config (depth + 1)) := by
  rw [Parser.assign]
  refine .parsing _ (.expect (by decide) (Token.sample _) ?_ fun target => ?_)
  · exact ⟨.assign (Token.sample _) (Token.sample _) shortestComparison, by simp⟩
  refine .expect (by decide) (Token.sample _) ?_ fun sign => ?_
  · exact ⟨.assign target (Token.sample _) shortestComparison, by simp⟩
  have hvalue (back : List Token) (hback : Begins config.trailingSemicolon .comparison back) :
      Begins config.trailingSemicolon .statement ([] ++ [target.1] ++ [sign.1] ++ back) := by
    obtain ⟨V, hback⟩ := hback
    exact ⟨.assign target sign V, by simpa using hback⟩
  exact .bind (h.comparison.within hvalue (by decide))
    (sound config depth).comparison fun _ _ _ => .pure _

theorem read_succ :
    Fails config.trailingSemicolon .statement [] (Parser.read config (depth + 1)) := by
  rw [Parser.read]
  refine .parsing _ (.expect (by decide) (Token.sample _) ?_ fun readWord => ?_)
  · exact ⟨.read (Token.sample _) (Token.sample _), by simp⟩
  · refine .expect (by decide) (Token.sample _) ?_ fun _ => .pure _
    exact ⟨.read readWord (Token.sample _), by simp⟩

theorem write_succ (h : Viable config depth) :
    Fails config.trailingSemicolon .statement [] (Parser.write config (depth + 1)) := by
  rw [Parser.write]
  refine .parsing _ (.expect (by decide) (Token.sample _) ?_ fun writeWord => ?_)
  · exact ⟨.write (Token.sample _) shortestComparison, by simp⟩
  have hvalue (back : List Token) (hback : Begins config.trailingSemicolon .comparison back) :
      Begins config.trailingSemicolon .statement ([] ++ [writeWord.1] ++ back) := by
    obtain ⟨V, hback⟩ := hback
    exact ⟨.write writeWord V, by simpa using hback⟩
  exact .bind (h.comparison.within hvalue (by decide))
    (sound config depth).comparison fun _ _ _ => .pure _

theorem comparison_succ (h : Viable config depth) :
    Fails config.trailingSemicolon .comparison [] (Parser.comparison config (depth + 1)) := by
  rw [Parser.comparison]
  have hleft (back : List Token) (hback : Begins config.trailingSemicolon (.chain .sum) back) :
      Begins config.trailingSemicolon .comparison ([] ++ back) := by
    obtain ⟨L, hback⟩ := hback
    exact ⟨.single L, by simpa using hback⟩
  refine .parsing _ (.bind ((h.chain .sum).within hleft (by decide)) ((sound config depth).chain .sum) ?_)
  rintro _ _ ⟨L, rfl, -⟩
  refine .operator (.pure _) fun sign => ?_
  have hright (back : List Token) (hback : Begins config.trailingSemicolon (.chain .sum) back) :
      Begins config.trailingSemicolon .comparison ([] ++ L.tokens ++ [sign.token] ++ back) := by
    obtain ⟨R, hback⟩ := hback
    exact ⟨.compared L sign R, by simpa using hback⟩
  exact .bind ((h.chain .sum).within hright (by decide))
    ((sound config depth).chain .sum) fun _ _ _ => .pure _

theorem operand (h : Viable config depth) (level : Precedence) :
    Fails config.trailingSemicolon level.operand [] (Parser.operand config level depth) := by
  cases level with
  | sum => exact h.chain .product
  | product => exact h.factor

theorem chain_succ (h : Viable config depth) (level : Precedence) :
    Fails config.trailingSemicolon (.chain level) [] (Parser.chain config level (depth + 1)) := by
  rw [Parser.chain_succ]
  have hfirst (back : List Token) (hback : Begins config.trailingSemicolon level.operand back) :
      Begins config.trailingSemicolon (.chain level) ([] ++ back) := by
    obtain ⟨F, hback⟩ := hback
    exact ⟨.chain level F (.stop level), by simpa using hback⟩
  have hrest (F : Derivation config.trailingSemicolon level.operand) (back : List Token)
      (hback : Begins config.trailingSemicolon (.links level) back) :
      Begins config.trailingSemicolon (.chain level) ([] ++ F.tokens ++ back) := by
    obtain ⟨R, hback⟩ := hback
    exact ⟨.chain level F R, by simpa using hback⟩
  refine .parsing _ (.bind ((h.operand level).within hfirst level.operand_ne_program)
    ((sound config depth).operand level) ?_)
  rintro _ _ ⟨_, ⟨F, rfl, -⟩, -⟩
  exact (h.links level _).within (hrest F) nofun

theorem links_succ (h : Viable config depth) (level : Precedence) (left : Expr) :
    Fails config.trailingSemicolon (.links level) []
      (Parser.links config level (depth + 1) left) := by
  rw [links_eq]
  refine .operator (.pure _) fun sign => ?_
  have hoperand (back : List Token) (hback : Begins config.trailingSemicolon level.operand back) :
      Begins config.trailingSemicolon (.links level) ([] ++ [sign.token] ++ back) := by
    obtain ⟨O, hback⟩ := hback
    exact ⟨.link level sign O (.stop level), by simpa using hback⟩
  have hrest (O : Derivation config.trailingSemicolon level.operand) (back : List Token)
      (hback : Begins config.trailingSemicolon (.links level) back) :
      Begins config.trailingSemicolon (.links level) ([] ++ [sign.token] ++ O.tokens ++ back) := by
    obtain ⟨R, hback⟩ := hback
    exact ⟨.link level sign O R, by simpa using hback⟩
  refine .inside _ (.bind ((h.operand level).within hoperand level.operand_ne_program)
    ((sound config depth).operand level) ?_)
  rintro _ _ ⟨_, ⟨O, rfl, -⟩, -⟩
  exact (h.links level _).within (hrest O) nofun

theorem brackets (h : Viable config depth) :
    Fails config.trailingSemicolon .factor [] (Parser.brackets config depth) := by
  refine .expect (by decide) (Token.sample _) ?_ fun opening => ?_
  · exact ⟨.brackets (Token.sample _) shortestComparison (Token.sample _), by simp⟩
  have hinner (back : List Token) (hback : Begins config.trailingSemicolon .comparison back) :
      Begins config.trailingSemicolon .factor ([] ++ [opening.1] ++ back) := by
    obtain ⟨I, hback⟩ := hback
    have hlonger (tail : List Token) : back <+: I.tokens ++ tail :=
      hback.trans (List.prefix_append _ _)
    exact ⟨.brackets opening I (Token.sample _), by simpa using hlonger _⟩
  refine .bind (h.comparison.within hinner (by decide)) (sound config depth).comparison ?_
  rintro _ _ ⟨I, rfl, -⟩
  refine .expect (by decide) (Token.sample _) ?_ fun closing => .pure _
  exact ⟨.brackets opening I (Token.sample _), by simp⟩

theorem factor_succ (h : Viable config depth) :
    Fails config.trailingSemicolon .factor [] (Parser.factor config (depth + 1)) := by
  rw [Parser.factor_succ]
  refine .parsing _ (.kind fun first => ?_)
  unfold factorForm
  split
  · exact h.brackets
  · exact fails_number
  · exact fails_name
  · exact .unexpected (fun _ => rfl) ⟨shortestFactor, List.nil_prefix⟩
      fun _ _ _ h => by simp at h

end Viable

theorem viable_zero (config : ParserConfig) : Viable config 0 where
  sequence := .refuse _ _
  statement := .refuse _ _
  conditional := .refuse _ _
  loop := .refuse _ _
  assign := .refuse _ _
  read := .refuse _ _
  write := .refuse _ _
  comparison := .refuse _ _
  chain level := by
    rw [chain_zero]
    exact .refuse _ _
  links level left := by
    rw [links_eq]
    exact .operator (.pure _) fun _ => .tooDeep _
  factor := .refuse _ _

theorem viable (config : ParserConfig) (depth : Nat) : Viable config depth := by
  induction depth with
  | zero => exact viable_zero config
  | succ depth h => exact
    { sequence := h.sequence_succ
      statement := h.statement_succ
      conditional := h.conditional_succ
      loop := h.loop_succ
      assign := h.assign_succ
      read := Viable.read_succ
      write := h.write_succ
      comparison := h.comparison_succ
      chain := h.chain_succ
      links := h.links_succ
      factor := h.factor_succ }

/-- Tokens that are left over come after a whole program. -/
theorem fails_ending (B : Derivation config.trailingSemicolon .sequence) (body : List Stmt) :
    Fails config.trailingSemicolon .program ([] ++ B.tokens) (ending body) := by
  have hprogram : Begins config.trailingSemicolon .program ([] ++ B.tokens) :=
    ⟨.program B, List.prefix_rfl⟩
  refine .kind fun first => ?_
  split
  · exact .pure _
  · refine .bind (R := fun _ _ => True) (.unexpected (fun _ => rfl) hprogram ?_)
      (Yields.unexpected _) fun _ _ _ => .pure _
    intro _ kinds found hcause
    cases hcause
    exact .ending B

/-- A program fails after tokens with which a sentence begins. -/
theorem fails_program (config : ParserConfig) :
    Fails config.trailingSemicolon .program [] (program config) := by
  cases hdepth : config.maxDepth with
  | zero =>
    rw [program_zero config hdepth]
    exact .refuse _ _
  | succ depth =>
    rw [program_succ config hdepth]
    have hsequence (back : List Token) (hback : Begins config.trailingSemicolon .sequence back) :
        Begins config.trailingSemicolon .program ([] ++ back) := by
      obtain ⟨B, hback⟩ := hback
      exact ⟨.program B, hback⟩
    have hbody : Fails config.trailingSemicolon .program []
        (parsing .program (sequence config depth >>= ending)) := by
      refine .parsing _ (.bind ((viable config depth).sequence.within hsequence (by decide))
        (sound config depth).sequence ?_)
      rintro _ body ⟨B, rfl, -⟩
      exact fails_ending B body
    intro s e t hrun
    rcases run_bind_eq_error hrun with h | ⟨_, _, _, h⟩
    · exact hbody h
    · cases h

end Parser

end TinyLang

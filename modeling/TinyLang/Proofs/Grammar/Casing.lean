import TinyLang.Proofs.Grammar.Likeness
import TinyLang.Proofs.Token.Casing

namespace TinyLang

@[simp] def Expr.lower : Expr → Expr
  | binary op left right span => binary op left.lower right.lower span
  | constant value span => constant value span
  | name text span => name text.toLower span

namespace Stmt

mutual

@[simp] def lower : Stmt → Stmt
  | conditional condition branch span => conditional condition.lower (lowerAll branch) span
  | loop body condition span => loop (lowerAll body) condition.lower span
  | assign target value span => assign target.toLower value.lower span
  | read target span => read target.toLower span
  | write value span => write value.lower span

@[simp] def lowerAll : List Stmt → List Stmt
  | [] => []
  | s :: rest => s.lower :: lowerAll rest

end

end Stmt

theorem Stmt.length_lowerAll (body : List Stmt) : (lowerAll body).length = body.length := by
  induction body with
  | nil => rfl
  | cons s rest ih => simp [ih]

def Program.lower (program : Program) : Program := ⟨Stmt.lowerAll program.body⟩

@[simp] def SyntaxError.Cause.lower : SyntaxError.Cause → SyntaxError.Cause
  | expectedToken expected found => expectedToken expected found.lower
  | expectedStatement found => expectedStatement found.lower
  | expectedExpression found => expectedExpression found.lower
  | unknownCharacter text => unknownCharacter text.toLower
  | unclosedComment => unclosedComment
  | numberTooLarge text => numberTooLarge text.toLower
  | nestingTooDeep limit => nestingTooDeep limit

@[simp] def SyntaxError.lower (error : SyntaxError) : SyntaxError :=
  { error with cause := error.cause.lower }

@[simp] def ParseEvent.lower : ParseEvent → ParseEvent
  | started rule lookahead => started rule (lookahead.map Token.lower)
  | consumed token => consumed token.lower
  | finished rule => finished rule
  | failed error => failed error.lower
  | parsed statements => parsed statements

namespace Decimal

theorem digits?_map_toLower (text : List Char) :
    digits? (text.map Char.toLower) = digits? text := by
  by_cases hdigits : text.all Char.isDigit = true
  · have hsame : text.map Char.toLower = text := by
      apply (List.map_congr_left fun c hc => ?_).trans (List.map_id text)
      exact toLower_of_not_isAlpha (not_isAlpha_of_isDigit (List.all_eq_true.mp hdigits c hc))
    rw [hsame]
  · have hother : ¬ (text.map Char.toLower).all Char.isDigit = true := by
      simpa [List.all_map, Function.comp_def] using hdigits
    rw [digits?, digits?, if_neg (mt And.right hother), if_neg (mt And.right hdigits)]

/-- Neither digits nor a sign are letters. -/
theorem signed64?_toLower (text : String) : signed64? text.toLower = signed64? text := by
  rw [signed64?, signed64?, toList_toLower]
  cases text.toList with
  | nil => rfl
  | cons c digits =>
    have hdigits := digits?_map_toLower digits
    have hwhole := digits?_map_toLower (c :: digits)
    rw [List.map_cons] at hwhole ⊢
    by_cases hplus : c = '+'
    · subst hplus
      simp only [(toLower_eq_iff rfl).mpr (rfl : '+' = '+'), hdigits]
    by_cases hminus : c = '-'
    · subst hminus
      simp only [(toLower_eq_iff rfl).mpr (rfl : '-' = '-'), hdigits]
    · have hplus' := mt (toLower_eq_iff rfl).mp hplus
      have hminus' := mt (toLower_eq_iff rfl).mp hminus
      simp [hplus, hminus, hplus', hminus', hwhole]

end Decimal

theorem SyntaxError.Cause.ofUnknown_toLower (lexeme : String) :
    ofUnknown lexeme.toLower = (ofUnknown lexeme).lower := by
  have hbrace : lexeme.toLower = "\x7b" ↔ lexeme = "\x7b" := by
    rw [← String.toList_inj, ← String.toList_inj, toList_toLower]
    exact map_toLower_eq_singleton rfl
  rw [ofUnknown, ofUnknown]
  by_cases h : lexeme = "\x7b"
  · rw [if_pos h, if_pos (hbrace.mpr h), lower]
  · rw [if_neg h, if_neg (mt hbrace.mp h), lower]

namespace Parser

namespace State

def lower (s : State) : State where
  passed := s.passed.map Token.lower
  ahead := s.ahead.map Token.lower
  stack := s.stack
  events := s.events.map ParseEvent.lower

variable (s : State)

@[simp] theorem ahead_lower : s.lower.ahead = s.ahead.map Token.lower := rfl

@[simp] theorem kind_lower : s.lower.kind = s.kind := by
  rw [kind, kind, ahead_lower]
  cases s.ahead <;> rfl

theorem endSpan_lower : s.lower.endSpan = s.endSpan := by
  obtain ⟨passed, ahead, stack, events⟩ := s
  cases passed <;> cases ahead <;> rfl

@[simp] theorem found_lower : s.lower.found = s.found.lower := by
  rw [found, found, endSpan_lower, ahead_lower]
  cases s.ahead with
  | nil =>
    have hempty : "".toLower = "" := String.toList_inj.mp (toList_toLower "")
    simp [Token.lower, Token.endAt, hempty]
  | cons token rest => rfl

@[simp] theorem location_lower : s.lower.location = s.location := by
  rw [location, location, endSpan_lower, ahead_lower]
  cases s.ahead <;> rfl

end State

variable {α β γ δ : Type}

inductive ResultLowered (V : α → β → Prop) :
    EStateM.Result SyntaxError State α → EStateM.Result SyntaxError State β → Prop
  | ok {a : α} {b : β} (t : State) (h : V a b) : ResultLowered V (.ok a t) (.ok b t.lower)
  | error (e : SyntaxError) (t : State) : ResultLowered V (.error e t) (.error e.lower t.lower)

def Lowers (V : α → β → Prop) (p : Parser α) (q : Parser β) : Prop :=
  ∀ s : State, ResultLowered V (p.run s) (q.run s.lower)

namespace Lowers

variable {V : α → β → Prop} {W : γ → δ → Prop} {p : Parser α} {q : Parser β}

theorem pure {a : α} {b : β} (h : V a b) : Lowers V (Pure.pure a) (Pure.pure b) := fun s =>
  .ok s h

theorem bind {f : α → Parser γ} {g : β → Parser δ} (hp : Lowers V p q)
    (hf : ∀ a b, V a b → Lowers W (f a) (g b)) : Lowers W (p >>= f) (q >>= g) := by
  intro s
  have hresult := hp s
  generalize hrun : p.run s = result at hresult
  generalize hrun' : q.run s.lower = result' at hresult
  cases hresult with
  | ok t hvalue =>
    rw [run_bind_of_ok hrun, run_bind_of_ok hrun']
    exact hf _ _ hvalue t
  | error e t =>
    rw [run_bind_of_error hrun, run_bind_of_error hrun']
    exact .error e t

/-- The number of tokens ahead is the same. -/
theorem rounds {f : Nat → Parser α} {g : Nat → Parser β}
    (h : ∀ count, Lowers V (f count) (g count)) :
    Lowers V (get >>= fun s => f s.ahead.length) (get >>= fun s => g s.ahead.length) := by
  intro s
  have hlength : s.lower.ahead.length = s.ahead.length := List.length_map ..
  change ResultLowered V ((f s.ahead.length).run s) ((g s.lower.ahead.length).run s.lower)
  rw [hlength]
  exact h _ s

theorem kind : Lowers (· = ·) Parser.kind Parser.kind := by
  intro s
  rw [run_kind, run_kind]
  exact .ok s s.kind_lower.symm

theorem fail (cause : SyntaxError.Cause) :
    Lowers V (Parser.fail cause) (Parser.fail cause.lower) := by
  intro s
  rw [run_fail, run_fail, State.location_lower]
  exact .error _ _

theorem unexpected {cause : Token → SyntaxError.Cause} (h : SyntaxError.Cause.Expects cause) :
    Lowers V (Parser.unexpected cause) (Parser.unexpected cause) := by
  intro s
  have hfound : (if s.found.lower.kind = .unknown then .ofUnknown s.found.lower.lexeme
      else cause s.found.lower) =
      (if s.found.kind = .unknown then SyntaxError.Cause.ofUnknown s.found.lexeme
        else cause s.found).lower := by
    rw [Token.kind_lower]
    split
    · exact SyntaxError.Cause.ofUnknown_toLower s.found.lexeme
    · cases h <;> rfl
  rw [run_unexpected, run_unexpected, State.location_lower, State.found_lower, hfound]
  exact .error _ _

theorem accept? (wanted : Token.Kind → Bool) :
    Lowers (Option.Rel fun token token' => wanted token.kind = true ∧ token' = token.lower)
      (Parser.accept? wanted) (Parser.accept? wanted) := by
  intro s
  cases hahead : s.ahead with
  | nil =>
    have hlower : s.lower.ahead = [] := by simp [hahead]
    rw [run_accept?_nil wanted hahead, run_accept?_nil wanted hlower]
    exact .ok s .none
  | cons token rest =>
    have hlower : s.lower.ahead = token.lower :: rest.map Token.lower := by simp [hahead]
    rw [run_accept?_cons wanted hahead, run_accept?_cons wanted hlower, Token.isEnd_lower,
      Token.kind_lower]
    split
    · next hwanted => exact .ok (s.advance token rest) (.some ⟨(Bool.and_eq_true_iff.mp hwanted).2, rfl⟩)
    · exact .ok s .none

/-- The value of a number, and so whether there is one, does not depend on the case. -/
theorem numeral (token : Token) : Lowers (fun tree tree' => tree' = tree.lower)
    (Parser.numeral token) (Parser.numeral token.lower) := by
  have hvalue : Decimal.signed64? token.lower.lexeme = Decimal.signed64? token.lexeme :=
    Decimal.signed64?_toLower token.lexeme
  rw [Parser.numeral, Parser.numeral, hvalue]
  cases Decimal.signed64? token.lexeme with
  | some value => exact pure rfl
  | none => exact fun s => .error _ _

theorem report {event event' : ParseEvent} (h : event' = event.lower) :
    Lowers (fun _ _ => True) (Parser.report event) (Parser.report event') := by
  intro s
  subst h
  exact .ok (s.report event) trivial

theorem start (rule : Rule) :
    Lowers (fun _ _ => True) (Parser.start rule) (Parser.start rule) := by
  intro s
  have hevent : ParseEvent.started rule s.lower.ahead.head? =
      (ParseEvent.started rule s.ahead.head?).lower := by simp
  change ResultLowered _ (.ok () _) (.ok () (s.lower.report (.started rule s.lower.ahead.head?)))
  rw [hevent]
  exact .ok (s.report _) trivial

end Lowers

def lowering : Likeness where
  token token token' := token' = token.lower
  expr tree tree' := tree' = tree.lower
  stmt tree tree' := tree' = tree.lower
  body body body' := body' = Stmt.lowerAll body
  kind_eq h := by
    subst h
    rfl
  name h _ := by
    subst h
    rfl
  binary _ h hleft hright := by
    subst h hleft hright
    rfl
  conditional h hcondition hbranch := by
    subst h hcondition hbranch
    rfl
  loop h hbody hcondition := by
    subst h hbody hcondition
    rfl
  assign h _ hvalue := by
    subst h hvalue
    rfl
  read h htarget _ := by
    subst h htarget
    rfl
  write h hvalue := by
    subst h hvalue
    rfl
  nil := by rw [Stmt.lowerAll]
  cons hfirst hrest := by
    subst hfirst hrest
    rfl

theorem compositional_lowers : lowering.Compositional Lowers where
  pure := .pure
  bind := .bind
  rounds _ _ := .rounds
  kind := .kind
  accept? := .accept?
  numeral h _ := by
    subst h
    exact .numeral _
  unexpected := .unexpected
  tooDeep _ := .fail _
  enter rule := fun s => .ok (s.pushed rule) trivial
  leave := fun s => .ok s.popped trivial
  start := .start
  finished _ := .report rfl
  parsed h := by
    subst h
    exact .report (by rw [Stmt.length_lowerAll, ParseEvent.lower])

end Parser

namespace Program

/-- In lower case tokens are parsed to the same in lower case. -/
theorem parse_map_lower (config : ParserConfig) (tokens : List Token) :
    parse config (tokens.map Token.lower) =
      ((parse config tokens).map Program.lower).mapError SyntaxError.lower := by
  have hresult := Parser.compositional_lowers.program config { ahead := tokens }
  have hstart : Parser.State.lower { ahead := tokens } = { ahead := tokens.map Token.lower } := rfl
  rw [hstart] at hresult
  rw [parse, trace, parse, trace]
  generalize (Parser.program config).run { ahead := tokens } = result at hresult
  generalize (Parser.program config).run { ahead := tokens.map Token.lower } = result' at hresult
  cases hresult with
  | @ok program program' t h =>
    obtain rfl : program' = program.lower := congrArg Program.mk h
    rfl
  | error e t => rfl

/-- How the parses of two sources may end if these differ in the case of letters: with programs that
differ in the case of names, or with errors at the same place inside of the same rules, for the same
cause but for the case of the texts that it names. -/
inductive Recased : Except SyntaxError Program → Except SyntaxError Program → Prop
  | ok {program program' : Program} (h : program.lower = program'.lower) :
      Recased (.ok program) (.ok program')
  | error {error error' : SyntaxError} (hcause : error.cause.lower = error'.cause.lower)
      (hlocation : error.location = error'.location) (hstack : error.stack = error'.stack) :
      Recased (.error error) (.error error')

/-- Case matters in names only. Sources that are the same in lower case have the same tokens but for
the case of their texts, and with any configuration they are parsed to the same but for that. -/
theorem recased_of_toLower {source source' : String} (h : source.toLower = source'.toLower) :
    List.Forall₂ Token.Recased (tokenize source) (tokenize source') ∧
    ∀ config, Recased (parse config (tokenize source)) (parse config (tokenize source')) := by
  have htokens : (tokenize source).map Token.lower = (tokenize source').map Token.lower :=
    calc (tokenize source).map Token.lower = tokenize source.toLower := (tokenize_toLower _).symm
      _ = tokenize source'.toLower := by rw [h]
      _ = (tokenize source').map Token.lower := tokenize_toLower _
  refine ⟨Token.forall₂_recased htokens, fun config => ?_⟩
  have hparse : ((parse config (tokenize source)).map lower).mapError SyntaxError.lower =
      ((parse config (tokenize source')).map lower).mapError SyntaxError.lower :=
    calc _ = parse config ((tokenize source).map Token.lower) := (parse_map_lower ..).symm
      _ = parse config ((tokenize source').map Token.lower) := by rw [htokens]
      _ = _ := parse_map_lower ..
  generalize parse config (tokenize source) = result at hparse
  generalize parse config (tokenize source') = result' at hparse
  cases result with
  | ok program =>
    cases result' with
    | ok program' => exact .ok (Except.ok.inj hparse)
    | error error' => cases hparse
  | error error =>
    cases result' with
    | ok program' => cases hparse
    | error error' =>
      have herror : error.lower = error'.lower := Except.error.inj hparse
      have hcause : error.lower.cause = error'.lower.cause := congrArg _ herror
      have hlocation : error.lower.location = error'.lower.location := congrArg _ herror
      have hstack : error.lower.stack = error'.lower.stack := congrArg _ herror
      exact .error hcause hlocation hstack

/-- Keywords and names change, and a character that is no ASCII letter stays. -/
theorem recased_of_toLower_of_write :
    List.Forall₂ Token.Recased (tokenize "Write (Ab + 1; rEAD É")
      (tokenize "wRITE (aB + 1; Read É") ∧
    ∀ config, Recased (parse config (tokenize "Write (Ab + 1; rEAD É"))
      (parse config (tokenize "wRITE (aB + 1; Read É")) := by
  apply recased_of_toLower
  rw [← String.toList_inj, toList_toLower, toList_toLower]
  decide

end Program

end TinyLang

import TinyLang.Proofs.Grammar.Derivation

namespace TinyLang.Parser

variable {α β : Type} {s t u : State}

namespace State

/-- From `s` to `t` exactly the given tokens were consumed, and no end of input. -/
structure Moved (s : State) (tokens : List Token) (t : State) : Prop where
  ahead_eq : s.ahead = tokens ++ t.ahead
  passed_eq : t.passed = tokens.reverse ++ s.passed
  isEnd_eq : ∀ token ∈ tokens, token.isEnd = false

theorem Moved.still (h : t.ahead = s.ahead) (h' : t.passed = s.passed) : s.Moved [] t :=
  ⟨h.symm, h', by simp⟩

theorem Moved.refl (s : State) : s.Moved [] s := .still rfl rfl

theorem Moved.trans {front back : List Token} (h : s.Moved front t) (h' : t.Moved back u) :
    s.Moved (front ++ back) u where
  ahead_eq := by rw [h.ahead_eq, h'.ahead_eq, List.append_assoc]
  passed_eq := by rw [h'.passed_eq, h.passed_eq, List.reverse_append, List.append_assoc]
  isEnd_eq := by
    intro token hmem
    rcases List.mem_append.mp hmem with hm | hm
    · exact h.isEnd_eq token hm
    · exact h'.isEnd_eq token hm

theorem moved_advance {token : Token} {rest : List Token} (h : s.ahead = token :: rest)
    (hend : token.isEnd = false) : s.Moved [token] (s.advance token rest) :=
  ⟨h, rfl, by simpa using hend⟩

def pushed (s : State) (rule : Rule) : State := { s with stack := rule :: s.stack }

def popped (s : State) : State := { s with stack := s.stack.tail }

def entered (s : State) (rule : Rule) : State :=
  (s.report (.started rule s.ahead.head?)).pushed rule

def exited (s : State) (rule : Rule) : State := s.popped.report (.finished rule)

theorem moved_pushed (s : State) (rule : Rule) : s.Moved [] (s.pushed rule) := .still rfl rfl

theorem moved_popped (s : State) : s.Moved [] s.popped := .still rfl rfl

theorem moved_entered (s : State) (rule : Rule) : s.Moved [] (s.entered rule) := .still rfl rfl

theorem moved_exited (s : State) (rule : Rule) : s.Moved [] (s.exited rule) := .still rfl rfl

theorem kind_cons {token : Token} {rest : List Token} (h : s.ahead = token :: rest) :
    s.kind = token.kind := by
  rw [kind, h]
  rfl

theorem kind_nil (h : s.ahead = []) : s.kind = .endOfInput := by
  rw [kind, h]
  rfl

theorem found_kind (s : State) : s.found.kind = s.kind := by
  rw [found, kind]
  cases s.ahead <;> rfl

theorem kind_congr (hhead : s.ahead.head? = t.ahead.head?) : s.kind = t.kind := by
  rw [kind, kind, hhead]

theorem endSpan_congr (hpassed : s.passed = t.passed) (hhead : s.ahead.head? = t.ahead.head?) :
    s.endSpan = t.endSpan := by
  rw [endSpan, endSpan, hpassed]
  cases t.passed <;> cases hs : s.ahead <;> cases ht : t.ahead <;> simp_all

theorem found_congr (hpassed : s.passed = t.passed) (hhead : s.ahead.head? = t.ahead.head?) :
    s.found = t.found := by
  rw [found, found, endSpan_congr hpassed hhead, hhead]

theorem location_congr (hpassed : s.passed = t.passed) (hhead : s.ahead.head? = t.ahead.head?) :
    s.location = t.location := by
  rw [location, location, endSpan_congr hpassed hhead]
  cases hs : s.ahead <;> cases ht : t.ahead <;> simp_all

theorem Moved.kind_eq {token : Token} {rest : List Token} (h : s.Moved (token :: rest) t) :
    s.kind = token.kind :=
  kind_cons h.ahead_eq

theorem Moved.kind_eq_of_nil (h : s.Moved [] t) : s.kind = t.kind := by
  rw [kind, kind, h.ahead_eq, List.nil_append]

theorem Moved.eq {tokens tokens' : List Token} (h : s.Moved tokens t) (h' : s.Moved tokens' t) :
    tokens = tokens' :=
  List.append_cancel_right (h.ahead_eq.symm.trans h'.ahead_eq)

theorem Moved.length_le {tokens : List Token} (h : s.Moved tokens t) :
    t.ahead.length ≤ s.ahead.length := by
  rw [h.ahead_eq, List.length_append]
  exact Nat.le_add_left _ _

theorem Moved.length_tokens_le {tokens : List Token} (h : s.Moved tokens t) :
    tokens.length ≤ s.ahead.length := by
  rw [h.ahead_eq, List.length_append]
  exact Nat.le_add_right _ _

theorem Moved.beforeEnd_ahead {tokens : List Token} (h : s.Moved tokens t) :
    Token.beforeEnd s.ahead = tokens ++ Token.beforeEnd t.ahead := by
  rw [h.ahead_eq, Token.beforeEnd_append h.isEnd_eq]

/-- A parse that stands at the end of the input has consumed all tokens before it. -/
theorem Moved.beforeEnd_eq {tokens : List Token} (h : s.Moved tokens t)
    (hend : t.kind = .endOfInput) : Token.beforeEnd s.ahead = tokens := by
  obtain ⟨-, hstop⟩ | ⟨token, rest, hahead, hnotEnd, -⟩ := Token.beforeEnd_cases t.ahead
  · rw [h.beforeEnd_ahead, hstop, List.append_nil]
  · rw [kind_cons hahead] at hend
    simp [Token.isEnd, hend] at hnotEnd

end State

theorem run_bind_of_ok {p : Parser α} {f : α → Parser β} {a : α} (h : p.run s = .ok a t) :
    (p >>= f).run s = (f a).run t := by
  change EStateM.bind p f s = _
  rw [EStateM.bind, show p s = _ from h]
  rfl

theorem run_bind_of_error {p : Parser α} {f : α → Parser β} {e : SyntaxError}
    (h : p.run s = .error e t) : (p >>= f).run s = .error e t := by
  change EStateM.bind p f s = _
  rw [EStateM.bind, show p s = _ from h]

theorem run_bind_eq_ok {p : Parser α} {f : α → Parser β} {b : β} (h : (p >>= f).run s = .ok b u) :
    ∃ a t, p.run s = .ok a t ∧ (f a).run t = .ok b u := by
  cases hp : p.run s with
  | ok a t => exact ⟨a, t, rfl, run_bind_of_ok hp ▸ h⟩
  | error e t => simp [run_bind_of_error hp] at h

theorem run_bind_eq_error {p : Parser α} {f : α → Parser β} {e : SyntaxError}
    (h : (p >>= f).run s = .error e u) :
    p.run s = .error e u ∨ ∃ a t, p.run s = .ok a t ∧ (f a).run t = .error e u := by
  cases hp : p.run s with
  | ok a t => exact .inr ⟨a, t, rfl, run_bind_of_ok hp ▸ h⟩
  | error e' t => exact .inl (by simpa [run_bind_of_error hp] using h)

theorem run_bind_congr {p q : Parser α} {f g : α → Parser β} (hp : p.run s = q.run s)
    (hf : ∀ a t, p.run s = .ok a t → (f a).run t = (g a).run t) :
    (p >>= f).run s = (q >>= g).run s := by
  cases h : p.run s with
  | ok a t => rw [run_bind_of_ok h, run_bind_of_ok (hp ▸ h), hf a t h]
  | error e t => rw [run_bind_of_error h, run_bind_of_error (hp ▸ h)]

theorem run_kind (s : State) : kind.run s = .ok s.kind s := rfl

theorem run_unexpected (cause : Token → SyntaxError.Cause) (s : State) :
    (unexpected cause : Parser α).run s =
      let error := ⟨if s.found.kind = .unknown then .ofUnknown s.found.lexeme else cause s.found,
        s.location, s.stack.reverse⟩
      .error error (s.report (.failed error)) := by
  rfl

theorem run_fail (cause : SyntaxError.Cause) (s : State) :
    (fail cause : Parser α).run s =
      .error ⟨cause, s.location, s.stack.reverse⟩
        (s.report (.failed ⟨cause, s.location, s.stack.reverse⟩)) := by
  rfl

theorem run_accept?_nil (wanted : Token.Kind → Bool) (h : s.ahead = []) :
    (accept? wanted).run s = .ok none s := by
  obtain ⟨passed, ahead, stack, events⟩ := s
  cases h
  rfl

theorem run_accept?_cons (wanted : Token.Kind → Bool) {token : Token} {rest : List Token}
    (h : s.ahead = token :: rest) :
    (accept? wanted).run s =
      if !token.isEnd && wanted token.kind then .ok (some token) (s.advance token rest)
      else .ok none s := by
  obtain ⟨passed, ahead, stack, events⟩ := s
  cases h
  change EStateM.run (if !token.isEnd && wanted token.kind then _ else _) _ = _
  split <;> rfl

/-- A token that is not wanted is left where it is, but that is no error. -/
theorem run_accept?_ne_error (wanted : Token.Kind → Bool) (s : State) (e : SyntaxError)
    (t : State) : (accept? wanted).run s ≠ .error e t := by
  intro h
  rcases hahead : s.ahead with _ | ⟨token, rest⟩
  · rw [run_accept?_nil wanted hahead] at h
    cases h
  · rw [run_accept?_cons wanted hahead] at h
    split at h <;> cases h

theorem run_accept?_eq_some {wanted : Token.Kind → Bool} {token : Token}
    (h : (accept? wanted).run s = .ok (some token) t) :
    ∃ rest, s.ahead = token :: rest ∧ token.isEnd = false ∧ wanted token.kind = true ∧
      t = s.advance token rest := by
  rcases hahead : s.ahead with _ | ⟨token', rest⟩
  · rw [run_accept?_nil wanted hahead] at h
    cases h
  · rw [run_accept?_cons wanted hahead] at h
    split at h
    · next hwanted =>
      cases h
      obtain ⟨hend, hkind⟩ := Bool.and_eq_true_iff.mp hwanted
      exact ⟨rest, rfl, by simpa using hend, hkind, rfl⟩
    · cases h

theorem run_accept?_eq_none {wanted : Token.Kind → Bool} (h : (accept? wanted).run s = .ok none t) :
    t = s := by
  rcases hahead : s.ahead with _ | ⟨token, rest⟩
  · rw [run_accept?_nil wanted hahead] at h
    cases h
    rfl
  · rw [run_accept?_cons wanted hahead] at h
    split at h <;> cases h
    rfl

/-- A token is consumed if the kind ahead is a wanted one. -/
theorem run_accept?_of_wanted (wanted : Token.Kind → Bool) (hend : wanted .endOfInput = false)
    (h : wanted s.kind = true) :
    ∃ token t, token.kind = s.kind ∧ (accept? wanted).run s = .ok (some token) t ∧
      s.Moved [token] t := by
  rcases hahead : s.ahead with _ | ⟨token, rest⟩
  · rw [State.kind_nil hahead, hend] at h
    contradiction
  · have hkind := State.kind_cons hahead
    have hnotEnd : token.isEnd = false := by
      rw [Token.isEnd, decide_eq_false_iff_not]
      intro he
      rw [hkind, he, hend] at h
      contradiction
    refine ⟨token, s.advance token rest, hkind.symm, ?_, State.moved_advance hahead hnotEnd⟩
    rw [run_accept?_cons wanted hahead, hnotEnd, ← hkind, h]
    rfl

theorem run_accept?_of_not {wanted : Token.Kind → Bool} (h : wanted s.kind = false) :
    (accept? wanted).run s = .ok none s := by
  rcases hahead : s.ahead with _ | ⟨token, rest⟩
  · exact run_accept?_nil wanted hahead
  · rw [run_accept?_cons wanted hahead, ← State.kind_cons hahead, h, Bool.and_false]
    rfl

/-- The end of the input is not consumed, whatever is wanted. -/
theorem run_accept?_of_end (wanted : Token.Kind → Bool) (h : s.kind = .endOfInput) :
    (accept? wanted).run s = .ok none s := by
  rcases hahead : s.ahead with _ | ⟨token, rest⟩
  · exact run_accept?_nil wanted hahead
  · have hend : token.isEnd = true := decide_eq_true ((State.kind_cons hahead).symm.trans h)
    rw [run_accept?_cons wanted hahead, hend]
    rfl

theorem run_expect_of_eq {wanted : Token.Kind} (hend : wanted ≠ .endOfInput)
    (h : s.kind = wanted) :
    ∃ token : Token.OfKind wanted, ∃ t, (expect wanted).run s = .ok token.1 t ∧
      s.Moved [token.1] t := by
  obtain ⟨token, t, hkind, hrun, hmoved⟩ := run_accept?_of_wanted (· = wanted)
    (by simpa using hend.symm) (by simpa using h)
  refine ⟨⟨token, hkind.trans h⟩, t, ?_, hmoved⟩
  rw [expect, run_bind_of_ok hrun]
  rfl

theorem run_expect_of_ne {wanted : Token.Kind} (h : s.kind ≠ wanted) :
    (expect wanted).run s = (unexpected (.expectedToken [wanted]) : Parser Token).run s := by
  rw [expect, run_bind_of_ok (run_accept?_of_not (by simpa using h))]

theorem run_operator?_of_isSign {wanted : List Operator} (h : s.kind.isSign wanted = true) :
    ∃ sign : Token.Sign wanted, ∃ t,
      (operator? wanted).run s = .ok (some (sign.op, sign.token.span)) t ∧
        s.Moved [sign.token] t := by
  obtain ⟨token, t, hkind, hrun, hmoved⟩ :=
    run_accept?_of_wanted (fun kind => kind.operator?.any wanted.contains) rfl h
  obtain ⟨op, hmem, hop⟩ := Token.Kind.isSign_iff.mp h
  have hsign : token.kind = .operator op := hkind.trans hop
  refine ⟨⟨op, token, hsign, hmem⟩, t, ?_, hmoved⟩
  rw [operator?, run_bind_of_ok hrun]
  simp only [hsign, Token.Kind.operator?]
  rfl

theorem run_operator?_of_not {wanted : List Operator} (h : s.kind.isSign wanted = false) :
    (operator? wanted).run s = .ok none s := by
  have hrun : (accept? fun kind => kind.operator?.any wanted.contains).run s = .ok none s :=
    run_accept?_of_not h
  rw [operator?, run_bind_of_ok hrun]
  rfl

theorem run_operator?_ne_error (wanted : List Operator) (s : State) (e : SyntaxError)
    (t : State) : (operator? wanted).run s ≠ .error e t := by
  intro h
  rw [operator?] at h
  rcases run_bind_eq_error h with haccept | ⟨next, t', -, hnext⟩
  · exact run_accept?_ne_error _ s e t haccept
  · cases next <;> cases hnext

theorem run_operator?_eq_some {wanted : List Operator} {sign : Operator × Span}
    (h : (operator? wanted).run s = .ok (some sign) t) :
    ∃ token rest, s.ahead = token :: rest ∧ token.isEnd = false ∧
      token.kind.isSign wanted = true ∧ t = s.advance token rest := by
  rw [operator?] at h
  obtain ⟨next, u, haccept, hnext⟩ := run_bind_eq_ok h
  cases next with
  | none => cases hnext
  | some token =>
    obtain ⟨rest, hahead, hend, hsign, rfl⟩ := run_accept?_eq_some haccept
    obtain ⟨-, rfl⟩ := EStateM.Result.ok.inj hnext
    exact ⟨token, rest, hahead, hend, hsign, rfl⟩

theorem run_refuse (limit : Nat) (rule : Rule) (s : State) :
    ∃ t, (refuse limit rule : Parser α).run s =
      .error ⟨.nestingTooDeep limit, s.location, s.stack.reverse⟩ t ∧ s.Moved [] t :=
  ⟨_, rfl, .still rfl rfl⟩

theorem run_inside_of_ok {rule : Rule} {body : Parser α} {a : α}
    (h : body.run (s.pushed rule) = .ok a t) : (inside rule body).run s = .ok a t.popped := by
  change (body >>= fun result => leave >>= fun _ => pure result).run (s.pushed rule) = _
  rw [run_bind_of_ok h]
  rfl

theorem run_inside_of_error {rule : Rule} {body : Parser α} {e : SyntaxError}
    (h : body.run (s.pushed rule) = .error e t) : (inside rule body).run s = .error e t := by
  change (body >>= fun result => leave >>= fun _ => pure result).run (s.pushed rule) = _
  rw [run_bind_of_error h]

theorem run_inside_eq_ok {rule : Rule} {body : Parser α} {a : α}
    (h : (inside rule body).run s = .ok a t) :
    ∃ t', body.run (s.pushed rule) = .ok a t' ∧ t = t'.popped := by
  cases hbody : body.run (s.pushed rule) with
  | ok b t' =>
    rw [run_inside_of_ok hbody] at h
    cases h
    exact ⟨t', rfl, rfl⟩
  | error e t' =>
    rw [run_inside_of_error hbody] at h
    cases h

theorem run_inside_eq_error {rule : Rule} {body : Parser α} {e : SyntaxError}
    (h : (inside rule body).run s = .error e t) : body.run (s.pushed rule) = .error e t := by
  cases hbody : body.run (s.pushed rule) with
  | ok b t' => simp [run_inside_of_ok hbody] at h
  | error e' t' => rw [← run_inside_of_error hbody, h]

theorem run_parsing_of_ok {rule : Rule} {body : Parser α} {a : α}
    (h : body.run (s.entered rule) = .ok a t) : (parsing rule body).run s = .ok a (t.exited rule) := by
  change (inside rule body >>= fun result => report (.finished rule) >>= fun _ => pure result).run
    (s.report (.started rule s.ahead.head?)) = _
  rw [run_bind_of_ok (run_inside_of_ok h)]
  rfl

theorem run_parsing_of_error {rule : Rule} {body : Parser α} {e : SyntaxError}
    (h : body.run (s.entered rule) = .error e t) : (parsing rule body).run s = .error e t := by
  change (inside rule body >>= fun result => report (.finished rule) >>= fun _ => pure result).run
    (s.report (.started rule s.ahead.head?)) = _
  rw [run_bind_of_error (run_inside_of_error h)]

theorem run_parsing_eq_ok {rule : Rule} {body : Parser α} {a : α}
    (h : (parsing rule body).run s = .ok a t) :
    ∃ t', body.run (s.entered rule) = .ok a t' ∧ t = t'.exited rule := by
  cases hbody : body.run (s.entered rule) with
  | ok b t' =>
    rw [run_parsing_of_ok hbody] at h
    cases h
    exact ⟨t', rfl, rfl⟩
  | error e t' =>
    rw [run_parsing_of_error hbody] at h
    cases h

theorem run_parsing_eq_error {rule : Rule} {body : Parser α} {e : SyntaxError}
    (h : (parsing rule body).run s = .error e t) : body.run (s.entered rule) = .error e t := by
  cases hbody : body.run (s.entered rule) with
  | ok b t' => simp [run_parsing_of_ok hbody] at h
  | error e' t' => rw [← run_parsing_of_error hbody, h]

variable (config : ParserConfig)

def chain : Precedence → Nat → Parser Expr
  | .sum => sum config
  | .product => product config

def operand : Precedence → Nat → Parser Expr
  | .sum => product config
  | .product => factor config

def links : Precedence → Nat → Expr → Parser Expr
  | .sum => sumAfter config
  | .product => productAfter config

def chainRule : Precedence → Rule
  | .sum => .sum
  | .product => .product

theorem chain_zero (level : Precedence) :
    chain config level 0 = refuse config.maxDepth (chainRule level) := by
  cases level <;> rfl

theorem chain_succ (level : Precedence) (depth : Nat) :
    chain config level (depth + 1) =
      parsing (chainRule level) (operand config level depth >>= links config level depth) := by
  cases level <;> rfl

def link (level : Precedence) : Nat → Expr → Option (Operator × Span) → Parser Expr
  -- A chain may end without a level left, but it cannot go on.
  | _, left, none => pure left
  | 0, _, some _ => fail (.nestingTooDeep config.maxDepth)
  | depth + 1, left, some (op, span) =>
    inside .operation (operand config level depth >>= fun right =>
      links config level depth (.binary op left right span))

theorem link_none (level : Precedence) (depth : Nat) (left : Expr) :
    link config level depth left none = pure left := by
  cases depth <;> rfl

theorem links_eq (level : Precedence) (depth : Nat) (left : Expr) :
    links config level depth left =
      operator? level.operators >>= link config level depth left := by
  cases level <;> cases depth <;>
    exact congrArg (operator? _ >>= ·) (funext fun next => by cases next <;> rfl)

def form (first : Token.Kind) (depth : Nat) : Parser Stmt :=
  match first with
  | .keyword .ifWord => conditional config depth
  | .keyword .repeatWord => loop config depth
  | .identifier => assign config depth
  | .keyword .readWord => read config depth
  | .keyword .writeWord => write config depth
  | _ => unexpected .expectedStatement

theorem statement_succ (depth : Nat) :
    statement config (depth + 1) =
      parsing .statement (kind >>= fun first => form config first depth) := by
  rfl

def brackets (depth : Nat) : Parser Expr := do
  let _ ← expect .openBracket
  let inner ← comparison config depth
  let _ ← expect .closeBracket
  return inner

def name : Parser Expr := do
  let token ← expect .identifier
  return .name token.lexeme token.span

def factorForm (first : Token.Kind) (depth : Nat) : Parser Expr :=
  match first with
  | .openBracket => brackets config depth
  | .number => number
  | .identifier => name
  | _ => unexpected .expectedExpression

theorem factor_succ (depth : Nat) :
    factor config (depth + 1) =
      parsing .factor (kind >>= fun first => factorForm config first depth) := by
  rfl

def ending (body : List Stmt) : Parser Program := do
  unless (← kind) = .endOfInput do
    unexpected (.expectedToken [.semicolon, .endOfInput])
  return ⟨body⟩

theorem run_ending_of_end (body : List Stmt) (h : s.kind = .endOfInput) :
    (ending body).run s = .ok ⟨body⟩ s := by
  rw [ending, run_bind_of_ok (run_kind s), if_pos h]
  rfl

theorem run_ending_of_ne (body : List Stmt) (h : s.kind ≠ .endOfInput) :
    (ending body).run s =
      (unexpected (.expectedToken [.semicolon, .endOfInput]) : Parser Program).run s := by
  rw [ending, run_bind_of_ok (run_kind s), if_neg h]
  rfl

theorem program_zero (h : config.maxDepth = 0) :
    program config = refuse config.maxDepth .program := by
  rw [program, h]

theorem program_succ {depth : Nat} (h : config.maxDepth = depth + 1) :
    program config = parsing .program (sequence config depth >>= ending) >>= fun program =>
      report (.parsed program.body.length) >>= fun _ => pure program := by
  rw [program, h]
  rfl

variable {config} in
/-- A program that is parsed is a sequence of statements that leads to the end of the input. -/
theorem run_program_eq_ok {program : Program}
    (h : (Parser.program config).run s = .ok program t) :
    ∃ depth body u, config.maxDepth = depth + 1 ∧ program = ⟨body⟩ ∧
      (sequence config depth).run (s.entered .program) = .ok body u ∧ u.kind = .endOfInput ∧
      t = (u.exited .program).report (.parsed body.length) := by
  cases hdepth : config.maxDepth with
  | zero =>
    rw [program_zero config hdepth] at h
    cases h
  | succ depth =>
    rw [program_succ config hdepth] at h
    obtain ⟨_, t₁, hparsing, hdone⟩ := run_bind_eq_ok h
    cases hdone
    obtain ⟨t₂, hbody, rfl⟩ := run_parsing_eq_ok hparsing
    obtain ⟨body, u, hsequence, hending⟩ := run_bind_eq_ok hbody
    by_cases hend : u.kind = .endOfInput
    · rw [run_ending_of_end _ hend] at hending
      cases hending
      exact ⟨depth, body, t₂, rfl, rfl, hsequence, hend, rfl⟩
    · rw [run_ending_of_ne _ hend] at hending
      cases hending

variable {config} in
theorem parse_eq_ok_iff {tokens : List Token} {program : Program} :
    Program.parse config tokens = .ok program ↔
      ∃ t, (Parser.program config).run { ahead := tokens } = .ok program t := by
  rw [Program.parse, Program.trace]
  cases (Parser.program config).run { ahead := tokens } <;> simp

variable {config} in
/-- In this form the kernel can evaluate a parse. -/
theorem parse_eq_ok_of_toOption {tokens : List Token} {program : Program}
    (h : (Program.parse config tokens).toOption = some program) :
    Program.parse config tokens = .ok program := by
  cases hparse : Program.parse config tokens with
  | ok result =>
    rw [hparse] at h
    exact congrArg Except.ok (Option.some.inj h)
  | error error =>
    rw [hparse] at h
    cases h

variable {config} in
theorem parse_eq_error_iff {tokens : List Token} {error : SyntaxError} :
    Program.parse config tokens = .error error ↔
      ∃ t, (Parser.program config).run { ahead := tokens } = .error error t := by
  rw [Program.parse, Program.trace]
  cases (Parser.program config).run { ahead := tokens } <;> simp

end TinyLang.Parser

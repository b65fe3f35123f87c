import TinyLang.Proofs.Grammar.Expectation
import TinyLang.Proofs.Grammar.Record
import TinyLang.Proofs.Grammar.Twins

namespace TinyLang

def Program.TooDeep (config : ParserConfig) (tokens : List Token) : Prop :=
  ∃ error limit, parse config tokens = .error error ∧ error.cause = .nestingTooDeep limit

namespace Parser

open ParseEvent

variable {α β : Type} {s t u : State}

/-- A run that has come from `s` to `t` and fails for lack of levels, beside a run that has come to
`u`. The limit is used up, and the other run was inside of the same rules when it went on. Of the
levels that were left at first, the run has used at most four for every token, and the slack. -/
structure Halt (limit depth slack : Nat) (s : State) (error : SyntaxError) (t u : State) :
    Prop where
  cause_eq : error.cause = .nestingTooDeep limit
  length_eq : error.stack.length = limit
  location_eq : error.location = t.location
  moved : ∃ tokens, s.Moved tokens t ∧ depth ≤ 4 * tokens.length + slack
  passed : t.passed <:+ u.passed
  events : ∃ event older, event.isStep = true ∧ event :: older <:+ u.events ∧
    stackTold older = error.stack.reverse

inductive Agreed (limit depth slack : Nat) (T : State → Prop) (s : State) :
    EStateM.Result SyntaxError State α → EStateM.Result SyntaxError State α → Prop
  | ok {a : α} {t : State} (h : T t) : Agreed limit depth slack T s (.ok a t) (.ok a t)
  | error {e : SyntaxError} {t : State} (h : Fault e t) :
      Agreed limit depth slack T s (.error e t) (.error e t)
  | halt {e : SyntaxError} {t : State} {r : EStateM.Result SyntaxError State α}
      (h : Halt limit depth slack s e t (final r)) : Agreed limit depth slack T s (.error e t) r

/-- With `depth` levels of `limit` left, the first parser is the second one but for a cut-off. After
a success the state has the property `T`. -/
structure Cut (limit depth slack : Nat) (T : State → Prop) (p q : Parser α) : Prop where
  framed : Framed p
  framed' : Framed q
  run {s : State} (hlevels : s.stack.length + depth = limit) (htold : Told s) :
    Agreed limit depth slack T s (p.run s) (q.run s)

namespace Halt

variable {limit depth slack : Nat} {e : SyntaxError} {u' : State}

theorem mono (h : Halt limit depth slack s e t u) (honward : u.Onward u') :
    Halt limit depth slack s e t u' := by
  obtain ⟨event, older, hstep, hevents, htold⟩ := h.events
  exact
    { h with
      passed := h.passed.trans honward.passed_suffix
      events := ⟨event, older, hstep, hevents.trans honward.events, htold⟩ }

/-- Tokens that were consumed before give more room. -/
theorem after {tokens : List Token} {s' : State} {depth' slack' : Nat}
    (h : Halt limit depth' slack' s' e t u) (hmoved : s.Moved tokens s')
    (hslack : depth + slack' ≤ depth' + slack + 4 * tokens.length) :
    Halt limit depth slack s e t u := by
  obtain ⟨tokens', hmoved', hdepth⟩ := h.moved
  have hlength : (tokens ++ tokens').length = tokens.length + tokens'.length :=
    List.length_append
  exact { h with moved := ⟨tokens ++ tokens', hmoved.trans hmoved', by omega⟩ }

end Halt

theorem Agreed.cases {limit depth slack : Nat} {T : State → Prop}
    {r r' : EStateM.Result SyntaxError State α} (h : Agreed limit depth slack T s r r') :
    (∃ a t, r = .ok a t ∧ r' = .ok a t ∧ T t) ∨
      (∃ e t, r = .error e t ∧ r' = .error e t ∧ Fault e t) ∨
        ∃ e t, r = .error e t ∧ Halt limit depth slack s e t (final r') := by
  cases h with
  | ok h => exact .inl ⟨_, _, rfl, rfl, h⟩
  | error h => exact .inr (.inl ⟨_, _, rfl, rfl, h⟩)
  | halt h => exact .inr (.inr ⟨_, _, rfl, h⟩)

theorem Agreed.after {limit depth slack depth' slack' : Nat} {T : State → Prop} {s' : State}
    {tokens : List Token} {r r' : EStateM.Result SyntaxError State α}
    (h : Agreed limit depth' slack' T s' r r') (hmoved : s.Moved tokens s')
    (hslack : depth + slack' ≤ depth' + slack + 4 * tokens.length) :
    Agreed limit depth slack T s r r' := by
  cases h with
  | ok h => exact .ok h
  | error h => exact .error h
  | halt h => exact .halt (h.after hmoved hslack)

namespace Cut

variable {limit depth slack : Nat} {T : State → Prop} {p q : Parser α}

theorem mono {slack' : Nat} (h : Cut limit depth slack' T p q) (hslack : slack' ≤ slack) :
    Cut limit depth slack T p q where
  framed := h.framed
  framed' := h.framed'
  run {s} hlevels htold := (h.run hlevels htold).after (.refl s) (by simpa using hslack)

theorem outdated (h : Cut limit depth slack Told p q) : Cut limit depth slack Outdated p q where
  framed := h.framed
  framed' := h.framed'
  run {s} hlevels htold := by
    obtain ⟨a, t, hrun, hrun', ht⟩ | ⟨e, t, hrun, hrun', hfault⟩ | ⟨e, t, hrun, hhalt⟩ :=
      (h.run hlevels htold).cases
    · rw [hrun, hrun']
      exact .ok ht.outdated
    · rw [hrun, hrun']
      exact .error hfault
    · rw [hrun]
      exact .halt hhalt

theorem of_plain (h : Plain p) : Cut limit depth slack Told p p where
  framed := h.framed
  framed' := h.framed
  run {s} _ htold := by
    cases hrun : p.run s with
    | ok a t => exact .ok (h.ok hrun htold)
    | error e t => exact .error (h.error hrun htold)

theorem bind {f g : α → Parser β} (hp : Cut limit depth slack Told p q)
    (hf : ∀ a, Cut limit depth slack T (f a) (g a)) :
    Cut limit depth slack T (p >>= f) (q >>= g) where
  framed := compositional_framed.bind hp.framed fun a => (hf a).framed
  framed' := compositional_framed.bind hp.framed' fun a => (hf a).framed'
  run {s} hlevels htold := by
    obtain ⟨a, t, hrun, hrun', ht⟩ | ⟨e, t, hrun, hrun', hfault⟩ | ⟨e, t, hrun, hhalt⟩ :=
      (hp.run hlevels htold).cases
    · obtain ⟨honward, hstack⟩ := hp.framed.ok hrun
      obtain ⟨tokens, hmoved⟩ := honward.moved
      rw [run_bind_of_ok hrun, run_bind_of_ok hrun']
      exact ((hf a).run (by rwa [hstack]) ht).after hmoved (by omega)
    · rw [run_bind_of_error hrun, run_bind_of_error hrun']
      exact .error hfault
    · rw [run_bind_of_error hrun]
      exact .halt (hhalt.mono (onward_final_bind (fun a => (hf a).framed') s))

/-- A token gives room for four levels. -/
theorem expect_bind {wanted : Token.Kind} {f g : Token → Parser α} (hend : wanted ≠ .endOfInput)
    (hplain : Plain (expect wanted)) (hf : ∀ a, Cut limit depth (slack + 4) T (f a) (g a)) :
    Cut limit depth slack T (expect wanted >>= f) (expect wanted >>= g) where
  framed := compositional_framed.bind hplain.framed fun a => (hf a).framed
  framed' := compositional_framed.bind hplain.framed fun a => (hf a).framed'
  run {s} hlevels htold := by
    by_cases hkind : s.kind = wanted
    · obtain ⟨token, t, hrun, hmoved⟩ := run_expect_of_eq hend hkind
      obtain ⟨-, hstack⟩ := hplain.framed.ok hrun
      rw [run_bind_of_ok hrun, run_bind_of_ok hrun]
      have hlength : [token.1].length = 1 := List.length_singleton
      have hnext := (hf token.1).run (by rwa [hstack]) (hplain.ok hrun htold)
      exact hnext.after hmoved (by omega)
    · have hrun := (run_expect_of_ne hkind).trans (run_unexpected _ s)
      rw [run_bind_of_error hrun, run_bind_of_error hrun]
      exact .error (hplain.error hrun htold)

/-- A rule takes a level, and with its end the operations in it are over. -/
theorem parsing {rule : Rule} (hrule : rule ≠ .operation)
    (h : Cut limit depth slack Outdated p q) :
    Cut limit (depth + 1) (slack + 1) Told (Parser.parsing rule p) (Parser.parsing rule q) where
  framed := (compositional_framed.parsing rule h.framed).holds
  framed' := (compositional_framed.parsing rule h.framed').holds
  run {s} hlevels htold := by
    have hlevels' : (s.entered rule).stack.length + depth = limit := by
      rw [← hlevels, ← Nat.add_assoc, Nat.add_right_comm]
      rfl
    obtain ⟨a, t, hrun, hrun', ht⟩ | ⟨e, t, hrun, hrun', hfault⟩ | ⟨e, t, hrun, hhalt⟩ :=
      (h.run hlevels' (htold.entered rule)).cases
    · rw [run_parsing_of_ok hrun, run_parsing_of_ok hrun']
      exact .ok (ht.exited (h.framed.ok hrun).2 hrule)
    · rw [run_parsing_of_error hrun, run_parsing_of_error hrun']
      exact .error hfault
    · rw [run_parsing_of_error hrun]
      have hlength : ([] : List Token).length = 0 := List.length_nil
      have hhalt' := hhalt.mono (onward_final_parsing q rule s)
      exact .halt (hhalt'.after (s.moved_entered rule) (by omega))

/-- An operation takes a level, which is not given back before the end of its chain is recorded. -/
theorem run_inside (h : Cut limit depth slack Outdated p q)
    (hlevels : (s.pushed .operation).stack.length + depth = limit)
    (htold : Told (s.pushed .operation)) :
    Agreed limit depth slack Outdated (s.pushed .operation) ((inside .operation p).run s)
      ((inside .operation q).run s) := by
  obtain ⟨a, t, hrun, hrun', ht⟩ | ⟨e, t, hrun, hrun', hfault⟩ | ⟨e, t, hrun, hhalt⟩ :=
    (h.run hlevels htold).cases
  · rw [run_inside_of_ok hrun, run_inside_of_ok hrun']
    exact .ok (ht.popped (h.framed.ok hrun).2)
  · rw [run_inside_of_error hrun, run_inside_of_error hrun']
    exact .error hfault
  · rw [run_inside_of_error hrun]
    exact .halt (hhalt.mono (onward_final_inside q .operation s))

/-- Without a level left a rule is not entered, and the other parser starts it. -/
theorem refuse {rule : Rule} (h : Starts Framed rule q) :
    Cut limit 0 slack Told (Parser.refuse limit rule) q where
  framed := (compositional_framed.refuse limit rule).holds
  framed' := h.holds
  run {s} hlevels htold := by
    obtain ⟨-, rest, rfl, hrest⟩ := h
    have honward := hrest.onward (s.report (.started rule s.ahead.head?))
    have hfinal : final ((start rule >>= fun _ => rest).run s) =
        final (rest.run (s.report (.started rule s.ahead.head?))) := rfl
    refine .halt (e := ⟨.nestingTooDeep limit, s.location, s.stack.reverse⟩) ?_
    exact
      { cause_eq := rfl
        length_eq := by rw [List.length_reverse, ← hlevels, Nat.add_zero]
        location_eq := rfl
        moved := ⟨[], .still rfl rfl, Nat.zero_le _⟩
        passed := hfinal ▸ honward.passed_suffix
        events := ⟨.started rule s.ahead.head?, s.events, rfl, hfinal ▸ honward.events,
          htold.trans (List.reverse_reverse _).symm⟩ }

/-- A parser that succeeds or fails where it stands, without a look at the levels. -/
theorem pure (a : α) : Cut limit depth slack Told (Pure.pure a : Parser α) (Pure.pure a) :=
  of_plain (.pure a)

theorem unexpected {cause : Token → SyntaxError.Cause}
    (hcause : ∀ found limit, cause found ≠ .nestingTooDeep limit) :
    Cut limit depth slack Told (Parser.unexpected cause : Parser α) (Parser.unexpected cause) :=
  of_plain (.unexpected hcause)

end Cut

variable {config config' : ParserConfig} {extra depth depth' : Nat}

def slackOf : Precedence → Nat
  | .sum => 2
  | .product => 1

/-- With fewer levels all rules are what they are with `extra` levels more, but for a cut-off. The
slack is largest for the rules that take the most levels before they consume a token. -/
structure CutOff (config config' : ParserConfig) (extra depth : Nat) : Prop where
  sequence :
    Cut config.maxDepth depth 3 Told (sequence config depth) (sequence config' (extra + depth))
  statement :
    Cut config.maxDepth depth 2 Told (statement config depth) (statement config' (extra + depth))
  conditional :
    Cut config.maxDepth depth 1 Told (conditional config depth)
      (conditional config' (extra + depth))
  loop :
    Cut config.maxDepth depth 1 Told (loop config depth) (loop config' (extra + depth))
  assign :
    Cut config.maxDepth depth 1 Told (assign config depth) (assign config' (extra + depth))
  read :
    Cut config.maxDepth depth 1 Told (read config depth) (read config' (extra + depth))
  write :
    Cut config.maxDepth depth 1 Told (write config depth) (write config' (extra + depth))
  comparison :
    Cut config.maxDepth depth 4 Told (comparison config depth) (comparison config' (extra + depth))
  chain (level : Precedence) :
    Cut config.maxDepth depth (slackOf level + 1) Told (chain config level depth)
      (chain config' level (extra + depth))
  links (level : Precedence) (left : Expr) :
    Cut config.maxDepth depth 0 Outdated (links config level depth left)
      (links config' level (extra + depth) left)
  factor :
    Cut config.maxDepth depth 1 Told (factor config depth) (factor config' (extra + depth))

theorem cut_followers {limit slack : Nat} {statement statement' : Parser Stmt}
    (htrailing : config.trailingSemicolon = config'.trailingSemicolon)
    (h : Cut limit depth slack Told statement statement') (rounds : Nat) :
    Cut limit depth slack Told (followers config statement rounds)
      (followers config' statement' rounds) := by
  induction rounds with
  | zero => exact .pure []
  | succ rounds ih =>
    refine .bind (.of_plain (.acceptKind rfl)) fun next => ?_
    cases next with
    | none => exact .pure []
    | some token =>
      refine .bind (.of_plain .kind) fun kind => ?_
      rw [htrailing]
      split
      · exact .pure []
      · exact .bind h fun first => .bind ih fun rest => .pure (first :: rest)

namespace CutOff

theorem operand (hd : CutOff config config' extra depth) (level : Precedence) :
    Cut config.maxDepth depth (slackOf level) Told (operand config level depth)
      (operand config' level (extra + depth)) := by
  cases level with
  | sum => exact hd.chain .product
  | product => exact hd.factor

theorem sequence_succ (hd : CutOff config config' extra depth)
    (htrailing : config.trailingSemicolon = config'.trailingSemicolon) :
    Cut config.maxDepth (depth + 1) 3 Told (Parser.sequence config (depth + 1))
      (Parser.sequence config' (extra + depth + 1)) := by
  rw [Parser.sequence, Parser.sequence]
  refine .parsing (by decide) (.outdated ?_)
  exact .bind hd.statement fun first => .bind (.of_plain .get) fun s =>
    .bind (cut_followers htrailing hd.statement _) fun rest => .pure (first :: rest)

theorem statement_succ (hd : CutOff config config' extra depth) :
    Cut config.maxDepth (depth + 1) 2 Told (Parser.statement config (depth + 1))
      (Parser.statement config' (extra + depth + 1)) := by
  rw [Parser.statement_succ, Parser.statement_succ]
  refine .parsing (by decide) (.outdated (.bind (.of_plain .kind) fun first => ?_))
  unfold form
  split
  · exact hd.conditional
  · exact hd.loop
  · exact hd.assign
  · exact hd.read
  · exact hd.write
  · exact .unexpected fun _ _ => nofun

theorem conditional_succ (hd : CutOff config config' extra depth) :
    Cut config.maxDepth (depth + 1) 1 Told (Parser.conditional config (depth + 1))
      (Parser.conditional config' (extra + depth + 1)) := by
  rw [Parser.conditional, Parser.conditional]
  refine .parsing (by decide) (.expect_bind (by decide) (.expect rfl) fun keyword => .outdated ?_)
  exact .bind hd.comparison fun _ => .bind (.of_plain (.expect rfl)) fun _ =>
    .bind (hd.sequence.mono (by decide)) fun _ => .bind (.of_plain (.expect rfl)) fun _ =>
      .pure _

theorem loop_succ (hd : CutOff config config' extra depth) :
    Cut config.maxDepth (depth + 1) 1 Told (Parser.loop config (depth + 1))
      (Parser.loop config' (extra + depth + 1)) := by
  rw [Parser.loop, Parser.loop]
  refine .parsing (by decide) (.expect_bind (by decide) (.expect rfl) fun keyword => .outdated ?_)
  exact .bind (hd.sequence.mono (by decide)) fun _ => .bind (.of_plain (.expect rfl)) fun _ =>
    .bind hd.comparison fun _ => .pure _

theorem assign_succ (hd : CutOff config config' extra depth) :
    Cut config.maxDepth (depth + 1) 1 Told (Parser.assign config (depth + 1))
      (Parser.assign config' (extra + depth + 1)) := by
  rw [Parser.assign, Parser.assign]
  refine .parsing (by decide) (.expect_bind (by decide) (.expect rfl) fun target => .outdated ?_)
  exact .bind (.of_plain (.expect rfl)) fun _ => .bind hd.comparison fun _ => .pure _

theorem read_succ : Cut config.maxDepth (depth + 1) 1 Told (Parser.read config (depth + 1))
    (Parser.read config' (extra + depth + 1)) := by
  rw [Parser.read, Parser.read]
  refine .parsing (by decide) (.expect_bind (by decide) (.expect rfl) fun keyword => .outdated ?_)
  exact .bind (.of_plain (.expect rfl)) fun _ => .pure _

theorem write_succ (hd : CutOff config config' extra depth) :
    Cut config.maxDepth (depth + 1) 1 Told (Parser.write config (depth + 1))
      (Parser.write config' (extra + depth + 1)) := by
  rw [Parser.write, Parser.write]
  refine .parsing (by decide) (.expect_bind (by decide) (.expect rfl) fun keyword => .outdated ?_)
  exact .bind hd.comparison fun _ => .pure _

theorem comparison_succ (hd : CutOff config config' extra depth) :
    Cut config.maxDepth (depth + 1) 4 Told (Parser.comparison config (depth + 1))
      (Parser.comparison config' (extra + depth + 1)) := by
  rw [Parser.comparison, Parser.comparison]
  refine .parsing (by decide) (.outdated ?_)
  refine .bind (hd.chain .sum) fun left => .bind (.of_plain .comparisonSign) fun next => ?_
  cases next with
  | none => exact .pure left
  | some sign => exact .bind (hd.chain .sum) fun _ => .pure _

theorem chain_succ (hd : CutOff config config' extra depth) (level : Precedence) :
    Cut config.maxDepth (depth + 1) (slackOf level + 1) Told (Parser.chain config level (depth + 1))
      (Parser.chain config' level (extra + depth + 1)) := by
  rw [Parser.chain_succ, Parser.chain_succ]
  refine .parsing (chainRule_ne_operation level) (.bind (hd.operand level) fun left => ?_)
  exact (hd.links level left).mono (Nat.zero_le _)

theorem factor_succ (hd : CutOff config config' extra depth) :
    Cut config.maxDepth (depth + 1) 1 Told (Parser.factor config (depth + 1))
      (Parser.factor config' (extra + depth + 1)) := by
  rw [Parser.factor_succ, Parser.factor_succ]
  refine .parsing (by decide) (.outdated (.bind (.of_plain .kind) fun first => ?_))
  unfold factorForm
  split
  · refine .expect_bind (by decide) (.expect rfl) fun _ => ?_
    exact .bind hd.comparison fun inner => .bind (.of_plain (.expect rfl)) fun _ => .pure inner
  · exact .of_plain .number
  · exact .of_plain .name
  · exact .unexpected fun _ _ => nofun

/-- An operator of a chain is consumed, and from then on the parse is inside of an operation. -/
theorem links_of_sign {level : Precedence} {left : Expr}
    (hsign : ∀ {s : State} {token : Token} {rest : List Token} (sign : Operator × Span),
      s.stack.length + depth = config.maxDepth → Told s → s.Moved [token] (s.advance token rest) →
      token.kind.isSign [.plus, .minus, .times, .divide] = true →
      Agreed config.maxDepth depth 0 Outdated s
        ((link config level depth left (some sign)).run (s.advance token rest))
        ((link config' level depth' left (some sign)).run (s.advance token rest))) :
    Cut config.maxDepth depth 0 Outdated (Parser.links config level depth left)
      (Parser.links config' level depth' left) where
  framed := (compositional_framed.pervades config depth).links level left
  framed' := (compositional_framed.pervades config' depth').links level left
  run {s} hlevels htold := by
    rw [links_eq, links_eq]
    cases hkind : s.kind.isSign level.operators with
    | false =>
      have hrun := run_operator?_of_not hkind
      rw [run_bind_of_ok hrun, run_bind_of_ok hrun, link_none, link_none]
      exact .ok htold.outdated
    | true =>
      obtain ⟨sign, t, hrun, -⟩ := run_operator?_of_isSign hkind
      obtain ⟨token, rest, hahead, hend, hlevel, rfl⟩ := run_operator?_eq_some hrun
      rw [run_bind_of_ok hrun, run_bind_of_ok hrun]
      exact hsign _ hlevels htold (State.moved_advance hahead hend) (isSign_of_operators hlevel)

theorem links_zero (level : Precedence) (left : Expr) :
    Cut config.maxDepth 0 0 Outdated (Parser.links config level 0 left)
      (Parser.links config' level depth' left) := by
  refine links_of_sign fun {s token rest} sign hlevels htold hmoved hkind => ?_
  have hframed := compositional_framed.link config' level depth' left (some sign)
  have honward := hframed.onward (s.advance token rest)
  -- The sign is consumed before it turns out that there is no level left for the operation.
  refine .halt (e := ⟨.nestingTooDeep config.maxDepth, (s.advance token rest).location,
    s.stack.reverse⟩) ?_
  exact
    { cause_eq := rfl
      length_eq := by rw [List.length_reverse, ← hlevels, Nat.add_zero]
      location_eq := rfl
      moved := ⟨[token], hmoved.trans (.still rfl rfl), Nat.zero_le _⟩
      passed := honward.passed_suffix
      events := ⟨.consumed token, s.events, rfl, honward.events,
        htold.trans (List.reverse_reverse _).symm⟩ }

theorem links_succ (hd : CutOff config config' extra depth) (level : Precedence)
    (left : Expr) :
    Cut config.maxDepth (depth + 1) 0 Outdated (Parser.links config level (depth + 1) left)
      (Parser.links config' level (extra + depth + 1) left) := by
  refine links_of_sign fun {s token rest} sign hlevels htold hmoved hkind => ?_
  obtain ⟨op, span⟩ := sign
  have hslack : slackOf level ≤ 3 := by cases level <;> decide
  have hbody : Cut config.maxDepth depth 3 Outdated
      (Parser.operand config level depth >>= fun right =>
        Parser.links config level depth (.binary op left right span))
      (Parser.operand config' level (extra + depth) >>= fun right =>
        Parser.links config' level (extra + depth) (.binary op left right span)) :=
    .bind ((hd.operand level).mono hslack) fun right => (hd.links level _).mono (Nat.zero_le _)
  have hlevels' : ((s.advance token rest).pushed .operation).stack.length + depth =
      config.maxDepth := by
    rw [← hlevels, ← Nat.add_assoc, Nat.add_right_comm]
    rfl
  -- The token of the sign makes up for the level of the operation and for those of its operand.
  have hmoved' : s.Moved [token] ((s.advance token rest).pushed .operation) :=
    hmoved.trans (State.moved_pushed _ _)
  have hlength : [token].length = 1 := List.length_singleton
  exact (hbody.run_inside hlevels' (htold.operation rest hkind)).after hmoved' (by omega)

end CutOff

theorem cutOff_zero (config config' : ParserConfig) (extra : Nat) :
    CutOff config config' extra 0 :=
  have hd := compositional_framed.pervades config' extra
  { sequence := .refuse hd.sequence
    statement := .refuse hd.statement
    conditional := .refuse hd.conditional
    loop := .refuse hd.loop
    assign := .refuse hd.assign
    read := .refuse hd.read
    write := .refuse hd.write
    comparison := .refuse hd.comparison
    chain level := by
      rw [chain_zero]
      exact .refuse (hd.chain level)
    links level left := CutOff.links_zero level left
    factor := .refuse hd.factor }

theorem cutOff (htrailing : config.trailingSemicolon = config'.trailingSemicolon)
    (extra depth : Nat) : CutOff config config' extra depth := by
  -- On the levels of the first parse. The second one has always `extra` levels more.
  induction depth with
  | zero => exact cutOff_zero config config' extra
  | succ depth hd => exact
    { sequence := hd.sequence_succ htrailing
      statement := hd.statement_succ
      conditional := hd.conditional_succ
      loop := hd.loop_succ
      assign := hd.assign_succ
      read := CutOff.read_succ
      write := hd.write_succ
      comparison := hd.comparison_succ
      chain := hd.chain_succ
      links := hd.links_succ
      factor := hd.factor_succ }

theorem cut_program (htrailing : config.trailingSemicolon = config'.trailingSemicolon)
    (hdepth : config.maxDepth = depth) (hdepth' : config'.maxDepth = extra + depth) :
    Cut config.maxDepth depth 4 Told (program config) (program config') := by
  cases depth with
  | zero =>
    rw [program_zero config hdepth]
    exact .refuse (compositional_framed.program config')
  | succ depth =>
    rw [program_succ config hdepth, program_succ config' hdepth']
    have hd := cutOff htrailing extra depth
    have hbody : Cut config.maxDepth depth 3 Told (sequence config depth >>= ending)
        (sequence config' (extra + depth) >>= ending) :=
      .bind hd.sequence fun body => .of_plain (.ending body)
    refine .bind (.parsing (by decide) hbody.outdated) fun program => ?_
    exact .bind (.of_plain (.parsed _)) fun _ => .pure program

end Parser

namespace Program

open TinyLang.Parser

variable {config config' : ParserConfig} {tokens : List Token}

theorem events_trace (config : ParserConfig) (tokens : List Token) :
    (trace config tokens).2 =
      (final ((program config).run { ahead := tokens })).events.reverse := by
  rw [trace]
  cases (program config).run { ahead := tokens } <;> rfl

theorem consumed_eq (config : ParserConfig) (tokens : List Token) :
    consumed config tokens =
      (final ((program config).run { ahead := tokens })).passed.reverse := by
  rw [consumed]
  cases (program config).run { ahead := tokens } <;> rfl

/-- Two parses of the same tokens, of which the first one has no more levels. -/
theorem agreed_run (htrailing : config.trailingSemicolon = config'.trailingSemicolon)
    (hle : config.maxDepth ≤ config'.maxDepth) (tokens : List Token) :
    Agreed config.maxDepth config.maxDepth 4 Told { ahead := tokens }
      ((program config).run { ahead := tokens }) ((program config').run { ahead := tokens }) := by
  obtain ⟨extra, hextra⟩ := Nat.exists_eq_add_of_le' hle
  have hcut := cut_program htrailing rfl hextra
  exact hcut.run (Nat.zero_add _) rfl

/-- A parse that is not cut off does not change with more levels. -/
theorem parse_eq_of_not_tooDeep (htrailing : config.trailingSemicolon = config'.trailingSemicolon)
    (hle : config.maxDepth ≤ config'.maxDepth) (h : ¬ TooDeep config tokens) :
    parse config' tokens = parse config tokens := by
  obtain ⟨a, t, hrun, hrun', -⟩ | ⟨e, t, hrun, hrun', -⟩ | ⟨e, t, hrun, hhalt⟩ :=
    (agreed_run htrailing hle tokens).cases
  · rw [parse_eq_ok_iff.mpr ⟨t, hrun⟩, parse_eq_ok_iff.mpr ⟨t, hrun'⟩]
  · rw [parse_eq_error_iff.mpr ⟨t, hrun⟩, parse_eq_error_iff.mpr ⟨t, hrun'⟩]
  · exact absurd ⟨e, _, parse_eq_error_iff.mpr ⟨t, hrun⟩, hhalt.cause_eq⟩ h

/-- A parse that fails is cut off beside the one with more levels, or it fails for another cause. -/
theorem halt_or_fault (htrailing : config.trailingSemicolon = config'.trailingSemicolon)
    (hle : config.maxDepth ≤ config'.maxDepth) {error : SyntaxError} {t : State}
    (hrun : (program config).run { ahead := tokens } = .error error t) :
    Halt config.maxDepth config.maxDepth 4 { ahead := tokens } error t
      (final ((program config').run { ahead := tokens })) ∨ Fault error t := by
  have hagreed := agreed_run htrailing hle tokens
  rw [hrun] at hagreed
  obtain ⟨a, t, h, -⟩ | ⟨e, t, h, -, hfault⟩ | ⟨e, t, h, hhalt⟩ := hagreed.cases
  · cases h
  · cases h
    exact .inr hfault
  · cases h
    exact .inl hhalt

/-- Where a parse is cut off, beside a parse with no fewer levels. -/
theorem cut_of_tooDeep {error : SyntaxError} {limit : Nat} (h : parse config tokens = .error error)
    (hcause : error.cause = .nestingTooDeep limit) (config' : ParserConfig)
    (htrailing : config.trailingSemicolon = config'.trailingSemicolon)
    (hle : config.maxDepth ≤ config'.maxDepth) :
    error.cause = .nestingTooDeep config.maxDepth ∧ error.stack.length = config.maxDepth ∧
      config.maxDepth ≤ 4 * tokens.length + 4 ∧ Reaches config' tokens error.stack ∧
      consumed config tokens <+: consumed config' tokens ∧
      error.location = Token.errorSpan tokens (consumed config tokens).length := by
  obtain ⟨t, hrun⟩ := parse_eq_error_iff.mp h
  have hhalt := (halt_or_fault htrailing hle hrun).resolve_right fun hfault =>
    hfault.cause_ne limit hcause
  obtain ⟨front, hmoved, hlevels⟩ := hhalt.moved
  have hconsumed := consumed_of_error hrun hmoved
  have hlength : front.length ≤ tokens.length := hmoved.length_tokens_le
  refine ⟨hhalt.cause_eq, hhalt.length_eq, by omega, ?_, ?_, ?_⟩
  · obtain ⟨event, older, hstep, ⟨later, hevents⟩, htold⟩ := hhalt.events
    refine ⟨older.reverse, event, later.reverse, ?_, hstep, ?_⟩
    · rw [events_trace, ← hevents]
      simp
    · rw [List.reverse_reverse, htold, List.reverse_reverse]
  · rw [consumed_eq, consumed_eq, hrun, List.reverse_prefix]
    exact hhalt.passed
  · rw [hhalt.location_eq, hconsumed, hmoved.location_eq]

/-- The record of a parse that is not cut off tells the stack of its error. -/
theorem stackTold_of_parse {error : SyntaxError} (h : parse config tokens = .error error)
    (hdeep : ¬ TooDeep config tokens) :
    ∃ front, (trace config tokens).2 = front ++ [.failed error] ∧
      (ParseEvent.stackTold front.reverse).reverse = error.stack := by
  obtain ⟨t, hrun⟩ := parse_eq_error_iff.mp h
  have hfault := (halt_or_fault rfl (Nat.le_refl config.maxDepth) hrun).resolve_left fun hhalt =>
    hdeep ⟨error, _, h, hhalt.cause_eq⟩
  obtain ⟨older, hevents, htold⟩ := hfault.events
  refine ⟨older.reverse, ?_, ?_⟩
  · rw [events_trace, hrun, final, hevents, List.reverse_cons]
  · rw [List.reverse_reverse, htold, List.reverse_reverse]

/-- The limit of levels only cuts a parse off. A parse that is not cut off is the same with more
levels. If a parse is cut off, so is the one with fewer levels, at no later token: the levels are
used up, and the parse with more levels has been inside of the same rules when it went on. With four
levels for every token and eight more, no parse is cut off. -/
theorem parse_cutoff (tokens : List Token) (trailing : Bool) {depth depth' : Nat}
    (hle : depth ≤ depth') :
    (¬ TooDeep ⟨depth, trailing⟩ tokens →
      parse ⟨depth', trailing⟩ tokens = parse ⟨depth, trailing⟩ tokens) ∧
    (∀ error' limit, parse ⟨depth', trailing⟩ tokens = .error error' →
      error'.cause = .nestingTooDeep limit →
      ∃ error, parse ⟨depth, trailing⟩ tokens = .error error ∧
        error.cause = .nestingTooDeep depth ∧ error.stack.length = depth ∧
        Reaches ⟨depth', trailing⟩ tokens error.stack ∧
        consumed ⟨depth, trailing⟩ tokens <+: consumed ⟨depth', trailing⟩ tokens ∧
        error.location = Token.errorSpan tokens (consumed ⟨depth, trailing⟩ tokens).length ∧
        error'.location = Token.errorSpan tokens (consumed ⟨depth', trailing⟩ tokens).length) ∧
    (4 * tokens.length + 8 ≤ depth → ¬ TooDeep ⟨depth, trailing⟩ tokens) := by
  have hsame : ¬ TooDeep ⟨depth, trailing⟩ tokens →
      parse ⟨depth', trailing⟩ tokens = parse ⟨depth, trailing⟩ tokens :=
    parse_eq_of_not_tooDeep rfl hle
  refine ⟨hsame, fun error' limit herror' hcause' => ?_, fun hbound => ?_⟩
  · have hdeep : TooDeep ⟨depth, trailing⟩ tokens := by
      by_contra hnot
      rw [hsame hnot] at herror'
      exact hnot ⟨error', limit, herror', hcause'⟩
    obtain ⟨error, limit, herror, hcause⟩ := hdeep
    obtain ⟨hlimit, hstack, -, hreaches, hconsumed, hlocation⟩ :=
      cut_of_tooDeep herror hcause ⟨depth', trailing⟩ rfl hle
    obtain ⟨-, -, -, -, -, hlocation'⟩ :=
      cut_of_tooDeep herror' hcause' ⟨depth', trailing⟩ rfl (Nat.le_refl _)
    exact ⟨error, herror, hlimit, hstack, hreaches, hconsumed, hlocation, hlocation'⟩
  · rintro ⟨error, limit, herror, hcause⟩
    obtain ⟨-, -, hlevels, -⟩ := cut_of_tooDeep herror hcause _ rfl (Nat.le_refl _)
    change depth ≤ 4 * tokens.length + 4 at hlevels
    omega

/-- Eight levels are used up before `y` in `x - y - z`, and nine before `z`. Ten are enough. -/
theorem parse_cutoff_of_differences :
    (∃ error, parse ⟨8, false⟩ differences.tokens = .error error ∧
      error.cause = .nestingTooDeep 8 ∧ error.stack.length = 8 ∧
      Reaches ⟨9, false⟩ differences.tokens error.stack ∧
      (consumed ⟨8, false⟩ differences.tokens).length = 3 ∧
      (consumed ⟨9, false⟩ differences.tokens).length = 5) ∧
    parse ⟨256, false⟩ differences.tokens = parse ⟨10, false⟩ differences.tokens ∧
    ¬ TooDeep ⟨32, false⟩ differences.tokens := by
  have hnine : ∃ error, parse ⟨9, false⟩ differences.tokens = .error error ∧
      error.cause = .nestingTooDeep 9 := ⟨_, rfl, rfl⟩
  have hten : parse ⟨10, false⟩ differences.tokens = .ok differences.tree := rfl
  refine ⟨?_, ?_, ?_⟩
  · obtain ⟨error', herror', hcause'⟩ := hnine
    obtain ⟨error, herror, hcause, hstack, hreaches, -⟩ :=
      (parse_cutoff differences.tokens false (by decide : 8 ≤ 9)).2.1 error' 9 herror' hcause'
    exact ⟨error, herror, hcause, hstack, hreaches, rfl, rfl⟩
  · refine (parse_cutoff differences.tokens false (by decide : 10 ≤ 256)).1 ?_
    rintro ⟨error, limit, herror, -⟩
    rw [hten] at herror
    cases herror
  · exact (parse_cutoff differences.tokens false (by decide : 32 ≤ 32)).2.2 (by decide)

end Program

end TinyLang

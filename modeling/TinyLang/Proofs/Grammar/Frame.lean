import TinyLang.Proofs.Grammar.Likeness

/-!
What holds of the few steps that a parse is made of, and stays true when steps follow each other,
holds of all rules.
-/
namespace TinyLang.Parser

variable {α β : Type}

/-- A property of parsers that the steps have, and that is kept when steps are put together. -/
structure Compositional (P : {α : Type} → Parser α → Prop) : Prop where
  pure {α : Type} (a : α) : P (Pure.pure a)
  bind {α β : Type} {p : Parser α} {f : α → Parser β} (hp : P p) (hf : ∀ a, P (f a)) : P (p >>= f)
  /-- A step may look at the consumed tokens and at the token ahead. -/
  look {α β : Type} (view : State → α) {f : α → Parser β}
    (hview : ∀ s t : State, s.passed = t.passed → s.ahead.head? = t.ahead.head? → view s = view t)
    (hf : ∀ a, P (f a)) : P (get >>= fun s => f (view s))
  rounds {α : Type} {f : Nat → Parser α} (hf : EnoughRounds f) (h : ∀ count, P (f count)) :
    P (get >>= fun s => f s.ahead.length)
  report (event : ParseEvent) : P (Parser.report event)
  failAt {α : Type} (location : Span) (cause : SyntaxError.Cause) :
    P (Parser.failAt location cause : Parser α)
  accept? (wanted : Token.Kind → Bool) : P (Parser.accept? wanted)
  inside {α : Type} (rule : Rule) {p : Parser α} (hp : P p) : P (Parser.inside rule p)

/-- The parser has the property, and begins by recording the start of a rule. What it does after
that has the property as well. -/
structure Starts (P : {α : Type} → Parser α → Prop) (rule : Rule) (p : Parser α) : Prop where
  holds : P p
  exists_rest : ∃ rest : Parser α, p = (start rule >>= fun _ => rest) ∧ P rest

namespace Compositional

variable {P : {α : Type} → Parser α → Prop} (h : Compositional P)
include h

theorem kind : P kind := h.look State.kind (fun _ _ _ => State.kind_congr) h.pure

theorem fail (cause : SyntaxError.Cause) : P (Parser.fail cause : Parser α) :=
  h.look State.location (fun _ _ => State.location_congr) fun location => h.failAt location cause

theorem unexpected (cause : Token → SyntaxError.Cause) : P (Parser.unexpected cause : Parser α) :=
  h.look State.found (f := fun found =>
      Parser.fail (if found.kind = .unknown then .ofUnknown found.lexeme else cause found))
    (fun _ _ => State.found_congr) fun _ => h.fail _

theorem expect (wanted : Token.Kind) : P (Parser.expect wanted) := by
  refine h.bind (h.accept? _) fun next => ?_
  cases next with
  | none => exact h.unexpected _
  | some token => exact h.pure token

theorem operator? (wanted : List Operator) : P (Parser.operator? wanted) := by
  refine h.bind (h.accept? _) fun next => ?_
  cases next <;> exact h.pure _

theorem starts (rule : Rule) {rest : Parser α} (hrest : P rest) :
    Starts P rule (start rule >>= fun _ => rest) := by
  have hstart : P (start rule) :=
    h.look (fun s => s.ahead.head?) (fun _ _ _ hhead => hhead) fun next => h.report (.started rule next)
  exact ⟨h.bind hstart fun _ => hrest, rest, rfl, hrest⟩

theorem parsing (rule : Rule) {p : Parser α} (hp : P p) : Starts P rule (Parser.parsing rule p) :=
  h.starts rule <| h.bind (h.inside rule hp) fun result => h.bind (h.report _) fun _ =>
    h.pure result

theorem refuse (limit : Nat) (rule : Rule) :
    Starts P rule (Parser.refuse limit rule : Parser α) :=
  h.starts rule (h.fail _)

theorem starts_bind {rule : Rule} {p : Parser α} {f : α → Parser β} (hp : Starts P rule p)
    (hf : ∀ a, P (f a)) : Starts P rule (p >>= f) := by
  obtain ⟨-, rest, rfl, hrest⟩ := hp
  rw [bind_assoc]
  exact h.starts rule (h.bind hrest hf)

theorem number : P number := by
  refine h.bind (h.expect _) fun token => ?_
  split
  · exact h.pure _
  · exact h.failAt _ _

theorem followers (config : ParserConfig) {statement : Parser Stmt} (hs : P statement)
    (rounds : Nat) : P (Parser.followers config statement rounds) := by
  induction rounds with
  | zero => exact h.pure []
  | succ rounds ih =>
    refine h.bind (h.accept? _) fun next => ?_
    cases next with
    | none => exact h.pure []
    | some token =>
      refine h.bind h.kind fun kind => ?_
      split
      · exact h.pure []
      · exact h.bind hs fun next => h.bind ih fun rest => h.pure (next :: rest)

end Compositional

structure Pervades (P : {α : Type} → Parser α → Prop) (config : ParserConfig) (depth : Nat) :
    Prop where
  sequence : Starts P .sequence (sequence config depth)
  statement : Starts P .statement (statement config depth)
  conditional : Starts P .conditional (conditional config depth)
  loop : Starts P .loop (loop config depth)
  assign : Starts P .assign (assign config depth)
  read : Starts P .read (read config depth)
  write : Starts P .write (write config depth)
  comparison : Starts P .comparison (comparison config depth)
  chain (level : Precedence) : Starts P (chainRule level) (chain config level depth)
  links (level : Precedence) (left : Expr) : P (links config level depth left)
  factor : Starts P .factor (factor config depth)

namespace Compositional

variable {P : {α : Type} → Parser α → Prop} {config : ParserConfig} {depth : Nat}

theorem operand (hd : Pervades P config depth) (level : Precedence) :
    P (operand config level depth) := by
  cases level with
  | sum => exact (hd.chain .product).holds
  | product => exact hd.factor.holds

variable (h : Compositional P)
include h

theorem form (hd : Pervades P config depth) (first : Token.Kind) : P (form config first depth) := by
  unfold Parser.form
  split
  · exact hd.conditional.holds
  · exact hd.loop.holds
  · exact hd.assign.holds
  · exact hd.read.holds
  · exact hd.write.holds
  · exact h.unexpected _

theorem factorForm (hd : Pervades P config depth) (first : Token.Kind) :
    P (factorForm config first depth) := by
  unfold Parser.factorForm
  split
  · exact h.bind (h.expect _) fun _ => h.bind hd.comparison.holds fun inner =>
      h.bind (h.expect _) fun _ => h.pure inner
  · exact h.number
  · exact h.bind (h.expect _) fun _ => h.pure _
  · exact h.unexpected _

theorem links {level : Precedence} {left : Expr}
    (hlink : ∀ next, P (link config level depth left next)) :
    P (links config level depth left) := by
  rw [links_eq]
  exact h.bind (h.operator? _) hlink

theorem link_zero (level : Precedence) (left : Expr) (next : Option (Operator × Span)) :
    P (link config level 0 left next) := by
  cases next with
  | none => exact h.pure left
  | some sign => exact h.fail _

theorem link_succ (hd : Pervades P config depth) (level : Precedence) (left : Expr)
    (next : Option (Operator × Span)) : P (link config level (depth + 1) left next) := by
  cases next with
  | none => exact h.pure left
  | some sign => exact h.inside _ <| h.bind (operand hd level) fun _ => hd.links level _

theorem pervades_zero (config : ParserConfig) : Pervades P config 0 where
  sequence := h.refuse _ _
  statement := h.refuse _ _
  conditional := h.refuse _ _
  loop := h.refuse _ _
  assign := h.refuse _ _
  read := h.refuse _ _
  write := h.refuse _ _
  comparison := h.refuse _ _
  chain level := by
    rw [chain_zero]
    exact h.refuse _ _
  links level left := h.links (h.link_zero level left)
  factor := h.refuse _ _

theorem pervades_succ (hd : Pervades P config depth) : Pervades P config (depth + 1) where
  sequence := by
    rw [Parser.sequence]
    refine h.parsing _ <| h.bind hd.statement.holds fun first => ?_
    have hrest (count : Nat) : P (Parser.followers config (Parser.statement config depth) count >>=
        fun rest => Pure.pure (first :: rest)) :=
      h.bind (h.followers config hd.statement.holds count) fun rest => h.pure (first :: rest)
    exact h.rounds (enoughRounds_followers config depth first) hrest
  statement := by
    rw [statement_succ]
    exact h.parsing _ <| h.bind h.kind fun first => h.form hd first
  conditional := by
    rw [Parser.conditional]
    exact h.parsing _ <| h.bind (h.expect _) fun _ => h.bind hd.comparison.holds fun _ =>
      h.bind (h.expect _) fun _ => h.bind hd.sequence.holds fun _ => h.bind (h.expect _) fun _ =>
        h.pure _
  loop := by
    rw [Parser.loop]
    exact h.parsing _ <| h.bind (h.expect _) fun _ => h.bind hd.sequence.holds fun _ =>
      h.bind (h.expect _) fun _ => h.bind hd.comparison.holds fun _ => h.pure _
  assign := by
    rw [Parser.assign]
    exact h.parsing _ <| h.bind (h.expect _) fun _ => h.bind (h.expect _) fun _ =>
      h.bind hd.comparison.holds fun _ => h.pure _
  read := by
    rw [Parser.read]
    exact h.parsing _ <| h.bind (h.expect _) fun _ => h.bind (h.expect _) fun _ => h.pure _
  write := by
    rw [Parser.write]
    exact h.parsing _ <| h.bind (h.expect _) fun _ => h.bind hd.comparison.holds fun _ => h.pure _
  comparison := by
    rw [Parser.comparison]
    refine h.parsing _ <| h.bind (hd.chain .sum).holds fun left => ?_
    refine h.bind (h.operator? _) fun next => ?_
    cases next with
    | none => exact h.pure left
    | some sign => exact h.bind (hd.chain .sum).holds fun _ => h.pure _
  chain level := by
    rw [chain_succ]
    exact h.parsing _ <| h.bind (operand hd level) fun left => hd.links level left
  links level left := h.links (h.link_succ hd level left)
  factor := by
    rw [factor_succ]
    exact h.parsing _ <| h.bind h.kind fun first => h.factorForm hd first

/-- On the levels, one of which every rule takes. -/
theorem pervades (config : ParserConfig) (depth : Nat) : Pervades P config depth := by
  induction depth with
  | zero => exact h.pervades_zero config
  | succ depth hd => exact h.pervades_succ hd

theorem link (config : ParserConfig) (level : Precedence) (depth : Nat) (left : Expr)
    (next : Option (Operator × Span)) : P (link config level depth left next) := by
  cases depth with
  | zero => exact h.link_zero level left next
  | succ depth => exact h.link_succ (h.pervades config depth) level left next

theorem ending (body : List Stmt) : P (ending body) := by
  refine h.bind h.kind fun kind => ?_
  split
  · exact h.pure _
  · exact h.bind (h.unexpected _) fun _ => h.pure _

theorem program (config : ParserConfig) : Starts P .program (program config) := by
  cases hdepth : config.maxDepth with
  | zero =>
    rw [program_zero config hdepth]
    exact h.refuse _ _
  | succ depth =>
    rw [program_succ config hdepth]
    have hbody : P (Parser.sequence config depth >>= Parser.ending) :=
      h.bind (h.pervades config depth).sequence.holds h.ending
    exact h.starts_bind (h.parsing _ hbody) fun _ => h.bind (h.report _) fun _ => h.pure _

end Compositional

structure State.Onward (s t : State) : Prop where
  moved : ∃ tokens, s.Moved tokens t
  events : s.events <:+ t.events

namespace State.Onward

variable {s t u : State}

theorem refl (s : State) : s.Onward s := ⟨⟨[], .refl s⟩, List.suffix_refl _⟩

theorem trans (h : s.Onward t) (h' : t.Onward u) : s.Onward u := by
  obtain ⟨front, hfront⟩ := h.moved
  obtain ⟨back, hback⟩ := h'.moved
  exact ⟨⟨front ++ back, hfront.trans hback⟩, h.events.trans h'.events⟩

theorem report (s : State) (event : ParseEvent) : s.Onward (s.report event) :=
  ⟨⟨[], .still rfl rfl⟩, List.suffix_cons event s.events⟩

theorem pushed (s : State) (rule : Rule) : s.Onward (s.pushed rule) :=
  ⟨⟨[], s.moved_pushed rule⟩, List.suffix_refl _⟩

theorem popped (s : State) : s.Onward s.popped := ⟨⟨[], s.moved_popped⟩, List.suffix_refl _⟩

theorem length_le (h : s.Onward t) : t.ahead.length ≤ s.ahead.length := by
  obtain ⟨tokens, hmoved⟩ := h.moved
  exact hmoved.length_le

theorem passed_suffix (h : s.Onward t) : s.passed <:+ t.passed := by
  obtain ⟨tokens, hmoved⟩ := h.moved
  rw [hmoved.passed_eq]
  exact List.suffix_append _ _

end State.Onward

/-- A run of the parser goes onward, and if it succeeds the stack is again what it was. -/
structure Framed (p : Parser α) : Prop where
  ok {s t : State} {a : α} (h : p.run s = .ok a t) : s.Onward t ∧ t.stack = s.stack
  error {s t : State} {e : SyntaxError} (h : p.run s = .error e t) : s.Onward t

theorem framed_get : Framed (get : Parser State) := by
  refine ⟨fun {s t b} h => ?_, nofun⟩
  cases h
  exact ⟨.refl s, rfl⟩

theorem Framed.bind {p : Parser α} {f : α → Parser β} (hp : Framed p) (hf : ∀ a, Framed (f a)) :
    Framed (p >>= f) := by
  refine ⟨fun h => ?_, fun h => ?_⟩
  · obtain ⟨a, t, h₁, h₂⟩ := run_bind_eq_ok h
    obtain ⟨honward, hstack⟩ := hp.ok h₁
    obtain ⟨honward', hstack'⟩ := (hf a).ok h₂
    exact ⟨honward.trans honward', hstack'.trans hstack⟩
  · rcases run_bind_eq_error h with h₁ | ⟨a, t, h₁, h₂⟩
    · exact hp.error h₁
    · exact (hp.ok h₁).1.trans ((hf a).error h₂)

theorem compositional_framed : Compositional Framed where
  pure a := by
    refine ⟨fun {s t b} h => ?_, nofun⟩
    cases h
    exact ⟨.refl s, rfl⟩
  bind := .bind
  look view := fun {f} _ hf => framed_get.bind fun s => hf (view s)
  rounds _ h := framed_get.bind fun s => h s.ahead.length
  report event := by
    refine ⟨fun {s t b} h => ?_, nofun⟩
    cases h
    exact ⟨.report s event, rfl⟩
  failAt location cause := by
    refine ⟨nofun, fun {s t e} h => ?_⟩
    cases h
    exact .report s _
  accept? wanted := by
    refine ⟨fun {s t next} h => ?_, fun h => (run_accept?_ne_error _ _ _ _ h).elim⟩
    cases next with
    | none =>
      obtain rfl := run_accept?_eq_none h
      exact ⟨.refl t, rfl⟩
    | some token =>
      obtain ⟨rest, hahead, hend, -, rfl⟩ := run_accept?_eq_some h
      exact ⟨⟨⟨[token], State.moved_advance hahead hend⟩, List.suffix_cons _ _⟩, rfl⟩
  inside rule := by
    refine fun {p} hp => ⟨fun {s t a} h => ?_, fun {s t e} h => ?_⟩
    · obtain ⟨u, hbody, rfl⟩ := run_inside_eq_ok h
      obtain ⟨honward, hstack⟩ := hp.ok hbody
      refine ⟨((State.Onward.pushed s rule).trans honward).trans (.popped u), ?_⟩
      rw [State.popped, hstack]
      rfl
    · exact (State.Onward.pushed s rule).trans (hp.error (run_inside_eq_error h))

def final : EStateM.Result SyntaxError State α → State
  | .ok _ t | .error _ t => t

theorem Framed.onward {p : Parser α} (h : Framed p) (s : State) : s.Onward (final (p.run s)) := by
  cases hrun : p.run s with
  | ok a t => exact (h.ok hrun).1
  | error e t => exact h.error hrun

theorem onward_final_bind {p : Parser α} {f : α → Parser β} (hf : ∀ a, Framed (f a)) (s : State) :
    (final (p.run s)).Onward (final ((p >>= f).run s)) := by
  cases hrun : p.run s with
  | ok a t =>
    rw [run_bind_of_ok hrun]
    exact (hf a).onward t
  | error e t =>
    rw [run_bind_of_error hrun]
    exact .refl t

theorem onward_final_inside (p : Parser α) (rule : Rule) (s : State) :
    (final (p.run (s.pushed rule))).Onward (final ((inside rule p).run s)) := by
  cases hrun : p.run (s.pushed rule) with
  | ok a t =>
    rw [run_inside_of_ok hrun]
    exact .popped t
  | error e t =>
    rw [run_inside_of_error hrun]
    exact .refl t

theorem onward_final_parsing (p : Parser α) (rule : Rule) (s : State) :
    (final (p.run (s.entered rule))).Onward (final ((parsing rule p).run s)) := by
  cases hrun : p.run (s.entered rule) with
  | ok a t =>
    rw [run_parsing_of_ok hrun]
    exact (State.Onward.popped t).trans (.report _ _)
  | error e t =>
    rw [run_parsing_of_error hrun]
    exact .refl t

end TinyLang.Parser

import Mathlib.Data.List.Chain
import TinyLang.Proofs.Grammar.Cutoff

namespace TinyLang

open TinyLang.Parser (chainRule)

def Precedence.operandRule : Precedence → Rule
  | .sum => .product
  | .product => .factor

namespace Rule

/-- The rules that may come directly inside of a rule. Only the first operand of a chain is directly
inside of the rule of the chain, for the further ones are inside of all operations so far. -/
def inner : Rule → List Rule
  | program => [sequence]
  | sequence => [statement]
  | statement => [conditional, loop, assign, read, write]
  | conditional | loop => [comparison, sequence]
  | assign | write | factor => [comparison]
  | read => []
  | comparison => [sum]
  | sum => [product, operation]
  | product => [factor, operation]
  | operation => [operation, product, factor]

def expected : Rule → List (List Token.Kind)
  | program => [[.semicolon, .endOfInput]]
  | conditional => [[.keyword .thenWord], [.keyword .endWord]]
  | loop => [[.keyword .untilWord]]
  | assign => [[.assign]]
  | read => [[.identifier]]
  | factor => [[.closeBracket]]
  | _ => []

structure IsPath (path : List Rule) : Prop where
  head?_eq : path.head? = some program
  isChain : path.IsChain fun outer rule => rule ∈ outer.inner
  operand {front back : List Rule} {level : Precedence} {count : Nat} {rule : Rule}
    (hpath : path = front ++ chainRule level :: (List.replicate count operation ++ rule :: back))
    (hrule : rule ≠ operation) : rule = level.operandRule

end Rule

def SyntaxError.Cause.FitsAt (cause : SyntaxError.Cause) (rule : Rule) : Prop :=
  match cause with
  | expectedToken kinds _ => kinds ∈ rule.expected
  | expectedStatement _ => rule = .statement
  | expectedExpression _ | numberTooLarge _ => rule = .factor
  | unknownCharacter _ | unclosedComment => rule = .statement ∨ rule.expected ≠ []
  | nestingTooDeep _ => rule.inner ≠ []

/-- The parse fails when it has begun the rule but has not entered it: the record tells of one rule
more than the stack. -/
def Program.Refused (config : ParserConfig) (tokens : List Token) (error : SyntaxError)
    (rule : Rule) : Prop :=
  ∃ front, (trace config tokens).2 = front ++ [.failed error] ∧
    (ParseEvent.stackTold front.reverse).reverse = error.stack ++ [rule]

namespace Parser

open ParseEvent

/-! From here on paths have the innermost rule first, as the stack of a state has. -/

def InChain (level : Precedence) (stack : List Rule) : Prop :=
  ∃ count outer, stack = List.replicate count .operation ++ chainRule level :: outer

inductive Enters : List Rule → Rule → Prop
  | program : Enters [] .program
  | nested {stack : List Rule} {outer rule : Rule} (hmem : rule ∈ outer.inner)
      (houter : outer ∉ [.sum, .product, .operation]) : Enters (outer :: stack) rule
  | operation {stack : List Rule} {level : Precedence} (hchain : InChain level stack) :
      Enters stack .operation
  | operand {stack : List Rule} {level : Precedence} (hchain : InChain level stack) :
      Enters stack level.operandRule

def Path : List Rule → Prop
  | [] => True
  | rule :: stack => Enters stack rule ∧ Path stack

theorem inChain_chainRule (level : Precedence) (stack : List Rule) :
    InChain level (chainRule level :: stack) := ⟨0, stack, rfl⟩

theorem InChain.operation {level : Precedence} {stack : List Rule} (h : InChain level stack) :
    InChain level (.operation :: stack) := by
  obtain ⟨count, outer, rfl⟩ := h
  exact ⟨count + 1, outer, rfl⟩

/-- The rules tell which chain it is. -/
theorem InChain.level_eq {level level' : Precedence} {stack : List Rule} (h : InChain level stack)
    (h' : InChain level' stack) : level = level' := by
  have hhead {level : Precedence} (h : InChain level stack) :
      (stack.dropWhile (· = .operation)).head? = some (chainRule level) := by
    obtain ⟨count, outer, rfl⟩ := h
    have hstop : decide (chainRule level = .operation) = false := by cases level <;> rfl
    rw [List.dropWhile_append_of_pos (by simp), List.dropWhile_cons_of_neg (by simp [hstop])]
    rfl
  have hsame : chainRule level = chainRule level' :=
    Option.some.inj ((hhead h).symm.trans (hhead h'))
  cases level <;> cases level' <;> first | rfl | cases hsame

/-- A chain is entered at its own rule or at an operation. -/
theorem InChain.head_mem {level : Precedence} {outer : Rule} {stack : List Rule}
    (h : InChain level (outer :: stack)) : outer = chainRule level ∨ outer = .operation := by
  obtain ⟨count, outer', hstack⟩ := h
  cases count with
  | zero => exact .inl (List.cons.inj hstack).1
  | succ count => exact .inr (List.cons.inj hstack).1

theorem not_inChain_nil (level : Precedence) : ¬ InChain level [] := by
  rintro ⟨count, outer, hstack⟩
  cases count <;> cases hstack

namespace Enters

theorem eq_program {rule : Rule} (h : Enters [] rule) : rule = .program := by
  cases h with
  | program => rfl
  | operation hchain => exact (not_inChain_nil _ hchain).elim
  | operand hchain => exact (not_inChain_nil _ hchain).elim

theorem mem_inner {outer rule : Rule} {stack : List Rule} (h : Enters (outer :: stack) rule) :
    rule ∈ outer.inner := by
  cases h with
  | nested hmem => exact hmem
  | @operation _ level hchain =>
    obtain rfl | rfl := hchain.head_mem
    · cases level <;> decide
    · decide
  | @operand _ level hchain =>
    obtain rfl | rfl := hchain.head_mem
    · cases level <;> decide
    · cases level <;> decide

/-- Inside of a chain only its operations and operands are entered. -/
theorem eq_operandRule {level : Precedence} {rule : Rule} {stack : List Rule}
    (h : Enters stack rule) (hchain : InChain level stack) (hrule : rule ≠ .operation) :
    rule = level.operandRule := by
  cases h with
  | program => exact (not_inChain_nil level hchain).elim
  | nested _ houter =>
    obtain rfl | rfl := hchain.head_mem
    · cases level <;> simp [chainRule] at houter
    · simp at houter
  | operation => exact absurd rfl hrule
  | operand hchain' => rw [hchain.level_eq hchain']

end Enters

namespace Path

variable {stack : List Rule}

theorem of_append {front : List Rule} (h : Path (front ++ stack)) : Path stack := by
  induction front with
  | nil => exact h
  | cons rule front ih => exact ih h.2

theorem getLast?_eq (h : Path stack) (hne : stack ≠ []) : stack.getLast? = some .program := by
  induction stack with
  | nil => contradiction
  | cons rule stack ih =>
    cases stack with
    | nil => rw [h.1.eq_program, List.getLast?_singleton]
    | cons outer stack =>
      rw [List.getLast?_cons_cons]
      exact ih h.2 (List.cons_ne_nil _ _)

theorem isChain (h : Path stack) : stack.IsChain fun rule outer => rule ∈ outer.inner := by
  induction stack with
  | nil => exact .nil
  | cons rule stack ih =>
    cases stack with
    | nil => exact .singleton rule
    | cons outer stack => exact .cons_cons h.1.mem_inner (ih h.2)

/-- Read from the outermost rule the stack is a path of the grammar. -/
theorem isPath_reverse (h : Path stack) (hne : stack ≠ []) : Rule.IsPath stack.reverse where
  head?_eq := by rw [List.head?_reverse, h.getLast?_eq hne]
  isChain := List.isChain_reverse.mpr h.isChain
  operand {front back level count rule} hpath hrule := by
    have hstack : stack = back.reverse ++
        rule :: (List.replicate count .operation ++ chainRule level :: front.reverse) := by
      rw [← List.reverse_reverse stack, hpath]
      simp
    rw [hstack] at h
    exact h.of_append.1.eq_operandRule ⟨count, front.reverse, rfl⟩ hrule

end Path

structure Room (limit depth : Nat) (stack : List Rule) : Prop where
  path : Path stack
  levels : stack.length + depth = limit

theorem Room.enter {limit depth : Nat} {rule : Rule} {stack : List Rule}
    (h : Room limit (depth + 1) stack) (henters : Enters stack rule) :
    Room limit depth (rule :: stack) where
  path := ⟨henters, h.path⟩
  levels := by rw [← h.levels, List.length_cons, Nat.add_assoc, Nat.add_comm 1]

variable {α β : Type} {limit depth : Nat} {rule : Rule} {stack : List Rule} {s t : State}
  {e : SyntaxError}

/-- Outside of the program all levels are left. -/
theorem room_nil (limit : Nat) : Room limit limit [] where
  path := by
    rw [Path]
    trivial
  levels := Nat.zero_add limit

inductive Failed (limit : Nat) (e : SyntaxError) (t : State) : Prop
  | fault {depth : Nat} {rule : Rule} {outer : List Rule} (fault : Fault e t)
      (stack_eq : e.stack = (rule :: outer).reverse) (room : Room limit depth (rule :: outer))
      (fits : e.cause.FitsAt rule)
  | refused {rule : Rule} {stack : List Rule} (cause_eq : e.cause = .nestingTooDeep limit)
      (stack_eq : e.stack = stack.reverse) (room : Room limit 0 stack) (enters : Enters stack rule)
      (events : ∃ older, t.events = .failed e :: older ∧ stackTold older = rule :: stack)

/-- The innermost rule fits the error, in a path within the limit. -/
theorem Failed.exists_innermost (h : Failed limit e t) (hlimit : 1 ≤ limit) :
    ∃ rule outer depth, e.stack = (rule :: outer).reverse ∧ Room limit depth (rule :: outer) ∧
      e.cause.FitsAt rule := by
  cases h with
  | fault _ hstack hroom hfits => exact ⟨_, _, _, hstack, hroom, hfits⟩
  | @refused rule stack hcause hstack hroom henters =>
    have hlength : stack.length = limit := hroom.levels
    obtain ⟨outer, stack, rfl⟩ := List.exists_cons_of_length_pos (hlength.symm ▸ hlimit)
    refine ⟨outer, stack, 0, hstack, hroom, ?_⟩
    rw [hcause]
    exact List.ne_nil_of_mem henters.mem_inner

structure Guided (limit : Nat) (before after : State → Prop) (p : Parser α) : Prop where
  ok {s t : State} {a : α} (h : p.run s = .ok a t) (hs : before s) : after t
  error {s t : State} {e : SyntaxError} (h : p.run s = .error e t) (hs : before s) :
    Failed limit e t

structure Stands (stack : List Rule) (s : State) : Prop where
  stack_eq : s.stack = stack
  told : Told s

structure Leaves (stack : List Rule) (s : State) : Prop where
  stack_eq : s.stack = stack
  outdated : Outdated s

structure Begun (rule : Rule) (stack : List Rule) (s : State) : Prop where
  stack_eq : s.stack = stack
  told : Told (s.pushed rule)

def firstKind? : Rule → Option Token.Kind
  | .conditional => some (.keyword .ifWord)
  | .loop => some (.keyword .repeatWord)
  | .assign => some .identifier
  | .read => some (.keyword .readWord)
  | .write => some (.keyword .writeWord)
  | _ => none

structure Ready (rule : Rule) (stack : List Rule) (s : State) : Prop extends Stands stack s where
  first : ∀ kind ∈ firstKind? rule, s.kind = kind

structure Facing (kind : Token.Kind) (stack : List Rule) (s : State) : Prop
    extends Stands stack s where
  kind_eq : s.kind = kind

theorem Stands.leaves (h : Stands stack s) : Leaves stack s := ⟨h.stack_eq, h.told.outdated⟩

/-- A sign of the chain begins an operation. -/
theorem Stands.run_operator? (h : Stands stack s) (level : Precedence) :
    (operator? level.operators).run s = .ok none s ∨
      ∃ sign t, (operator? level.operators).run s = .ok (some sign) t ∧
        Begun .operation stack t := by
  cases hkind : s.kind.isSign level.operators with
  | false => exact .inl (run_operator?_of_not hkind)
  | true =>
    obtain ⟨sign, t, hrun, -⟩ := run_operator?_of_isSign hkind
    obtain ⟨token, rest, -, -, hlevel, rfl⟩ := run_operator?_eq_some hrun
    exact .inr ⟨_, _, hrun, h.stack_eq, h.told.operation rest (isSign_of_operators hlevel)⟩

theorem Stands.ready (h : Stands stack s) (hrule : firstKind? rule = none) :
    Ready rule stack s where
  toStands := h
  first := by
    rw [hrule]
    nofun

namespace Guided

variable {before after : State → Prop} {p : Parser α} {f : α → Parser β}

theorem mono {before' after' : State → Prop} (h : Guided limit before after p)
    (hbefore : ∀ s, before' s → before s) (hafter : ∀ s, after s → after' s) :
    Guided limit before' after' p where
  ok hrun hs := hafter _ (h.ok hrun (hbefore _ hs))
  error hrun hs := h.error hrun (hbefore _ hs)

theorem leaves (h : Guided limit before (Stands stack) p) : Guided limit before (Leaves stack) p :=
  h.mono (fun _ hs => hs) fun _ hs => hs.leaves

theorem ready (h : Guided limit (Stands stack) after p) : Guided limit (Ready rule stack) after p :=
  h.mono (fun _ hs => hs.toStands) fun _ hs => hs

theorem anyKind {kind : Token.Kind} (h : Guided limit (Stands stack) after p) :
    Guided limit (Facing kind stack) after p :=
  h.mono (fun _ hs => hs.toStands) fun _ hs => hs

theorem pure (a : α) : Guided limit before before (Pure.pure a : Parser α) where
  ok h hs := by
    cases h
    exact hs
  error h := nomatch h

theorem bind {middle : State → Prop} (hp : Guided limit before middle p)
    (hf : ∀ a, Guided limit middle after (f a)) : Guided limit before after (p >>= f) where
  ok h hs := by
    obtain ⟨a, t, h₁, h₂⟩ := run_bind_eq_ok h
    exact (hf a).ok h₂ (hp.ok h₁ hs)
  error h hs := by
    rcases run_bind_eq_error h with h₁ | ⟨a, t, h₁, h₂⟩
    · exact hp.error h₁ hs
    · exact (hf a).error h₂ (hp.ok h₁ hs)

theorem kind {f : Token.Kind → Parser β}
    (hf : ∀ first, Guided limit (Facing first stack) after (f first)) :
    Guided limit (Stands stack) after (Parser.kind >>= f) where
  ok {s _ _} h hs := (hf s.kind).ok h ⟨hs, rfl⟩
  error {s _ _} h hs := (hf s.kind).error h ⟨hs, rfl⟩

theorem get {f : State → Parser β} (hf : ∀ s, Guided limit before after (f s)) :
    Guided limit before after (MonadState.get >>= f) where
  ok {s _ _} h hs := (hf s).ok h hs
  error {s _ _} h hs := (hf s).error h hs

/-- A step that cannot fail and keeps the record. -/
theorem of_plain (hp : Plain p) (hne : ∀ s e t, p.run s ≠ .error e t) :
    Guided limit (Stands stack) (Stands stack) p where
  ok h hs := ⟨(hp.framed.ok h).2.trans hs.stack_eq, hp.ok h hs.told⟩
  error h := (hne _ _ _ h).elim

/-- A fault at the token ahead is found by the innermost rule. -/
theorem unexpected {cause : Token → SyntaxError.Cause} (hroom : Room limit depth (rule :: stack))
    (hne : ∀ found limit, cause found ≠ .nestingTooDeep limit)
    (hfits : ∀ found, (cause found).FitsAt rule)
    (hunknown : rule = .statement ∨ rule.expected ≠ []) :
    Guided limit (Stands (rule :: stack)) after (Parser.unexpected cause : Parser α) where
  ok h := nomatch h
  error {s t e} h hs := by
    have hfault := (Plain.unexpected hne).error h hs.told
    rw [run_unexpected] at h
    cases h
    refine .fault hfault ?_ hroom ?_
    · exact congrArg List.reverse hs.stack_eq
    · dsimp only
      split
      · rw [SyntaxError.Cause.ofUnknown]
        split <;> exact hunknown
      · exact hfits _

theorem expect {wanted : Token.Kind} (hroom : Room limit depth (rule :: stack))
    (hmem : [wanted] ∈ rule.expected)
    (hsign : wanted.isSign [.plus, .minus, .times, .divide] = false) :
    Guided limit (Stands (rule :: stack)) (Stands (rule :: stack)) (Parser.expect wanted) := by
  refine (of_plain (.acceptKind hsign) (run_accept?_ne_error _)).bind fun next => ?_
  cases next with
  | some token => exact .pure token
  | none => exact .unexpected hroom nofun (fun _ => hmem) (.inr (List.ne_nil_of_mem hmem))

/-- A token that is ahead is not missing. -/
theorem facing {f : Token → Parser β} {wanted : Token.Kind} (hend : wanted ≠ .endOfInput)
    (hsign : wanted.isSign [.plus, .minus, .times, .divide] = false)
    (hf : ∀ token, Guided limit (Stands stack) after (f token)) :
    Guided limit (Facing wanted stack) after (Parser.expect wanted >>= f) := by
  have hplain := Plain.expect hsign
  have hexpect : Guided limit (Facing wanted stack) (Stands stack) (Parser.expect wanted) := by
    refine ⟨fun {s t token} h hs => ?_, fun {s t e} h hs => ?_⟩
    · exact ⟨(hplain.framed.ok h).2.trans hs.stack_eq, hplain.ok h hs.told⟩
    · obtain ⟨_, _, hrun, -⟩ := run_expect_of_eq hend hs.kind_eq
      rw [hrun] at h
      cases h
  exact hexpect.bind hf

/-- The token that a form of statements begins with is ahead. -/
theorem first {f : Token → Parser β} {wanted : Token.Kind}
    (hfirst : firstKind? rule = some wanted)
    (hf : ∀ token, Guided limit (Stands stack) after (f token)) :
    Guided limit (Ready rule stack) after (Parser.expect wanted >>= f) := by
  have hwanted : wanted ≠ .endOfInput ∧
      wanted.isSign [.plus, .minus, .times, .divide] = false := by
    cases rule <;> cases hfirst <;> exact ⟨nofun, rfl⟩
  refine (facing hwanted.1 hwanted.2 hf).mono (fun s hs => ?_) fun _ hs => hs
  exact ⟨hs.toStands, hs.first wanted hfirst⟩

theorem failAt (location : Span) {cause : SyntaxError.Cause}
    (hroom : Room limit depth (rule :: stack)) (hne : ∀ limit, cause ≠ .nestingTooDeep limit)
    (hfits : cause.FitsAt rule) :
    Guided limit (Stands (rule :: stack)) after (Parser.failAt location cause : Parser α) where
  ok h := nomatch h
  error {s t e} h hs := by
    have hfault := (Plain.failAt location hne).error h hs.told
    cases h
    exact .fault hfault (congrArg List.reverse hs.stack_eq) hroom hfits

theorem sign {level : Precedence} {f : Option (Operator × Span) → Parser β}
    (hnone : Guided limit (Stands stack) after (f none))
    (hsome : ∀ sign, Guided limit (Begun .operation stack) after (f (some sign))) :
    Guided limit (Stands stack) after (operator? level.operators >>= f) := by
  refine ⟨fun {s t b} h hs => ?_, fun {s t e} h hs => ?_⟩
  · obtain hrun | ⟨sign, u, hrun, hu⟩ := hs.run_operator? level
    · rw [run_bind_of_ok hrun] at h
      exact hnone.ok h hs
    · rw [run_bind_of_ok hrun] at h
      exact (hsome sign).ok h hu
  · obtain hrun | ⟨sign, u, hrun, hu⟩ := hs.run_operator? level
    · rw [run_bind_of_ok hrun] at h
      exact hnone.error h hs
    · rw [run_bind_of_ok hrun] at h
      exact (hsome sign).error h hu

theorem operation {p : Parser α}
    (hp : Guided limit (Stands (.operation :: stack)) (Leaves (.operation :: stack)) p) :
    Guided limit (Begun .operation stack) (Leaves stack) (Parser.inside .operation p) where
  ok {s t a} h hs := by
    obtain ⟨u, hrun, rfl⟩ := run_inside_eq_ok h
    have hleaves := hp.ok hrun ⟨congrArg _ hs.stack_eq, hs.told⟩
    refine ⟨?_, hleaves.outdated.popped hleaves.stack_eq⟩
    rw [State.popped, hleaves.stack_eq]
    rfl
  error h hs := hp.error (run_inside_eq_error h) ⟨congrArg _ hs.stack_eq, hs.told⟩

/-- What has begun is refused if there is no level left. -/
theorem tooDeep (hroom : Room limit 0 stack) (henters : Enters stack rule) :
    Guided limit (Begun rule stack) after (fail (.nestingTooDeep limit) : Parser α) where
  ok h := nomatch h
  error {s t e} h hs := by
    cases h
    obtain ⟨rfl, htold⟩ := hs
    exact .refused rfl rfl hroom henters ⟨s.events, rfl, htold⟩

end Guided

def Leads (limit depth : Nat) (rule : Rule) (p : Parser α) : Prop :=
  ∀ ⦃stack : List Rule⦄, Room limit depth stack → Enters stack rule →
    Guided limit (Ready rule stack) (Stands stack) p

namespace Leads

variable {p : Parser α}

theorem guided (h : Leads limit depth rule p) (hroom : Room limit depth stack)
    (henters : Enters stack rule) (hrule : firstKind? rule = none) :
    Guided limit (Stands stack) (Stands stack) p :=
  (h hroom henters).mono (fun _ hs => hs.ready hrule) fun _ hs => hs

theorem facing {kind : Token.Kind} (h : Leads limit depth rule p) (hroom : Room limit depth stack)
    (henters : Enters stack rule) (hrule : firstKind? rule = some kind) :
    Guided limit (Facing kind stack) (Stands stack) p := by
  refine (h hroom henters).mono (fun s hs => ⟨hs.toStands, fun kind' hkind => ?_⟩) fun _ hs => hs
  rw [hrule] at hkind
  exact hs.kind_eq.trans (Option.some.inj hkind)

theorem parsing (hrule : rule ≠ .operation)
    (hp : ∀ stack, Room limit depth (rule :: stack) →
      Guided limit (Ready rule (rule :: stack)) (Leaves (rule :: stack)) p) :
    Leads limit (depth + 1) rule (Parser.parsing rule p) := by
  intro stack hroom henters
  have hbody := hp stack (hroom.enter henters)
  have hready {s : State} (hs : Ready rule stack s) : Ready rule (rule :: stack) (s.entered rule) :=
    ⟨⟨congrArg _ hs.stack_eq, hs.told.entered rule⟩, hs.first⟩
  refine ⟨fun {s t a} h hs => ?_, fun {s t e} h hs => ?_⟩
  · obtain ⟨u, hrun, rfl⟩ := run_parsing_eq_ok h
    have hleaves := hbody.ok hrun (hready hs)
    refine ⟨?_, hleaves.outdated.exited hleaves.stack_eq hrule⟩
    rw [State.exited, State.popped, hleaves.stack_eq]
    rfl
  · exact hbody.error (run_parsing_eq_error h) (hready hs)

theorem refuse (limit : Nat) (rule : Rule) :
    Leads limit 0 rule (Parser.refuse limit rule : Parser α) := by
  intro stack hroom henters
  have hstart : Guided limit (Ready rule stack) (Begun rule stack) (start rule) := by
    refine ⟨fun {s t a} h hs => ?_, nofun⟩
    cases h
    exact ⟨hs.stack_eq, hs.told.entered rule⟩
  exact hstart.bind fun _ => .mono (.tooDeep hroom henters) (fun _ hs => hs) fun _ hs => hs

end Leads

variable {config : ParserConfig}

structure Leading (config : ParserConfig) (depth : Nat) : Prop where
  sequence : Leads config.maxDepth depth .sequence (sequence config depth)
  statement : Leads config.maxDepth depth .statement (statement config depth)
  conditional : Leads config.maxDepth depth .conditional (conditional config depth)
  loop : Leads config.maxDepth depth .loop (loop config depth)
  assign : Leads config.maxDepth depth .assign (assign config depth)
  read : Leads config.maxDepth depth .read (read config depth)
  write : Leads config.maxDepth depth .write (write config depth)
  comparison : Leads config.maxDepth depth .comparison (comparison config depth)
  chain (level : Precedence) :
    Leads config.maxDepth depth (chainRule level) (chain config level depth)
  links (level : Precedence) (left : Expr) {stack : List Rule}
    (hroom : Room config.maxDepth depth stack) (hchain : InChain level stack) :
    Guided config.maxDepth (Stands stack) (Leaves stack) (links config level depth left)
  factor : Leads config.maxDepth depth .factor (factor config depth)

theorem guided_followers {p : Parser Stmt} (hp : Guided limit (Stands stack) (Stands stack) p)
    (rounds : Nat) :
    Guided limit (Stands stack) (Stands stack) (followers config p rounds) := by
  induction rounds with
  | zero => exact .pure []
  | succ rounds ih =>
    refine (Guided.of_plain (.acceptKind rfl) (run_accept?_ne_error _)).bind fun next => ?_
    cases next with
    | none => exact .pure []
    | some token =>
      refine (Guided.of_plain .kind nofun).bind fun kind => ?_
      split
      · exact .pure []
      · exact hp.bind fun first => ih.bind fun rest => .pure (first :: rest)

namespace Leading

variable (h : Leading config depth)
include h

theorem sequence_succ :
    Leads config.maxDepth (depth + 1) .sequence (Parser.sequence config (depth + 1)) := by
  rw [Parser.sequence]
  refine .parsing (by decide) fun stack hroom => .ready (.leaves ?_)
  have hstatement := h.statement.guided hroom (.nested (by decide) (by decide)) rfl
  exact hstatement.bind fun first => .get fun s => (guided_followers hstatement _).bind fun rest =>
    .pure (first :: rest)

theorem statement_succ :
    Leads config.maxDepth (depth + 1) .statement (Parser.statement config (depth + 1)) := by
  rw [Parser.statement_succ]
  refine .parsing (by decide) fun stack hroom => .ready (.leaves (.kind fun first => ?_))
  have henters {rule : Rule} (hmem : rule ∈ Rule.statement.inner) :
      Enters (.statement :: stack) rule := .nested hmem (by decide)
  unfold form
  split
  · exact h.conditional.facing hroom (henters (by decide)) rfl
  · exact h.loop.facing hroom (henters (by decide)) rfl
  · exact h.assign.facing hroom (henters (by decide)) rfl
  · exact h.read.facing hroom (henters (by decide)) rfl
  · exact h.write.facing hroom (henters (by decide)) rfl
  · exact .anyKind (.unexpected hroom nofun (fun _ => rfl) (.inl rfl))

theorem conditional_succ :
    Leads config.maxDepth (depth + 1) .conditional (Parser.conditional config (depth + 1)) := by
  rw [Parser.conditional]
  refine .parsing (by decide) fun stack hroom => .leaves (.first rfl fun keyword => ?_)
  have hcondition := h.comparison.guided hroom (.nested (by decide) (by decide)) rfl
  have hbranch := h.sequence.guided hroom (.nested (by decide) (by decide)) rfl
  exact hcondition.bind fun _ => .bind (.expect hroom (by decide) rfl) fun _ =>
    hbranch.bind fun _ => .bind (.expect hroom (by decide) rfl) fun _ => .pure _

theorem loop_succ : Leads config.maxDepth (depth + 1) .loop (Parser.loop config (depth + 1)) := by
  rw [Parser.loop]
  refine .parsing (by decide) fun stack hroom => .leaves (.first rfl fun keyword => ?_)
  have hbody := h.sequence.guided hroom (.nested (by decide) (by decide)) rfl
  have hcondition := h.comparison.guided hroom (.nested (by decide) (by decide)) rfl
  exact hbody.bind fun _ => .bind (.expect hroom (by decide) rfl) fun _ =>
    hcondition.bind fun _ => .pure _

theorem assign_succ :
    Leads config.maxDepth (depth + 1) .assign (Parser.assign config (depth + 1)) := by
  rw [Parser.assign]
  refine .parsing (by decide) fun stack hroom => .leaves (.first rfl fun target => ?_)
  have hvalue := h.comparison.guided hroom (.nested (by decide) (by decide)) rfl
  exact .bind (.expect hroom (by decide) rfl) fun _ => hvalue.bind fun _ => .pure _

omit h in
theorem read_succ : Leads config.maxDepth (depth + 1) .read (Parser.read config (depth + 1)) := by
  rw [Parser.read]
  refine .parsing (by decide) fun stack hroom => .leaves (.first rfl fun keyword => ?_)
  exact .bind (.expect hroom (by decide) rfl) fun _ => .pure _

theorem write_succ :
    Leads config.maxDepth (depth + 1) .write (Parser.write config (depth + 1)) := by
  rw [Parser.write]
  refine .parsing (by decide) fun stack hroom => .leaves (.first rfl fun keyword => ?_)
  have hvalue := h.comparison.guided hroom (.nested (by decide) (by decide)) rfl
  exact hvalue.bind fun _ => .pure _

theorem comparison_succ :
    Leads config.maxDepth (depth + 1) .comparison (Parser.comparison config (depth + 1)) := by
  rw [Parser.comparison]
  refine .parsing (by decide) fun stack hroom => .ready (.leaves ?_)
  have hsum := (h.chain .sum).guided hroom (.nested (by decide) (by decide)) rfl
  refine hsum.bind fun left => ?_
  refine (Guided.of_plain .comparisonSign (run_operator?_ne_error _)).bind fun next => ?_
  cases next with
  | none => exact .pure left
  | some sign => exact hsum.bind fun _ => .pure _

/-- Operands are the same inside of the rule of their chain and inside of its operations. -/
theorem guided_operand {level : Precedence} (hroom : Room config.maxDepth depth stack)
    (hchain : InChain level stack) :
    Guided config.maxDepth (Stands stack) (Stands stack) (operand config level depth) := by
  have henters := Enters.operand hchain
  cases level with
  | sum => exact (h.chain .product).guided hroom henters rfl
  | product => exact h.factor.guided hroom henters rfl

theorem chain_succ (level : Precedence) :
    Leads config.maxDepth (depth + 1) (chainRule level)
      (Parser.chain config level (depth + 1)) := by
  rw [Parser.chain_succ]
  refine .parsing (chainRule_ne_operation level) fun stack hroom => .ready ?_
  have hchain := inChain_chainRule level stack
  exact (h.guided_operand hroom hchain).bind fun left => h.links level left hroom hchain

omit h in
theorem links_zero (level : Precedence) (left : Expr) (hroom : Room config.maxDepth 0 stack)
    (hchain : InChain level stack) :
    Guided config.maxDepth (Stands stack) (Leaves stack) (Parser.links config level 0 left) := by
  rw [links_eq]
  refine .sign (.leaves (.pure left)) fun sign => ?_
  exact .tooDeep hroom (.operation hchain)

theorem links_succ (level : Precedence) (left : Expr)
    (hroom : Room config.maxDepth (depth + 1) stack) (hchain : InChain level stack) :
    Guided config.maxDepth (Stands stack) (Leaves stack)
      (Parser.links config level (depth + 1) left) := by
  rw [links_eq]
  refine .sign (.leaves (.pure left)) fun sign => .operation ?_
  have hroom' := hroom.enter (.operation hchain)
  exact (h.guided_operand hroom' hchain.operation).bind fun right =>
    h.links level _ hroom' hchain.operation

theorem factor_succ :
    Leads config.maxDepth (depth + 1) .factor (Parser.factor config (depth + 1)) := by
  rw [Parser.factor_succ]
  refine .parsing (by decide) fun stack hroom => .ready (.leaves (.kind fun first => ?_))
  unfold factorForm
  split
  · refine .facing nofun rfl fun _ => ?_
    have hinner := h.comparison.guided hroom (.nested (by decide) (by decide)) rfl
    exact hinner.bind fun inner => .bind (.expect hroom (by decide) rfl) fun _ => .pure inner
  · refine .facing nofun rfl fun token => ?_
    split
    · exact .pure _
    · exact .failAt _ hroom nofun rfl
  · exact .facing nofun rfl fun token => .pure _
  · exact .anyKind (.unexpected hroom nofun (fun _ => rfl) (.inr (by decide)))

end Leading

theorem leading_zero (config : ParserConfig) : Leading config 0 where
  sequence := .refuse _ _
  statement := .refuse _ _
  conditional := .refuse _ _
  loop := .refuse _ _
  assign := .refuse _ _
  read := .refuse _ _
  write := .refuse _ _
  comparison := .refuse _ _
  chain level := by
    rw [chain_zero]
    exact .refuse _ _
  links level left _ hroom hchain := Leading.links_zero level left hroom hchain
  factor := .refuse _ _

theorem leading (config : ParserConfig) (depth : Nat) : Leading config depth := by
  induction depth with
  | zero => exact leading_zero config
  | succ depth h => exact
    { sequence := h.sequence_succ
      statement := h.statement_succ
      conditional := h.conditional_succ
      loop := h.loop_succ
      assign := h.assign_succ
      read := Leading.read_succ
      write := h.write_succ
      comparison := h.comparison_succ
      chain := h.chain_succ
      links := fun level left _ hroom hchain => h.links_succ level left hroom hchain
      factor := h.factor_succ }

theorem guided_ending (hroom : Room limit depth (.program :: stack)) (body : List Stmt) :
    Guided limit (Stands (.program :: stack)) (Stands (.program :: stack)) (ending body) := by
  refine (Guided.of_plain .kind nofun).bind fun kind => ?_
  split
  · exact .pure _
  · have hunexpected : Guided limit (Stands (.program :: stack)) (Stands (.program :: stack))
        (Parser.unexpected (.expectedToken [.semicolon, .endOfInput]) : Parser PUnit) :=
      .unexpected hroom nofun (fun _ => List.mem_singleton.mpr rfl) (.inr (List.cons_ne_nil _ _))
    exact hunexpected.bind fun _ => .pure _

/-- A program that fails does so on a path. -/
theorem failed_of_program {tokens : List Token}
    (h : (program config).run { ahead := tokens } = .error e t) : Failed config.maxDepth e t := by
  have hready : Ready .program [] { ahead := tokens } := ⟨⟨rfl, rfl⟩, nofun⟩
  have hroom := room_nil config.maxDepth
  cases hdepth : config.maxDepth with
  | zero =>
    rw [program_zero config hdepth] at h
    rw [hdepth] at h hroom
    exact (Leads.refuse 0 .program hroom .program).error h hready
  | succ depth =>
    rw [program_succ config hdepth] at h
    have hbody : Leads config.maxDepth (depth + 1) .program
        (parsing .program (sequence config depth >>= ending)) := by
      refine .parsing (by decide) fun stack hroom => .ready (.leaves ?_)
      have hsequence :=
        (leading config depth).sequence.guided hroom (.nested (by decide) (by decide)) rfl
      exact hsequence.bind fun body => guided_ending hroom body
    rw [hdepth] at hbody hroom
    rcases run_bind_eq_error h with h | ⟨_, _, _, h⟩
    · exact (hbody hroom .program).error h hready
    · cases h

end Parser

namespace Program

open TinyLang.Parser

variable {config : ParserConfig} {tokens : List Token} {error : SyntaxError}

/-- What the record of a failed parse tells of its stack before the error. -/
theorem refused_iff {t : State} {older : List ParseEvent} {rule : Rule}
    (hrun : (program config).run { ahead := tokens } = .error error t)
    (hevents : t.events = .failed error :: older) :
    Refused config tokens error rule ↔
      (ParseEvent.stackTold older).reverse = error.stack ++ [rule] := by
  have hrecord : (trace config tokens).2 = older.reverse ++ [.failed error] := by
    rw [events_trace, hrun, final, hevents, List.reverse_cons]
  constructor
  · rintro ⟨front, hfront, htold⟩
    rw [hrecord] at hfront
    rwa [← List.append_cancel_right hfront, List.reverse_reverse] at htold
  · intro htold
    refine ⟨older.reverse, hrecord, ?_⟩
    rwa [List.reverse_reverse]

/-- A rule was refused, in which case no level was left, or else levels are not the cause. -/
theorem refused_or (h : parse config tokens = .error error) :
    (∃ rule stack, error.cause = .nestingTooDeep config.maxDepth ∧ error.stack = stack.reverse ∧
      Room config.maxDepth 0 stack ∧ Enters stack rule ∧
        ∀ rule', Refused config tokens error rule' ↔ rule' = rule) ∨
    (∀ limit, error.cause ≠ .nestingTooDeep limit) ∧
      ∀ rule, ¬ Refused config tokens error rule := by
  obtain ⟨t, hrun⟩ := parse_eq_error_iff.mp h
  cases failed_of_program hrun with
  | fault hfault =>
    obtain ⟨older, hevents, htold⟩ := hfault.events
    refine .inr ⟨hfault.cause_ne, fun rule => ?_⟩
    rw [refused_iff hrun hevents, htold, List.reverse_reverse]
    simp
  | @refused rule stack hcause hstack hroom henters hevents =>
    obtain ⟨older, hevents, htold⟩ := hevents
    refine .inl ⟨rule, stack, hcause, hstack, hroom, henters, fun rule' => ?_⟩
    rw [refused_iff hrun hevents, htold, List.reverse_cons, hstack]
    simp [eq_comm]

/-- The stack of an error is a path of the grammar that ends with a rule which fits the error. No
level is left exactly when a rule was refused, and with that rule it would have been a path as
well. -/
theorem isPath_of_parse (hdepth : 1 ≤ config.maxDepth) (h : parse config tokens = .error error) :
    Rule.IsPath error.stack ∧ error.stack.length ≤ config.maxDepth ∧
      (∃ rule, error.stack.getLast? = some rule ∧ error.cause.FitsAt rule) ∧
      ((∃ limit, error.cause = .nestingTooDeep limit) ↔
        ∃ rule, Refused config tokens error rule) ∧
      (∀ limit, error.cause = .nestingTooDeep limit →
        limit = config.maxDepth ∧ error.stack.length = limit) ∧
      ∀ rule, Refused config tokens error rule → Rule.IsPath (error.stack ++ [rule]) := by
  obtain ⟨t, hrun⟩ := parse_eq_error_iff.mp h
  obtain ⟨rule, outer, depth, hstack, hroom, hfits⟩ :=
    (failed_of_program hrun).exists_innermost hdepth
  have hpath : Rule.IsPath error.stack := by
    rw [hstack]
    exact hroom.path.isPath_reverse (List.cons_ne_nil _ _)
  have hlength : error.stack.length ≤ config.maxDepth := by
    rw [hstack, List.length_reverse, ← hroom.levels]
    exact Nat.le_add_right _ _
  have hlast : error.stack.getLast? = some rule := by
    rw [hstack, List.getLast?_reverse, List.head?_cons]
  refine ⟨hpath, hlength, ⟨rule, hlast, hfits⟩, ?_⟩
  obtain ⟨next, stack, hcause, hstack, hroom, henters, hrefused⟩ | ⟨hcause, hrefused⟩ :=
    refused_or h
  · refine ⟨⟨fun _ => ⟨next, (hrefused next).mpr rfl⟩, fun _ => ⟨_, hcause⟩⟩, ?_, ?_⟩
    · intro limit hlimit
      cases hcause.symm.trans hlimit
      rw [hstack, List.length_reverse]
      exact ⟨rfl, hroom.levels⟩
    · intro rule' hrule
      obtain rfl := (hrefused rule').mp hrule
      have hlonger : Path (rule' :: stack) := ⟨henters, hroom.path⟩
      rw [hstack, ← List.reverse_cons]
      exact hlonger.isPath_reverse (List.cons_ne_nil _ _)
  · refine ⟨⟨?_, ?_⟩, ?_, ?_⟩
    · exact fun ⟨limit, hlimit⟩ => (hcause limit hlimit).elim
    · exact fun ⟨rule', hrule⟩ => (hrefused rule' hrule).elim
    · exact fun limit hlimit => (hcause limit hlimit).elim
    · exact fun rule' hrule => (hrefused rule' hrule).elim

/-- With eight levels `write x + y` fails inside of the product `y`, where a factor is refused. -/
theorem isPath_of_parse_of_write :
    let config : ParserConfig := ⟨8, false⟩
    let tokens : List Token := [⟨.keyword .writeWord, "write", {}⟩, ⟨.identifier, "x", {}⟩,
      ⟨.operator .plus, "+", {}⟩, ⟨.identifier, "y", {}⟩]
    let error : SyntaxError := ⟨.nestingTooDeep 8, {},
      [.program, .sequence, .statement, .write, .comparison, .sum, .operation, .product]⟩
    1 ≤ config.maxDepth ∧ parse config tokens = .error error ∧ Rule.IsPath error.stack ∧
      ∃ rule, Refused config tokens error rule ∧ Rule.IsPath (error.stack ++ [rule]) := by
  intro config tokens error
  have hdepth : 1 ≤ config.maxDepth := by decide
  have hparse : parse config tokens = .error error := by decide +kernel
  obtain ⟨hpath, -, -, hrefused, -, hlonger⟩ := isPath_of_parse hdepth hparse
  obtain ⟨rule, hrule⟩ := hrefused.mp ⟨8, rfl⟩
  exact ⟨hdepth, hparse, hpath, rule, hrule, hlonger rule hrule⟩

end Program

end TinyLang

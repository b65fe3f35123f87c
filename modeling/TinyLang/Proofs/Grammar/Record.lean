import TinyLang.Proofs.Grammar.Frame
import TinyLang.Proofs.Grammar.Lookahead

/-!
Only the end of an operation is not recorded, but the parse does nothing more before the end of the
chain is.
-/
namespace TinyLang

namespace ParseEvent

/-- The rules that a parse is inside of after an event, innermost first. An operation begins with
its sign, and operations are left together with the rule of their chain. -/
def stackAfter (event : ParseEvent) (stack : List Rule) : List Rule :=
  match event with
  | started rule _ => rule :: stack
  | consumed token =>
    if token.kind.isSign [.plus, .minus, .times, .divide] then .operation :: stack else stack
  | finished _ => (stack.dropWhile (· = .operation)).tail
  | failed _ | parsed _ => stack

def stackTold (events : List ParseEvent) : List Rule := events.foldr stackAfter []

def isStep : ParseEvent → Bool
  | started _ _ | consumed _ => true
  | _ => false

end ParseEvent

/-- While the parse is inside of the given rules, outermost first, it starts a rule or consumes a
token. -/
def Program.Reaches (config : ParserConfig) (tokens : List Token) (stack : List Rule) : Prop :=
  ∃ front event later, (trace config tokens).2 = front ++ event :: later ∧ event.isStep = true ∧
    (ParseEvent.stackTold front.reverse).reverse = stack

namespace Parser

open ParseEvent

variable {α β : Type} {s t u : State}

/-- The signs of all chains begin an operation. -/
theorem isSign_of_operators {level : Precedence} {kind : Token.Kind}
    (h : kind.isSign level.operators = true) :
    kind.isSign [.plus, .minus, .times, .divide] = true := by
  obtain ⟨op, hmem, rfl⟩ := Token.Kind.isSign_iff.mp h
  cases level <;> cases op <;> simp_all [Precedence.operators] <;> rfl

theorem chainRule_ne_operation (level : Precedence) : chainRule level ≠ .operation := by
  cases level <;> nofun

def Told (s : State) : Prop := stackTold s.events = s.stack

/-- The events tell which rules the parse is inside of, but for operations that are over. -/
def Outdated (s : State) : Prop :=
  ∃ count, stackTold s.events = List.replicate count .operation ++ s.stack

theorem Told.outdated (h : Told s) : Outdated s := ⟨0, h⟩

theorem Told.entered (h : Told s) (rule : Rule) : Told (s.entered rule) :=
  congrArg (rule :: ·) h

theorem Told.advance (h : Told s) {token : Token} (rest : List Token)
    (hsign : token.kind.isSign [.plus, .minus, .times, .divide] = false) :
    Told (s.advance token rest) := by
  have hafter : stackAfter (.consumed token) (stackTold s.events) = stackTold s.events := by
    rw [stackAfter, hsign]
    rfl
  exact hafter.trans h

theorem Told.operation (h : Told s) {token : Token} (rest : List Token)
    (hsign : token.kind.isSign [.plus, .minus, .times, .divide] = true) :
    Told ((s.advance token rest).pushed .operation) := by
  have hafter : stackAfter (.consumed token) (stackTold s.events) =
      .operation :: stackTold s.events := by
    rw [stackAfter, hsign]
    rfl
  exact hafter.trans (congrArg (Rule.operation :: ·) h)

theorem Outdated.popped {stack : List Rule} (h : Outdated s)
    (hstack : s.stack = .operation :: stack) : Outdated s.popped := by
  obtain ⟨count, hcount⟩ := h
  refine ⟨count + 1, ?_⟩
  rw [List.replicate_succ', List.append_assoc, State.popped, hstack]
  rwa [hstack] at hcount

/-- With the end of its rule a chain is left for good. -/
theorem Outdated.exited {rule : Rule} {stack : List Rule} (h : Outdated s)
    (hstack : s.stack = rule :: stack) (hrule : rule ≠ .operation) : Told (s.exited rule) := by
  obtain ⟨count, hcount⟩ := h
  have hdrop : (stackTold s.events).dropWhile (· = .operation) = rule :: stack := by
    rw [hcount, hstack, List.dropWhile_append_of_pos (by simp)]
    exact List.dropWhile_cons_of_neg (by simpa using hrule)
  have hleft : stackTold (s.exited rule).events = stack := congrArg List.tail hdrop
  rw [Told, hleft, State.exited, State.popped, hstack]
  rfl

structure Fault (error : SyntaxError) (t : State) : Prop where
  cause_ne (limit : Nat) : error.cause ≠ .nestingTooDeep limit
  events : ∃ older, t.events = .failed error :: older ∧ stackTold older = error.stack.reverse

structure Plain (p : Parser α) : Prop where
  framed : Framed p
  ok {s t : State} {a : α} (h : p.run s = .ok a t) (htold : Told s) : Told t
  error {s t : State} {e : SyntaxError} (h : p.run s = .error e t) (htold : Told s) : Fault e t

namespace Plain

theorem pure (a : α) : Plain (Pure.pure a : Parser α) where
  framed := compositional_framed.pure a
  ok h htold := by
    cases h
    exact htold
  error h := nomatch h

theorem bind {p : Parser α} {f : α → Parser β} (hp : Plain p) (hf : ∀ a, Plain (f a)) :
    Plain (p >>= f) where
  framed := compositional_framed.bind hp.framed fun a => (hf a).framed
  ok h htold := by
    obtain ⟨a, t, h₁, h₂⟩ := run_bind_eq_ok h
    exact (hf a).ok h₂ (hp.ok h₁ htold)
  error h htold := by
    rcases run_bind_eq_error h with h₁ | ⟨a, t, h₁, h₂⟩
    · exact hp.error h₁ htold
    · exact (hf a).error h₂ (hp.ok h₁ htold)

theorem get : Plain (get : Parser State) where
  framed := framed_get
  ok h htold := by
    cases h
    exact htold
  error h := nomatch h

theorem parsed (statements : Nat) : Plain (report (.parsed statements)) where
  framed := compositional_framed.report _
  ok h htold := by
    cases h
    exact htold
  error h := nomatch h

theorem kind : Plain kind := bind get fun s => pure s.kind

theorem failAt (location : Span) {cause : SyntaxError.Cause}
    (hcause : ∀ limit, cause ≠ .nestingTooDeep limit) :
    Plain (Parser.failAt location cause : Parser α) where
  framed := compositional_framed.failAt location cause
  ok h := nomatch h
  error {s t e} h htold := by
    cases h
    exact ⟨hcause, s.events, rfl, htold.trans (List.reverse_reverse _).symm⟩

theorem unexpected {cause : Token → SyntaxError.Cause}
    (hcause : ∀ found limit, cause found ≠ .nestingTooDeep limit) :
    Plain (Parser.unexpected cause : Parser α) := by
  refine bind get fun s => bind get fun _ => failAt _ fun limit => ?_
  split
  · exact (SyntaxError.Cause.blamesKind_ofUnknown _).2 limit
  · exact hcause _ limit

theorem accept? {wanted : Token.Kind → Bool}
    (h : ∀ kind, wanted kind = true → kind.isSign [.plus, .minus, .times, .divide] = false) :
    Plain (Parser.accept? wanted) where
  framed := compositional_framed.accept? wanted
  ok {s t next} hrun htold := by
    cases next with
    | none => exact run_accept?_eq_none hrun ▸ htold
    | some token =>
      obtain ⟨rest, -, -, hkind, rfl⟩ := run_accept?_eq_some hrun
      exact htold.advance rest (h _ hkind)
  error hrun := (run_accept?_ne_error _ _ _ _ hrun).elim

theorem acceptKind {wanted : Token.Kind}
    (h : wanted.isSign [.plus, .minus, .times, .divide] = false) :
    Plain (Parser.accept? (· = wanted)) :=
  accept? fun kind hkind => by rwa [of_decide_eq_true hkind]

theorem expect {wanted : Token.Kind}
    (h : wanted.isSign [.plus, .minus, .times, .divide] = false) :
    Plain (Parser.expect wanted) := by
  refine bind (acceptKind h) fun next => ?_
  cases next with
  | none => exact unexpected fun _ _ => nofun
  | some token => exact pure token

theorem comparisonSign : Plain (Parser.operator? [.less, .equal]) := by
  refine bind (accept? fun kind hkind => ?_) fun next => ?_
  · obtain ⟨op, hmem, rfl⟩ := Token.Kind.isSign_iff.mp hkind
    cases op <;> simp_all [Token.Kind.isSign, Token.Kind.operator?]
  · cases next <;> exact pure _

theorem number : Plain number := by
  refine bind (expect rfl) fun token => ?_
  split
  · exact pure _
  · exact failAt _ fun _ => nofun

theorem name : Plain name := bind (expect rfl) fun _ => pure _

theorem ending (body : List Stmt) : Plain (ending body) := by
  refine bind kind fun _ => ?_
  split
  · exact pure _
  · exact bind (unexpected fun _ _ => nofun) fun _ => pure _

end Plain

end Parser

end TinyLang

import TinyLang.Grammar.SyntaxError
import TinyLang.Journal

namespace TinyLang

structure ParserConfig where
  /-- How many rules may be nested. An operation counts as a level until its chain ends. -/
  maxDepth : Nat := 256
  /-- A semicolon may stand directly before `end`, `until` or the end of the input. -/
  trailingSemicolon : Bool := false
deriving DecidableEq

inductive ParseEvent where
  | started (rule : Rule) (lookahead : Option Token)
  | consumed (token : Token)
  | finished (rule : Rule)
  | failed (error : SyntaxError)
  | parsed (statements : Nat)
deriving DecidableEq

namespace ParseEvent

def entry : ParseEvent → Journal.Entry
  | started rule (some token) =>
    ⟨.trace, .parser, "starting parsing " ++ rule.name ++ " at Some(" ++ token.describe ++ ")"⟩
  | started rule none => ⟨.trace, .parser, "starting parsing " ++ rule.name ++ " at None"⟩
  | consumed token => ⟨.trace, .parser, "consumed " ++ token.describe⟩
  | finished rule => ⟨.trace, .parser, "finished parsing " ++ rule.name⟩
  | failed error => ⟨.debug, .parser, toString error⟩
  | parsed statements =>
    ⟨.debug, .parser, s!"parsed program with {statements} top level statements"⟩

end ParseEvent

namespace Parser

structure State where
  /-- The consumed tokens, newest first. -/
  passed : List Token := []
  ahead : List Token
  /-- The rules that the parse is inside of, innermost first. -/
  stack : List Rule := []
  /-- What happened so far, newest first. -/
  events : List ParseEvent := []
deriving DecidableEq

namespace State

def kind (s : State) : Token.Kind := s.ahead.head?.elim .endOfInput Token.kind

/-- The place of the end of the input: directly after the last consumed token, or else at the token
ahead. -/
def endSpan (s : State) : Span :=
  match s.passed, s.ahead with
  | token :: _, _ => token.span.after
  | [], token :: _ => token.span
  | [], [] => {}

/-- The token ahead. After the last token, that is an end of input made up for the purpose. -/
def found (s : State) : Token := s.ahead.head?.getD (.endAt s.endSpan.offset s.endSpan.start)

def location (s : State) : Span :=
  match s.ahead with
  | token :: _ => if token.isEnd then s.endSpan else token.span
  | [] => s.endSpan

def report (s : State) (event : ParseEvent) : State := { s with events := event :: s.events }

def advance (s : State) (token : Token) (rest : List Token) : State :=
  { s with passed := token :: s.passed, ahead := rest }.report (.consumed token)

end State

end Parser

/-- A parser of an `α`. The state is kept on failure, for the record of events. -/
abbrev Parser (α : Type) := EStateM SyntaxError Parser.State α

namespace Parser

variable {α : Type}

def report (event : ParseEvent) : Parser Unit := modify (·.report event)

def kind : Parser Token.Kind := State.kind <$> get

def failAt (location : Span) (cause : SyntaxError.Cause) : Parser α := do
  let error := ⟨cause, location, (← get).stack.reverse⟩
  report (.failed error)
  throw error

def fail (cause : SyntaxError.Cause) : Parser α := do
  failAt (← get).location cause

def unexpected (cause : Token → SyntaxError.Cause) : Parser α := do
  let found := (← get).found
  -- A token of unknown kind is at fault itself, whatever was expected.
  fail (if found.kind = .unknown then .ofUnknown found.lexeme else cause found)

def accept? (wanted : Token.Kind → Bool) : Parser (Option Token) := do
  match (← get).ahead with
  | [] => return none
  | token :: rest =>
    -- The end of the input is never consumed.
    if !token.isEnd && wanted token.kind then
      modify (·.advance token rest)
      return token
    else return none

def expect (wanted : Token.Kind) : Parser Token := do
  match ← accept? (· = wanted) with
  | some token => return token
  | none => unexpected (.expectedToken [wanted])

def operator? (wanted : List Operator) : Parser (Option (Operator × Span)) := do
  match ← accept? fun kind => kind.operator?.any wanted.contains with
  | some token => return token.kind.operator?.map (·, token.span)
  | none => return none

def enter (rule : Rule) : Parser Unit := modify fun s => { s with stack := rule :: s.stack }

def leave : Parser Unit := modify fun s => { s with stack := s.stack.tail }

def inside (rule : Rule) (body : Parser α) : Parser α := do
  enter rule
  let result ← body
  leave
  return result

def start (rule : Rule) : Parser Unit := do
  report (.started rule (← get).ahead.head?)

def parsing (rule : Rule) (body : Parser α) : Parser α := do
  start rule
  let result ← inside rule body
  report (.finished rule)
  return result

def refuse (limit : Nat) (rule : Rule) : Parser α := do
  start rule
  fail (.nestingTooDeep limit)

end Parser

end TinyLang

import TinyLang.Grammar.Parser
import TinyLang.Syntax.Basic
import TinyLang.Text.Notation

/-!
The rules of the grammar, by recursive descent with one token ahead.

    program    = sequence
    sequence   = statement { ";" statement }
    statement  = "if" comparison "then" sequence "end"
               | "repeat" sequence "until" comparison
               | identifier ":=" comparison
               | "read" identifier
               | "write" comparison
    comparison = sum [ ( "<" | "=" ) sum ]
    sum        = product { ( "+" | "-" ) product }
    product    = factor { ( "*" | "/" ) factor }
    factor     = "(" comparison ")" | number | identifier

Every rule takes the number of further rules that may be nested, and is refused when there is none
left. Chains of operators are folded to the left, and every link takes up a level until the chain
ends.
-/
namespace TinyLang

def Token.Kind.closesSequence (kind : Token.Kind) : Bool :=
  kind = .keyword .endWord || kind = .keyword .untilWord || kind = .endOfInput

namespace Parser

variable (config : ParserConfig)

/-- The statements after the first one, each after a semicolon. There are no more of them than
`rounds`, the number of tokens ahead. -/
def followers (statement : Parser Stmt) : Nat → Parser (List Stmt)
  | 0 => return []
  | rounds + 1 => do
    match ← accept? (· = .semicolon) with
    | none => return []
    | some _ =>
      if config.trailingSemicolon && (← kind).closesSequence then return []
      let next ← statement
      let rest ← followers statement rounds
      return next :: rest

def number : Parser Expr := do
  let token ← expect .number
  match Decimal.signed64? token.lexeme with
  | some value => return .constant value token.span
  | none => failAt token.span (.numberTooLarge token.lexeme)

mutual

def sequence : Nat → Parser (List Stmt)
  | 0 => refuse config.maxDepth .sequence
  | depth + 1 => parsing .sequence do
    let first ← statement depth
    let rest ← followers config (statement depth) (← get).ahead.length
    return first :: rest

def statement : Nat → Parser Stmt
  | 0 => refuse config.maxDepth .statement
  | depth + 1 => parsing .statement do
    match ← kind with
    | .keyword .ifWord => conditional depth
    | .keyword .repeatWord => loop depth
    | .identifier => assign depth
    | .keyword .readWord => read depth
    | .keyword .writeWord => write depth
    | _ => unexpected .expectedStatement

def conditional : Nat → Parser Stmt
  | 0 => refuse config.maxDepth .conditional
  | depth + 1 => parsing .conditional do
    let keyword ← expect (.keyword .ifWord)
    let condition ← comparison depth
    let _ ← expect (.keyword .thenWord)
    let branch ← sequence depth
    let _ ← expect (.keyword .endWord)
    return .conditional condition branch keyword.span

def loop : Nat → Parser Stmt
  | 0 => refuse config.maxDepth .loop
  | depth + 1 => parsing .loop do
    let keyword ← expect (.keyword .repeatWord)
    let body ← sequence depth
    let _ ← expect (.keyword .untilWord)
    let condition ← comparison depth
    return .loop body condition keyword.span

def assign : Nat → Parser Stmt
  | 0 => refuse config.maxDepth .assign
  | depth + 1 => parsing .assign do
    let target ← expect .identifier
    let _ ← expect .assign
    let value ← comparison depth
    return .assign target.lexeme value target.span

def read : Nat → Parser Stmt
  | 0 => refuse config.maxDepth .read
  | _ + 1 => parsing .read do
    let keyword ← expect (.keyword .readWord)
    let target ← expect .identifier
    return .read target.lexeme keyword.span

def write : Nat → Parser Stmt
  | 0 => refuse config.maxDepth .write
  | depth + 1 => parsing .write do
    let keyword ← expect (.keyword .writeWord)
    let value ← comparison depth
    return .write value keyword.span

def comparison : Nat → Parser Expr
  | 0 => refuse config.maxDepth .comparison
  | depth + 1 => parsing .comparison do
    let left ← sum depth
    match ← operator? [.less, .equal] with
    | none => return left
    | some (op, span) =>
      let right ← sum depth
      return .binary op left right span

def sum : Nat → Parser Expr
  | 0 => refuse config.maxDepth .sum
  | depth + 1 => parsing .sum do
    let first ← product depth
    sumAfter depth first

def sumAfter : Nat → Expr → Parser Expr
  | 0, left => do
    match ← operator? [.plus, .minus] with
    | none => return left
    | some _ => fail (.nestingTooDeep config.maxDepth)
  | depth + 1, left => do
    match ← operator? [.plus, .minus] with
    | none => return left
    | some (op, span) => inside .operation do
      let right ← product depth
      sumAfter depth (.binary op left right span)

def product : Nat → Parser Expr
  | 0 => refuse config.maxDepth .product
  | depth + 1 => parsing .product do
    let first ← factor depth
    productAfter depth first

def productAfter : Nat → Expr → Parser Expr
  | 0, left => do
    match ← operator? [.times, .divide] with
    | none => return left
    | some _ => fail (.nestingTooDeep config.maxDepth)
  | depth + 1, left => do
    match ← operator? [.times, .divide] with
    | none => return left
    | some (op, span) => inside .operation do
      let right ← factor depth
      productAfter depth (.binary op left right span)

def factor : Nat → Parser Expr
  | 0 => refuse config.maxDepth .factor
  | depth + 1 => parsing .factor do
    match ← kind with
    | .openBracket =>
      let _ ← expect .openBracket
      let inner ← comparison depth
      let _ ← expect .closeBracket
      return inner
    | .number => number
    | .identifier =>
      let token ← expect .identifier
      return .name token.lexeme token.span
    | _ => unexpected .expectedExpression

end

def program : Parser Program :=
  match config.maxDepth with
  | 0 => refuse config.maxDepth .program
  | depth + 1 => do
    let program ← parsing .program do
      let body ← sequence config depth
      unless (← kind) = .endOfInput do
        unexpected (.expectedToken [.semicolon, .endOfInput])
      return (⟨body⟩ : Program)
    report (.parsed program.body.length)
    return program

end Parser

namespace Program

/-- Parses tokens up to the first end of input. Says also what happened on the way, in order. -/
def trace (config : ParserConfig) (tokens : List Token) :
    Except SyntaxError Program × List ParseEvent :=
  match (Parser.program config).run { ahead := tokens } with
  | .ok program s => (.ok program, s.events.reverse)
  | .error error s => (.error error, s.events.reverse)

def parse (config : ParserConfig) (tokens : List Token) : Except SyntaxError Program :=
  (trace config tokens).1

def parseJournal (config : ParserConfig) (tokens : List Token) : List Journal.Entry :=
  (trace config tokens).2.map ParseEvent.entry

end Program

end TinyLang

import TinyLang.Source.Excerpt
import TinyLang.Text.Notation
import TinyLang.Token.Basic

namespace TinyLang

/-- The rules of the grammar that a parse can be inside of. An operation is a link of a chain of
sums or of products. -/
inductive Rule where
  | program | sequence | statement
  | conditional | loop | assign | read | write
  | comparison | sum | product | factor | operation
deriving DecidableEq, Inhabited

def Rule.name : Rule → String
  | program => "program"
  | sequence => "stmt_sequence"
  | statement => "statement"
  | conditional => "if_stmt"
  | loop => "repeat_stmt"
  | assign => "assign_stmt"
  | read => "read_stmt"
  | write => "write_stmt"
  | comparison => "exp"
  | sum => "simple_exp"
  | product => "term"
  | factor => "factor"
  | operation => "operation"

inductive SyntaxError.Cause where
  | expectedToken (expected : List Token.Kind) (found : Token)
  | expectedStatement (found : Token)
  | expectedExpression (found : Token)
  | unknownCharacter (text : String)
  | unclosedComment
  | numberTooLarge (text : String)
  | nestingTooDeep (limit : Nat)
deriving DecidableEq

structure SyntaxError where
  cause : SyntaxError.Cause
  /-- The token at fault. At the end of the input it is the point after the last token. -/
  location : Span
  /-- The rules that were being parsed, outermost first. -/
  stack : List Rule
deriving DecidableEq

namespace SyntaxError

namespace Cause

/-- The cause that a token of unknown kind stands for: an opening brace is a comment that is never
closed. -/
def ofUnknown (lexeme : String) : Cause :=
  if lexeme = "\x7b" then unclosedComment else unknownCharacter lexeme

def describe (token : Token) : String :=
  if token.isEnd then "end of input" else token.kind.name ++ " " ++ Text.quote token.lexeme

def message : Cause → String
  | expectedToken expected found =>
    "expected " ++ " or ".intercalate (expected.map Token.Kind.name) ++ ", found " ++ describe found
  | expectedStatement found => "expected start of statement, found " ++ describe found
  | expectedExpression found => "expected an expression, found " ++ describe found
  | unknownCharacter text => "unrecognized character " ++ Text.quote text
  | unclosedComment => "unterminated comment"
  | numberTooLarge text =>
    "invalid number " ++ Text.quote text ++ ", numbers must fit in a signed 64 bit integer"
  | nestingTooDeep limit => "nesting exceeds the maximum depth of " ++ toString limit

end Cause

def message (error : SyntaxError) : String := error.cause.message

instance : ToString SyntaxError :=
  ⟨fun error => "syntax error at " ++ toString error.location ++ ": " ++ error.message⟩

/-- What is drawn below the line of an error: tildes below the text at fault, or an arrow to the
point where text is missing. -/
def marker (error : SyntaxError) (source : String) (column : Nat) : String :=
  if error.location.isEmpty then Text.repeated column '-' ++ "^"
  else
    let text := Text.slice? error.location.offset error.location.length source.toList
    Text.repeated column ' ' ++ Text.repeated (text.elim 1 List.length) '~'

def snippet (error : SyntaxError) (source : String) : String :=
  let lines := excerpt 2 0 source error.location
  let width := (lines.map fun line => (toString line.number).length).foldl max 1
  String.join <| lines.map fun line =>
    Text.padded width line.number ++ " | " ++ String.ofList (Text.trimEnd line.text.toList) ++ "\n" ++
      if line.number = error.location.line then
        Text.repeated width ' ' ++ " | " ++ error.marker source line.column ++ "\n"
      else ""

def render (error : SyntaxError) (source : String) : String :=
  "syntax error: " ++ error.message ++ "\n  -> " ++ toString error.location ++ "\n" ++
    error.snippet source

end SyntaxError

end TinyLang

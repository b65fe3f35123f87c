import TinyLang.Source.Span
import TinyLang.Text.Quoted

namespace TinyLang

inductive Keyword where
  | ifWord | thenWord | endWord | repeatWord | untilWord | readWord | writeWord
deriving DecidableEq, Inhabited

namespace Keyword

def all : List Keyword :=
  [ifWord, thenWord, endWord, repeatWord, untilWord, readWord, writeWord]

def spelling : Keyword → String
  | ifWord => "if"
  | thenWord => "then"
  | endWord => "end"
  | repeatWord => "repeat"
  | untilWord => "until"
  | readWord => "read"
  | writeWord => "write"

/-- The reserved word that a word spells in any mixture of upper and lower case. -/
def ofWord? (word : List Char) : Option Keyword :=
  all.find? fun keyword => keyword.spelling.toList == word.map Char.toLower

end Keyword

inductive Operator where
  | less | equal | plus | minus | times | divide
deriving DecidableEq, Inhabited

namespace Operator

def symbol : Operator → Char
  | less => '<'
  | equal => '='
  | plus => '+'
  | minus => '-'
  | times => '*'
  | divide => '/'

def name : Operator → String
  | less => "Lt"
  | equal => "Eq"
  | plus => "Plus"
  | minus => "Minus"
  | times => "Mult"
  | divide => "Div"

def all : List Operator := [less, equal, plus, minus, times, divide]

def ofSymbol? (c : Char) : Option Operator :=
  all.find? (·.symbol == c)

theorem ofSymbol?_symbol (op : Operator) : ofSymbol? op.symbol = some op := by
  cases op <;> decide

end Operator

namespace Token

inductive Kind where
  | keyword (word : Keyword)
  | operator (op : Operator)
  | assign
  | semicolon
  | openBracket
  | closeBracket
  | identifier
  | number
  | endOfInput
  | unknown
deriving DecidableEq, Inhabited

namespace Kind

def all : List Kind :=
  [semicolon, keyword .ifWord, keyword .thenWord, keyword .endWord, keyword .repeatWord,
    keyword .untilWord, identifier, assign, keyword .readWord, keyword .writeWord,
    operator .less, operator .equal, operator .plus, operator .minus, operator .times,
    operator .divide, openBracket, closeBracket, number, endOfInput, unknown]

theorem mem_all (kind : Kind) : kind ∈ all := by
  cases kind with
  | keyword word => cases word <;> decide
  | operator op => cases op <;> decide
  | _ => decide

def name : Kind → String
  | semicolon => "SEMICOLON"
  | keyword .ifWord => "IF"
  | keyword .thenWord => "THEN"
  | keyword .endWord => "END"
  | keyword .repeatWord => "REPEAT"
  | keyword .untilWord => "UNTIL"
  | keyword .readWord => "READ"
  | keyword .writeWord => "WRITE"
  | identifier => "IDENTIFIER"
  | assign => "ASSIGN"
  | operator .less => "LESSTHAN"
  | operator .equal => "EQUAL"
  | operator .plus => "PLUS"
  | operator .minus => "MINUS"
  | operator .times => "MULT"
  | operator .divide => "DIV"
  | openBracket => "OPENBRACKET"
  | closeBracket => "CLOSEDBRACKET"
  | number => "NUMBER"
  | endOfInput => "EOF"
  | unknown => "ERROR"

def ofName? (name : String) : Option Kind :=
  all.find? (·.name == name)

theorem ofName?_name (kind : Kind) : ofName? kind.name = some kind := by
  cases kind with
  | keyword word => cases word <;> decide
  | operator op => cases op <;> decide
  | _ => decide

def operator? : Kind → Option Operator
  | operator op => some op
  | _ => none

def ofWord (word : List Char) : Kind :=
  match Keyword.ofWord? word with
  | some reserved => keyword reserved
  | none => identifier

instance : ToString Kind := ⟨name⟩

end Kind

end Token

structure Token where
  kind : Token.Kind
  lexeme : String
  span : Span := {}
deriving DecidableEq, Inhabited

namespace Token

def endAt (offset : Nat) (p : Position) : Token :=
  ⟨.endOfInput, "", .point offset p⟩

def isEnd (token : Token) : Bool := token.kind = .endOfInput

def describe (token : Token) : String :=
  token.kind.name ++ "(" ++ Text.quote token.lexeme ++ ")@" ++ toString token.span

end Token

end TinyLang

namespace TinyLang.Journal

inductive Level where
  | error | warn | info | debug | trace
deriving DecidableEq

namespace Level

def name : Level → String
  | error => "ERROR"
  | warn => "WARN"
  | info => "INFO"
  | debug => "DEBUG"
  | trace => "TRACE"

/-- Levels by growing detail. -/
def rank : Level → Nat
  | error => 1
  | warn => 2
  | info => 3
  | debug => 4
  | trace => 5

def toStderr : Level → Bool
  | error | warn => true
  | _ => false

end Level

inductive Component where
  | scanner | scanning | parser | listing | graph | command
deriving DecidableEq

def Component.name : Component → String
  | scanner => "tiny_parsing::lexer"
  | scanning => "tiny_parsing"
  | parser => "tiny_parsing::parser"
  | listing => "tiny_parsing::token_listing"
  | graph => "tiny_ast::graph"
  | command => "tinyc"

structure Entry where
  level : Level
  component : Component
  message : String
deriving DecidableEq

def Entry.line (entry : Entry) : String :=
  entry.level.name ++ " " ++ entry.component.name ++ ": " ++ entry.message

end TinyLang.Journal

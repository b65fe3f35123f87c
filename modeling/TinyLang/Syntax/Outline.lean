import TinyLang.Syntax.Basic
import TinyLang.Text.Notation

namespace TinyLang

namespace Outline

inductive Kind where
  | program | sequence
  | conditional | loop | assignment | input | output
  | operation | constant | name
deriving DecidableEq, Inhabited

namespace Kind

def all : List Kind :=
  [program, sequence, conditional, loop, assignment, input, output, operation, constant, name]

def title : Kind → String
  | program => "Program"
  | sequence => "StmtSequence"
  | conditional => "IfStmt"
  | loop => "RepeatStmt"
  | assignment => "AssignStmt"
  | input => "ReadStmt"
  | output => "WriteStmt"
  | operation => "OpExpr"
  | constant => "ConstExpr"
  | name => "IdExpr"

def isStatement : Kind → Bool
  | conditional | loop | assignment | input | output => true
  | _ => false

def isExpression : Kind → Bool
  | operation | constant | name => true
  | _ => false

end Kind

structure Node where
  kind : Kind
  label : String
  span : Option Span := none
deriving DecidableEq, Inhabited

end Outline

inductive Outline where
  | branch (node : Outline.Node) (children : List Outline)

namespace Outline

def node : Outline → Node
  | branch node _ => node

def children : Outline → List Outline
  | branch _ children => children

mutual

/-- All subtrees, each with its depth: a tree before its children, the children in order. -/
def preorder (depth : Nat) : Outline → List (Nat × Outline)
  | branch node children => (depth, branch node children) :: preorderAll (depth + 1) children

def preorderAll (depth : Nat) : List Outline → List (Nat × Outline)
  | [] => []
  | tree :: rest => preorder depth tree ++ preorderAll depth rest

end

mutual

def size : Outline → Nat
  | branch _ children => sizeAll children + 1

def sizeAll : List Outline → Nat
  | [] => 0
  | tree :: rest => size tree + sizeAll rest

end

end Outline

namespace Expr

def outline : Expr → Outline
  | binary op left right span =>
    .branch ⟨.operation, "op (" ++ toString op.symbol ++ ")", span⟩ [left.outline, right.outline]
  | constant value span => .branch ⟨.constant, "const (" ++ toString value.toInt ++ ")", span⟩ []
  | name text span => .branch ⟨.name, "id (" ++ text ++ ")", span⟩ []

end Expr

namespace Stmt

mutual

def outline : Stmt → Outline
  | conditional condition branch span =>
    .branch ⟨.conditional, "if", span⟩
      [condition.outline, .branch ⟨.sequence, "sequence", none⟩ (outlines branch)]
  | loop body condition span =>
    .branch ⟨.loop, "repeat", span⟩
      [.branch ⟨.sequence, "sequence", none⟩ (outlines body), condition.outline]
  | assign target value span =>
    .branch ⟨.assignment, "assign (" ++ target ++ ")", span⟩ [value.outline]
  | read target span => .branch ⟨.input, "read (" ++ target ++ ")", span⟩ []
  | write value span => .branch ⟨.output, "write", span⟩ [value.outline]

def outlines : List Stmt → List Outline
  | [] => []
  | s :: rest => s.outline :: outlines rest

end

end Stmt

namespace Program

def bodyOutline (program : Program) : Outline :=
  .branch ⟨.sequence, "sequence", none⟩ (Stmt.outlines program.body)

def outline (program : Program) : Outline :=
  .branch ⟨.program, "program", none⟩ [program.bodyOutline]

end Program

namespace Outline

def drawLine (indent depth : Nat) (label : String) : String :=
  Text.repeated (depth * indent) ' ' ++ label ++ "\n"

def draw (indent : Nat) (tree : Outline) : String :=
  String.join ((tree.preorder 0).map fun (depth, sub) => drawLine indent depth sub.node.label)

end Outline

def Expr.draw (indent : Nat) (e : Expr) : String := e.outline.draw indent

def Program.draw (indent : Nat) (program : Program) : String := program.outline.draw indent

instance : ToString Program := ⟨Program.draw 2⟩

end TinyLang

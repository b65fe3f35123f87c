import TinyLang.Syntax.Basic

/-!
Walks through a program in the order of its text. At every visit a visitor decides what to do, and
gets the walk below as an action that it may run or leave out.
-/
namespace TinyLang

/-- A visit on a walk. A statement and an expression are visited twice, first as such and then in
their own form. -/
inductive Visit where
  | program (program : Program)
  | sequence (body : List Stmt)
  | statement (s : Stmt)
  | statementForm (s : Stmt)
  | expression (e : Expr)
  | expressionForm (e : Expr)

namespace Visit

def name : Visit → String
  | program _ => "program"
  | sequence _ => "stmt_sequence"
  | statement _ => "stmt"
  | statementForm (.conditional ..) => "if_stmt"
  | statementForm (.loop ..) => "repeat_stmt"
  | statementForm (.assign ..) => "assign_stmt"
  | statementForm (.read ..) => "read_stmt"
  | statementForm (.write ..) => "write_stmt"
  | expression _ => "expr"
  | expressionForm (.binary ..) => "op_expr"
  | expressionForm (.constant ..) => "const_expr"
  | expressionForm (.name ..) => "id_expr"

end Visit

/-- What is done at a visit, given the walk through what lies below it. -/
abbrev Visitor (m : Type → Type) := Visit → m Unit → m Unit

section

variable {m : Type → Type} [Monad m] (visitor : Visitor m)

def Expr.walk : Expr → m Unit
  | .binary op left right span =>
    visitor (.expression (.binary op left right span)) <|
      visitor (.expressionForm (.binary op left right span)) do
        Expr.walk left
        Expr.walk right
  | .constant value span =>
    visitor (.expression (.constant value span)) <|
      visitor (.expressionForm (.constant value span)) (pure ())
  | .name text span =>
    visitor (.expression (.name text span)) <|
      visitor (.expressionForm (.name text span)) (pure ())

mutual

def Stmt.walk : Stmt → m Unit
  | .conditional condition branch span =>
    visitor (.statement (.conditional condition branch span)) <|
      visitor (.statementForm (.conditional condition branch span)) do
        condition.walk visitor
        visitor (.sequence branch) (Stmt.walkAll branch)
  | .loop body condition span =>
    visitor (.statement (.loop body condition span)) <|
      visitor (.statementForm (.loop body condition span)) do
        visitor (.sequence body) (Stmt.walkAll body)
        condition.walk visitor
  | .assign target value span =>
    visitor (.statement (.assign target value span)) <|
      visitor (.statementForm (.assign target value span)) (value.walk visitor)
  | .read target span =>
    visitor (.statement (.read target span)) <|
      visitor (.statementForm (.read target span)) (pure ())
  | .write value span =>
    visitor (.statement (.write value span)) <|
      visitor (.statementForm (.write value span)) (value.walk visitor)

def Stmt.walkAll : List Stmt → m Unit
  | [] => pure ()
  | s :: rest => do
    Stmt.walk s
    Stmt.walkAll rest

end

def Program.walk (program : Program) : m Unit :=
  visitor (.program program) <| visitor (.sequence program.body) <|
    Stmt.walkAll visitor program.body

end

namespace Visitor

/-- Logs the name of every visit, newest first. It fails with the length of the log when that
reaches `limit`, and does not go below the visits named in `skip`. -/
def logging (skip : List String) (limit : Option Nat) : Visitor (EStateM Nat (List String)) :=
  fun visit below => do
    modify (visit.name :: ·)
    let count := (← get).length
    if limit.any (· ≤ count) then throw count
    unless skip.contains visit.name do below

/-- Collects the names that a program uses or reads into, newest first. It fails on the name `stop`
before collecting it. -/
def collecting (stop : Option String) : Visitor (EStateM String (List String)) :=
  fun visit below =>
    let collect (name : String) : EStateM String (List String) Unit :=
      if stop = some name then throw name else modify (name :: ·)
    match visit with
    | .expressionForm (.name text _) => collect text
    | .statementForm (.read target _) => collect target
    | _ => below

end Visitor

namespace Program

def visits (program : Program) (skip : List String) (limit : Option Nat) :
    List String × Option Nat :=
  match program.walk (Visitor.logging skip limit) |>.run [] with
  | .ok _ log => (log.reverse, none)
  | .error count log => (log.reverse, some count)

def names (program : Program) (stop : Option String) : List String × Option String :=
  match program.walk (Visitor.collecting stop) |>.run [] with
  | .ok _ found => (found.reverse, none)
  | .error name found => (found.reverse, some name)

end Program

end TinyLang

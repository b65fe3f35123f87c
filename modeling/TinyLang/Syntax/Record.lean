import TinyLang.Syntax.Basic
import TinyLang.Text.Quoted

namespace TinyLang

namespace Expr

def record : Expr → Record
  | binary op left right span =>
    .wrapped "Op" (.fields "OpExpr" [.entry "op" (.plain op.name), .entry "left" left.record,
      .entry "right" right.record, .entry "span" span.record])
  | constant value span =>
    .wrapped "Const" (.fields "ConstExpr" [.entry "value" (.plain (toString value.toInt)),
      .entry "span" span.record])
  | name text span =>
    .wrapped "Id" (.fields "IdExpr" [.entry "name" (.plain (Text.quote text)),
      .entry "span" span.record])

end Expr

namespace Stmt

mutual

def record : Stmt → Record
  | conditional condition branch span =>
    .wrapped "If" (.fields "IfStmt" [.entry "condition" condition.record,
      .entry "then_branch" (.fields "StmtSequence" [.entry "statements" (.list (records branch))]),
      .entry "span" span.record])
  | loop body condition span =>
    .wrapped "Repeat" (.fields "RepeatStmt" [
      .entry "body" (.fields "StmtSequence" [.entry "statements" (.list (records body))]),
      .entry "until" condition.record, .entry "span" span.record])
  | assign target value span =>
    .wrapped "Assign" (.fields "AssignStmt" [.entry "target" (.plain (Text.quote target)),
      .entry "value" value.record, .entry "span" span.record])
  | read target span =>
    .wrapped "Read" (.fields "ReadStmt" [.entry "target" (.plain (Text.quote target)),
      .entry "span" span.record])
  | write value span =>
    .wrapped "Write" (.fields "WriteStmt" [.entry "value" value.record, .entry "span" span.record])

def records : List Stmt → List Record
  | [] => []
  | s :: rest => s.record :: records rest

end

end Stmt

def Program.record (program : Program) : Record :=
  .fields "Program" [.entry "body"
    (.fields "StmtSequence" [.entry "statements" (.list (Stmt.records program.body))])]

end TinyLang

import TinyLang.Source.Span
import TinyLang.Token.Basic

namespace TinyLang

inductive Expr where
  | binary (op : Operator) (left right : Expr) (span : Span)
  | constant (value : Int64) (span : Span)
  | name (text : String) (span : Span)
deriving DecidableEq, Inhabited

inductive Stmt where
  | conditional (condition : Expr) (branch : List Stmt) (span : Span)
  | loop (body : List Stmt) (condition : Expr) (span : Span)
  | assign (target : String) (value : Expr) (span : Span)
  | read (target : String) (span : Span)
  | write (value : Expr) (span : Span)
deriving Inhabited

structure Program where
  body : List Stmt

namespace Expr

def span : Expr → Span
  | binary _ _ _ span => span
  | constant _ span => span
  | name _ span => span

def text : Expr → String
  | binary op left right _ => "(" ++ left.text ++ " " ++ toString op.symbol ++ " " ++ right.text ++ ")"
  | constant value _ => toString value.toInt
  | name text _ => text

end Expr

namespace Stmt

def span : Stmt → Span
  | conditional _ _ span => span
  | loop _ _ span => span
  | assign _ _ span => span
  | read _ span => span
  | write _ span => span

mutual

def decEq : (s t : Stmt) → Decidable (s = t)
  | conditional c b p, conditional c' b' p' =>
    match decEqAll b b' with
    | isTrue h =>
      if h' : c = c' ∧ p = p' then isTrue (by rw [h, h'.1, h'.2])
      else isFalse (by rintro ⟨⟩; exact h' ⟨rfl, rfl⟩)
    | isFalse h => isFalse (by rintro ⟨⟩; exact h rfl)
  | loop b c p, loop b' c' p' =>
    match decEqAll b b' with
    | isTrue h =>
      if h' : c = c' ∧ p = p' then isTrue (by rw [h, h'.1, h'.2])
      else isFalse (by rintro ⟨⟩; exact h' ⟨rfl, rfl⟩)
    | isFalse h => isFalse (by rintro ⟨⟩; exact h rfl)
  | assign x e p, assign x' e' p' =>
    decidable_of_iff (x = x' ∧ e = e' ∧ p = p') (by simp)
  | read x p, read x' p' => decidable_of_iff (x = x' ∧ p = p') (by simp)
  | write e p, write e' p' => decidable_of_iff (e = e' ∧ p = p') (by simp)
  | conditional .., loop .. | conditional .., assign .. | conditional .., read ..
  | conditional .., write .. | loop .., conditional .. | loop .., assign .. | loop .., read ..
  | loop .., write .. | assign .., conditional .. | assign .., loop .. | assign .., read ..
  | assign .., write .. | read .., conditional .. | read .., loop .. | read .., assign ..
  | read .., write .. | write .., conditional .. | write .., loop .. | write .., assign ..
  | write .., read .. => isFalse (by rintro ⟨⟩)

def decEqAll : (s t : List Stmt) → Decidable (s = t)
  | [], [] => isTrue rfl
  | [], _ :: _ => isFalse (by simp)
  | _ :: _, [] => isFalse (by simp)
  | a :: s, b :: t =>
    match decEq a b, decEqAll s t with
    | isTrue h, isTrue h' => isTrue (by rw [h, h'])
    | isFalse h, _ => isFalse (by simp [h])
    | _, isFalse h => isFalse (by simp [h])

end

instance : DecidableEq Stmt := decEq

end Stmt

deriving instance DecidableEq for Program

namespace Stmt

mutual

def expressions : Stmt → List Expr
  | conditional condition branch _ => condition :: expressionsAll branch
  | loop body condition _ => expressionsAll body ++ [condition]
  | assign _ value _ => [value]
  | read _ _ => []
  | write value _ => [value]

def expressionsAll : List Stmt → List Expr
  | [] => []
  | s :: rest => s.expressions ++ expressionsAll rest

end

end Stmt

def Program.expressions (program : Program) : List Expr := Stmt.expressionsAll program.body

end TinyLang

import TinyLang.Grammar.Productions

namespace TinyLang

def Token.nextKind (tokens : List Token) : Token.Kind := tokens.head?.elim .endOfInput Token.kind

@[simp] theorem Token.nextKind_cons (token : Token) (rest : List Token) :
    nextKind (token :: rest) = token.kind := rfl

def Token.kinds (tokens : List Token) : List Token.Kind := tokens.map Token.kind

@[simp] theorem Token.kinds_nil : kinds [] = [] := rfl

@[simp] theorem Token.kinds_cons (token : Token) (rest : List Token) :
    kinds (token :: rest) = token.kind :: kinds rest := rfl

@[simp] theorem Token.kinds_append (front back : List Token) :
    kinds (front ++ back) = kinds front ++ kinds back :=
  List.map_append

def Token.beforeEnd (tokens : List Token) : List Token := tokens.takeWhile fun token => !token.isEnd

theorem Token.exists_eq_beforeEnd_append (tokens : List Token) :
    ∃ rest, tokens = beforeEnd tokens ++ rest ∧ nextKind rest = .endOfInput := by
  refine ⟨tokens.dropWhile fun token => !token.isEnd, List.takeWhile_append_dropWhile.symm, ?_⟩
  cases h : tokens.dropWhile fun token => !token.isEnd with
  | nil => rfl
  | cons token rest =>
    have hend := List.head?_dropWhile_not (fun token : Token => !token.isEnd) tokens
    rw [h] at hend
    simpa [isEnd] using hend

/-- What stands before the end of the input begins as the tokens do, unless an end is their first. -/
theorem Token.beforeEnd_cases (tokens : List Token) :
    (nextKind tokens = .endOfInput ∧ beforeEnd tokens = []) ∨
      ∃ token rest, tokens = token :: rest ∧ token.isEnd = false ∧
        beforeEnd tokens = token :: beforeEnd rest := by
  cases tokens with
  | nil => exact .inl ⟨rfl, rfl⟩
  | cons token rest =>
    cases hend : token.isEnd with
    | true => exact .inl ⟨of_decide_eq_true hend, by simp [beforeEnd, hend]⟩
    | false => exact .inr ⟨token, rest, rfl, hend, by simp [beforeEnd, hend]⟩

theorem Token.beforeEnd_append {front : List Token} (h : ∀ token ∈ front, token.isEnd = false)
    (back : List Token) : beforeEnd (front ++ back) = front ++ beforeEnd back :=
  List.takeWhile_append_of_pos fun token hmem => by simp [h token hmem]

theorem Token.beforeEnd_eq_self {tokens : List Token} (h : ∀ token ∈ tokens, token.isEnd = false) :
    beforeEnd tokens = tokens := by
  have happend := beforeEnd_append h []
  simpa [beforeEnd] using happend

abbrev Token.OfKind (kind : Token.Kind) : Type := { token : Token // token.kind = kind }

def Token.Kind.isSign (wanted : List Operator) (kind : Token.Kind) : Bool :=
  kind.operator?.any wanted.contains

theorem Token.Kind.isSign_iff {wanted : List Operator} {kind : Token.Kind} :
    kind.isSign wanted = true ↔ ∃ op ∈ wanted, kind = .operator op := by
  cases kind <;> simp [isSign, operator?]

structure Token.Sign (wanted : List Operator) where
  op : Operator
  token : Token
  kind_eq : token.kind = .operator op
  op_mem : op ∈ wanted

inductive Precedence where
  | sum | product
deriving DecidableEq

/-- What the grammar derives. After the first statement of a sequence come its `followers`, and
after the first operand of a chain come its `links`. -/
inductive Symbol where
  | program | sequence | followers | statement | comparison
  | chain (level : Precedence) | links (level : Precedence) | factor
deriving DecidableEq

namespace Precedence

def operators : Precedence → List Operator
  | sum => [.plus, .minus]
  | product => [.times, .divide]

def stops : Precedence → Token.Kind → Bool
  | sum, kind => !kind.isSign [.plus, .minus, .times, .divide]
  | product, kind => !kind.isSign [.times, .divide]

def operand : Precedence → Symbol
  | sum => .chain product
  | product => .factor

end Precedence

/-- What may come after a symbol in a sentence, so far as a parser has to know: nothing that would
carry the symbol on. -/
def Symbol.follow : Symbol → Token.Kind → Bool
  | program, kind => kind = .endOfInput
  | sequence, kind | followers, kind => kind.closesSequence
  | statement, kind | comparison, kind => kind.operator?.isNone
  | chain level, kind | links level, kind => level.stops kind
  | factor, _ => true

/-- The trees that a symbol stands for. Links wait for the tree to the left of them. -/
abbrev Symbol.Tree : Symbol → Type
  | program => Program
  | sequence | followers => List Stmt
  | statement => Stmt
  | comparison | chain _ | factor => Expr
  | links _ => Expr → Expr

def Precedence.operandTree : (level : Precedence) → level.operand.Tree → Expr
  | sum, tree => tree
  | product, tree => tree

/-- A derivation in the grammar. A semicolon may come after the last statement of a sequence if
`trailing` is set, and numbers fit in 64 bits. -/
inductive Derivation (trailing : Bool) : Symbol → Type where
  | program (body : Derivation trailing .sequence) : Derivation trailing .program
  | sequence (first : Derivation trailing .statement) (rest : Derivation trailing .followers) :
      Derivation trailing .sequence
  | done : Derivation trailing .followers
  | doneAfter (semicolon : Token.OfKind .semicolon) (allowed : trailing = true) :
      Derivation trailing .followers
  | next (semicolon : Token.OfKind .semicolon) (first : Derivation trailing .statement)
      (rest : Derivation trailing .followers) : Derivation trailing .followers
  | conditional (ifWord : Token.OfKind (.keyword .ifWord))
      (condition : Derivation trailing .comparison) (thenWord : Token.OfKind (.keyword .thenWord))
      (branch : Derivation trailing .sequence) (endWord : Token.OfKind (.keyword .endWord)) :
      Derivation trailing .statement
  | loop (repeatWord : Token.OfKind (.keyword .repeatWord)) (body : Derivation trailing .sequence)
      (untilWord : Token.OfKind (.keyword .untilWord))
      (condition : Derivation trailing .comparison) : Derivation trailing .statement
  | assign (target : Token.OfKind .identifier) (sign : Token.OfKind .assign)
      (value : Derivation trailing .comparison) : Derivation trailing .statement
  | read (readWord : Token.OfKind (.keyword .readWord)) (target : Token.OfKind .identifier) :
      Derivation trailing .statement
  | write (writeWord : Token.OfKind (.keyword .writeWord))
      (value : Derivation trailing .comparison) : Derivation trailing .statement
  | single (left : Derivation trailing (.chain .sum)) : Derivation trailing .comparison
  | compared (left : Derivation trailing (.chain .sum)) (sign : Token.Sign [.less, .equal])
      (right : Derivation trailing (.chain .sum)) : Derivation trailing .comparison
  | chain (level : Precedence) (first : Derivation trailing level.operand)
      (rest : Derivation trailing (.links level)) : Derivation trailing (.chain level)
  | stop (level : Precedence) : Derivation trailing (.links level)
  | link (level : Precedence) (sign : Token.Sign level.operators)
      (operand : Derivation trailing level.operand) (rest : Derivation trailing (.links level)) :
      Derivation trailing (.links level)
  | brackets (opening : Token.OfKind .openBracket) (inner : Derivation trailing .comparison)
      (closing : Token.OfKind .closeBracket) : Derivation trailing .factor
  | number (token : Token.OfKind .number) (value : Int64)
      (value_eq : Decimal.signed64? token.1.lexeme = some value) : Derivation trailing .factor
  | name (token : Token.OfKind .identifier) : Derivation trailing .factor

namespace Derivation

variable {trailing : Bool} {symbol : Symbol}

@[simp] def tokens {symbol : Symbol} : Derivation trailing symbol → List Token
  | program body => body.tokens
  | sequence first rest => first.tokens ++ rest.tokens
  | done => []
  | doneAfter semicolon _ => [semicolon.1]
  | next semicolon first rest => semicolon.1 :: (first.tokens ++ rest.tokens)
  | conditional ifWord condition thenWord branch endWord =>
    ifWord.1 :: (condition.tokens ++ thenWord.1 :: (branch.tokens ++ [endWord.1]))
  | loop repeatWord body untilWord condition =>
    repeatWord.1 :: (body.tokens ++ untilWord.1 :: condition.tokens)
  | assign target sign value => target.1 :: sign.1 :: value.tokens
  | read readWord target => [readWord.1, target.1]
  | write writeWord value => writeWord.1 :: value.tokens
  | single left => left.tokens
  | compared left sign right => left.tokens ++ sign.token :: right.tokens
  | chain _ first rest => first.tokens ++ rest.tokens
  | stop _ => []
  | link _ sign operand rest => sign.token :: (operand.tokens ++ rest.tokens)
  | brackets opening inner closing => opening.1 :: (inner.tokens ++ [closing.1])
  | number token _ _ => [token.1]
  | name token => [token.1]

/-- The tree of a derivation. Chains are folded to the left and brackets leave no trace. -/
@[simp] def tree {symbol : Symbol} : Derivation trailing symbol → symbol.Tree
  | program body => (⟨body.tree⟩ : Program)
  | sequence first rest => (first.tree : Stmt) :: (rest.tree : List Stmt)
  | done => ([] : List Stmt)
  | doneAfter _ _ => ([] : List Stmt)
  | next _ first rest => (first.tree : Stmt) :: (rest.tree : List Stmt)
  | conditional ifWord condition _ branch _ =>
    Stmt.conditional condition.tree branch.tree ifWord.1.span
  | loop repeatWord body _ condition => Stmt.loop body.tree condition.tree repeatWord.1.span
  | assign target _ value => Stmt.assign target.1.lexeme value.tree target.1.span
  | read readWord target => Stmt.read target.1.lexeme readWord.1.span
  | write writeWord value => Stmt.write value.tree writeWord.1.span
  | single left => (left.tree : Expr)
  | compared left sign right => Expr.binary sign.op left.tree right.tree sign.token.span
  | chain level first rest => (rest.tree : Expr → Expr) (level.operandTree first.tree)
  | stop _ => (id : Expr → Expr)
  | link level sign operand rest => fun left =>
    (rest.tree : Expr → Expr)
      (.binary sign.op left (level.operandTree operand.tree) sign.token.span)
  | brackets _ inner _ => (inner.tree : Expr)
  | number token value _ => Expr.constant value token.1.span
  | name token => Expr.name token.1.lexeme token.1.span

theorem follow_cons {kind : Token.Kind} (token : Token.OfKind kind) (rest : List Token)
    (h : symbol.follow kind = true) : symbol.follow (Token.nextKind (token.1 :: rest)) = true := by
  rw [Token.nextKind_cons, token.2, h]

theorem follow_sign {wanted : List Operator} (sign : Token.Sign wanted) (rest : List Token)
    (h : ∀ op ∈ wanted, symbol.follow (.operator op) = true) :
    symbol.follow (Token.nextKind (sign.token :: rest)) = true := by
  rw [Token.nextKind_cons, sign.kind_eq, h sign.op sign.op_mem]

/-- What may come after a sequence may come after its last statement. -/
theorem follow_statement_of_closes {kind : Token.Kind} (h : kind.closesSequence = true) :
    Symbol.follow .statement kind = true := by
  cases kind <;> first | rfl | contradiction

theorem follow_chain_of_comparison {kind : Token.Kind}
    (h : Symbol.follow .comparison kind = true) : Symbol.follow (.chain .sum) kind = true := by
  cases kind <;> first | rfl | contradiction

theorem isSign_of_follow_comparison {kind : Token.Kind} {wanted : List Operator}
    (h : Symbol.follow .comparison kind = true) : kind.isSign wanted = false := by
  cases kind <;> first | rfl | contradiction

theorem isSign_of_follow_links {level : Precedence} {kind : Token.Kind}
    (h : Symbol.follow (.links level) kind = true) : kind.isSign level.operators = false := by
  cases level <;> cases kind with
  | operator op => revert h; cases op <;> decide
  | _ => rfl

theorem follow_operand_of_links {level : Precedence} {kind : Token.Kind}
    (h : Symbol.follow (.links level) kind = true) : level.operand.follow kind = true := by
  cases level <;> cases kind with
  | operator op => revert h; cases op <;> decide
  | _ => rfl

theorem follow_operand_of_operator {level : Precedence} :
    ∀ op ∈ level.operators, level.operand.follow (.operator op) = true := by
  cases level <;> decide

/-- What comes after the first statement of a sequence may come after a statement. -/
theorem follow_append_followers (R : Derivation trailing .followers) {rest : List Token}
    (h : Symbol.follow .followers (Token.nextKind rest) = true) :
    Symbol.follow .statement (Token.nextKind (R.tokens ++ rest)) = true := by
  cases R with
  | done => exact follow_statement_of_closes h
  | doneAfter semicolon _ => exact follow_cons semicolon _ rfl
  | next semicolon _ _ => exact follow_cons semicolon _ rfl

/-- What comes after the first operand of a chain may come after an operand. -/
theorem follow_append_links {level : Precedence} (R : Derivation trailing (.links level))
    {rest : List Token} (h : Symbol.follow (.links level) (Token.nextKind rest) = true) :
    level.operand.follow (Token.nextKind (R.tokens ++ rest)) = true := by
  cases R with
  | stop => exact follow_operand_of_links h
  | link _ sign _ _ => exact follow_sign sign _ follow_operand_of_operator

/-- No statement begins with what closes a sequence. -/
theorem closesSequence_eq_false (D : Derivation trailing .statement) (rest : List Token) :
    (Token.nextKind (D.tokens ++ rest)).closesSequence = false := by
  cases D with
  | conditional token _ _ _ _ | loop token _ _ _ | assign token _ _ | read token _
  | write token _ =>
    rw [tokens, List.cons_append, Token.nextKind_cons, token.2]
    rfl

theorem isEnd_eq_false {symbol : Symbol} (D : Derivation trailing symbol) :
    ∀ token ∈ D.tokens, token.isEnd = false := by
  induction D <;> grind [tokens, Token.isEnd, Token.Sign.kind_eq]

theorem beforeEnd_tokens {symbol : Symbol} (D : Derivation trailing symbol) :
    Token.beforeEnd D.tokens = D.tokens :=
  Token.beforeEnd_eq_self D.isEnd_eq_false

/-- How many rules have to be nested at once to parse the derived tokens. In a chain the operand at
position `i`, counted from 0, comes on top of `i` operations. -/
@[simp] def need {symbol : Symbol} : Derivation trailing symbol → Nat
  | program body => 1 + body.need
  | sequence first rest => 1 + max first.need rest.need
  | done => 0
  | doneAfter _ _ => 0
  | next _ first rest => max first.need rest.need
  | conditional _ condition _ branch _ => 2 + max condition.need branch.need
  | loop _ body _ condition => 2 + max body.need condition.need
  | assign _ _ value => 2 + value.need
  | read _ _ => 2
  | write _ value => 2 + value.need
  | single left => 1 + left.need
  | compared left _ right => 1 + max left.need right.need
  | chain _ first rest => 1 + max first.need rest.need
  | stop _ => 0
  | link _ _ operand rest => 1 + max operand.need rest.need
  | brackets _ inner _ => 1 + inner.need
  | number _ _ _ => 1
  | name _ => 1

end Derivation

end TinyLang

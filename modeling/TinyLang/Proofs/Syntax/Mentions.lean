import TinyLang.Proofs.Syntax.SourceOrder
import TinyLang.Syntax.Walk

namespace TinyLang

def Node.mention? : Node → Option String
  | statement (.read target _) => some target
  | expression (.name text _) => some text
  | _ => none

def Node.mentions (nodes : List Node) : List String := nodes.filterMap mention?

@[simp] theorem Node.mentions_append (front back : List Node) :
    mentions (front ++ back) = mentions front ++ mentions back :=
  List.filterMap_append

@[simp] theorem Node.mentions_nil : mentions [] = [] := rfl

@[simp] theorem Node.mentions_cons (node : Node) (nodes : List Node) :
    mentions (node :: nodes) = node.mention?.toList ++ mentions nodes := by
  cases h : node.mention? <;> simp [mentions, h]

namespace Visitor

def collect (stop : Option String) (name : String) : EStateM String (List String) Unit :=
  if stop = some name then throw name else modify (name :: ·)

variable {stop : Option String} {names : List String}

/-- As long as the name to stop at does not come, all names are collected. -/
theorem run_collect_of_not_mem (h : ∀ name ∈ names, stop ≠ some name) (found : List String) :
    (forM names (collect stop)).run found = .ok () (names.reverse ++ found) := by
  induction names generalizing found with
  | nil => rfl
  | cons name names ih =>
    rw [List.forall_mem_cons] at h
    rw [List.forM_cons, EStateM.run_bind, collect, if_neg h.1, EStateM.run_modify]
    simp [ih h.2]

/-- Nothing is collected from the name to stop at on. -/
theorem run_collect_of_mem {name : String} (h : name ∈ names) (found : List String) :
    (forM names (collect (some name))).run found =
      .error name ((names.takeWhile (· ≠ name)).reverse ++ found) := by
  induction names generalizing found with
  | nil => cases h
  | cons first names ih =>
    rw [List.forM_cons, EStateM.run_bind, collect]
    by_cases hfirst : name = first
    · subst hfirst
      rw [if_pos rfl, EStateM.run_throw, List.takeWhile_cons_of_neg (by simp)]
      rfl
    · have hmem : name ∈ names := (List.mem_cons.mp h).resolve_left hfirst
      rw [if_neg (by simpa using hfirst), EStateM.run_modify,
        List.takeWhile_cons_of_pos (by simpa using Ne.symm hfirst)]
      simp [ih hmem]

end Visitor

section Walk

variable (stop : Option String)

theorem Expr.walk_collecting (e : Expr) :
    e.walk (Visitor.collecting stop) = forM (Node.mentions e.nodes) (Visitor.collect stop) := by
  induction e with
  | binary op left right span hleft hright =>
    rw [walk, hleft, hright]
    simp [Visitor.collecting, nodes, Node.mention?]
  | constant value span => rfl
  | name text span => simp [walk, Visitor.collecting, nodes, Node.mention?, Visitor.collect]

namespace Stmt

mutual

theorem walk_collecting (s : Stmt) :
    s.walk (Visitor.collecting stop) = forM (Node.mentions s.nodes) (Visitor.collect stop) := by
  cases s with
  | conditional condition branch span =>
    rw [walk, condition.walk_collecting, walkAll_collecting branch]
    simp [Visitor.collecting, nodes, Node.mention?]
  | loop body condition span =>
    rw [walk, condition.walk_collecting, walkAll_collecting body]
    simp [Visitor.collecting, nodes, Node.mention?]
  | assign target value span =>
    rw [walk, value.walk_collecting]
    simp [Visitor.collecting, nodes, Node.mention?]
  | read target span => simp [walk, Visitor.collecting, nodes, Node.mention?, Visitor.collect]
  | write value span =>
    rw [walk, value.walk_collecting]
    simp [Visitor.collecting, nodes, Node.mention?]

theorem walkAll_collecting (body : List Stmt) :
    walkAll (Visitor.collecting stop) body =
      forM (Node.mentions (nodesAll body)) (Visitor.collect stop) := by
  cases body with
  | nil => rfl
  | cons s rest =>
    rw [walkAll, nodesAll, Node.mentions_append, List.forM_append, walk_collecting s,
      walkAll_collecting rest]

end

end Stmt

namespace Program

variable (program : Program)

theorem walk_collecting : program.walk (Visitor.collecting stop) =
    forM (Node.mentions program.nodes) (Visitor.collect stop) :=
  Stmt.walkAll_collecting stop program.body

theorem names_none : program.names none = (Node.mentions program.nodes, none) := by
  rw [names, walk_collecting, Visitor.run_collect_of_not_mem (by simp)]
  simp

theorem names_some (name : String) : program.names (some name) =
    if name ∈ Node.mentions program.nodes then
      ((Node.mentions program.nodes).takeWhile (· ≠ name), some name)
    else (Node.mentions program.nodes, none) := by
  rw [names, walk_collecting]
  by_cases hmem : name ∈ Node.mentions program.nodes
  · rw [Visitor.run_collect_of_mem hmem, if_pos hmem]
    simp
  · have hother : ∀ other ∈ Node.mentions program.nodes, some name ≠ some other := by
      rintro other hother heq
      exact hmem (Option.some.inj heq ▸ hother)
    rw [Visitor.run_collect_of_not_mem hother, if_neg hmem]
    simp

end Program

end Walk

namespace Token

/-- The texts of the names that nothing is assigned to: those with no assignment sign directly
behind them. -/
def mentioned : List Token → List String
  | [] => []
  | token :: rest =>
    if token.kind = .identifier ∧ nextKind rest ≠ .assign then token.lexeme :: mentioned rest
    else mentioned rest

theorem mentioned_cons_of_ne {token : Token} (h : token.kind ≠ .identifier) (rest : List Token) :
    mentioned (token :: rest) = mentioned rest := by
  rw [mentioned, if_neg fun hname => h hname.1]

theorem mentioned_cons_other {kind : Kind} (token : OfKind kind) (h : kind ≠ .identifier)
    (rest : List Token) : mentioned (token.1 :: rest) = mentioned rest :=
  mentioned_cons_of_ne (token.2.symm ▸ h) rest

theorem mentioned_cons_sign {wanted : List Operator} (sign : Sign wanted) (rest : List Token) :
    mentioned (sign.token :: rest) = mentioned rest :=
  mentioned_cons_of_ne (by simp [sign.kind_eq]) rest

theorem mentioned_cons_name (token : OfKind .identifier) {rest : List Token}
    (h : nextKind rest ≠ .assign) :
    mentioned (token.1 :: rest) = token.1.lexeme :: mentioned rest := by
  rw [mentioned, if_pos ⟨token.2, h⟩]

theorem mentioned_cons_target (token : OfKind .identifier) (sign : OfKind .assign)
    (rest : List Token) : mentioned (token.1 :: sign.1 :: rest) = mentioned rest := by
  rw [mentioned, if_neg (by simp [sign.2]), mentioned_cons_other sign (by decide)]

end Token

/-- The names that stand in the text of a symbol are those of its tree: with `later` behind it they
are `ahead`. Links put theirs behind those of the tree to the left. -/
def Symbol.Mentions (ahead later : List String) : (symbol : Symbol) → symbol.Tree → Prop
  | .program, tree => ahead = Node.mentions (Program.nodes tree) ++ later
  | .sequence, tree | .followers, tree => ahead = Node.mentions (Stmt.nodesAll tree) ++ later
  | .statement, tree => ahead = Node.mentions (Stmt.nodes tree) ++ later
  | .comparison, tree | .chain _, tree | .factor, tree =>
    ahead = Node.mentions (Expr.nodes tree) ++ later
  | .links _, tree => ∀ left : Expr,
    Node.mentions left.nodes ++ ahead = Node.mentions (tree left).nodes ++ later

theorem Precedence.mentions_operandTree (level : Precedence) {ahead later : List String}
    {tree : level.operand.Tree} (h : level.operand.Mentions ahead later tree) :
    ahead = Node.mentions (level.operandTree tree).nodes ++ later := by
  cases level <;> exact h

namespace Derivation

open Token

variable {trailing : Bool} {symbol : Symbol}

/-- No assignment comes behind the first statement of a sequence. -/
theorem nextKind_followers_ne (R : Derivation trailing .followers) {rest : List Token}
    (h : nextKind rest ≠ .assign) : nextKind (R.tokens ++ rest) ≠ .assign := by
  cases R with
  | done => exact h
  | doneAfter semicolon allowed => simp [semicolon.2]
  | next semicolon first rest => simp [semicolon.2]

theorem nextKind_links_ne {level : Precedence} (R : Derivation trailing (.links level))
    {rest : List Token} (h : nextKind rest ≠ .assign) : nextKind (R.tokens ++ rest) ≠ .assign := by
  cases R with
  | stop => exact h
  | link level sign operand rest => simp [sign.kind_eq]

/-- The names in the text of a derivation are those of its tree, unless something is assigned to
the last of them. -/
theorem mentions (D : Derivation trailing symbol) {rest : List Token}
    (h : nextKind rest ≠ .assign) :
    symbol.Mentions (mentioned (D.tokens ++ rest)) (mentioned rest) D.tree := by
  -- On the derivation. A name asks for the kind of the token behind it, so each part is given what
  -- follows it in the text, and no part is followed by an assignment sign.
  induction D generalizing rest with
  | program body hbody => exact hbody h
  | sequence first followers hfirst hfollowers =>
    have hhead : mentioned (first.tokens ++ (followers.tokens ++ rest)) = _ :=
      hfirst (nextKind_followers_ne followers h)
    have htail : mentioned (followers.tokens ++ rest) = _ := hfollowers h
    simp [Symbol.Mentions, Stmt.nodesAll, hhead, htail]
  | done => rfl
  | doneAfter semicolon allowed => exact mentioned_cons_other semicolon (by decide) rest
  | next semicolon first followers hfirst hfollowers =>
    have hhead : mentioned (first.tokens ++ (followers.tokens ++ rest)) = _ :=
      hfirst (nextKind_followers_ne followers h)
    have htail : mentioned (followers.tokens ++ rest) = _ := hfollowers h
    have hsemicolon := mentioned_cons_other semicolon (by decide)
    simp [Symbol.Mentions, Stmt.nodesAll, hsemicolon, hhead, htail]
  | conditional ifWord condition thenWord branch endWord hcondition hbranch =>
    have hhead : mentioned
        (condition.tokens ++ thenWord.1 :: (branch.tokens ++ endWord.1 :: rest)) = _ :=
      hcondition (by simp [thenWord.2])
    have htail : mentioned (branch.tokens ++ endWord.1 :: rest) = _ :=
      hbranch (by simp [endWord.2])
    have hif := mentioned_cons_other ifWord (by decide)
    have hthen := mentioned_cons_other thenWord (by decide)
    have hend := mentioned_cons_other endWord (by decide)
    simp [Symbol.Mentions, Stmt.nodes, Node.mention?, hif, hthen, hend, hhead, htail]
  | loop repeatWord body untilWord condition hbody hcondition =>
    have hhead : mentioned (body.tokens ++ untilWord.1 :: (condition.tokens ++ rest)) = _ :=
      hbody (by simp [untilWord.2])
    have htail : mentioned (condition.tokens ++ rest) = _ := hcondition h
    have hrepeat := mentioned_cons_other repeatWord (by decide)
    have huntil := mentioned_cons_other untilWord (by decide)
    simp [Symbol.Mentions, Stmt.nodes, Node.mention?, hrepeat, huntil, hhead, htail]
  | assign target sign value hvalue =>
    have hbehind : mentioned (value.tokens ++ rest) = _ := hvalue h
    have htarget := mentioned_cons_target target sign
    simp [Symbol.Mentions, Stmt.nodes, Node.mention?, htarget, hbehind]
  | read readWord target =>
    have hread := mentioned_cons_other readWord (by decide)
    have htarget := mentioned_cons_name target h
    simp [Symbol.Mentions, Stmt.nodes, Node.mention?, hread, htarget]
  | write writeWord value hvalue =>
    have hbehind : mentioned (value.tokens ++ rest) = _ := hvalue h
    have hwrite := mentioned_cons_other writeWord (by decide)
    simp [Symbol.Mentions, Stmt.nodes, Node.mention?, hwrite, hbehind]
  | single left hleft => exact hleft h
  | compared left sign right hleft hright =>
    have hhead : mentioned (left.tokens ++ sign.token :: (right.tokens ++ rest)) = _ :=
      hleft (by simp [sign.kind_eq])
    have htail : mentioned (right.tokens ++ rest) = _ := hright h
    simp [Symbol.Mentions, Expr.nodes, Node.mention?, mentioned_cons_sign, hhead, htail]
  | chain level first links hfirst hlinks =>
    have hhead := level.mentions_operandTree (hfirst (nextKind_links_ne links h))
    have htail := hlinks h (level.operandTree first.tree)
    rw [← hhead] at htail
    simpa [Symbol.Mentions] using htail
  | stop level => exact fun left => rfl
  | link level sign operand links hoperand hlinks =>
    intro left
    have hhead := level.mentions_operandTree (hoperand (nextKind_links_ne links h))
    have htail := hlinks h
      (.binary sign.op left (level.operandTree operand.tree) sign.token.span)
    simp only [tokens, tree, List.cons_append, List.append_assoc, mentioned_cons_sign]
    rw [← htail, hhead]
    simp [Expr.nodes, Node.mention?]
  | brackets opening inner closing hinner =>
    have hhead : mentioned (inner.tokens ++ closing.1 :: rest) = _ := hinner (by simp [closing.2])
    have hopening := mentioned_cons_other opening (by decide)
    have hclosing := mentioned_cons_other closing (by decide)
    simp [Symbol.Mentions, hopening, hclosing, hhead]
  | number token value value_eq => exact mentioned_cons_other token (by decide) rest
  | name token => exact mentioned_cons_name token h

end Derivation

namespace Program

/-- The names that are collected from a parsed program are those of its tokens that nothing is
assigned to, in order. With a name to stop at, they are those before it. -/
theorem names_of_parse {config : ParserConfig} {tokens : List Token} {program : Program}
    (h : parse config tokens = .ok program) :
    program.names none = (Token.mentioned (Token.beforeEnd tokens), none) ∧
    ∀ name, program.names (some name) =
      if name ∈ Token.mentioned (Token.beforeEnd tokens) then
        ((Token.mentioned (Token.beforeEnd tokens)).takeWhile (· ≠ name), some name)
      else (Token.mentioned (Token.beforeEnd tokens), none) := by
  obtain ⟨D, htokens, rfl⟩ := exists_derivation_of_parse h
  have hmentions : Token.mentioned (D.tokens ++ []) = Node.mentions (Program.nodes D.tree) ++ [] :=
    D.mentions (by simp [Token.nextKind])
  rw [List.append_nil, List.append_nil, htokens] at hmentions
  rw [hmentions]
  exact ⟨names_none D.tree, names_some D.tree⟩

/-- The name that is assigned to is not collected, and those in the condition of the loop come
last. -/
theorem names_of_parse_of_loop : ∃ program,
    parse {} (tokenize "repeat x := a - (b + c); read d until a = e") = .ok program ∧
      program.names none = (["a", "b", "c", "d", "a", "e"], none) ∧
      program.names (some "c") = (["a", "b"], some "c") := by
  have hsome : (parse {}
      (tokenize "repeat x := a - (b + c); read d until a = e")).toOption.isSome := by
    decide +kernel
  obtain ⟨program, hprogram⟩ := Option.isSome_iff_exists.mp hsome
  have hparse := Parser.parse_eq_ok_of_toOption hprogram
  have hmentioned : Token.mentioned
      (Token.beforeEnd (tokenize "repeat x := a - (b + c); read d until a = e")) =
        ["a", "b", "c", "d", "a", "e"] := by
    decide +kernel
  obtain ⟨hall, hstop⟩ := names_of_parse hparse
  refine ⟨program, hparse, ?_, ?_⟩
  · rw [hall, hmentioned]
  · rw [hstop, hmentioned]
    rfl

end Program

end TinyLang

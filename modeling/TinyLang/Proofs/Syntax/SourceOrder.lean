import TinyLang.Proofs.Syntax.Printing

namespace TinyLang

inductive Node where
  | statement (s : Stmt)
  | expression (e : Expr)

namespace Node

def span : Node → Span
  | statement s => s.span
  | expression e => e.span

def IntroducedBy (text : List Char) : Node → Prop
  | statement (.conditional _ _ _) => text.map Char.toLower = Keyword.ifWord.spelling.toList
  | statement (.loop _ _ _) => text.map Char.toLower = Keyword.repeatWord.spelling.toList
  | statement (.assign target _ _) => text = target.toList
  | statement (.read _ _) => text.map Char.toLower = Keyword.readWord.spelling.toList
  | statement (.write _ _) => text.map Char.toLower = Keyword.writeWord.spelling.toList
  | expression (.binary op _ _ _) => text = [op.symbol]
  | expression (.constant value _) =>
    text ≠ [] ∧ (∀ c ∈ text, c.isDigit = true) ∧ (Nat.ofDigitChars 10 text 0 : Int) = value.toInt
  | expression (.name name _) => text = name.toList

end Node

/-- The nodes of an expression in the order of the text: an operator comes between its operands. -/
def Expr.nodes : Expr → List Node
  | binary op left right span =>
    left.nodes ++ .expression (binary op left right span) :: right.nodes
  | constant value span => [.expression (constant value span)]
  | name text span => [.expression (name text span)]

namespace Stmt

mutual

/-- The nodes of a statement in the order of the text: first the statement itself, and the body of a
loop before its condition. -/
def nodes : Stmt → List Node
  | conditional condition branch span =>
    .statement (conditional condition branch span) :: (condition.nodes ++ nodesAll branch)
  | loop body condition span =>
    .statement (loop body condition span) :: (nodesAll body ++ condition.nodes)
  | assign target value span => .statement (assign target value span) :: value.nodes
  | read target span => [.statement (read target span)]
  | write value span => .statement (write value span) :: value.nodes

def nodesAll : List Stmt → List Node
  | [] => []
  | s :: rest => s.nodes ++ nodesAll rest

end

end Stmt

def Program.nodes (program : Program) : List Node := Stmt.nodesAll program.body

namespace Token

def Kind.introduces : Kind → Bool
  | .keyword .ifWord | .keyword .repeatWord | .keyword .readWord | .keyword .writeWord => true
  | .operator _ | .number | .identifier => true
  | _ => false

/-- The tokens that introduce nodes. If `read` stands directly before the tokens, a name in front is
its target. -/
def introducing (afterRead : Bool) : List Token → List Token
  | [] => []
  | token :: rest =>
    if token.kind.introduces && !(afterRead && token.kind = .identifier) then
      token :: introducing (token.kind = .keyword .readWord) rest
    else introducing (token.kind = .keyword .readWord) rest

theorem introducing_sublist (afterRead : Bool) (tokens : List Token) :
    (introducing afterRead tokens).Sublist tokens := by
  induction tokens generalizing afterRead with
  | nil => exact .refl _
  | cons token rest ih =>
    rw [introducing]
    split
    · exact (ih _).cons_cons token
    · exact (ih _).cons token

theorem kind_ne_of_mem_introducing {afterRead : Bool} {tokens : List Token} {token : Token}
    (h : token ∈ introducing afterRead tokens) : token.kind ≠ .endOfInput := by
  induction tokens generalizing afterRead with
  | nil => cases h
  | cons first rest ih =>
    rw [introducing] at h
    split at h
    · next hfirst =>
      rcases List.mem_cons.mp h with rfl | hlater
      · intro hend
        rw [hend] at hfirst
        cases hfirst
      · exact ih hlater
    · exact ih h

structure Introduces (token : Token) (node : Node) : Prop where
  span_eq : node.span = token.span
  introducedBy : node.IntroducedBy token.lexeme.toList

end Token

/-- The tokens introduce the nodes in the tree of a symbol, in order. Links put theirs behind those
of the tree to the left. -/
def Symbol.Introduced (tokens : List Token) : (symbol : Symbol) → symbol.Tree → Prop
  | .program, tree => List.Forall₂ Token.Introduces tokens (Program.nodes tree)
  | .sequence, tree | .followers, tree => List.Forall₂ Token.Introduces tokens (Stmt.nodesAll tree)
  | .statement, tree => List.Forall₂ Token.Introduces tokens (Stmt.nodes tree)
  | .comparison, tree | .chain _, tree | .factor, tree =>
    List.Forall₂ Token.Introduces tokens (Expr.nodes tree)
  | .links _, tree => ∀ (front : List Token) (left : Expr),
    List.Forall₂ Token.Introduces front left.nodes →
      List.Forall₂ Token.Introduces (front ++ tokens) (tree left).nodes

theorem Precedence.introduced_operandTree (level : Precedence) {tokens : List Token}
    {tree : level.operand.Tree} (h : level.operand.Introduced tokens tree) :
    List.Forall₂ Token.Introduces tokens (level.operandTree tree).nodes := by
  cases level <;> exact h

theorem Token.Sign.introduces {wanted : List Operator} (sign : Token.Sign wanted)
    (h : sign.token.Spelled) (left right : Expr) :
    sign.token.Introduces (.expression (.binary sign.op left right sign.token.span)) where
  span_eq := rfl
  introducedBy := by
    obtain ⟨after, hmatches⟩ := h
    rw [sign.kind_eq] at hmatches
    exact hmatches

theorem Token.OfKind.map_toLower {word : Keyword} (token : Token.OfKind (.keyword word))
    (h : token.1.Spelled) : token.1.lexeme.toList.map Char.toLower = word.spelling.toList := by
  obtain ⟨after, hmatches⟩ := h
  rw [token.2] at hmatches
  exact hmatches.2

namespace Derivation

open Token

variable {trailing : Bool} {symbol : Symbol}

@[simp] def marks {symbol : Symbol} : Derivation trailing symbol → List Token
  | program body => body.marks
  | sequence first rest => first.marks ++ rest.marks
  | done => []
  | doneAfter _ _ => []
  | next _ first rest => first.marks ++ rest.marks
  | conditional ifWord condition _ branch _ => ifWord.1 :: (condition.marks ++ branch.marks)
  | loop repeatWord body _ condition => repeatWord.1 :: (body.marks ++ condition.marks)
  | assign target _ value => target.1 :: value.marks
  | read readWord _ => [readWord.1]
  | write writeWord value => writeWord.1 :: value.marks
  | single left => left.marks
  | compared left sign right => left.marks ++ sign.token :: right.marks
  | chain _ first rest => first.marks ++ rest.marks
  | stop _ => []
  | link _ sign operand rest => sign.token :: (operand.marks ++ rest.marks)
  | brackets _ inner _ => inner.marks
  | number token _ _ => [token.1]
  | name token => [token.1]

theorem introducing_tokens (D : Derivation trailing symbol) (rest : List Token) :
    introducing false (D.tokens ++ rest) = D.marks ++ introducing false rest := by
  -- No derivation ends with `read`, so that the rest may stand behind any of them.
  induction D generalizing rest with
  | program body hbody => exact hbody rest
  | sequence first followers hfirst hfollowers => simp [hfirst, hfollowers]
  | done => rfl
  | doneAfter semicolon _ => simp [introducing, Kind.introduces, semicolon.2]
  | next semicolon first followers hfirst hfollowers =>
    simp [introducing, Kind.introduces, semicolon.2, hfirst, hfollowers]
  | conditional ifWord condition thenWord branch endWord hcondition hbranch =>
    simp [introducing, Kind.introduces, ifWord.2, thenWord.2, endWord.2, hcondition, hbranch]
  | loop repeatWord body untilWord condition hbody hcondition =>
    simp [introducing, Kind.introduces, repeatWord.2, untilWord.2, hbody, hcondition]
  | assign target sign value hvalue =>
    simp [introducing, Kind.introduces, target.2, sign.2, hvalue]
  | read readWord target => simp [introducing, Kind.introduces, readWord.2, target.2]
  | write writeWord value hvalue => simp [introducing, Kind.introduces, writeWord.2, hvalue]
  | single left hleft => exact hleft rest
  | compared left sign right hleft hright =>
    simp [introducing, Kind.introduces, sign.kind_eq, hleft, hright]
  | chain level first links hfirst hlinks => simp [hfirst, hlinks]
  | stop level => rfl
  | link level sign operand links hoperand hlinks =>
    simp [introducing, Kind.introduces, sign.kind_eq, hoperand, hlinks]
  | brackets opening inner closing hinner =>
    simp [introducing, Kind.introduces, opening.2, closing.2, hinner]
  | number token value _ => simp [introducing, Kind.introduces, token.2]
  | name token => simp [introducing, Kind.introduces, token.2]

/-- Tokens as they are spelled in a source introduce the nodes of the tree. -/
theorem introduced (D : Derivation trailing symbol) (h : ∀ token ∈ D.tokens, token.Spelled) :
    symbol.Introduced D.marks D.tree := by
  induction D with
  | program body hbody => exact hbody h
  | sequence first rest hfirst hrest =>
    obtain ⟨hhead, htail⟩ := List.forall_mem_append.mp h
    exact List.rel_append (hfirst hhead) (hrest htail)
  | done => exact .nil
  | doneAfter semicolon allowed => exact .nil
  | next semicolon first rest hfirst hrest =>
    obtain ⟨hhead, htail⟩ := List.forall_mem_append.mp (List.forall_mem_cons.mp h).2
    exact List.rel_append (hfirst hhead) (hrest htail)
  | conditional ifWord condition thenWord branch endWord hcondition hbranch =>
    simp only [tokens, List.forall_mem_append, List.forall_mem_cons] at h
    exact .cons ⟨rfl, ifWord.map_toLower h.1⟩
      (List.rel_append (hcondition h.2.1) (hbranch h.2.2.2.1))
  | loop repeatWord body untilWord condition hbody hcondition =>
    simp only [tokens, List.forall_mem_append, List.forall_mem_cons] at h
    exact .cons ⟨rfl, repeatWord.map_toLower h.1⟩
      (List.rel_append (hbody h.2.1) (hcondition h.2.2.2))
  | assign target sign value hvalue =>
    simp only [tokens, List.forall_mem_cons] at h
    exact .cons ⟨rfl, rfl⟩ (hvalue h.2.2)
  | read readWord target =>
    simp only [tokens, List.forall_mem_cons] at h
    exact .cons ⟨rfl, readWord.map_toLower h.1⟩ .nil
  | write writeWord value hvalue =>
    simp only [tokens, List.forall_mem_cons] at h
    exact .cons ⟨rfl, writeWord.map_toLower h.1⟩ (hvalue h.2)
  | single left hleft => exact hleft h
  | compared left sign right hleft hright =>
    simp only [tokens, List.forall_mem_append, List.forall_mem_cons] at h
    exact List.rel_append (hleft h.1) (.cons (sign.introduces h.2.1 _ _) (hright h.2.2))
  | chain level first rest hfirst hrest =>
    obtain ⟨hhead, htail⟩ := List.forall_mem_append.mp h
    exact hrest htail _ _ (level.introduced_operandTree (hfirst hhead))
  | stop level =>
    intro front left hleft
    rwa [marks, List.append_nil]
  | link level sign operand rest hoperand hrest =>
    simp only [tokens, List.forall_mem_append, List.forall_mem_cons] at h
    intro front left hleft
    have hright := level.introduced_operandTree (hoperand h.2.1)
    have hsign := sign.introduces h.1 left (level.operandTree operand.tree)
    have hbinary : List.Forall₂ Introduces (front ++ sign.token :: operand.marks)
        (Expr.binary sign.op left (level.operandTree operand.tree) sign.token.span).nodes :=
      List.rel_append hleft (.cons hsign hright)
    have hlater := hrest h.2.2 _ _ hbinary
    rwa [List.append_assoc, List.cons_append] at hlater
  | brackets opening inner closing hinner =>
    simp only [tokens, List.forall_mem_append, List.forall_mem_cons] at h
    exact hinner h.2.1
  | number token value value_eq =>
    obtain ⟨after, hmatches⟩ := h token.1 (List.mem_singleton_self _)
    rw [token.2] at hmatches
    obtain ⟨hne, hdigits, -⟩ := hmatches
    have hvalue := Decimal.toInt_of_signed64? hne hdigits value_eq
    exact .cons ⟨rfl, hne, hdigits, hvalue.symm⟩ .nil
  | name token => exact .cons ⟨rfl, rfl⟩ .nil

end Derivation

namespace Token

variable {tokens : List Token} {nodes : List Node}

theorem span_eq_of_introduces (h : List.Forall₂ Introduces tokens nodes) :
    nodes.map Node.span = tokens.map span := by
  have hspans : List.Forall₂ (· = ·) (tokens.map span) (nodes.map Node.span) := by
    rw [List.forall₂_map_left_iff, List.forall₂_map_right_iff]
    exact h.imp fun _ _ hintroduces => hintroduces.span_eq.symm
  rw [List.forall₂_eq_eq_eq] at hspans
  exact hspans.symm

theorem exists_introduces (h : List.Forall₂ Introduces tokens nodes) :
    ∀ node ∈ nodes, ∃ token ∈ tokens, token.Introduces node := by
  induction h with
  | nil => exact List.forall_mem_nil _
  | cons hfirst _ ih =>
    rw [List.forall_mem_cons]
    refine ⟨⟨_, List.mem_cons_self .., hfirst⟩, fun node hnode => ?_⟩
    obtain ⟨token, htoken, hintroduces⟩ := ih node hnode
    exact ⟨token, List.mem_cons_of_mem _ htoken, hintroduces⟩

/-- A token of a source that has any text ends behind its start. -/
theorem offset_lt_endOffset {source : String} {token : Token} (h : token ∈ tokenize source)
    (hend : token.kind ≠ .endOfInput) : token.span.offset < token.endOffset := by
  obtain ⟨before, lexeme, after, -, htoken, hmatches⟩ :=
    (scans_tokenize source).exists_behind token h
  obtain ⟨c, text, rfl⟩ := List.exists_cons_of_ne_nil (hmatches.lexeme_ne_nil hend)
  have hsize : 0 < c.utf8Size := c.utf8Size_pos
  rw [htoken, behind_offset, behind_endOffset, Text.byteLength_append, Text.byteLength_cons]
  omega

/-- The tokens that introduce nodes stand at different places, in order. -/
theorem pairwise_introducing (source : String) :
    (introducing false (tokenize source)).Pairwise fun token later =>
      token.span.offset < later.span.offset := by
  have hordered := (tiling_tokenize source).1.ordered.sublist (introducing_sublist false _)
  refine hordered.imp_of_mem fun {token later} htoken _ hprecedes => ?_
  have hmem := (introducing_sublist false _).mem htoken
  exact (offset_lt_endOffset hmem (kind_ne_of_mem_introducing htoken)).trans_le hprecedes

end Token

namespace Program

/-- The tokens of a parsed source that can introduce nodes introduce those of the program. -/
theorem introduces_of_parse {source : String} {config : ParserConfig} {program : Program}
    (h : parse config (tokenize source) = .ok program) :
    List.Forall₂ Token.Introduces (Token.introducing false (tokenize source)) program.nodes := by
  obtain ⟨D, htokens, rfl⟩ := exists_derivation_of_parse h
  obtain ⟨initial, hsplit, hinitial⟩ := (scans_tokenize source).exists_ending
  have hbefore : D.tokens = initial := by
    have hnotEnd : ∀ token ∈ initial, token.isEnd = false := fun token hmem =>
      decide_eq_false (hinitial token hmem)
    rw [htokens, hsplit, Token.beforeEnd_append hnotEnd]
    exact List.append_nil initial
  have hspelled : ∀ token ∈ D.tokens, token.Spelled := by
    intro token hmem
    have hsource : token ∈ tokenize source := by
      rw [hsplit, ← hbefore]
      exact List.mem_append_left _ hmem
    exact Token.spelled_of_mem_tokenize hsource
  have hmarks : Token.introducing false (tokenize source) = D.marks := by
    rw [hsplit, ← hbefore, D.introducing_tokens]
    exact List.append_nil D.marks
  rw [hmarks]
  exact D.introduced hspelled

/-- Every node of a parsed source points back at the text that introduces it. In the order of the
text the offsets of the nodes grow, and their places are those of all the tokens that introduce
nodes. -/
theorem sourceOrder_of_parse {source : String} {config : ParserConfig} {program : Program}
    (h : parse config (tokenize source) = .ok program) :
    (∀ node ∈ program.nodes, ∃ text,
      Text.slice? node.span.offset node.span.length source.toList = some text ∧
        node.IntroducedBy text) ∧
    (program.nodes.map fun node => node.span.offset).Pairwise (· < ·) ∧
    program.nodes.map Node.span = (Token.introducing false (tokenize source)).map Token.span := by
  have hintroduces := introduces_of_parse h
  have hspans := Token.span_eq_of_introduces hintroduces
  refine ⟨fun node hnode => ?_, ?_, hspans⟩
  · obtain ⟨token, htoken, hnode⟩ := Token.exists_introduces hintroduces node hnode
    have hmem : token ∈ tokenize source := (Token.introducing_sublist false _).mem htoken
    refine ⟨token.lexeme.toList, ?_, hnode.introducedBy⟩
    rw [hnode.span_eq]
    exact (scans_tokenize source).slice token hmem
  · have hoffsets : program.nodes.map (fun node => node.span.offset) =
        (Token.introducing false (tokenize source)).map fun token => token.span.offset := by
      have hmap := congrArg (List.map Span.offset) hspans
      rwa [List.map_map, List.map_map] at hmap
    rw [hoffsets, List.pairwise_map]
    exact Token.pairwise_introducing source

/-- The name that is read is the only one that introduces no node. The loop comes before its body,
and its condition after it. -/
theorem sourceOrder_of_loop : ∃ program,
    parse {} (tokenize "REPEAT read x; y := x - 1 until y") = .ok program ∧
      (∀ node ∈ program.nodes, ∃ text, Text.slice? node.span.offset node.span.length
        "REPEAT read x; y := x - 1 until y".toList = some text ∧ node.IntroducedBy text) ∧
      (program.nodes.map fun node => node.span.offset).Pairwise (· < ·) ∧
      program.nodes.map (fun node => node.span.offset) = [0, 7, 15, 20, 22, 24, 32] := by
  have hsome : (parse {} (tokenize "REPEAT read x; y := x - 1 until y")).toOption.isSome := by
    decide +kernel
  obtain ⟨program, hprogram⟩ := Option.isSome_iff_exists.mp hsome
  have hparse := Parser.parse_eq_ok_of_toOption hprogram
  obtain ⟨hslices, hordered, hspans⟩ := sourceOrder_of_parse hparse
  have hoffsets : (Token.introducing false (tokenize "REPEAT read x; y := x - 1 until y")).map
      (fun token => token.span.offset) = [0, 7, 15, 20, 22, 24, 32] := by
    decide +kernel
  have hmap := congrArg (List.map Span.offset) hspans
  rw [List.map_map, List.map_map] at hmap
  exact ⟨program, hparse, hslices, hordered, hmap.trans hoffsets⟩

end Program

end TinyLang

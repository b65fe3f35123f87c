import TinyLang.Proofs.Grammar.Completeness
import TinyLang.Proofs.Grammar.Soundness
import TinyLang.Proofs.Syntax.Bare
import TinyLang.Proofs.Token.Composition

namespace TinyLang

namespace Decimal

theorem fits_iff (n : Nat) :
    -Int.pow 2 63 ≤ (n : Int) ∧ (n : Int) < Int.pow 2 63 ↔ n < Nat.pow 2 63 := by
  have hpow : Int.pow 2 63 = (Nat.pow 2 63 : Nat) := rfl
  rw [hpow]
  omega

/-- A number without a sign is read if it fits in 63 bits. -/
theorem signed64?_of_isDigit {text : String} (hne : text.toList ≠ [])
    (hdigits : ∀ c ∈ text.toList, c.isDigit = true) :
    signed64? text =
      if Nat.ofDigitChars 10 text.toList 0 < Nat.pow 2 63 then
        some (Int64.ofInt (Nat.ofDigitChars 10 text.toList 0 : Nat))
      else none := by
  have hread : digits? text.toList = some (Nat.ofDigitChars 10 text.toList 0) := by
    rw [digits?, if_pos ⟨hne, List.all_eq_true.mpr hdigits⟩]
  generalize Nat.ofDigitChars 10 text.toList 0 = n at hread ⊢
  rw [signed64?]
  split
  · next digits h => exact absurd (hdigits '+' (by simp [h])) (by decide)
  · next digits h => exact absurd (hdigits '-' (by simp [h])) (by decide)
  · rw [hread, Option.map_some, Option.bind_eq_bind, Option.bind_some]
    by_cases hfits : n < Nat.pow 2 63
    · rw [if_pos hfits]
      exact if_pos ((fits_iff n).mpr hfits)
    · rw [if_neg hfits]
      exact if_neg (mt (fits_iff n).mp hfits)

/-- A run of digits that is read gives the number that it stands for. -/
theorem toInt_of_signed64? {text : String} {value : Int64} (hne : text.toList ≠ [])
    (hdigits : ∀ c ∈ text.toList, c.isDigit = true) (h : signed64? text = some value) :
    value.toInt = (Nat.ofDigitChars 10 text.toList 0 : Nat) := by
  rw [signed64?_of_isDigit hne hdigits] at h
  split at h
  · next hfits =>
    have hbound : Nat.pow 2 63 = 9223372036854775808 := rfl
    obtain rfl := Option.some.inj h
    exact Int64.toInt_ofInt_of_le (by omega) (by omega)
  · cases h

theorem nonneg_of_signed64? {text : String} {value : Int64} (hne : text.toList ≠ [])
    (hdigits : ∀ c ∈ text.toList, c.isDigit = true) (h : signed64? text = some value) :
    0 ≤ value.toInt := by
  rw [toInt_of_signed64? hne hdigits h]
  exact Int.natCast_nonneg _

/-- The digits of a number from 0 on are read as the number. -/
theorem signed64?_toString {value : Int64} (h : 0 ≤ value.toInt) :
    (toString value.toInt).toList ≠ [] ∧ (∀ c ∈ (toString value.toInt).toList, c.isDigit = true) ∧
      signed64? (toString value.toInt) = some value := by
  obtain ⟨n, hn⟩ := Int.eq_ofNat_of_zero_le h
  have hbound : Nat.pow 2 63 = 9223372036854775808 := rfl
  have hfits : n < Nat.pow 2 63 := by
    have hlt := value.toInt_lt
    omega
  have htext : (toString value.toInt).toList = Nat.toDigits 10 n := by
    rw [hn, ← String.toList_ofList (l := Nat.toDigits 10 n), ← Nat.toString_eq_ofList_toDigits]
    rfl
  have hne : (toString value.toInt).toList ≠ [] := htext ▸ Nat.toDigits_ne_nil
  have hdigits : ∀ c ∈ (toString value.toInt).toList, c.isDigit = true := by
    rw [htext]
    exact fun c hc => Nat.isDigit_of_mem_toDigits (by decide) (by decide) hc
  refine ⟨hne, hdigits, ?_⟩
  rw [signed64?_of_isDigit hne hdigits, htext, Nat.ofDigitChars_ten_toDigits, if_pos hfits, ← hn,
    Int64.ofInt_toInt]

end Decimal

namespace Expr

def operatorDepth : Expr → Nat
  | binary _ left right _ => 1 + max left.operatorDepth right.operatorDepth
  | constant _ _ => 0
  | name _ _ => 0

/-- The expression has a text that a source can hold: its numbers have no sign, and its names are
words that are not reserved. -/
def Writable : Expr → Prop
  | binary _ left right _ => left.Writable ∧ right.Writable
  | constant value _ => 0 ≤ value.toInt
  | name text _ => Token.Kind.identifier.Matches text.toList []

theorem toList_text_binary (op : Operator) (left right : Expr) (span : Span) :
    (binary op left right span).text.toList =
      '(' :: (left.text.toList ++ ' ' :: op.symbol :: ' ' :: (right.text.toList ++ [')'])) := by
  have hsymbol : (toString op.symbol).toList = [op.symbol] := String.toList_singleton _
  simp [text, hsymbol]

end Expr

namespace Derivation

variable {trailing : Bool}

def ofFactor (factor : Derivation trailing .factor) : Derivation trailing .comparison :=
  .single (.chain .sum (.chain .product factor (.stop .product)) (.stop .sum))

theorem tokens_ofFactor (factor : Derivation trailing .factor) :
    (ofFactor factor).tokens = factor.tokens := by
  change (factor.tokens ++ []) ++ [] = _
  simp only [List.append_nil]

theorem need_ofFactor (factor : Derivation trailing .factor) :
    (ofFactor factor).need = 3 + factor.need := by
  change 1 + (1 + max (1 + max factor.need 0) 0) = _
  omega

/-- Every operation on two factors is a comparison, whatever the precedence of its operator. -/
theorem exists_operation {op : Operator} {sign : Token} (hsign : sign.kind = .operator op)
    (left right : Derivation trailing .factor) : ∃ D : Derivation trailing .comparison,
      D.tokens = left.tokens ++ sign :: right.tokens ∧
      D.tree = Expr.binary op left.tree right.tree sign.span ∧
      D.need ≤ 4 + max left.need right.need := by
  let product (factor : Derivation trailing .factor) : Derivation trailing (.chain .product) :=
    .chain .product factor (.stop .product)
  let sum (factor : Derivation trailing .factor) : Derivation trailing (.chain .sum) :=
    .chain .sum (product factor) (.stop .sum)
  have hlevel : op ∈ [.less, .equal] ∨ op ∈ Precedence.sum.operators ∨
      op ∈ Precedence.product.operators := by
    cases op <;> decide
  -- The level of each chain is given here, so that its tokens and its need can be computed.
  rcases hlevel with hop | hop | hop
  · refine ⟨.compared (sum left) ⟨op, sign, hsign, hop⟩ (sum right), ?_, rfl, ?_⟩
    · change ((left.tokens ++ []) ++ []) ++ sign :: ((right.tokens ++ []) ++ []) = _
      simp only [List.append_nil]
    · change 1 + max (1 + max (1 + max left.need 0) 0) (1 + max (1 + max right.need 0) 0) ≤ _
      omega
  · refine ⟨.single (.chain .sum (product left) (.link .sum ⟨op, sign, hsign, hop⟩ (product right)
      (.stop .sum))), ?_, rfl, ?_⟩
    · change (left.tokens ++ []) ++ sign :: ((right.tokens ++ []) ++ []) = _
      simp only [List.append_nil]
    · change 1 + (1 + max (1 + max left.need 0) (1 + max (1 + max right.need 0) 0)) ≤ _
      omega
  · refine ⟨.single (.chain .sum (.chain .product left (.link .product ⟨op, sign, hsign, hop⟩ right
      (.stop .product))) (.stop .sum)), ?_, rfl, ?_⟩
    · change (left.tokens ++ sign :: (right.tokens ++ [])) ++ [] = _
      simp only [List.append_nil]
    · change 1 + (1 + max (1 + max left.need (1 + max right.need 0)) 0) ≤ _
      omega

end Derivation

/-- Directly behind the text `front`, the text is cut into the tokens, whatever comes after it as long
as that sets tokens apart. -/
def Spells (front text : List Char) (tokens : List Token) : Prop :=
  ∀ after later, (∀ c ∈ after.head?, SetsApart c) →
    Scans (front ++ text) after later → Scans front (text ++ after) (tokens ++ later)

/-- What is spelled as a token at the end of a text is one token elsewhere too. -/
theorem Spells.of_matches {front text : List Char} {kind : Token.Kind} (h : kind.Matches text [])
    (hend : kind ≠ .endOfInput) (hknown : kind ≠ .unknown) :
    Spells front text [.behind front kind text] := by
  intro after later hafter hlater
  have hbrace : text ≠ ['{'] := by
    rintro rfl
    exact hknown h.eq_unknown.1
  have hmatches : kind.Matches text after := h.of_head? hend hbrace fun c hc => .inr (hafter c hc)
  have hjoined := @Scans.token front [] text after kind later .nil hmatches hend hbrace
  simpa using hjoined (by simpa using hlater)

/-- The text of an operation is cut into its brackets, its operands and its operator. -/
theorem Spells.operation {front left right : List Char} {op : Operator} {tokens tokens' : List Token}
    (hleft : Spells (front ++ ['(']) left tokens)
    (hright : Spells (front ++ '(' :: (left ++ [' ', op.symbol, ' '])) right tokens') :
    Spells front ('(' :: (left ++ ' ' :: op.symbol :: ' ' :: (right ++ [')'])))
      (.behind front .openBracket ['('] ::
        (tokens ++ .behind (front ++ '(' :: (left ++ [' '])) (.operator op) [op.symbol] ::
          tokens' ++ [.behind (front ++ '(' :: (left ++ ' ' :: op.symbol :: ' ' :: right))
            .closeBracket [')']])) := by
  intro after later hafter hlater
  have hblank : Gap [' '] := .blank rfl .nil
  have hsymbol : [op.symbol] ≠ ['{'] := by cases op <;> decide
  -- From the end to the start, each token is followed by those that are known by then.
  have hclose := @Scans.token (front ++ '(' :: (left ++ ' ' :: op.symbol :: ' ' :: right)) [] [')']
    after .closeBracket later .nil rfl (by decide) (by decide) (by simpa using hlater)
  have hsecond := hright (')' :: after) _ (by simp [SetsApart]) (by simpa using hclose)
  have hsign := @Scans.token (front ++ '(' :: left) [' '] [op.symbol] (' ' :: (right ++ ')' :: after))
    (.operator op) _ hblank rfl (by simp) hsymbol
    (Scans.gap_append hblank (by simpa using hsecond))
  have hfirst := hleft (' ' :: op.symbol :: ' ' :: (right ++ ')' :: after)) _ (by simp [SetsApart])
    (by simpa using hsign)
  have hopen := @Scans.token front [] ['('] _ .openBracket _ .nil rfl (by decide) (by decide)
    (by simpa using hfirst)
  simpa using hopen

/-- Behind `write` and a blank the tokens of a text are the last ones but the end of the input. -/
theorem Spells.tokenize_write {text : String} {tokens : List Token}
    (h : Spells ("write".toList ++ [' ']) text.toList tokens) :
    ∃ keyword : Token.OfKind (.keyword .writeWord), ∃ last, last.isEnd = true ∧
      tokenize ("write " ++ text) = keyword.1 :: (tokens ++ [last]) := by
  let front : List Char := "write".toList
  let last : Token := .behind (front ++ [' '] ++ text.toList) .endOfInput []
  have hlast : Scans (front ++ [' '] ++ text.toList) [] [last] := by
    simpa [last] using @Scans.ending (front ++ [' '] ++ text.toList) [] .nil
  have hvalue : Scans (front ++ [' ']) (text.toList ++ []) (tokens ++ [last]) :=
    h [] [last] (by simp) hlast
  rw [List.append_nil] at hvalue
  have hrest : Scans front (' ' :: text.toList) (tokens ++ [last]) :=
    Scans.gap_append (.blank rfl .nil) hvalue
  have hmatches : Token.Kind.Matches (.keyword .writeWord) front (' ' :: text.toList) :=
    ⟨⟨⟨'w', rfl, rfl⟩, List.all_eq_true.mp (by decide), by simp⟩, by decide⟩
  have hwhole := @Scans.token [] [] _ _ _ _ .nil hmatches (by decide) (by decide) hrest
  refine ⟨⟨.behind [] (.keyword .writeWord) front, rfl⟩, last, rfl, ?_⟩
  rw [tokenize_eq_iff, String.toList_append]
  exact hwhole

namespace Expr

/-- Wherever the text of an expression stands, its tokens are those of a factor that stands for the
expression. Each operator on a path costs five levels at most. -/
theorem exists_factor (trailing : Bool) {e : Expr} (h : e.Writable) (front : List Char) :
    ∃ D : Derivation trailing .factor, Spells front e.text.toList D.tokens ∧
      Expr.bare D.tree = e.bare ∧ D.need ≤ 1 + 5 * e.operatorDepth := by
  induction e generalizing front with
  | binary op left right span hleft hright =>
    obtain ⟨L, hL, hbareL, hneedL⟩ := hleft h.1 (front ++ ['('])
    obtain ⟨R, hR, hbareR, hneedR⟩ :=
      hright h.2 (front ++ '(' :: (left.text.toList ++ [' ', op.symbol, ' ']))
    have hspells := hL.operation hR
    rw [← toList_text_binary op left right span] at hspells
    let opening : Token := .behind front .openBracket ['(']
    let sign : Token := .behind (front ++ '(' :: (left.text.toList ++ [' '])) (.operator op) [op.symbol]
    let closing : Token := .behind (front ++ '(' :: (left.text.toList ++
      ' ' :: op.symbol :: ' ' :: right.text.toList)) .closeBracket [')']
    have hsign : sign.kind = .operator op := rfl
    obtain ⟨C, htokens, htree, hneed⟩ := Derivation.exists_operation hsign L R
    refine ⟨.brackets ⟨opening, rfl⟩ C ⟨closing, rfl⟩, ?_, ?_, ?_⟩
    · simpa [htokens] using hspells
    · simp [htree, hbareL, hbareR]
    · simp only [Derivation.need, operatorDepth]
      omega
  | constant value span =>
    obtain ⟨hne, hdigits, hvalue⟩ := Decimal.signed64?_toString h
    let token : Token := .behind front .number (toString value.toInt).toList
    have hlexeme : Decimal.signed64? token.lexeme = some value := by
      rw [Token.behind_lexeme, String.ofList_toList, hvalue]
    refine ⟨.number ⟨token, rfl⟩ value hlexeme, ?_, by simp, by simp [operatorDepth]⟩
    exact Spells.of_matches ⟨hne, hdigits, by simp⟩ (by decide) (by decide)
  | name text span =>
    let token : Token := .behind front .identifier text.toList
    refine ⟨.name ⟨token, rfl⟩, ?_, by simp [token], by simp [operatorDepth]⟩
    exact Spells.of_matches h (by decide) (by decide)

/-- Behind `write`, and parsed with five levels for each operator on a path and eight more, the text
of the expression gives the expression back, and so the same text again. -/
def ReadsBack (e : Expr) : Prop :=
  ∀ config : ParserConfig, 8 + 5 * e.operatorDepth ≤ config.maxDepth → ∃ value span,
    Program.parse config (tokenize ("write " ++ e.text)) = .ok ⟨[.write value span]⟩ ∧
      value.bare = e.bare ∧ value.text = e.text

theorem Writable.readsBack {e : Expr} (h : e.Writable) : e.ReadsBack := by
  intro config hdepth
  obtain ⟨F, hspells, hbare, hneed⟩ :=
    exists_factor config.trailingSemicolon h ("write".toList ++ [' '])
  obtain ⟨keyword, last, hlast, htokens⟩ := hspells.tokenize_write
  let D : Derivation config.trailingSemicolon .program :=
    .program (.sequence (.write keyword (.ofFactor F)) .done)
  have hD : D.tokens = keyword.1 :: F.tokens := by simp [D, Derivation.tokens_ofFactor]
  have hfits : D.need ≤ config.maxDepth := by
    simp only [D, Derivation.need, Derivation.need_ofFactor]
    omega
  have hbefore : D.tokens = Token.beforeEnd (tokenize ("write " ++ e.text)) := by
    have hsplit : tokenize ("write " ++ e.text) = D.tokens ++ [last] := by rw [htokens, hD]; rfl
    rw [hsplit, Token.beforeEnd_append D.isEnd_eq_false]
    simp [Token.beforeEnd, hlast]
  have hparse := (Program.parse_of_derivation D hbefore).1 hfits
  refine ⟨F.tree, keyword.1.span, hparse, hbare, ?_⟩
  rw [← text_bare, hbare, text_bare]

end Expr

def Token.Spelled (token : Token) : Prop := ∃ after, token.kind.Matches token.lexeme.toList after

theorem Token.spelled_of_mem_tokenize {source : String} {token : Token}
    (h : token ∈ tokenize source) : token.Spelled := by
  obtain ⟨before, lexeme, after, -, htoken, hmatches⟩ :=
    (scans_tokenize source).exists_behind token h
  have hlexeme : token.lexeme.toList = lexeme := by
    rw [htoken, behind_lexeme, String.toList_ofList]
  exact ⟨after, hlexeme ▸ hmatches⟩

def Symbol.Writable : (symbol : Symbol) → symbol.Tree → Prop
  | .program, tree => ∀ e ∈ Program.expressions tree, e.Writable
  | .sequence, tree | .followers, tree => ∀ e ∈ Stmt.expressionsAll tree, e.Writable
  | .statement, tree => ∀ e ∈ Stmt.expressions tree, e.Writable
  | .comparison, tree | .chain _, tree | .factor, tree => Expr.Writable tree
  | .links _, tree => ∀ left : Expr, left.Writable → (tree left).Writable

theorem Precedence.writable_operandTree (level : Precedence) {tree : level.operand.Tree}
    (h : level.operand.Writable tree) : (level.operandTree tree).Writable := by
  cases level <;> exact h

/-- Tokens as they are spelled in a source make writable expressions. -/
theorem Derivation.writable {trailing : Bool} {symbol : Symbol} (D : Derivation trailing symbol)
    (h : ∀ token ∈ D.tokens, token.Spelled) : symbol.Writable D.tree := by
  induction D with
  | program body hbody => exact hbody h
  | sequence first rest hfirst hrest =>
    obtain ⟨hhead, htail⟩ := List.forall_mem_append.mp h
    exact List.forall_mem_append.mpr ⟨hfirst hhead, hrest htail⟩
  | done => exact List.forall_mem_nil _
  | doneAfter semicolon allowed => exact List.forall_mem_nil _
  | next semicolon first rest hfirst hrest =>
    obtain ⟨hhead, htail⟩ := List.forall_mem_append.mp (List.forall_mem_cons.mp h).2
    exact List.forall_mem_append.mpr ⟨hfirst hhead, hrest htail⟩
  | conditional ifWord condition thenWord branch endWord hcondition hbranch =>
    simp only [tokens, List.forall_mem_append, List.forall_mem_cons] at h
    exact List.forall_mem_cons.mpr ⟨hcondition h.2.1, hbranch h.2.2.2.1⟩
  | loop repeatWord body untilWord condition hbody hcondition =>
    simp only [tokens, List.forall_mem_append, List.forall_mem_cons] at h
    have hlast : ∀ e ∈ [(condition.tree : Expr)], e.Writable :=
      List.forall_mem_singleton.mpr (hcondition h.2.2.2)
    exact List.forall_mem_append.mpr ⟨hbody h.2.1, hlast⟩
  | assign target sign value hvalue =>
    simp only [tokens, List.forall_mem_cons] at h
    exact List.forall_mem_singleton.mpr (hvalue h.2.2)
  | read readWord target => exact List.forall_mem_nil _
  | write writeWord value hvalue =>
    simp only [tokens, List.forall_mem_cons] at h
    exact List.forall_mem_singleton.mpr (hvalue h.2)
  | single left hleft => exact hleft h
  | compared left sign right hleft hright =>
    simp only [tokens, List.forall_mem_append, List.forall_mem_cons] at h
    exact ⟨hleft h.1, hright h.2.2⟩
  | chain level first rest hfirst hrest =>
    obtain ⟨hhead, htail⟩ := List.forall_mem_append.mp h
    exact hrest htail _ (level.writable_operandTree (hfirst hhead))
  | stop level => exact fun left hleft => hleft
  | link level sign operand rest hoperand hrest =>
    simp only [tokens, List.forall_mem_append, List.forall_mem_cons] at h
    exact fun left hleft =>
      hrest h.2.2 _ ⟨hleft, level.writable_operandTree (hoperand h.2.1)⟩
  | brackets opening inner closing hinner =>
    simp only [tokens, List.forall_mem_append, List.forall_mem_cons] at h
    exact hinner h.2.1
  | number token value value_eq =>
    obtain ⟨after, hmatches⟩ := h token.1 (List.mem_singleton_self _)
    rw [token.2] at hmatches
    exact Decimal.nonneg_of_signed64? hmatches.1 hmatches.2.1 value_eq
  | name token =>
    obtain ⟨after, hmatches⟩ := h token.1 (List.mem_singleton_self _)
    rw [token.2] at hmatches
    obtain ⟨⟨hfirst, hword, -⟩, hreserved⟩ := hmatches
    exact ⟨⟨hfirst, hword, by simp⟩, hreserved⟩

namespace Program

/-- A source has only writable expressions. -/
theorem writable_of_parse {source : String} {config : ParserConfig} {program : Program}
    (h : parse config (tokenize source) = .ok program) : ∀ e ∈ program.expressions, e.Writable := by
  obtain ⟨D, htokens, rfl⟩ := exists_derivation_of_parse h
  have hspelled : ∀ token ∈ D.tokens, token.Spelled := by
    rw [htokens]
    exact fun token hmem => Token.spelled_of_mem_tokenize ((List.takeWhile_sublist _).mem hmem)
  exact D.writable hspelled

end Program

/-- The text of every writable expression is read back, and whole expressions of parsed programs are
writable. -/
theorem Expr.readsBack_text :
    (∀ e : Expr, e.Writable → e.ReadsBack) ∧
    ∀ (source : String) (config : ParserConfig) (program : Program),
      Program.parse config (tokenize source) = .ok program →
        ∀ e ∈ program.expressions, e.Writable ∧ e.ReadsBack := by
  refine ⟨fun e h => h.readsBack, fun source config program h e he => ?_⟩
  have hwritable : e.Writable := Program.writable_of_parse h e he
  exact ⟨hwritable, hwritable.readsBack⟩

/-- A comparison below a product, with the largest number, has two operators on its longest path. -/
theorem Expr.readsBack_text_of_product :
    let e : Expr := .binary .times (.name "x" {})
      (.binary .less (.constant 9223372036854775807 {}) (.constant 0 {}) {}) {}
    e.text = "(x * (9223372036854775807 < 0))" ∧ e.Writable ∧
      ∃ value span,
        Program.parse ⟨18, false⟩ (tokenize ("write " ++ e.text)) = .ok ⟨[.write value span]⟩ ∧
        value.bare = e.bare ∧ value.text = e.text ∧ value.Writable ∧ value.ReadsBack := by
  intro e
  have hname : Token.Kind.identifier.Matches "x".toList [] :=
    ⟨⟨⟨'x', rfl, rfl⟩, List.all_eq_true.mp (by decide), by simp⟩, fun word => by
      cases word <;> decide⟩
  have hlargest : 0 ≤ (9223372036854775807 : Int64).toInt := by decide
  have hwritable : e.Writable := ⟨hname, hlargest, Int.le_refl 0⟩
  obtain ⟨value, span, hparse, hbare, htext⟩ := readsBack_text.1 e hwritable ⟨18, false⟩ (by decide)
  have hvalue := readsBack_text.2 _ _ _ hparse value (List.mem_singleton_self _)
  exact ⟨by decide +kernel, hwritable, value, span, hparse, hbare, htext, hvalue⟩

end TinyLang

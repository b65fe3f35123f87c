import TinyLang.Proofs.Grammar.Completeness
import TinyLang.Proofs.Grammar.Soundness

namespace TinyLang

namespace Token

/-- The tokens without the semicolons that stand directly before what closes a sequence. -/
def strip : List Token → List Token
  | [] => []
  | token :: rest =>
    if token.kind = .semicolon ∧ (nextKind rest).closesSequence = true then strip rest
    else token :: strip rest

@[simp] theorem strip_nil : strip [] = [] := rfl

theorem strip_semicolon {token : Token} {rest : List Token} (hkind : token.kind = .semicolon)
    (hcloses : (nextKind rest).closesSequence = true) : strip (token :: rest) = strip rest := by
  rw [strip, if_pos ⟨hkind, hcloses⟩]

theorem strip_cons {token : Token} (hkind : token.kind ≠ .semicolon) (rest : List Token) :
    strip (token :: rest) = token :: strip rest := by
  rw [strip, if_neg fun h => hkind h.1]

theorem strip_cons_of_open {rest : List Token} (hopen : (nextKind rest).closesSequence = false)
    (token : Token) : strip (token :: rest) = token :: strip rest := by
  rw [strip, if_neg fun h => by simp [hopen] at h]

theorem strip_ofKind {kind : Kind} (token : OfKind kind) (hkind : kind ≠ .semicolon)
    (rest : List Token) : strip (token.1 :: rest) = token.1 :: strip rest :=
  strip_cons (by rwa [token.2]) rest

theorem strip_sign {wanted : List Operator} (sign : Sign wanted) (rest : List Token) :
    strip (sign.token :: rest) = sign.token :: strip rest :=
  strip_cons (by rw [sign.kind_eq]; nofun) rest

/-- What closes a sequence is no semicolon, and so it is kept. -/
theorem strip_of_closes {token : Token} (h : token.kind.closesSequence = true)
    (rest : List Token) : strip (token :: rest) = token :: strip rest := by
  apply strip_cons
  intro hkind
  rw [hkind] at h
  cases h

theorem closesSequence_ofKind {kind : Kind} (token : OfKind kind)
    (hkind : kind.closesSequence = true) (rest : List Token) :
    (nextKind (token.1 :: rest)).closesSequence = true := by
  rw [nextKind_cons, token.2, hkind]

theorem nextKind_strip {tokens : List Token} (h : (nextKind tokens).closesSequence = true) :
    nextKind (strip tokens) = nextKind tokens := by
  cases tokens with
  | nil => rfl
  | cons token rest => rw [strip_of_closes h, nextKind_cons, nextKind_cons]

theorem eq_nil_of_strip {tokens : List Token} (hstrip : strip tokens = [])
    (h : (nextKind tokens).closesSequence = true) : tokens = [] := by
  cases tokens with
  | nil => rfl
  | cons token rest =>
    rw [strip_of_closes h] at hstrip
    cases hstrip

theorem nextKind_beforeEnd (tokens : List Token) :
    nextKind (beforeEnd tokens) = nextKind tokens := by
  obtain ⟨hkind, hstop⟩ | ⟨token, rest, rfl, -, hfirst⟩ := beforeEnd_cases tokens
  · rw [hstop, hkind]
    rfl
  · rw [hfirst, nextKind_cons, nextKind_cons]

/-- The end of the input closes a sequence wherever the tokens are cut off. -/
theorem beforeEnd_strip (tokens : List Token) :
    beforeEnd (strip tokens) = strip (beforeEnd tokens) := by
  induction tokens with
  | nil => rfl
  | cons token rest ih =>
    cases hend : token.isEnd with
    | true =>
      have hkind : token.kind = .endOfInput := of_decide_eq_true hend
      rw [strip_of_closes (by rw [hkind]; rfl)]
      simp [beforeEnd, hend]
    | false =>
      have hcons (tail : List Token) : beforeEnd (token :: tail) = token :: beforeEnd tail := by
        simp [beforeEnd, hend]
      rw [hcons, strip, strip, nextKind_beforeEnd]
      split
      · exact ih
      · rw [hcons, ih]

/-- The first token that is left was the first one, unless it closes a sequence and a semicolon was
deleted before it. -/
theorem exists_of_strip_eq_cons {tokens rest' : List Token} {token : Token}
    (h : strip tokens = token :: rest')
    (hfirst : token.kind.closesSequence = true → (nextKind tokens).closesSequence = true) :
    ∃ rest, tokens = token :: rest ∧ strip rest = rest' := by
  cases tokens with
  | nil => cases h
  | cons first rest =>
    rw [strip] at h
    split at h
    · next hdeleted =>
      have hnext := nextKind_strip hdeleted.2
      rw [h, nextKind_cons] at hnext
      have hcloses := hfirst (hnext ▸ hdeleted.2)
      rw [nextKind_cons, hdeleted.1] at hcloses
      cases hcloses
    · obtain ⟨rfl, hrest⟩ := List.cons.inj h
      exact ⟨rest, rfl, hrest⟩

/-- Before what closes a sequence a semicolon may have been deleted, but no more than one. -/
theorem closes_or_exists_of_strip {tokens : List Token}
    (h : (nextKind (strip tokens)).closesSequence = true) :
    (nextKind tokens).closesSequence = true ∨
      ∃ semicolon : OfKind .semicolon, ∃ rest, tokens = semicolon.1 :: rest ∧
        strip rest = strip tokens ∧ (nextKind rest).closesSequence = true := by
  cases tokens with
  | nil => exact .inl h
  | cons first rest =>
    by_cases hdeleted : first.kind = .semicolon ∧ (nextKind rest).closesSequence = true
    · exact .inr ⟨⟨first, hdeleted.1⟩, rest, rfl, (strip_semicolon hdeleted.1 hdeleted.2).symm,
        hdeleted.2⟩
    · rw [strip, if_neg hdeleted, nextKind_cons] at h
      exact .inl h

end Token

def Symbol.endsSequence : Symbol → Bool
  | program | sequence | followers => true
  | _ => false

theorem Precedence.endsSequence_operand (level : Precedence) :
    level.operand.endsSequence = false := by
  cases level <;> rfl

namespace Derivation

open Token

variable {trailing : Bool} {symbol : Symbol}

@[simp] def strict {symbol : Symbol} : Derivation trailing symbol → Derivation false symbol
  | program body => program body.strict
  | sequence first rest => sequence first.strict rest.strict
  | done => done
  | doneAfter _ _ => done
  | next semicolon first rest => next semicolon first.strict rest.strict
  | conditional ifWord condition thenWord branch endWord =>
    conditional ifWord condition.strict thenWord branch.strict endWord
  | loop repeatWord body untilWord condition =>
    loop repeatWord body.strict untilWord condition.strict
  | assign target sign value => assign target sign value.strict
  | read readWord target => read readWord target
  | write writeWord value => write writeWord value.strict
  | single left => single left.strict
  | compared left sign right => compared left.strict sign right.strict
  | chain level first rest => chain level first.strict rest.strict
  | stop level => stop level
  | link level sign operand rest => link level sign operand.strict rest.strict
  | brackets opening inner closing => brackets opening inner.strict closing
  | number token value value_eq => number token value value_eq
  | name token => name token

@[simp] theorem tree_strict (D : Derivation trailing symbol) : D.strict.tree = D.tree := by
  induction D <;> simp_all

@[simp] theorem need_strict (D : Derivation trailing symbol) : D.strict.need = D.need := by
  induction D <;> simp_all

/-- To delete the semicolons from the derived tokens is to derive them without trailing
semicolons. -/
theorem strip_tokens_append (D : Derivation trailing symbol) {rest : List Token}
    (hrest : symbol.endsSequence = true → (nextKind rest).closesSequence = true) :
    strip (D.tokens ++ rest) = D.strict.tokens ++ strip rest := by
  -- On the derivation, in front of any tokens, since these decide on a semicolon before them.
  induction D generalizing rest with
  | program body hB => exact hB hrest
  | sequence first rest' hF hR =>
    simp only [tokens, strict, List.append_assoc]
    rw [hF nofun, hR hrest]
  | done => rfl
  | doneAfter semicolon _ => exact strip_semicolon semicolon.2 (hrest rfl)
  | next semicolon first rest' hF hR =>
    have hopen := closesSequence_eq_false first (rest'.tokens ++ rest)
    simp only [tokens, strict, List.cons_append, List.append_assoc]
    rw [strip_cons_of_open hopen, hF nofun, hR hrest]
  | conditional ifWord condition thenWord branch endWord hC hB =>
    simp only [tokens, strict, List.cons_append, List.append_assoc, List.nil_append]
    rw [strip_ofKind ifWord nofun, hC nofun, strip_ofKind thenWord nofun,
      hB fun _ => closesSequence_ofKind endWord rfl rest, strip_ofKind endWord nofun]
  | loop repeatWord body untilWord condition hB hC =>
    simp only [tokens, strict, List.cons_append, List.append_assoc]
    rw [strip_ofKind repeatWord nofun, hB fun _ => closesSequence_ofKind untilWord rfl _,
      strip_ofKind untilWord nofun, hC nofun]
  | assign target sign value hV =>
    simp only [tokens, strict, List.cons_append]
    rw [strip_ofKind target nofun, strip_ofKind sign nofun, hV nofun]
  | read readWord target =>
    simp only [tokens, strict, List.cons_append, List.nil_append]
    rw [strip_ofKind readWord nofun, strip_ofKind target nofun]
  | write writeWord value hV =>
    simp only [tokens, strict, List.cons_append]
    rw [strip_ofKind writeWord nofun, hV nofun]
  | single left hL => exact hL nofun
  | compared left sign right hL hR =>
    simp only [tokens, strict, List.cons_append, List.append_assoc]
    rw [hL nofun, strip_sign, hR nofun]
  | chain level first rest' hF hR =>
    simp only [tokens, strict, List.append_assoc]
    rw [hF (by simp [level.endsSequence_operand]), hR nofun]
  | stop level => rfl
  | link level sign operand rest' hO hR =>
    simp only [tokens, strict, List.cons_append, List.append_assoc]
    rw [strip_sign, hO (by simp [level.endsSequence_operand]), hR nofun]
  | brackets opening inner closing hI =>
    simp only [tokens, strict, List.cons_append, List.append_assoc, List.nil_append]
    rw [strip_ofKind opening nofun, hI nofun, strip_ofKind closing nofun]
  | number token _ _ =>
    simp only [tokens, strict, List.cons_append, List.nil_append]
    rw [strip_ofKind token nofun]
  | name token =>
    simp only [tokens, strict, List.cons_append, List.nil_append]
    rw [strip_ofKind token nofun]

/-- What the strict grammar derives after the deletion has a derivation before it, with the deleted
semicolons put back. -/
def Restores (D' : Derivation false symbol) : Prop :=
  ∀ {tokens rest' : List Token}, Token.strip tokens = D'.tokens ++ rest' →
    (symbol.endsSequence = true → (nextKind rest').closesSequence = true) →
    ∃ D : Derivation true symbol, ∃ rest, D.strict = D' ∧ tokens = D.tokens ++ rest ∧
      Token.strip rest = rest' ∧
      (symbol.endsSequence = true → (nextKind rest).closesSequence = true)

/-- A token of a kind that closes no sequence is still the first one. -/
theorem exists_of_strip_ofKind {tokens rest' : List Token} {kind : Kind} {token : OfKind kind}
    (h : Token.strip tokens = token.1 :: rest') (hopen : kind.closesSequence = false) :
    ∃ rest, tokens = token.1 :: rest ∧ Token.strip rest = rest' :=
  exists_of_strip_eq_cons h fun hcloses => by simp [token.2, hopen] at hcloses

theorem exists_of_strip_sign {tokens rest' : List Token} {wanted : List Operator}
    {sign : Sign wanted} (h : Token.strip tokens = sign.token :: rest') :
    ∃ rest, tokens = sign.token :: rest ∧ Token.strip rest = rest' :=
  exists_of_strip_eq_cons h fun hcloses => by
    rw [sign.kind_eq] at hcloses
    cases hcloses

theorem restores_sequence {F : Derivation false .statement} {R : Derivation false .followers}
    (hF : Restores F) (hR : Restores R) : Restores (.sequence F R) := by
  intro tokens rest' h hrest'
  rw [Derivation.tokens, List.append_assoc] at h
  obtain ⟨first, rest₁, hfirst, rfl, h₁, -⟩ := hF h nofun
  obtain ⟨later, rest₂, hlater, rfl, h₂, hrest⟩ := hR h₁ hrest'
  exact ⟨.sequence first later, rest₂, by rw [strict, hfirst, hlater],
    by simp only [Derivation.tokens, List.append_assoc], h₂, hrest⟩

theorem restores_done : Restores .done := by
  intro tokens rest' h hrest'
  have hcloses : (nextKind (Token.strip tokens)).closesSequence = true := h ▸ hrest' rfl
  rcases closes_or_exists_of_strip hcloses with hnext | ⟨semicolon, rest, rfl, hrest, hnext⟩
  · exact ⟨.done, tokens, rfl, rfl, h, fun _ => hnext⟩
  · exact ⟨.doneAfter semicolon rfl, rest, rfl, rfl, hrest.trans h, fun _ => hnext⟩

theorem restores_next (semicolon : OfKind .semicolon) {F : Derivation false .statement}
    {R : Derivation false .followers} (hF : Restores F) (hR : Restores R) :
    Restores (.next semicolon F R) := by
  intro tokens rest' h hrest'
  rw [Derivation.tokens, List.cons_append, List.append_assoc] at h
  obtain ⟨rest₁, rfl, h₁⟩ := exists_of_strip_ofKind h rfl
  obtain ⟨first, rest₂, hfirst, rfl, h₂, -⟩ := hF h₁ nofun
  obtain ⟨later, rest₃, hlater, rfl, h₃, hrest⟩ := hR h₂ hrest'
  exact ⟨.next semicolon first later, rest₃, by rw [strict, hfirst, hlater],
    by simp only [Derivation.tokens, List.cons_append, List.append_assoc], h₃, hrest⟩

theorem restores_conditional (ifWord : OfKind (.keyword .ifWord))
    {C : Derivation false .comparison} (thenWord : OfKind (.keyword .thenWord))
    {B : Derivation false .sequence} (endWord : OfKind (.keyword .endWord)) (hC : Restores C)
    (hB : Restores B) : Restores (.conditional ifWord C thenWord B endWord) := by
  intro tokens rest' h _
  simp only [Derivation.tokens, List.cons_append, List.append_assoc, List.nil_append] at h
  obtain ⟨rest₁, rfl, h₁⟩ := exists_of_strip_ofKind h rfl
  obtain ⟨condition, rest₂, hcondition, rfl, h₂, -⟩ := hC h₁ nofun
  obtain ⟨rest₃, rfl, h₃⟩ := exists_of_strip_ofKind h₂ rfl
  obtain ⟨branch, rest₄, hbranch, rfl, h₄, hcloses⟩ :=
    hB h₃ fun _ => closesSequence_ofKind endWord rfl rest'
  obtain ⟨rest₅, rfl, h₅⟩ := exists_of_strip_eq_cons h₄ fun _ => hcloses rfl
  exact ⟨.conditional ifWord condition thenWord branch endWord, rest₅,
    by rw [strict, hcondition, hbranch],
    by simp only [Derivation.tokens, List.cons_append, List.append_assoc, List.nil_append], h₅,
    nofun⟩

theorem restores_loop (repeatWord : OfKind (.keyword .repeatWord))
    {B : Derivation false .sequence} (untilWord : OfKind (.keyword .untilWord))
    {C : Derivation false .comparison} (hB : Restores B) (hC : Restores C) :
    Restores (.loop repeatWord B untilWord C) := by
  intro tokens rest' h _
  simp only [Derivation.tokens, List.cons_append, List.append_assoc] at h
  obtain ⟨rest₁, rfl, h₁⟩ := exists_of_strip_ofKind h rfl
  obtain ⟨body, rest₂, hbody, rfl, h₂, hcloses⟩ :=
    hB h₁ fun _ => closesSequence_ofKind untilWord rfl (C.tokens ++ rest')
  obtain ⟨rest₃, rfl, h₃⟩ := exists_of_strip_eq_cons h₂ fun _ => hcloses rfl
  obtain ⟨condition, rest₄, hcondition, rfl, h₄, -⟩ := hC h₃ nofun
  exact ⟨.loop repeatWord body untilWord condition, rest₄, by rw [strict, hbody, hcondition],
    by simp only [Derivation.tokens, List.cons_append, List.append_assoc], h₄, nofun⟩

/-- Every derivation has its deleted semicolons put back. -/
theorem restores (D' : Derivation false symbol) : Restores D' := by
  -- On the derivation. The tokens from which semicolons were deleted are read off one by one.
  induction D' with
  | program body hB =>
    intro tokens rest' h hrest'
    obtain ⟨B, rest, rfl, rfl, hrest, hcloses⟩ := hB h hrest'
    exact ⟨.program B, rest, rfl, rfl, hrest, hcloses⟩
  | sequence _ _ hF hR => exact restores_sequence hF hR
  | done => exact restores_done
  | doneAfter _ allowed => cases allowed
  | next semicolon _ _ hF hR => exact restores_next semicolon hF hR
  | conditional ifWord _ thenWord _ endWord hC hB =>
    exact restores_conditional ifWord thenWord endWord hC hB
  | loop repeatWord _ untilWord _ hB hC => exact restores_loop repeatWord untilWord hB hC
  | assign target sign value hV =>
    intro tokens rest' h _
    obtain ⟨rest₁, rfl, h₁⟩ := exists_of_strip_ofKind h rfl
    obtain ⟨rest₂, rfl, h₂⟩ := exists_of_strip_ofKind h₁ rfl
    obtain ⟨V, rest₃, rfl, rfl, h₃, -⟩ := hV h₂ nofun
    exact ⟨.assign target sign V, rest₃, rfl, rfl, h₃, nofun⟩
  | read readWord target =>
    intro tokens rest' h _
    obtain ⟨rest₁, rfl, h₁⟩ := exists_of_strip_ofKind h rfl
    obtain ⟨rest₂, rfl, h₂⟩ := exists_of_strip_ofKind h₁ rfl
    exact ⟨.read readWord target, rest₂, rfl, rfl, h₂, nofun⟩
  | write writeWord value hV =>
    intro tokens rest' h _
    obtain ⟨rest₁, rfl, h₁⟩ := exists_of_strip_ofKind h rfl
    obtain ⟨V, rest₂, rfl, rfl, h₂, -⟩ := hV h₁ nofun
    exact ⟨.write writeWord V, rest₂, rfl, rfl, h₂, nofun⟩
  | single left hL =>
    intro tokens rest' h _
    obtain ⟨L, rest, rfl, rfl, hrest, -⟩ := hL h nofun
    exact ⟨.single L, rest, rfl, rfl, hrest, nofun⟩
  | compared left sign right hL hR =>
    intro tokens rest' h _
    rw [Derivation.tokens, List.append_assoc] at h
    obtain ⟨L, rest₁, rfl, rfl, h₁, -⟩ := hL h nofun
    obtain ⟨rest₂, rfl, h₂⟩ := exists_of_strip_sign h₁
    obtain ⟨R, rest₃, rfl, rfl, h₃, -⟩ := hR h₂ nofun
    exact ⟨.compared L sign R, rest₃, rfl,
      by simp only [Derivation.tokens, List.cons_append, List.append_assoc], h₃, nofun⟩
  | chain level first rest hF hR =>
    intro tokens rest' h _
    rw [Derivation.tokens, List.append_assoc] at h
    obtain ⟨F, rest₁, rfl, rfl, h₁, -⟩ := hF h (by simp [level.endsSequence_operand])
    obtain ⟨R, rest₂, rfl, rfl, h₂, -⟩ := hR h₁ nofun
    exact ⟨.chain level F R, rest₂, rfl, (List.append_assoc ..).symm, h₂, nofun⟩
  | stop level => exact fun {tokens _} h _ => ⟨.stop level, tokens, rfl, rfl, h, nofun⟩
  | link level sign operand rest hO hR =>
    intro tokens rest' h _
    rw [Derivation.tokens, List.cons_append, List.append_assoc] at h
    obtain ⟨rest₁, rfl, h₁⟩ := exists_of_strip_sign h
    obtain ⟨O, rest₂, rfl, rfl, h₂, -⟩ := hO h₁ (by simp [level.endsSequence_operand])
    obtain ⟨R, rest₃, rfl, rfl, h₃, -⟩ := hR h₂ nofun
    exact ⟨.link level sign O R, rest₃, rfl,
      by simp only [Derivation.tokens, List.cons_append, List.append_assoc], h₃, nofun⟩
  | brackets opening inner closing hI =>
    intro tokens rest' h _
    simp only [Derivation.tokens, List.cons_append, List.append_assoc, List.nil_append] at h
    obtain ⟨rest₁, rfl, h₁⟩ := exists_of_strip_ofKind h rfl
    obtain ⟨I, rest₂, rfl, rfl, h₂, -⟩ := hI h₁ nofun
    obtain ⟨rest₃, rfl, h₃⟩ := exists_of_strip_ofKind h₂ rfl
    exact ⟨.brackets opening I closing, rest₃, rfl,
      by simp only [Derivation.tokens, List.cons_append, List.append_assoc, List.nil_append], h₃,
      nofun⟩
  | number token value value_eq =>
    intro tokens rest' h _
    obtain ⟨rest, rfl, hrest⟩ := exists_of_strip_ofKind h rfl
    exact ⟨.number token value value_eq, rest, rfl, rfl, hrest, nofun⟩
  | name token =>
    intro tokens rest' h _
    obtain ⟨rest, rfl, hrest⟩ := exists_of_strip_ofKind h rfl
    exact ⟨.name token, rest, rfl, rfl, hrest, nofun⟩

end Derivation

namespace Program

open TinyLang.Parser

/-- A parse succeeds with the trees of derivations that need no more levels than there are. -/
theorem parse_eq_ok_iff_derived {config : ParserConfig} {tokens : List Token} {program : Program} :
    parse config tokens = .ok program ↔
      Derived config .program config.maxDepth (Token.beforeEnd tokens) program := by
  constructor
  · exact derived_of_parse
  · rintro ⟨D, htokens, rfl, hneed⟩
    exact (parse_of_derivation D htokens).1 hneed

theorem parse_strip_of_parse {depth : Nat} {tokens : List Token} {program : Program}
    {trailing : Bool} (h : parse ⟨depth, trailing⟩ tokens = .ok program) :
    parse ⟨depth, false⟩ (Token.strip tokens) = .ok program := by
  obtain ⟨D, htokens, rfl, hneed⟩ := parse_eq_ok_iff_derived.mp h
  have hclosed : Symbol.program.endsSequence = true → (Token.nextKind []).closesSequence = true :=
    fun _ => rfl
  have hstrip := D.strip_tokens_append hclosed
  rw [List.append_nil, Token.strip_nil, List.append_nil, htokens, ← Token.beforeEnd_strip] at hstrip
  exact parse_eq_ok_iff_derived.mpr ⟨D.strict, hstrip.symm, D.tree_strict, D.need_strict ▸ hneed⟩

theorem parse_of_parse_strip {depth : Nat} {tokens : List Token} {program : Program}
    (h : parse ⟨depth, false⟩ (Token.strip tokens) = .ok program) :
    parse ⟨depth, true⟩ tokens = .ok program := by
  obtain ⟨D', htokens, rfl, hneed⟩ := parse_eq_ok_iff_derived.mp h
  rw [Token.beforeEnd_strip, ← List.append_nil (Derivation.tokens _)] at htokens
  obtain ⟨D, rest, rfl, hD, hrest, hcloses⟩ := D'.restores htokens.symm fun _ => rfl
  rw [Token.eq_nil_of_strip hrest (hcloses rfl), List.append_nil] at hD
  exact parse_eq_ok_iff_derived.mpr ⟨D, hD.symm, D.tree_strict.symm, D.need_strict ▸ hneed⟩

/-- With trailing semicolons allowed, a program is parsed from tokens exactly if it is parsed
without them from the tokens that are left when the trailing semicolons are deleted. So whatever is
parsed without them is parsed with them too, to the same program. -/
theorem parse_trailing_iff (depth : Nat) (tokens : List Token) (program : Program) :
    (parse ⟨depth, true⟩ tokens = .ok program ↔
      parse ⟨depth, false⟩ (Token.strip tokens) = .ok program) ∧
    (parse ⟨depth, false⟩ tokens = .ok program → parse ⟨depth, true⟩ tokens = .ok program) :=
  ⟨⟨parse_strip_of_parse, parse_of_parse_strip⟩,
    fun h => parse_of_parse_strip (parse_strip_of_parse h)⟩

end Program

end TinyLang

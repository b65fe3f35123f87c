import TinyLang.Proofs.Grammar.Steps

namespace TinyLang

namespace Parser

variable {α β : Type} {limit : Nat} {s t : State}

/-- The parser consumes the tokens and returns the value if there is room for it. Otherwise it fails
for want of room. -/
def Outcome (limit : Nat) (p : Parser α) (fits : Prop) (tokens : List Token) (a : α) (s : State) :
    Prop :=
  (fits → ∃ t, p.run s = .ok a t ∧ s.Moved tokens t) ∧
    (¬ fits → ∃ e t, p.run s = .error e t ∧ e.cause = .nestingTooDeep limit)

theorem Outcome.of_run_bind {p : Parser α} {f : α → Parser β} {fits : Prop}
    {front back : List Token} {a : α} {b : β} (h : Outcome limit (f a) fits back b t)
    (hrun : p.run s = .ok a t) (hmoved : s.Moved front t) :
    Outcome limit (p >>= f) fits (front ++ back) b s := by
  refine ⟨fun hfits => ?_, fun hfits => ?_⟩
  · obtain ⟨u, hrun', hmoved'⟩ := h.1 hfits
    exact ⟨u, (run_bind_of_ok hrun).trans hrun', hmoved.trans hmoved'⟩
  · obtain ⟨e, u, hrun', hcause⟩ := h.2 hfits
    exact ⟨e, u, (run_bind_of_ok hrun).trans hrun', hcause⟩

def Reads (limit : Nat) (p : Parser α) (fits : Prop) (tokens rest : List Token) (a : α) : Prop :=
  ∀ s : State, s.ahead = tokens ++ rest → Outcome limit p fits tokens a s

namespace Reads

variable {p : Parser α} {f : α → Parser β} {fits fits' : Prop}
  {tokens front back rest : List Token} {a : α} {b : β}

theorem congr (h : Reads limit p fits tokens rest a) (hfits : fits ↔ fits') :
    Reads limit p fits' tokens rest a := by
  rwa [← propext hfits]

theorem pure (a : α) : Reads limit (Pure.pure a) True [] rest a :=
  fun s _ => ⟨fun _ => ⟨s, rfl, .refl s⟩, fun h => absurd trivial h⟩

/-- Of two parsers in a row each has to have room. -/
theorem bind (hp : Reads limit p fits front (back ++ rest) a)
    (hf : Reads limit (f a) fits' back rest b) :
    Reads limit (p >>= f) (fits ∧ fits') (front ++ back) rest b := by
  intro s hahead
  rw [List.append_assoc] at hahead
  obtain ⟨hok, hdeep⟩ := hp s hahead
  by_cases hfits : fits
  · obtain ⟨t, hrun, hmoved⟩ := hok hfits
    have hahead' : t.ahead = back ++ rest :=
      List.append_cancel_left (hmoved.ahead_eq.symm.trans hahead)
    have h := (hf t hahead').of_run_bind hrun hmoved
    exact ⟨fun hboth => h.1 hboth.2, fun hnot => h.2 fun hfits' => hnot ⟨hfits, hfits'⟩⟩
  · obtain ⟨e, t, hrun, hcause⟩ := hdeep hfits
    exact ⟨fun h => absurd h.1 hfits, fun _ => ⟨e, t, run_bind_of_error hrun, hcause⟩⟩

theorem kind {f : Token.Kind → Parser β}
    (h : Reads limit (f (Token.nextKind (tokens ++ rest))) fits tokens rest b) :
    Reads limit (Parser.kind >>= f) fits tokens rest b := by
  intro s hahead
  have hkind : s.kind = Token.nextKind (tokens ++ rest) := by
    rw [← hahead]
    rfl
  rw [← hkind] at h
  exact (h s hahead).of_run_bind (run_kind s) (.refl s)

theorem refuse (rule : Rule) (hfits : ¬ fits) :
    Reads limit (Parser.refuse limit rule) fits tokens rest a := by
  intro s _
  obtain ⟨t, hrun, -⟩ := run_refuse limit rule s
  exact ⟨fun h => absurd h hfits, fun _ => ⟨_, t, hrun, rfl⟩⟩

/-- There is no room for one more operation. -/
theorem tooDeep (hfits : ¬ fits) :
    Reads limit (fail (.nestingTooDeep limit)) fits tokens rest a :=
  fun s _ => ⟨fun h => absurd h hfits, fun _ => ⟨_, _, run_fail _ s, rfl⟩⟩

theorem inside (rule : Rule) (h : Reads limit p fits tokens rest a) :
    Reads limit (Parser.inside rule p) fits tokens rest a := by
  intro s hahead
  obtain ⟨hok, hdeep⟩ := h (s.pushed rule) hahead
  refine ⟨fun hfits => ?_, fun hfits => ?_⟩
  · obtain ⟨t, hrun, hmoved⟩ := hok hfits
    have hmoved' := (s.moved_pushed rule).trans (hmoved.trans t.moved_popped)
    exact ⟨t.popped, run_inside_of_ok hrun, by simpa using hmoved'⟩
  · obtain ⟨e, t, hrun, hcause⟩ := hdeep hfits
    exact ⟨e, t, run_inside_of_error hrun, hcause⟩

theorem parsing (rule : Rule) (h : Reads limit p fits tokens rest a) :
    Reads limit (Parser.parsing rule p) fits tokens rest a := by
  intro s hahead
  obtain ⟨hok, hdeep⟩ := h (s.entered rule) hahead
  refine ⟨fun hfits => ?_, fun hfits => ?_⟩
  · obtain ⟨t, hrun, hmoved⟩ := hok hfits
    have hmoved' := (s.moved_entered rule).trans (hmoved.trans (t.moved_exited rule))
    exact ⟨t.exited rule, run_parsing_of_ok hrun, by simpa using hmoved'⟩
  · obtain ⟨e, t, hrun, hcause⟩ := hdeep hfits
    exact ⟨e, t, run_parsing_of_error hrun, hcause⟩

/-- A token of the kind that is expected comes first. -/
theorem expect {wanted : Token.Kind} {f : Token → Parser β} (token : Token.OfKind wanted)
    (hend : wanted ≠ .endOfInput) (h : Reads limit (f token.1) fits tokens rest b) :
    Reads limit (Parser.expect wanted >>= f) fits (token.1 :: tokens) rest b := by
  intro s hahead
  have hkind : s.kind = wanted := (State.kind_cons hahead).trans token.2
  obtain ⟨token', t, hrun, hmoved⟩ := run_expect_of_eq hend hkind
  obtain ⟨htoken, hahead'⟩ := List.cons.inj (hmoved.ahead_eq.symm.trans hahead)
  rw [htoken] at hrun hmoved
  exact (h t hahead').of_run_bind hrun hmoved

/-- The sign of an operator comes first. -/
theorem sign {wanted : List Operator} {f : Option (Operator × Span) → Parser β}
    (sign : Token.Sign wanted)
    (h : Reads limit (f (some (sign.op, sign.token.span))) fits tokens rest b) :
    Reads limit (operator? wanted >>= f) fits (sign.token :: tokens) rest b := by
  intro s hahead
  have hkind : s.kind.isSign wanted = true := by
    rw [State.kind_cons hahead]
    exact Token.Kind.isSign_iff.mpr ⟨sign.op, sign.op_mem, sign.kind_eq⟩
  obtain ⟨sign', t, hrun, hmoved⟩ := run_operator?_of_isSign hkind
  obtain ⟨htoken, hahead'⟩ := List.cons.inj (hmoved.ahead_eq.symm.trans hahead)
  have hop : sign'.op = sign.op :=
    Token.Kind.operator.inj (sign'.kind_eq.symm.trans (htoken ▸ sign.kind_eq))
  rw [htoken] at hmoved
  rw [htoken, hop] at hrun
  exact (h t hahead').of_run_bind hrun hmoved

/-- No sign of an operator comes first. -/
theorem noSign {wanted : List Operator} {f : Option (Operator × Span) → Parser β}
    (hkind : (Token.nextKind (tokens ++ rest)).isSign wanted = false)
    (h : Reads limit (f none) fits tokens rest b) :
    Reads limit (operator? wanted >>= f) fits tokens rest b := by
  intro s hahead
  have hrun : (operator? wanted).run s = .ok none s := by
    apply run_operator?_of_not
    rwa [← hahead] at hkind
  exact (h s hahead).of_run_bind hrun (.refl s)

/-- A token that is accepted comes first. -/
theorem accept {wanted : Token.Kind → Bool} {f : Option Token → Parser β} {token : Token}
    (hend : wanted .endOfInput = false) (hkind : wanted token.kind = true)
    (h : Reads limit (f (some token)) fits tokens rest b) :
    Reads limit (accept? wanted >>= f) fits (token :: tokens) rest b := by
  intro s hahead
  obtain ⟨token', t, -, hrun, hmoved⟩ :=
    run_accept?_of_wanted wanted hend (State.kind_cons hahead ▸ hkind)
  obtain ⟨htoken, hahead'⟩ := List.cons.inj (hmoved.ahead_eq.symm.trans hahead)
  rw [htoken] at hrun hmoved
  exact (h t hahead').of_run_bind hrun hmoved

/-- No token that would be accepted comes first. -/
theorem reject {wanted : Token.Kind → Bool} {f : Option Token → Parser β}
    (hkind : wanted (Token.nextKind (tokens ++ rest)) = false)
    (h : Reads limit (f none) fits tokens rest b) :
    Reads limit (accept? wanted >>= f) fits tokens rest b := by
  intro s hahead
  rw [← hahead] at hkind
  exact (h s hahead).of_run_bind (run_accept?_of_not hkind) (.refl s)

theorem get {f : State → Parser β}
    (h : ∀ s, s.ahead = tokens ++ rest → Reads limit (f s) fits tokens rest b) :
    Reads limit (MonadState.get >>= f) fits tokens rest b :=
  fun s hahead => (h s hahead s hahead).of_run_bind rfl (.refl s)

/-- A rule that is refused without a level left and goes one level down otherwise. -/
theorem rule {rule : Rule} {p body : Nat → Parser α} (need : Nat)
    (hzero : p 0 = Parser.refuse limit rule)
    (hsucc : ∀ depth, p (depth + 1) = Parser.parsing rule (body depth)) (hneed : 0 < need)
    (h : ∀ depth, Reads limit (body depth) (need ≤ depth + 1) tokens rest a) (depth : Nat) :
    Reads limit (p depth) (need ≤ depth) tokens rest a := by
  cases depth with
  | zero =>
    rw [hzero]
    exact refuse rule (by omega)
  | succ depth =>
    rw [hsucc]
    exact parsing rule (h depth)

end Reads

variable (config : ParserConfig) {symbol : Symbol}

/-- With any number of levels the parser reads the derived tokens, in front of anything that may
follow, if the levels are as many as the derivation needs. -/
def Completes (p : Nat → Parser α) (D : Derivation config.trailingSemicolon symbol) (a : α) :
    Prop :=
  ∀ depth rest, symbol.follow (Token.nextKind rest) = true →
    Reads config.maxDepth (p depth) (D.need ≤ depth) D.tokens rest a

def CompletesFollowers (R : Derivation config.trailingSemicolon .followers) : Prop :=
  ∀ depth rest rounds, Symbol.follow .followers (Token.nextKind rest) = true →
    (R.tokens ++ rest).length ≤ rounds →
      Reads config.maxDepth (followers config (statement config depth) rounds) (R.need ≤ depth)
        R.tokens rest R.tree

def CompletesLinks {level : Precedence} (R : Derivation config.trailingSemicolon (.links level)) :
    Prop :=
  ∀ left, Completes config (fun depth => links config level depth left) R (R.tree left)

variable {config}

/-- A statement is read if its form is. -/
theorem completes_form {D : Derivation config.trailingSemicolon .statement} {tree : Stmt}
    {rule : Rule} {p body : Nat → Parser Stmt}
    (hform : ∀ depth rest, form config (Token.nextKind (D.tokens ++ rest)) depth = p depth)
    (hzero : p 0 = refuse config.maxDepth rule)
    (hsucc : ∀ depth, p (depth + 1) = parsing rule (body depth)) (hneed : 2 ≤ D.need)
    (h : ∀ depth rest, Symbol.follow .statement (Token.nextKind rest) = true →
      Reads config.maxDepth (body depth) (D.need ≤ depth + 2) D.tokens rest tree) :
    Completes config (statement config) D tree := by
  intro depth rest hfollow
  refine .rule D.need rfl (statement_succ config) (by omega) (fun depth => ?_) depth
  apply Reads.kind
  rw [hform]
  refine (Reads.rule (D.need - 1) hzero hsucc (by omega) (fun depth => ?_) depth).congr
    (by omega)
  exact (h depth rest hfollow).congr (by omega)

theorem completes_conditional (ifWord : Token.OfKind (.keyword .ifWord))
    {C : Derivation config.trailingSemicolon .comparison}
    (thenWord : Token.OfKind (.keyword .thenWord))
    {B : Derivation config.trailingSemicolon .sequence}
    (endWord : Token.OfKind (.keyword .endWord)) (hC : Completes config (comparison config) C C.tree)
    (hB : Completes config (sequence config) B B.tree) :
    Completes config (statement config) (.conditional ifWord C thenWord B endWord)
      (Derivation.conditional ifWord C thenWord B endWord).tree := by
  refine completes_form (p := conditional config) (fun depth rest => ?_) rfl (fun _ => rfl)
    (Nat.le_add_right 2 _) (fun depth rest _ => ?_)
  · rw [Derivation.tokens, List.cons_append, Token.nextKind_cons, ifWord.2]
    rfl
  · refine .congr (.expect ifWord (by decide) <| .bind (hC depth _ ?_) <|
      .expect thenWord (by decide) <| .bind (hB depth _ ?_) <|
        .expect endWord (by decide) <| .pure _) ?_
    · exact Derivation.follow_cons thenWord _ rfl
    · exact Derivation.follow_cons endWord _ rfl
    · simp only [Derivation.need, and_true]
      omega

theorem completes_loop (repeatWord : Token.OfKind (.keyword .repeatWord))
    {B : Derivation config.trailingSemicolon .sequence}
    (untilWord : Token.OfKind (.keyword .untilWord))
    {C : Derivation config.trailingSemicolon .comparison}
    (hB : Completes config (sequence config) B B.tree)
    (hC : Completes config (comparison config) C C.tree) :
    Completes config (statement config) (.loop repeatWord B untilWord C)
      (Derivation.loop repeatWord B untilWord C).tree := by
  refine completes_form (p := loop config) (fun depth rest => ?_) rfl (fun _ => rfl)
    (Nat.le_add_right 2 _) (fun depth rest hfollow => ?_)
  · rw [Derivation.tokens, List.cons_append, Token.nextKind_cons, repeatWord.2]
    rfl
  · rw [Derivation.tokens, ← List.append_nil C.tokens]
    refine .congr (.expect repeatWord (by decide) <| .bind (hB depth _ ?_) <|
      .expect untilWord (by decide) <| .bind (hC depth _ hfollow) <| .pure _) ?_
    · exact Derivation.follow_cons untilWord _ rfl
    · simp only [Derivation.need, and_true]
      omega

theorem completes_assign (target : Token.OfKind .identifier) (sign : Token.OfKind .assign)
    {V : Derivation config.trailingSemicolon .comparison}
    (hV : Completes config (comparison config) V V.tree) :
    Completes config (statement config) (.assign target sign V)
      (Derivation.assign target sign V).tree := by
  refine completes_form (p := assign config) (fun depth rest => ?_) rfl (fun _ => rfl)
    (Nat.le_add_right 2 _) (fun depth rest hfollow => ?_)
  · rw [Derivation.tokens, List.cons_append, Token.nextKind_cons, target.2]
    rfl
  · rw [Derivation.tokens, ← List.append_nil V.tokens]
    refine .congr (.expect target (by decide) <| .expect sign (by decide) <|
      .bind (hV depth _ hfollow) <| .pure _) ?_
    simp only [Derivation.need, and_true]
    omega

theorem completes_read (readWord : Token.OfKind (.keyword .readWord))
    (target : Token.OfKind .identifier) :
    Completes config (statement config) (.read readWord target)
      (.read target.1.lexeme readWord.1.span) := by
  refine completes_form (p := read config) (fun depth rest => ?_) rfl (fun _ => rfl)
    (Nat.le_refl 2) (fun depth rest _ => ?_)
  · rw [Derivation.tokens, List.cons_append, Token.nextKind_cons, readWord.2]
    rfl
  · refine .congr (.expect readWord (by decide) <| .expect target (by decide) <| .pure _) ?_
    simp only [Derivation.need, true_iff]
    omega

theorem completes_write (writeWord : Token.OfKind (.keyword .writeWord))
    {V : Derivation config.trailingSemicolon .comparison}
    (hV : Completes config (comparison config) V V.tree) :
    Completes config (statement config) (.write writeWord V) (Derivation.write writeWord V).tree := by
  refine completes_form (p := write config) (fun depth rest => ?_) rfl (fun _ => rfl)
    (Nat.le_add_right 2 _) (fun depth rest hfollow => ?_)
  · rw [Derivation.tokens, List.cons_append, Token.nextKind_cons, writeWord.2]
    rfl
  · rw [Derivation.tokens, ← List.append_nil V.tokens]
    refine .congr (.expect writeWord (by decide) <| .bind (hV depth _ hfollow) <| .pure _) ?_
    simp only [Derivation.need, and_true]
    omega

theorem completes_done : CompletesFollowers config .done := by
  intro depth rest rounds hfollow _
  cases rounds with
  | zero => exact .congr (.pure _) (by simp [Derivation.need])
  | succ rounds =>
    rw [followers]
    refine .reject ?_ (.congr (.pure _) (by simp [Derivation.need]))
    have hne : Token.nextKind rest ≠ .semicolon := by
      intro h
      rw [h] at hfollow
      contradiction
    exact decide_eq_false hne

theorem completes_doneAfter (semicolon : Token.OfKind .semicolon)
    (allowed : config.trailingSemicolon = true) :
    CompletesFollowers config (.doneAfter semicolon allowed) := by
  intro depth rest rounds hfollow hrounds
  cases rounds with
  | zero => simp at hrounds
  | succ rounds =>
    rw [followers]
    refine .accept rfl (by simp [semicolon.2]) (.kind ?_)
    have hclosing : (config.trailingSemicolon && (Token.nextKind rest).closesSequence) = true :=
      Bool.and_eq_true_iff.mpr ⟨allowed, hfollow⟩
    rw [List.nil_append, if_pos hclosing]
    exact .congr (.pure _) (by simp [Derivation.need])

theorem completes_next (semicolon : Token.OfKind .semicolon)
    {F : Derivation config.trailingSemicolon .statement}
    {R : Derivation config.trailingSemicolon .followers}
    (hF : Completes config (statement config) F F.tree) (hR : CompletesFollowers config R) :
    CompletesFollowers config (.next semicolon F R) := by
  intro depth rest rounds hfollow hrounds
  cases rounds with
  | zero => simp at hrounds
  | succ rounds =>
    have hrounds' : (R.tokens ++ rest).length ≤ rounds := by
      simp only [Derivation.tokens, List.length_cons, List.length_append] at hrounds ⊢
      omega
    rw [followers, Derivation.tokens, ← List.append_nil R.tokens]
    refine .accept rfl (by simp [semicolon.2]) (.kind ?_)
    rw [if_neg (by simp [List.append_assoc, Derivation.closesSequence_eq_false F])]
    refine .congr (.bind (hF depth _ ?_) <| .bind (hR depth rest rounds hfollow hrounds') <|
      .pure _) ?_
    · simpa using Derivation.follow_append_followers R hfollow
    · simp only [Derivation.need, and_true]
      omega

theorem completes_sequence {F : Derivation config.trailingSemicolon .statement}
    {R : Derivation config.trailingSemicolon .followers}
    (hF : Completes config (statement config) F F.tree) (hR : CompletesFollowers config R) :
    Completes config (sequence config) (.sequence F R) (Derivation.sequence F R).tree := by
  intro depth rest hfollow
  refine .rule (Derivation.sequence F R).need rfl (fun _ => rfl)
    (Nat.le_add_right 1 _) (fun depth => ?_) depth
  rw [Derivation.tokens, ← List.append_nil R.tokens]
  refine .congr (.bind (hF depth _ ?_) <| .get fun s hahead => .bind (hR depth rest _ hfollow ?_) <|
    .pure _) ?_
  · simpa using Derivation.follow_append_followers R hfollow
  · exact Nat.le_of_eq (by rw [hahead, List.append_nil])
  · simp only [Derivation.need, and_true]
    omega

/-- A factor is read if its form is. -/
theorem completes_factorForm {D : Derivation config.trailingSemicolon .factor} {tree : Expr}
    {p : Nat → Parser Expr}
    (hform : ∀ depth rest, factorForm config (Token.nextKind (D.tokens ++ rest)) depth = p depth)
    (hneed : 0 < D.need)
    (h : ∀ depth rest, Reads config.maxDepth (p depth) (D.need ≤ depth + 1) D.tokens rest tree) :
    Completes config (factor config) D tree := by
  intro depth rest _
  refine .rule D.need rfl (factor_succ config) hneed (fun depth => .kind ?_) depth
  rw [hform]
  exact h depth rest

theorem completes_brackets (opening : Token.OfKind .openBracket)
    {I : Derivation config.trailingSemicolon .comparison} (closing : Token.OfKind .closeBracket)
    (hI : Completes config (comparison config) I I.tree) :
    Completes config (factor config) (.brackets opening I closing)
      (Derivation.brackets opening I closing).tree := by
  refine completes_factorForm (p := brackets config) (fun depth rest => ?_)
    (Nat.le_add_right 1 _) (fun depth rest => ?_)
  · rw [Derivation.tokens, List.cons_append, Token.nextKind_cons, opening.2]
    rfl
  · refine .congr (.expect opening (by decide) <| .bind (hI depth _ ?_) <|
      .expect closing (by decide) <| .pure _) ?_
    · exact Derivation.follow_cons closing _ rfl
    · simp only [Derivation.need, and_true]
      omega

theorem completes_number (token : Token.OfKind .number) (value : Int64)
    (value_eq : Decimal.signed64? token.1.lexeme = some value) :
    Completes config (factor config) (.number token value value_eq)
      (.constant value token.1.span) := by
  refine completes_factorForm (p := fun _ => number) (fun depth rest => ?_)
    (Nat.le_refl 1) (fun depth rest => ?_)
  · rw [Derivation.tokens, List.cons_append, Token.nextKind_cons, token.2]
    rfl
  · have hvalue : Reads config.maxDepth (number : Parser Expr) True [token.1] rest
        (.constant value token.1.span) := by
      apply Reads.expect token (by decide)
      rw [value_eq]
      exact .pure _
    exact hvalue.congr (by simp [Derivation.need])

theorem completes_name (token : Token.OfKind .identifier) :
    Completes config (factor config) (.name token)
      (.name token.1.lexeme token.1.span) := by
  refine completes_factorForm (p := fun _ => name) (fun depth rest => ?_)
    (Nat.le_refl 1) (fun depth rest => ?_)
  · rw [Derivation.tokens, List.cons_append, Token.nextKind_cons, token.2]
    rfl
  · exact .congr (.expect token (by decide) <| .pure _) (by simp [Derivation.need])

theorem completes_stop (level : Precedence) : CompletesLinks config (.stop level) := by
  intro left depth rest hfollow
  change Reads _ (links config level depth left) _ _ _ _
  rw [links_eq]
  apply Reads.noSign (Derivation.isSign_of_follow_links hfollow)
  rw [link_none]
  exact .congr (.pure _) (by simp [Derivation.need])

theorem completes_link (level : Precedence) (sign : Token.Sign level.operators)
    {O : Derivation config.trailingSemicolon level.operand}
    {R : Derivation config.trailingSemicolon (.links level)}
    (hO : Completes config (operand config level) O (level.operandTree O.tree))
    (hR : CompletesLinks config R) :
    CompletesLinks config (.link level sign O R) := by
  intro left depth rest hfollow
  change Reads _ (links config level depth left) _ _ _ _
  rw [links_eq]
  apply Reads.sign sign
  cases depth with
  | zero =>
    -- An operation is never parsed without a level for it.
    exact .tooDeep (by simp)
  | succ depth =>
    refine .inside .operation (.congr (.bind (hO depth _ ?_) (hR _ depth rest hfollow)) ?_)
    · exact Derivation.follow_append_links R hfollow
    · simp only [Derivation.need]
      omega

theorem completes_chain (level : Precedence) {F : Derivation config.trailingSemicolon level.operand}
    {R : Derivation config.trailingSemicolon (.links level)}
    (hF : Completes config (operand config level) F (level.operandTree F.tree))
    (hR : CompletesLinks config R) :
    Completes config (chain config level) (.chain level F R) (Derivation.chain level F R).tree := by
  intro depth rest hfollow
  refine .rule (Derivation.chain level F R).need (chain_zero config level)
    (chain_succ config level) (Nat.le_add_right 1 _) (fun depth => ?_) depth
  refine .congr (.bind (hF depth _ ?_) (hR _ depth rest hfollow)) ?_
  · exact Derivation.follow_append_links R hfollow
  · simp only [Derivation.need]
    omega

theorem completes_single {L : Derivation config.trailingSemicolon (.chain .sum)}
    (hL : Completes config (chain config .sum) L L.tree) :
    Completes config (comparison config) (.single L) (Derivation.single L).tree := by
  intro depth rest hfollow
  refine .rule (Derivation.single L).need rfl (fun _ => rfl) (Nat.le_add_right 1 _)
    (fun depth => ?_) depth
  rw [Derivation.tokens, ← List.append_nil L.tokens]
  refine .congr (.bind (hL depth _ ?_) <| .noSign ?_ <| .pure _) ?_
  · exact Derivation.follow_chain_of_comparison hfollow
  · exact Derivation.isSign_of_follow_comparison hfollow
  · simp only [Derivation.need, and_true]
    omega

theorem completes_compared {L : Derivation config.trailingSemicolon (.chain .sum)}
    (sign : Token.Sign [.less, .equal]) {R : Derivation config.trailingSemicolon (.chain .sum)}
    (hL : Completes config (chain config .sum) L L.tree)
    (hR : Completes config (chain config .sum) R R.tree) :
    Completes config (comparison config) (.compared L sign R)
      (Derivation.compared L sign R).tree := by
  intro depth rest hfollow
  refine .rule (Derivation.compared L sign R).need rfl (fun _ => rfl)
    (Nat.le_add_right 1 _) (fun depth => ?_) depth
  rw [Derivation.tokens, ← List.append_nil R.tokens]
  refine .congr (.bind (hL depth _ ?_) <| .sign sign <| .bind (hR depth _ ?_) <| .pure _) ?_
  · exact Derivation.follow_sign sign _ (by decide)
  · exact Derivation.follow_chain_of_comparison hfollow
  · simp only [Derivation.need, and_true]
    omega

def Completed (config : ParserConfig) :
    (symbol : Symbol) → Derivation config.trailingSemicolon symbol → Prop
  | .program, _ => True
  | .sequence, D => Completes config (sequence config) D D.tree
  | .followers, D => CompletesFollowers config D
  | .statement, D => Completes config (statement config) D D.tree
  | .comparison, D => Completes config (comparison config) D D.tree
  | .chain level, D => Completes config (chain config level) D D.tree
  | .links _, D => CompletesLinks config D
  | .factor, D => Completes config (factor config) D D.tree

theorem Completed.operand {level : Precedence}
    {D : Derivation config.trailingSemicolon level.operand} (h : Completed config level.operand D) :
    Completes config (operand config level) D (level.operandTree D.tree) := by
  cases level with
  | sum => exact h
  | product => exact h

/-- Every derivation is found. The induction has one case for each production of the grammar. -/
theorem completed (D : Derivation config.trailingSemicolon symbol) : Completed config symbol D := by
  -- The follow condition and the rest of the tokens are inside of the claim, since they change from
  -- one part of a derivation to the next.
  induction D with
  | program _ _ => trivial
  | sequence _ _ hF hR => exact completes_sequence hF hR
  | done => exact completes_done
  | doneAfter semicolon allowed => exact completes_doneAfter semicolon allowed
  | next semicolon _ _ hF hR => exact completes_next semicolon hF hR
  | conditional ifWord _ thenWord _ endWord hC hB =>
    exact completes_conditional ifWord thenWord endWord hC hB
  | loop repeatWord _ untilWord _ hB hC => exact completes_loop repeatWord untilWord hB hC
  | assign target sign _ hV => exact completes_assign target sign hV
  | read readWord target => exact completes_read readWord target
  | write writeWord _ hV => exact completes_write writeWord hV
  | single _ hL => exact completes_single hL
  | compared _ sign _ hL hR => exact completes_compared sign hL hR
  | chain level _ _ hF hR => exact completes_chain level hF.operand hR
  | stop level => exact completes_stop level
  | link level sign _ _ hO hR => exact completes_link level sign hO.operand hR
  | brackets opening _ closing hI => exact completes_brackets opening closing hI
  | number token value value_eq => exact completes_number token value value_eq
  | name token => exact completes_name token

theorem reads_ending {rest : List Token} (body : List Stmt)
    (hrest : Token.nextKind rest = .endOfInput) :
    Reads limit (ending body) True [] rest ⟨body⟩ := by
  intro s hahead
  have hkind : s.kind = .endOfInput := by
    rw [← hrest, ← List.nil_append rest, ← hahead]
    rfl
  exact ⟨fun _ => ⟨s, run_ending_of_end body hkind, .refl s⟩, fun h => absurd trivial h⟩

theorem reads_program {rest : List Token} (D : Derivation config.trailingSemicolon .program)
    (hrest : Token.nextKind rest = .endOfInput) :
    Reads config.maxDepth (program config) (D.need ≤ config.maxDepth) D.tokens rest D.tree := by
  obtain ⟨body⟩ := D
  cases hdepth : config.maxDepth with
  | zero =>
    rw [program_zero config hdepth, hdepth]
    exact .refuse .program (by simp [Derivation.need])
  | succ depth =>
    have hbody := completed body depth rest (by rw [hrest]; rfl)
    rw [hdepth] at hbody
    rw [program_succ config hdepth, Derivation.tokens, ← List.append_nil body.tokens]
    intro s hahead
    have hparsing : Reads (depth + 1) (parsing .program (sequence config depth >>= ending))
        (body.need ≤ depth ∧ True) (body.tokens ++ []) rest (⟨body.tree⟩ : Program) :=
      .parsing .program (.bind hbody (reads_ending body.tree hrest))
    obtain ⟨hok, hdeep⟩ := hparsing s hahead
    simp only [Derivation.need, and_true] at hok hdeep ⊢
    refine ⟨fun hfits => ?_, fun hfits => ?_⟩
    · obtain ⟨t, hrun, hmoved⟩ := hok (by omega)
      refine ⟨_, (run_bind_of_ok hrun).trans rfl, ?_⟩
      exact ⟨hmoved.ahead_eq, hmoved.passed_eq, hmoved.isEnd_eq⟩
    · obtain ⟨e, t, hrun, hcause⟩ := hdeep (by omega)
      exact ⟨e, t, run_bind_of_error hrun, hcause⟩

end Parser

namespace Program

open TinyLang.Parser

/-- The outcome of a parse of derived tokens hangs on the need of the derivation alone. -/
theorem parse_of_derivation {config : ParserConfig} {tokens : List Token}
    (D : Derivation config.trailingSemicolon .program) (h : D.tokens = Token.beforeEnd tokens) :
    (D.need ≤ config.maxDepth → parse config tokens = .ok D.tree) ∧
      (¬ D.need ≤ config.maxDepth → ∃ error, parse config tokens = .error error ∧
        error.cause = .nestingTooDeep config.maxDepth) := by
  obtain ⟨rest, hrest, hend⟩ := Token.exists_eq_beforeEnd_append tokens
  rw [← h] at hrest
  obtain ⟨hok, hdeep⟩ := reads_program D hend { ahead := tokens } hrest
  refine ⟨fun hfits => ?_, fun hfits => ?_⟩
  · obtain ⟨t, hrun, -⟩ := hok hfits
    exact parse_eq_ok_iff.mpr ⟨t, hrun⟩
  · obtain ⟨error, t, hrun, hcause⟩ := hdeep hfits
    exact ⟨error, parse_eq_error_iff.mpr ⟨t, hrun⟩, hcause⟩

/-- The grammar is unambiguous: enough levels for both derivations give one parse of the tokens,
and its result is the tree of either. -/
theorem tree_eq_of_tokens_eq {trailing : Bool} {D D' : Derivation trailing .program}
    (h : D'.tokens = D.tokens) : D'.tree = D.tree := by
  let config : ParserConfig := ⟨max D.need D'.need, trailing⟩
  have hparse (E : Derivation config.trailingSemicolon .program) (hE : E.tokens = D.tokens)
      (hfits : E.need ≤ config.maxDepth) : parse config D.tokens = .ok E.tree :=
    (parse_of_derivation E (hE.trans D.beforeEnd_tokens.symm)).1 hfits
  have hD : parse config D.tokens = .ok D.tree := hparse D rfl (Nat.le_max_left _ _)
  have hD' : parse config D.tokens = .ok D'.tree := hparse D' h (Nat.le_max_right _ _)
  exact Except.ok.inj (hD'.symm.trans hD)

/-- Parsing is complete: tokens with a derivation are parsed to its tree exactly if the derivation
needs no more levels than there are. Otherwise the parse fails for want of levels, and for no other
reason. All derivations of the tokens have the same tree. -/
theorem parse_eq_ok_tree_iff {config : ParserConfig} {tokens : List Token}
    (D : Derivation config.trailingSemicolon .program) (h : D.tokens = Token.beforeEnd tokens) :
    (parse config tokens = .ok D.tree ↔ D.need ≤ config.maxDepth) ∧
      (¬ D.need ≤ config.maxDepth → ∃ error, parse config tokens = .error error ∧
        error.cause = .nestingTooDeep config.maxDepth) ∧
      ∀ D' : Derivation config.trailingSemicolon .program,
        D'.tokens = Token.beforeEnd tokens → D'.tree = D.tree := by
  obtain ⟨hok, hdeep⟩ := parse_of_derivation D h
  refine ⟨⟨fun hparse => ?_, hok⟩, hdeep, fun D' h' => tree_eq_of_tokens_eq (h'.trans h.symm)⟩
  by_cases hfits : D.need ≤ config.maxDepth
  · exact hfits
  · obtain ⟨error, herror, -⟩ := hdeep hfits
    rw [hparse] at herror
    contradiction

def differences : Derivation false .program :=
  .program (.sequence (.write ⟨⟨.keyword .writeWord, "write", {}⟩, rfl⟩ (.single
    (.chain .sum (.chain .product (.name ⟨⟨.identifier, "x", {}⟩, rfl⟩) (.stop .product))
      (.link .sum ⟨.minus, ⟨.operator .minus, "-", {}⟩, rfl, by decide⟩
        (.chain .product (.name ⟨⟨.identifier, "y", {}⟩, rfl⟩) (.stop .product))
        (.link .sum ⟨.minus, ⟨.operator .minus, "-", {}⟩, rfl, by decide⟩
          (.chain .product (.name ⟨⟨.identifier, "z", {}⟩, rfl⟩) (.stop .product))
          (.stop .sum)))))) .done)

/-- The last operand stands below two operations, so that ten levels are needed. -/
theorem parse_differences :
    parse ⟨10, false⟩ differences.tokens = .ok differences.tree ∧
      ∃ error, parse ⟨9, false⟩ differences.tokens = .error error ∧
        error.cause = .nestingTooDeep 9 := by
  have hneed : differences.need = 10 := rfl
  constructor
  · exact (@parse_eq_ok_tree_iff ⟨10, false⟩ _ differences rfl).1.mpr (Nat.le_of_eq hneed)
  · exact (@parse_eq_ok_tree_iff ⟨9, false⟩ _ differences rfl).2.1 (by rw [hneed]; decide)

end Program

end TinyLang

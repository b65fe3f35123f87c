import TinyLang.Proofs.Grammar.Steps

namespace TinyLang

namespace Parser

variable {α : Type} {s t : State}

/-- Whatever the parser returns is related to the tokens that it has consumed. -/
def Yields (p : Parser α) (R : List Token → α → Prop) : Prop :=
  ∀ ⦃s : State⦄ ⦃a : α⦄ ⦃t : State⦄, p.run s = .ok a t → ∃ tokens, s.Moved tokens t ∧ R tokens a

namespace Yields

variable {p : Parser α} {R : List Token → α → Prop}

theorem mono {R' : List Token → α → Prop} (h : Yields p R)
    (hR : ∀ tokens a, R tokens a → R' tokens a) : Yields p R' := by
  intro s a t hrun
  obtain ⟨tokens, hmoved, hr⟩ := h hrun
  exact ⟨tokens, hmoved, hR tokens a hr⟩

theorem unexpected (cause : Token → SyntaxError.Cause) : Yields (Parser.unexpected cause) R := by
  intro s a t hrun
  rw [run_unexpected] at hrun
  cases hrun

theorem refuse (limit : Nat) (rule : Rule) : Yields (Parser.refuse limit rule) R := by
  intro s a t hrun
  cases hrun

theorem parsing (rule : Rule) (h : Yields p R) : Yields (Parser.parsing rule p) R := by
  intro s a t hrun
  obtain ⟨t', hbody, rfl⟩ := run_parsing_eq_ok hrun
  obtain ⟨tokens, hmoved, hr⟩ := h hbody
  have hmoved' := (State.moved_entered s rule).trans (hmoved.trans (State.moved_exited t' rule))
  exact ⟨tokens, by simpa using hmoved', hr⟩

theorem expect (wanted : Token.Kind) (hend : wanted ≠ .endOfInput) :
    Yields (Parser.expect wanted) (fun tokens token => token.kind = wanted ∧ tokens = [token]) := by
  intro s token t hrun
  by_cases h : s.kind = wanted
  · obtain ⟨token', t', hrun', hmoved⟩ := run_expect_of_eq hend h
    rw [hrun'] at hrun
    cases hrun
    exact ⟨[token'.1], hmoved, token'.2, rfl⟩
  · rw [run_expect_of_ne h, run_unexpected] at hrun
    cases hrun

theorem accept? {wanted : Token.Kind → Bool} (hend : wanted .endOfInput = false) :
    Yields (Parser.accept? wanted) (fun tokens next =>
      next = none ∧ tokens = [] ∨
        ∃ token, wanted token.kind = true ∧ next = some token ∧ tokens = [token]) := by
  intro s next t hrun
  cases h : wanted s.kind with
  | true =>
    obtain ⟨token, t', hkind, hrun', hmoved⟩ := run_accept?_of_wanted wanted hend h
    rw [hrun'] at hrun
    cases hrun
    exact ⟨[token], hmoved, .inr ⟨token, hkind ▸ h, rfl, rfl⟩⟩
  | false =>
    rw [run_accept?_of_not h] at hrun
    cases hrun
    exact ⟨[], .refl s, .inl ⟨rfl, rfl⟩⟩

theorem operator? (wanted : List Operator) :
    Yields (Parser.operator? wanted) (fun tokens next =>
      next = none ∧ tokens = [] ∨
        ∃ sign : Token.Sign wanted, next = some (sign.op, sign.token.span) ∧
          tokens = [sign.token]) := by
  intro s next t hrun
  cases h : s.kind.isSign wanted with
  | true =>
    obtain ⟨sign, t', hrun', hmoved⟩ := run_operator?_of_isSign h
    rw [hrun'] at hrun
    cases hrun
    exact ⟨[sign.token], hmoved, .inr ⟨sign, rfl, rfl⟩⟩
  | false =>
    rw [run_operator?_of_not h] at hrun
    cases hrun
    exact ⟨[], .refl s, .inl ⟨rfl, rfl⟩⟩

end Yields

variable (config : ParserConfig)

def Derived (symbol : Symbol) (limit : Nat) (tokens : List Token) (tree : symbol.Tree) : Prop :=
  ∃ D : Derivation config.trailingSemicolon symbol,
    D.tokens = tokens ∧ D.tree = tree ∧ D.need ≤ limit

/-- All rules are sound with a given number of levels to nest. The rule of a statement has one level
more than the rule of its form. -/
structure Sound (depth : Nat) : Prop where
  sequence : Yields (sequence config depth) (Derived config .sequence depth)
  statement : Yields (statement config depth) (Derived config .statement depth)
  conditional : Yields (conditional config depth) (Derived config .statement (depth + 1))
  loop : Yields (loop config depth) (Derived config .statement (depth + 1))
  assign : Yields (assign config depth) (Derived config .statement (depth + 1))
  read : Yields (read config depth) (Derived config .statement (depth + 1))
  write : Yields (write config depth) (Derived config .statement (depth + 1))
  comparison : Yields (comparison config depth) (Derived config .comparison depth)
  chain (level : Precedence) : Yields (chain config level depth) (Derived config (.chain level) depth)
  links (level : Precedence) (left : Expr) : Yields (links config level depth left)
    (fun tokens tree => ∃ f, Derived config (.links level) depth tokens f ∧ tree = f left)
  factor : Yields (factor config depth) (Derived config .factor depth)

variable {config : ParserConfig} {depth : Nat}

theorem yields_followers
    (h : Yields (statement config depth) (Derived config .statement depth)) (rounds : Nat) :
    Yields (followers config (statement config depth) rounds)
      (Derived config .followers depth) := by
  induction rounds with
  | zero =>
    intro s tree t hrun
    cases hrun
    exact ⟨_, .refl s, .done, rfl, rfl, Nat.zero_le _⟩
  | succ rounds ih =>
    rw [followers]
    intro s tree t hrun
    obtain ⟨next, t₁, h₁, hrun⟩ := run_bind_eq_ok hrun
    obtain ⟨_, m₁, ⟨rfl, rfl⟩ | ⟨semicolon, hsemicolon, rfl, rfl⟩⟩ := Yields.accept? rfl h₁
    · cases hrun
      exact ⟨_, m₁, .done, rfl, rfl, Nat.zero_le _⟩
    have hkind : semicolon.kind = .semicolon := by simpa using hsemicolon
    obtain ⟨kind, _, hread, hrun⟩ := run_bind_eq_ok hrun
    cases hread
    split at hrun
    · next hclosing =>
      cases hrun
      have hallowed : config.trailingSemicolon = true := (Bool.and_eq_true_iff.mp hclosing).1
      exact ⟨_, m₁, .doneAfter ⟨semicolon, hkind⟩ hallowed, rfl, rfl, Nat.zero_le _⟩
    · obtain ⟨first, t₂, h₂, hrun⟩ := run_bind_eq_ok hrun
      obtain ⟨rest, t₃, h₃, hrun⟩ := run_bind_eq_ok hrun
      cases hrun
      obtain ⟨_, m₂, F, rfl, rfl, hF⟩ := h h₂
      obtain ⟨_, m₃, R, rfl, rfl, hR⟩ := ih h₃
      have hneed : max F.need R.need ≤ depth := Nat.max_le.mpr ⟨hF, hR⟩
      have hmoved := m₁.trans (m₂.trans m₃)
      exact ⟨_, hmoved, .next ⟨semicolon, hkind⟩ F R, rfl, rfl, hneed⟩

theorem yields_number : Yields number (Derived config .factor (depth + 1)) := by
  intro s tree t hrun
  obtain ⟨token, t₁, h₁, hrun⟩ := run_bind_eq_ok hrun
  obtain ⟨_, m₁, hnumber, rfl⟩ := Yields.expect _ (by decide) h₁
  split at hrun
  · next value hvalue =>
    cases hrun
    exact ⟨_, m₁, .number ⟨token, hnumber⟩ value hvalue, rfl, rfl, Nat.le_add_left 1 depth⟩
  · cases hrun

theorem yields_name : Yields name (Derived config .factor (depth + 1)) := by
  intro s tree t hrun
  obtain ⟨token, t₁, h₁, hrun⟩ := run_bind_eq_ok hrun
  cases hrun
  obtain ⟨_, m₁, hname, rfl⟩ := Yields.expect _ (by decide) h₁
  exact ⟨_, m₁, .name ⟨token, hname⟩, rfl, rfl, Nat.le_add_left 1 depth⟩

namespace Sound

theorem operand (h : Sound config depth) (level : Precedence) :
    Yields (operand config level depth) (fun tokens tree =>
      ∃ tree', Derived config level.operand depth tokens tree' ∧ tree = level.operandTree tree') := by
  cases level with
  | sum => exact (h.chain .product).mono fun tokens tree h => ⟨tree, h, rfl⟩
  | product => exact h.factor.mono fun tokens tree h => ⟨tree, h, rfl⟩

theorem sequence_succ (h : Sound config depth) :
    Yields (Parser.sequence config (depth + 1)) (Derived config .sequence (depth + 1)) := by
  rw [Parser.sequence]
  apply Yields.parsing
  intro s tree t hrun
  obtain ⟨first, t₁, h₁, hrun⟩ := run_bind_eq_ok hrun
  obtain ⟨_, t₂, hget, hrun⟩ := run_bind_eq_ok hrun
  cases hget
  obtain ⟨rest, t₃, h₂, hrun⟩ := run_bind_eq_ok hrun
  cases hrun
  -- The number of rounds does not matter here: each round that is done yields a statement.
  obtain ⟨_, m₁, F, rfl, rfl, hF⟩ := h.statement h₁
  obtain ⟨_, m₂, R, rfl, rfl, hR⟩ := yields_followers h.statement _ h₂
  have hneed : (Derivation.sequence F R).need ≤ depth + 1 := by
    simp only [Derivation.need]
    omega
  exact ⟨_, m₁.trans m₂, .sequence F R, rfl, rfl, hneed⟩

theorem statement_succ (h : Sound config depth) :
    Yields (Parser.statement config (depth + 1)) (Derived config .statement (depth + 1)) := by
  rw [Parser.statement_succ]
  apply Yields.parsing
  intro s tree t hrun
  obtain ⟨first, _, hkind, hrun⟩ := run_bind_eq_ok hrun
  cases hkind
  unfold form at hrun
  split at hrun
  · exact h.conditional hrun
  · exact h.loop hrun
  · exact h.assign hrun
  · exact h.read hrun
  · exact h.write hrun
  · exact Yields.unexpected _ hrun

theorem conditional_succ (h : Sound config depth) :
    Yields (Parser.conditional config (depth + 1)) (Derived config .statement (depth + 2)) := by
  rw [Parser.conditional]
  apply Yields.parsing
  intro s tree t hrun
  obtain ⟨ifWord, t₁, h₁, hrun⟩ := run_bind_eq_ok hrun
  obtain ⟨condition, t₂, h₂, hrun⟩ := run_bind_eq_ok hrun
  obtain ⟨thenWord, t₃, h₃, hrun⟩ := run_bind_eq_ok hrun
  obtain ⟨branch, t₄, h₄, hrun⟩ := run_bind_eq_ok hrun
  obtain ⟨endWord, t₅, h₅, hrun⟩ := run_bind_eq_ok hrun
  cases hrun
  obtain ⟨_, m₁, hif, rfl⟩ := Yields.expect _ (by decide) h₁
  obtain ⟨_, m₂, C, rfl, rfl, hC⟩ := h.comparison h₂
  obtain ⟨_, m₃, hthen, rfl⟩ := Yields.expect _ (by decide) h₃
  obtain ⟨_, m₄, B, rfl, rfl, hB⟩ := h.sequence h₄
  obtain ⟨_, m₅, hend, rfl⟩ := Yields.expect _ (by decide) h₅
  let D := Derivation.conditional ⟨ifWord, hif⟩ C ⟨thenWord, hthen⟩ B ⟨endWord, hend⟩
  have hneed : D.need ≤ depth + 2 := by
    simp only [D, Derivation.need]
    omega
  have hmoved := m₁.trans (m₂.trans (m₃.trans (m₄.trans m₅)))
  exact ⟨_, hmoved, D, rfl, rfl, hneed⟩

theorem loop_succ (h : Sound config depth) :
    Yields (Parser.loop config (depth + 1)) (Derived config .statement (depth + 2)) := by
  rw [Parser.loop]
  apply Yields.parsing
  intro s tree t hrun
  obtain ⟨repeatWord, t₁, h₁, hrun⟩ := run_bind_eq_ok hrun
  obtain ⟨body, t₂, h₂, hrun⟩ := run_bind_eq_ok hrun
  obtain ⟨untilWord, t₃, h₃, hrun⟩ := run_bind_eq_ok hrun
  obtain ⟨condition, t₄, h₄, hrun⟩ := run_bind_eq_ok hrun
  cases hrun
  obtain ⟨_, m₁, hrepeat, rfl⟩ := Yields.expect _ (by decide) h₁
  obtain ⟨_, m₂, B, rfl, rfl, hB⟩ := h.sequence h₂
  obtain ⟨_, m₃, huntil, rfl⟩ := Yields.expect _ (by decide) h₃
  obtain ⟨_, m₄, C, rfl, rfl, hC⟩ := h.comparison h₄
  let D := Derivation.loop ⟨repeatWord, hrepeat⟩ B ⟨untilWord, huntil⟩ C
  have hneed : D.need ≤ depth + 2 := by
    simp only [D, Derivation.need]
    omega
  have hmoved := m₁.trans (m₂.trans (m₃.trans m₄))
  exact ⟨_, hmoved, D, rfl, rfl, hneed⟩

theorem assign_succ (h : Sound config depth) :
    Yields (Parser.assign config (depth + 1)) (Derived config .statement (depth + 2)) := by
  rw [Parser.assign]
  apply Yields.parsing
  intro s tree t hrun
  obtain ⟨target, t₁, h₁, hrun⟩ := run_bind_eq_ok hrun
  obtain ⟨sign, t₂, h₂, hrun⟩ := run_bind_eq_ok hrun
  obtain ⟨value, t₃, h₃, hrun⟩ := run_bind_eq_ok hrun
  cases hrun
  obtain ⟨_, m₁, htarget, rfl⟩ := Yields.expect _ (by decide) h₁
  obtain ⟨_, m₂, hsign, rfl⟩ := Yields.expect _ (by decide) h₂
  obtain ⟨_, m₃, V, rfl, rfl, hV⟩ := h.comparison h₃
  let D := Derivation.assign ⟨target, htarget⟩ ⟨sign, hsign⟩ V
  have hneed : D.need ≤ depth + 2 := by
    simp only [D, Derivation.need]
    omega
  have hmoved := m₁.trans (m₂.trans m₃)
  exact ⟨_, hmoved, D, rfl, rfl, hneed⟩

theorem read_succ : Yields (Parser.read config (depth + 1))
    (Derived config .statement (depth + 2)) := by
  rw [Parser.read]
  apply Yields.parsing
  intro s tree t hrun
  obtain ⟨readWord, t₁, h₁, hrun⟩ := run_bind_eq_ok hrun
  obtain ⟨target, t₂, h₂, hrun⟩ := run_bind_eq_ok hrun
  cases hrun
  obtain ⟨_, m₁, hread, rfl⟩ := Yields.expect _ (by decide) h₁
  obtain ⟨_, m₂, htarget, rfl⟩ := Yields.expect _ (by decide) h₂
  exact ⟨_, m₁.trans m₂, .read ⟨readWord, hread⟩ ⟨target, htarget⟩, rfl, rfl,
    Nat.le_add_left 2 depth⟩

theorem write_succ (h : Sound config depth) :
    Yields (Parser.write config (depth + 1)) (Derived config .statement (depth + 2)) := by
  rw [Parser.write]
  apply Yields.parsing
  intro s tree t hrun
  obtain ⟨writeWord, t₁, h₁, hrun⟩ := run_bind_eq_ok hrun
  obtain ⟨value, t₂, h₂, hrun⟩ := run_bind_eq_ok hrun
  cases hrun
  obtain ⟨_, m₁, hwrite, rfl⟩ := Yields.expect _ (by decide) h₁
  obtain ⟨_, m₂, V, rfl, rfl, hV⟩ := h.comparison h₂
  let D := Derivation.write ⟨writeWord, hwrite⟩ V
  have hneed : D.need ≤ depth + 2 := by
    simp only [D, Derivation.need]
    omega
  exact ⟨_, m₁.trans m₂, D, rfl, rfl, hneed⟩

theorem comparison_succ (h : Sound config depth) :
    Yields (Parser.comparison config (depth + 1)) (Derived config .comparison (depth + 1)) := by
  rw [Parser.comparison]
  apply Yields.parsing
  intro s tree t hrun
  obtain ⟨left, t₁, h₁, hrun⟩ := run_bind_eq_ok hrun
  obtain ⟨next, t₂, h₂, hrun⟩ := run_bind_eq_ok hrun
  obtain ⟨_, m₁, L, rfl, rfl, hL⟩ := h.chain .sum h₁
  obtain ⟨_, m₂, ⟨rfl, rfl⟩ | ⟨sign, rfl, rfl⟩⟩ := Yields.operator? _ h₂
  · cases hrun
    have hneed : (Derivation.single L).need ≤ depth + 1 := by
      simp only [Derivation.need]
      omega
    exact ⟨_, m₁.trans m₂, .single L, (List.append_nil L.tokens).symm, rfl, hneed⟩
  · obtain ⟨right, t₃, h₃, hrun⟩ := run_bind_eq_ok hrun
    cases hrun
    obtain ⟨_, m₃, R, rfl, rfl, hR⟩ := h.chain .sum h₃
    have hneed : (Derivation.compared L sign R).need ≤ depth + 1 := by
      simp only [Derivation.need]
      omega
    exact ⟨_, m₁.trans (m₂.trans m₃), .compared L sign R, rfl, rfl, hneed⟩

theorem chain_succ (h : Sound config depth) (level : Precedence) :
    Yields (Parser.chain config level (depth + 1))
      (Derived config (.chain level) (depth + 1)) := by
  rw [Parser.chain_succ]
  apply Yields.parsing
  intro s tree t hrun
  obtain ⟨first, t₁, h₁, hrun⟩ := run_bind_eq_ok hrun
  obtain ⟨_, m₁, _, ⟨F, rfl, rfl, hF⟩, rfl⟩ := h.operand level h₁
  obtain ⟨_, m₂, _, ⟨R, rfl, rfl, hR⟩, rfl⟩ := h.links level _ hrun
  have hneed : (Derivation.chain level F R).need ≤ depth + 1 := by
    simp only [Derivation.need]
    omega
  exact ⟨_, m₁.trans m₂, .chain level F R, rfl, rfl, hneed⟩

/-- A link of a chain adds its operation on top of everything to the left of it. -/
theorem links_succ (h : Sound config depth) (level : Precedence) (left : Expr) :
    Yields (Parser.links config level (depth + 1) left)
      (fun tokens tree => ∃ f, Derived config (.links level) (depth + 1) tokens f ∧
        tree = f left) := by
  rw [links_eq]
  intro s tree t hrun
  obtain ⟨next, t₁, h₁, hrun⟩ := run_bind_eq_ok hrun
  obtain ⟨_, m₁, ⟨rfl, rfl⟩ | ⟨sign, rfl, rfl⟩⟩ := Yields.operator? _ h₁
  · cases hrun
    exact ⟨_, m₁, _, ⟨.stop level, rfl, rfl, Nat.zero_le _⟩, rfl⟩
  · obtain ⟨t₂, hbody, rfl⟩ := run_inside_eq_ok hrun
    obtain ⟨right, t₃, h₂, hbody⟩ := run_bind_eq_ok hbody
    obtain ⟨_, m₂, _, ⟨O, rfl, rfl, hO⟩, rfl⟩ := h.operand level h₂
    obtain ⟨_, m₃, _, ⟨R, rfl, rfl, hR⟩, rfl⟩ := h.links level _ hbody
    have hneed : (Derivation.link level sign O R).need ≤ depth + 1 := by
      simp only [Derivation.need]
      omega
    have hinside := (State.moved_pushed _ _).trans (m₂.trans (m₃.trans (State.moved_popped _)))
    have htokens : (Derivation.link level sign O R).tokens =
        [sign.token] ++ ([] ++ (O.tokens ++ (R.tokens ++ []))) := by
      simp
    exact ⟨_, m₁.trans hinside, _, ⟨.link level sign O R, htokens, rfl, hneed⟩, rfl⟩

theorem brackets (h : Sound config depth) :
    Yields (Parser.brackets config depth) (Derived config .factor (depth + 1)) := by
  intro s tree t hrun
  obtain ⟨opening, t₁, h₁, hrun⟩ := run_bind_eq_ok hrun
  obtain ⟨inner, t₂, h₂, hrun⟩ := run_bind_eq_ok hrun
  obtain ⟨closing, t₃, h₃, hrun⟩ := run_bind_eq_ok hrun
  cases hrun
  obtain ⟨_, m₁, hopening, rfl⟩ := Yields.expect _ (by decide) h₁
  obtain ⟨_, m₂, I, rfl, rfl, hI⟩ := h.comparison h₂
  obtain ⟨_, m₃, hclosing, rfl⟩ := Yields.expect _ (by decide) h₃
  let D := Derivation.brackets ⟨opening, hopening⟩ I ⟨closing, hclosing⟩
  have hneed : D.need ≤ depth + 1 := by
    simp only [D, Derivation.need]
    omega
  have hmoved := m₁.trans (m₂.trans m₃)
  exact ⟨_, hmoved, D, rfl, rfl, hneed⟩

theorem factor_succ (h : Sound config depth) :
    Yields (Parser.factor config (depth + 1)) (Derived config .factor (depth + 1)) := by
  rw [Parser.factor_succ]
  apply Yields.parsing
  intro s tree t hrun
  obtain ⟨first, _, hkind, hrun⟩ := run_bind_eq_ok hrun
  cases hkind
  unfold factorForm at hrun
  split at hrun
  · exact h.brackets hrun
  · exact yields_number hrun
  · exact yields_name hrun
  · exact Yields.unexpected _ hrun

end Sound

/-- Without a level left every rule is refused. -/
theorem sound_zero (config : ParserConfig) : Sound config 0 where
  sequence := .refuse _ _
  statement := .refuse _ _
  conditional := .refuse _ _
  loop := .refuse _ _
  assign := .refuse _ _
  read := .refuse _ _
  write := .refuse _ _
  comparison := .refuse _ _
  chain level := by
    rw [chain_zero]
    exact .refuse _ _
  links level left := by
    rw [links_eq]
    intro s tree t hrun
    obtain ⟨next, t₁, h₁, hrun⟩ := run_bind_eq_ok hrun
    obtain ⟨_, m₁, ⟨rfl, rfl⟩ | ⟨sign, rfl, rfl⟩⟩ := Yields.operator? _ h₁
    · cases hrun
      exact ⟨_, m₁, _, ⟨.stop level, rfl, rfl, Nat.le_refl _⟩, rfl⟩
    · cases hrun
  factor := .refuse _ _

theorem sound (config : ParserConfig) (depth : Nat) : Sound config depth := by
  -- On the levels, since every rule calls the others with one level less.
  induction depth with
  | zero => exact sound_zero config
  | succ depth h => exact
    { sequence := h.sequence_succ
      statement := h.statement_succ
      conditional := h.conditional_succ
      loop := h.loop_succ
      assign := h.assign_succ
      read := Sound.read_succ
      write := h.write_succ
      comparison := h.comparison_succ
      chain := h.chain_succ
      links := h.links_succ
      factor := h.factor_succ }

end Parser

namespace Program

open TinyLang.Parser

/-- A program that is parsed is that of a derivation of all tokens before the end of the input. -/
theorem derived_of_parse {config : ParserConfig} {tokens : List Token} {program : Program}
    (h : parse config tokens = .ok program) :
    Derived config .program config.maxDepth (Token.beforeEnd tokens) program := by
  obtain ⟨t, hrun⟩ := parse_eq_ok_iff.mp h
  obtain ⟨depth, body, u, hdepth, rfl, hsequence, hend, -⟩ := run_program_eq_ok hrun
  obtain ⟨_, hmoved, B, rfl, rfl, hB⟩ := (sound config depth).sequence hsequence
  have hneed : (Derivation.program B).need ≤ config.maxDepth := by
    simp only [Derivation.need]
    omega
  exact ⟨.program B, (hmoved.beforeEnd_eq hend).symm, rfl, hneed⟩

/-- Parsing is sound: the tokens before the end of the input have a derivation in the grammar, and
the program is its tree. -/
theorem exists_derivation_of_parse {config : ParserConfig} {tokens : List Token}
    {program : Program} (h : parse config tokens = .ok program) :
    ∃ D : Derivation config.trailingSemicolon .program,
      D.tokens = Token.beforeEnd tokens ∧ D.tree = program := by
  obtain ⟨D, htokens, htree, -⟩ := derived_of_parse h
  exact ⟨D, htokens, htree⟩

/-- The derivation that is found for `write (1 + 2) * x`. -/
theorem exists_derivation_of_brackets :
    ∃ D : Derivation false .program,
      D.tokens = [⟨.keyword .writeWord, "write", {}⟩, ⟨.openBracket, "(", {}⟩,
        ⟨.number, "1", {}⟩, ⟨.operator .plus, "+", {}⟩, ⟨.number, "2", {}⟩,
        ⟨.closeBracket, ")", {}⟩, ⟨.operator .times, "*", {}⟩, ⟨.identifier, "x", {}⟩] ∧
      D.tree = ⟨[.write (.binary .times (.binary .plus (.constant 1 {}) (.constant 2 {}) {})
        (.name "x" {}) {}) {}]⟩ := by
  have hparse : (parse {} [⟨.keyword .writeWord, "write", {}⟩, ⟨.openBracket, "(", {}⟩,
      ⟨.number, "1", {}⟩, ⟨.operator .plus, "+", {}⟩, ⟨.number, "2", {}⟩,
      ⟨.closeBracket, ")", {}⟩, ⟨.operator .times, "*", {}⟩, ⟨.identifier, "x", {}⟩,
      ⟨.endOfInput, "", {}⟩]).toOption = some ⟨[.write (.binary .times (.binary .plus
        (.constant 1 {}) (.constant 2 {}) {}) (.name "x" {}) {}) {}]⟩ := by
    decide +kernel
  exact exists_derivation_of_parse (parse_eq_ok_of_toOption hparse)

end Program

end TinyLang

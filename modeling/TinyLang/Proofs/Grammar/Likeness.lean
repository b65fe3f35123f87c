import TinyLang.Proofs.Grammar.Soundness

/-! Two runs of the grammar rules, side by side on two token lists. -/
namespace TinyLang

inductive SyntaxError.Cause.Expects : (Token → SyntaxError.Cause) → Prop
  | token (expected : List Token.Kind) : Expects (.expectedToken expected)
  | statement : Expects .expectedStatement
  | expression : Expects .expectedExpression

namespace Parser

variable {α β γ δ : Type} {s : State} {config : ParserConfig} {depth : Nat}

def EnoughRounds (f : Nat → Parser α) : Prop :=
  ∀ (s : State) (count : Nat), s.ahead.length ≤ count →
    (f s.ahead.length).run s = (f count).run s

theorem run_followers_succ {statement : Parser Stmt}
    (h : ∀ {s a t}, statement.run s = .ok a t → t.ahead.length ≤ s.ahead.length) {rounds : Nat} :
    ∀ {s : State}, s.ahead.length ≤ rounds →
      (followers config statement (rounds + 1)).run s =
        (followers config statement rounds).run s := by
  induction rounds with
  | zero =>
    intro s hlength
    have hahead : s.ahead = [] := List.length_eq_zero_iff.mp (Nat.le_zero.mp hlength)
    rw [followers, followers, run_bind_of_ok (run_accept?_nil _ hahead)]
  | succ rounds ih =>
    intro s hlength
    rw [followers, followers]
    refine run_bind_congr rfl fun next t hnext => ?_
    obtain ⟨_, hmoved, ⟨rfl, rfl⟩ | ⟨semicolon, -, rfl, rfl⟩⟩ := Yields.accept? rfl hnext
    · rfl
    · -- Each round consumes a semicolon, so that one round less is enough after it.
      have hlength' : t.ahead.length ≤ rounds := by
        rw [hmoved.ahead_eq] at hlength
        exact Nat.le_of_succ_le_succ hlength
      refine run_bind_congr rfl fun kind t₁ hkind => ?_
      cases hkind
      split
      · rfl
      · refine run_bind_congr rfl fun first t₂ hfirst => ?_
        have hrounds := ih (Nat.le_trans (h hfirst) hlength')
        exact run_bind_congr hrounds fun _ _ _ => rfl

theorem run_followers_of_le {statement : Parser Stmt}
    (h : ∀ {s a t}, statement.run s = .ok a t → t.ahead.length ≤ s.ahead.length) {rounds : Nat}
    (hrounds : s.ahead.length ≤ rounds) :
    (followers config statement s.ahead.length).run s =
      (followers config statement rounds).run s := by
  induction hrounds with
  | refl => rfl
  | step hle ih => rw [run_followers_succ h hle, ih]

theorem enoughRounds_followers (config : ParserConfig) (depth : Nat) (first : Stmt) :
    EnoughRounds fun count =>
      followers config (statement config depth) count >>= fun rest => pure (first :: rest) := by
  intro s count hcount
  have hstatement {s a t} (hrun : (statement config depth).run s = .ok a t) :
      t.ahead.length ≤ s.ahead.length := by
    obtain ⟨_, hmoved, -⟩ := (sound config depth).statement hrun
    exact hmoved.length_le
  exact run_bind_congr (run_followers_of_le hstatement hcount) fun _ _ _ => rfl

def numeral (token : Token) : Parser Expr :=
  match Decimal.signed64? token.lexeme with
  | some value => pure (.constant value token.span)
  | none => failAt token.span (.numberTooLarge token.lexeme)

theorem number_eq : number = expect .number >>= numeral := rfl

structure Likeness where
  token : Token → Token → Prop
  expr : Expr → Expr → Prop
  stmt : Stmt → Stmt → Prop
  body : List Stmt → List Stmt → Prop
  kind_eq {t t' : Token} (h : token t t') : t.kind = t'.kind
  name {t t' : Token} (h : token t t') (hkind : t.kind = .identifier) :
    expr (.name t.lexeme t.span) (.name t'.lexeme t'.span)
  binary {t t' : Token} {left left' right right' : Expr} (op : Operator) (h : token t t')
    (hleft : expr left left') (hright : expr right right') :
    expr (.binary op left right t.span) (.binary op left' right' t'.span)
  conditional {t t' : Token} {condition condition' : Expr} {branch branch' : List Stmt}
    (h : token t t') (hcondition : expr condition condition') (hbranch : body branch branch') :
    stmt (.conditional condition branch t.span) (.conditional condition' branch' t'.span)
  loop {t t' : Token} {statements statements' : List Stmt} {condition condition' : Expr}
    (h : token t t') (hbody : body statements statements')
    (hcondition : expr condition condition') :
    stmt (.loop statements condition t.span) (.loop statements' condition' t'.span)
  assign {t t' : Token} {value value' : Expr} (h : token t t') (hkind : t.kind = .identifier)
    (hvalue : expr value value') :
    stmt (.assign t.lexeme value t.span) (.assign t'.lexeme value' t'.span)
  read {t t' target target' : Token} (h : token t t') (htarget : token target target')
    (hkind : target.kind = .identifier) :
    stmt (.read target.lexeme t.span) (.read target'.lexeme t'.span)
  write {t t' : Token} {value value' : Expr} (h : token t t') (hvalue : expr value value') :
    stmt (.write value t.span) (.write value' t'.span)
  nil : body [] []
  cons {first first' : Stmt} {rest rest' : List Stmt} (hfirst : stmt first first')
    (hrest : body rest rest') : body (first :: rest) (first' :: rest')

namespace Likeness

inductive Sign (L : Likeness) : Operator × Span → Operator × Span → Prop
  | mk {t t' : Token} (op : Operator) (h : L.token t t') : Sign L (op, t.span) (op, t'.span)

/-- A relation between parsers whose values are related, which the steps have with themselves and
which is kept when steps are put together. -/
structure Compositional (L : Likeness)
    (J : {α β : Type} → (α → β → Prop) → Parser α → Parser β → Prop) : Prop where
  pure {α β : Type} {V : α → β → Prop} {a : α} {b : β} (h : V a b) :
    J V (Pure.pure a) (Pure.pure b)
  bind {α β γ δ : Type} {V : α → β → Prop} {W : γ → δ → Prop} {p : Parser α} {q : Parser β}
    {f : α → Parser γ} {g : β → Parser δ} (hp : J V p q) (hf : ∀ a b, V a b → J W (f a) (g b)) :
    J W (p >>= f) (q >>= g)
  /-- The two runs may have different numbers of rounds, if both have enough. -/
  rounds {α β : Type} {V : α → β → Prop} {f : Nat → Parser α} {g : Nat → Parser β}
    (hf : EnoughRounds f) (hg : EnoughRounds g) (h : ∀ count, J V (f count) (g count)) :
    J V (get >>= fun s => f s.ahead.length) (get >>= fun s => g s.ahead.length)
  kind : J (· = ·) Parser.kind Parser.kind
  accept? (wanted : Token.Kind → Bool) :
    J (Option.Rel fun token token' => wanted token.kind = true ∧ L.token token token')
      (Parser.accept? wanted) (Parser.accept? wanted)
  numeral {t t' : Token} (h : L.token t t') (hkind : t.kind = .number) :
    J L.expr (Parser.numeral t) (Parser.numeral t')
  unexpected {α β : Type} {V : α → β → Prop} {cause : Token → SyntaxError.Cause}
    (h : SyntaxError.Cause.Expects cause) : J V (Parser.unexpected cause) (Parser.unexpected cause)
  tooDeep {α β : Type} {V : α → β → Prop} (limit : Nat) :
    J V (fail (.nestingTooDeep limit)) (fail (.nestingTooDeep limit))
  enter (rule : Rule) : J (fun _ _ => True) (Parser.enter rule) (Parser.enter rule)
  leave : J (fun _ _ => True) Parser.leave Parser.leave
  start (rule : Rule) : J (fun _ _ => True) (Parser.start rule) (Parser.start rule)
  finished (rule : Rule) :
    J (fun _ _ => True) (report (.finished rule)) (report (.finished rule))
  parsed {body body' : List Stmt} (h : L.body body body') :
    J (fun _ _ => True) (report (.parsed body.length)) (report (.parsed body'.length))

structure Pervades (L : Likeness)
    (J : {α β : Type} → (α → β → Prop) → Parser α → Parser β → Prop) (config : ParserConfig)
    (depth : Nat) : Prop where
  sequence : J L.body (sequence config depth) (sequence config depth)
  statement : J L.stmt (statement config depth) (statement config depth)
  conditional : J L.stmt (Parser.conditional config depth) (Parser.conditional config depth)
  loop : J L.stmt (Parser.loop config depth) (Parser.loop config depth)
  assign : J L.stmt (Parser.assign config depth) (Parser.assign config depth)
  read : J L.stmt (Parser.read config depth) (Parser.read config depth)
  write : J L.stmt (Parser.write config depth) (Parser.write config depth)
  comparison : J L.expr (comparison config depth) (comparison config depth)
  chain (level : Precedence) : J L.expr (chain config level depth) (chain config level depth)
  links (level : Precedence) {left left' : Expr} (h : L.expr left left') :
    J L.expr (links config level depth left) (links config level depth left')
  factor : J L.expr (factor config depth) (factor config depth)

namespace Compositional

variable {L : Likeness} {J : {α β : Type} → (α → β → Prop) → Parser α → Parser β → Prop}

theorem operand (hd : L.Pervades J config depth) (level : Precedence) :
    J L.expr (operand config level depth) (operand config level depth) := by
  cases level with
  | sum => exact hd.chain .product
  | product => exact hd.factor

variable (h : L.Compositional J) {V : α → β → Prop} {W : γ → δ → Prop}
include h

theorem branch {p : Parser (Option α)} {q : Parser (Option β)} {f : Option α → Parser γ}
    {g : Option β → Parser δ} (hp : J (Option.Rel V) p q) (hnone : J W (f none) (g none))
    (hsome : ∀ a b, V a b → J W (f (some a)) (g (some b))) : J W (p >>= f) (q >>= g) := by
  refine h.bind hp fun a b hab => ?_
  cases hab with
  | none => exact hnone
  | some hab => exact hsome _ _ hab

theorem inside (rule : Rule) {p : Parser α} {q : Parser β} (hp : J V p q) :
    J V (Parser.inside rule p) (Parser.inside rule q) :=
  h.bind (h.enter rule) fun _ _ _ => h.bind hp fun _ _ hvalue =>
    h.bind h.leave fun _ _ _ => h.pure hvalue

theorem parsing (rule : Rule) {p : Parser α} {q : Parser β} (hp : J V p q) :
    J V (Parser.parsing rule p) (Parser.parsing rule q) :=
  h.bind (h.start rule) fun _ _ _ => h.bind (h.inside rule hp) fun _ _ hvalue =>
    h.bind (h.finished rule) fun _ _ _ => h.pure hvalue

theorem refuse (limit : Nat) (rule : Rule) :
    J V (Parser.refuse limit rule) (Parser.refuse limit rule) :=
  h.bind (h.start rule) fun _ _ _ => h.tooDeep limit

theorem expect (wanted : Token.Kind) :
    J (fun token token' => token.kind = wanted ∧ L.token token token') (Parser.expect wanted)
      (Parser.expect wanted) := by
  refine h.branch (h.accept? _) (h.unexpected (.token _)) ?_
  rintro token token' ⟨hkind, htoken⟩
  exact h.pure ⟨of_decide_eq_true hkind, htoken⟩

theorem operator? (wanted : List Operator) :
    J (Option.Rel L.Sign) (Parser.operator? wanted) (Parser.operator? wanted) := by
  refine h.branch (h.accept? _) (h.pure .none) ?_
  rintro token token' ⟨-, htoken⟩
  simp only [← L.kind_eq htoken]
  cases token.kind.operator? with
  | none => exact h.pure .none
  | some op => exact h.pure (.some (.mk op htoken))

theorem number : J L.expr Parser.number Parser.number := by
  rw [number_eq]
  refine h.bind (h.expect .number) ?_
  rintro token token' ⟨hkind, htoken⟩
  exact h.numeral htoken hkind

theorem name : J L.expr Parser.name Parser.name := by
  refine h.bind (h.expect .identifier) ?_
  rintro token token' ⟨hkind, htoken⟩
  exact h.pure (L.name htoken hkind)

theorem followers {statement : Parser Stmt} (hs : J L.stmt statement statement) (rounds : Nat) :
    J L.body (followers config statement rounds) (followers config statement rounds) := by
  induction rounds with
  | zero => exact h.pure L.nil
  | succ rounds ih =>
    rw [Parser.followers]
    refine h.branch (h.accept? _) (h.pure L.nil) fun _ _ _ => h.bind h.kind ?_
    rintro kind _ rfl
    split
    · exact h.pure L.nil
    · exact h.bind hs fun _ _ hnext => h.bind ih fun _ _ hrest => h.pure (L.cons hnext hrest)

theorem ending {body body' : List Stmt} (hbody : L.body body body') :
    J (fun program program' => L.body program.body program'.body) (ending body)
      (ending body') := by
  refine h.bind h.kind ?_
  rintro kind _ rfl
  split
  · exact h.pure hbody
  · exact h.bind (V := fun _ _ => False) (h.unexpected (.token _)) fun _ _ hnever => hnever.elim

theorem form (hd : L.Pervades J config depth) (first : Token.Kind) :
    J L.stmt (form config first depth) (form config first depth) := by
  unfold Parser.form
  split
  · exact hd.conditional
  · exact hd.loop
  · exact hd.assign
  · exact hd.read
  · exact hd.write
  · exact h.unexpected .statement

theorem brackets (hd : L.Pervades J config depth) :
    J L.expr (brackets config depth) (brackets config depth) :=
  h.bind (h.expect _) fun _ _ _ => h.bind hd.comparison fun _ _ hinner =>
    h.bind (h.expect _) fun _ _ _ => h.pure hinner

theorem factorForm (hd : L.Pervades J config depth) (first : Token.Kind) :
    J L.expr (factorForm config first depth) (factorForm config first depth) := by
  unfold Parser.factorForm
  split
  · exact h.brackets hd
  · exact h.number
  · exact h.name
  · exact h.unexpected .expression

theorem links {level : Precedence} {left left' : Expr} (hleft : L.expr left left')
    (hlink : ∀ op {t t' : Token}, L.token t t' → J L.expr
      (link config level depth left (some (op, t.span)))
      (link config level depth left' (some (op, t'.span)))) :
    J L.expr (links config level depth left) (links config level depth left') := by
  rw [links_eq, links_eq]
  refine h.branch (h.operator? _) ?_ ?_
  · rw [link_none, link_none]
    exact h.pure hleft
  · rintro _ _ ⟨op, htoken⟩
    exact hlink op htoken

theorem pervades_zero (config : ParserConfig) : L.Pervades J config 0 where
  sequence := h.refuse _ _
  statement := h.refuse _ _
  conditional := h.refuse _ _
  loop := h.refuse _ _
  assign := h.refuse _ _
  read := h.refuse _ _
  write := h.refuse _ _
  comparison := h.refuse _ _
  chain level := by
    rw [chain_zero]
    exact h.refuse _ _
  links _ _ _ hleft := h.links hleft fun _ _ _ _ => h.tooDeep _
  factor := h.refuse _ _

theorem pervades_succ (hd : L.Pervades J config depth) : L.Pervades J config (depth + 1) where
  sequence := by
    rw [Parser.sequence]
    refine h.parsing _ (h.bind hd.statement fun first first' hfirst => ?_)
    have hrest (count : Nat) : J L.body
        (Parser.followers config (Parser.statement config depth) count >>= fun rest =>
          Pure.pure (first :: rest))
        (Parser.followers config (Parser.statement config depth) count >>= fun rest =>
          Pure.pure (first' :: rest)) :=
      h.bind (h.followers hd.statement count) fun _ _ hrest => h.pure (L.cons hfirst hrest)
    exact h.rounds (enoughRounds_followers config depth first)
      (enoughRounds_followers config depth first') hrest
  statement := by
    rw [statement_succ]
    refine h.parsing _ (h.bind h.kind ?_)
    rintro first _ rfl
    exact h.form hd first
  conditional := by
    rw [Parser.conditional]
    refine h.parsing _ (h.bind (h.expect _) ?_)
    rintro keyword keyword' ⟨-, hkeyword⟩
    refine h.bind hd.comparison fun _ _ hcondition => h.bind (h.expect _) fun _ _ _ => ?_
    refine h.bind hd.sequence fun _ _ hbranch => h.bind (h.expect _) fun _ _ _ => ?_
    exact h.pure (L.conditional hkeyword hcondition hbranch)
  loop := by
    rw [Parser.loop]
    refine h.parsing _ (h.bind (h.expect _) ?_)
    rintro keyword keyword' ⟨-, hkeyword⟩
    refine h.bind hd.sequence fun _ _ hbody => h.bind (h.expect _) fun _ _ _ => ?_
    exact h.bind hd.comparison fun _ _ hcondition => h.pure (L.loop hkeyword hbody hcondition)
  assign := by
    rw [Parser.assign]
    refine h.parsing _ (h.bind (h.expect _) ?_)
    rintro target target' ⟨hkind, htarget⟩
    refine h.bind (h.expect _) fun _ _ _ => ?_
    exact h.bind hd.comparison fun _ _ hvalue => h.pure (L.assign htarget hkind hvalue)
  read := by
    rw [Parser.read]
    refine h.parsing _ (h.bind (h.expect _) ?_)
    rintro keyword keyword' ⟨-, hkeyword⟩
    refine h.bind (h.expect _) ?_
    rintro target target' ⟨hkind, htarget⟩
    exact h.pure (L.read hkeyword htarget hkind)
  write := by
    rw [Parser.write]
    refine h.parsing _ (h.bind (h.expect _) ?_)
    rintro keyword keyword' ⟨-, hkeyword⟩
    exact h.bind hd.comparison fun _ _ hvalue => h.pure (L.write hkeyword hvalue)
  comparison := by
    rw [Parser.comparison]
    refine h.parsing _ (h.bind (hd.chain .sum) fun _ _ hleft => ?_)
    refine h.branch (h.operator? _) (h.pure hleft) ?_
    rintro _ _ ⟨op, hsign⟩
    exact h.bind (hd.chain .sum) fun _ _ hright => h.pure (L.binary op hsign hleft hright)
  chain level := by
    rw [chain_succ]
    exact h.parsing _ (h.bind (operand hd level) fun _ _ hfirst => hd.links level hfirst)
  links level _ _ hleft := h.links hleft fun op _ _ hsign =>
    h.inside _ (h.bind (operand hd level) fun _ _ hright =>
      hd.links level (L.binary op hsign hleft hright))
  factor := by
    rw [factor_succ]
    refine h.parsing _ (h.bind h.kind ?_)
    rintro first _ rfl
    exact h.factorForm hd first

/-- On the levels, one of which every rule takes. -/
theorem pervades (config : ParserConfig) (depth : Nat) : L.Pervades J config depth := by
  induction depth with
  | zero => exact h.pervades_zero config
  | succ depth hd => exact h.pervades_succ hd

theorem program (config : ParserConfig) :
    J (fun program program' => L.body program.body program'.body) (program config)
      (program config) := by
  cases hdepth : config.maxDepth with
  | zero =>
    rw [program_zero config hdepth]
    exact h.refuse _ _
  | succ depth =>
    rw [program_succ config hdepth]
    have hsequence := (h.pervades config depth).sequence
    refine h.bind (h.parsing _ (h.bind hsequence fun _ _ hbody => h.ending hbody)) ?_
    exact fun _ _ hbody => h.bind (h.parsed hbody) fun _ _ _ => h.pure hbody

end Compositional

end Likeness

end Parser

end TinyLang

import TinyLang.Proofs.Grammar.Frame

namespace TinyLang

/-- The symbols of which nothing may be derived: what comes after the first part of a sequence or of
a chain. -/
def Symbol.nullable : Symbol → Bool
  | followers | links _ => true
  | _ => false

theorem Derivation.tokens_ne_nil {trailing : Bool} {symbol : Symbol}
    (D : Derivation trailing symbol) (h : symbol.nullable = false) : D.tokens ≠ [] := by
  induction D with
  | program _ ih => exact ih rfl
  | sequence _ _ ih _ => exact List.append_ne_nil_of_left_ne_nil (ih rfl) _
  | single _ ih => exact ih rfl
  | compared _ _ _ ih _ => exact List.append_ne_nil_of_left_ne_nil (ih rfl) _
  | chain level _ _ ih _ =>
    have hoperand : level.operand.nullable = false := by cases level <;> rfl
    exact List.append_ne_nil_of_left_ne_nil (ih hoperand) _
  | done | doneAfter | next | stop | link => cases h
  | _ => exact List.cons_ne_nil _ _

namespace Parser

namespace State

def tokens (s : State) : List Token := s.passed.reverse ++ s.ahead

def cursor (s : State) : Nat := s.passed.length

def lastSpan? (s : State) : Option Span := s.passed.head?.map Token.span

theorem endSpan_eq (s : State) :
    s.endSpan = s.lastSpan?.elim (s.ahead.head?.elim {} Token.span) Span.after := by
  rw [endSpan, lastSpan?]
  cases s.passed <;> cases s.ahead <;> rfl

/-- The parse has gone from `s` to `t` over some tokens, none of them an end of the input, and is
inside of the same rules. -/
structure Advanced (s t : State) : Prop where
  stack_eq : t.stack = s.stack
  tokens_eq : t.tokens = s.tokens
  cursor_lt : s.cursor < t.cursor
  isEnd_eq : ∀ index token, s.cursor ≤ index → index < t.cursor →
    s.tokens[index]? = some token → token.isEnd = false
  lastSpan?_eq : ∃ last, t.tokens[t.cursor - 1]? = some last ∧ t.lastSpan? = some last.span

variable {s t : State} {front : List Token}

theorem Moved.tokens_eq (h : s.Moved front t) : t.tokens = s.tokens := by
  rw [tokens, tokens, h.passed_eq, h.ahead_eq, List.reverse_append, List.reverse_reverse,
    List.append_assoc]

theorem Moved.cursor_eq (h : s.Moved front t) : t.cursor = s.cursor + front.length := by
  rw [cursor, cursor, h.passed_eq, List.length_append, List.length_reverse, Nat.add_comm]

theorem Moved.getElem?_tokens (h : s.Moved front t) {index : Nat} (hindex : index < t.cursor) :
    s.tokens[index]? = (s.passed.reverse ++ front)[index]? := by
  have hlength : (s.passed.reverse ++ front).length = t.cursor := by
    rw [List.length_append, List.length_reverse, h.cursor_eq, cursor]
  rw [tokens, h.ahead_eq, ← List.append_assoc, List.getElem?_append_left (hlength ▸ hindex)]

/-- The token before the cursor is the one consumed last. -/
theorem getElem?_cursor_pred (s : State) (h : 0 < s.cursor) :
    s.tokens[s.cursor - 1]? = s.passed.head? := by
  have hlength : s.cursor = s.passed.reverse.length := List.length_reverse.symm
  rw [tokens, List.getElem?_append_left (by omega), hlength, ← List.getLast?_eq_getElem?,
    List.getLast?_reverse]

theorem Moved.advanced (h : s.Moved front t) (hfront : front ≠ []) (hstack : t.stack = s.stack) :
    s.Advanced t := by
  have hlength := List.length_pos_iff.mpr hfront
  have hcursor := h.cursor_eq
  refine ⟨hstack, h.tokens_eq, by omega, fun index token hindex hbefore htoken => ?_, ?_⟩
  · have hpassed : s.passed.reverse.length ≤ index := by rwa [List.length_reverse]
    rw [h.getElem?_tokens hbefore, List.getElem?_append_right hpassed] at htoken
    exact h.isEnd_eq token (List.mem_of_getElem? htoken)
  · have hpos : 0 < t.cursor := by omega
    obtain ⟨last, older, hpassed⟩ := List.exists_cons_of_length_pos hpos
    refine ⟨last, ?_, ?_⟩
    · rw [t.getElem?_cursor_pred hpos, hpassed, List.head?_cons]
    · rw [lastSpan?, hpassed, List.head?_cons, Option.map_some]

end State

variable {α : Type} {p : Parser α} {s t : State} {e : SyntaxError}

/-- The parser is made of the steps of a parse. Only what is inside of a rule changes the stack, and
whenever it is over, the entry of its rule is on top of the stack that there was before. So it is
this entry that `leave` takes off, and there always is one. -/
inductive Settled : {α : Type} → Parser α → Prop
  | pure {α : Type} (a : α) : Settled (Pure.pure a)
  | bind {α β : Type} {p : Parser α} {f : α → Parser β} (hp : Settled p)
      (hf : ∀ a, Settled (f a)) : Settled (p >>= f)
  | get : Settled (get : Parser State)
  | report (event : ParseEvent) : Settled (Parser.report event)
  | failAt {α : Type} (location : Span) (cause : SyntaxError.Cause) :
      Settled (Parser.failAt location cause : Parser α)
  | accept? (wanted : Token.Kind → Bool) : Settled (Parser.accept? wanted)
  | inside {α : Type} (rule : Rule) {p : Parser α} (hp : Settled p)
      (hleave : ∀ (s : State) (a : α) (t : State), p.run (s.pushed rule) = .ok a t →
        t.stack = rule :: s.stack) :
      Settled (inside rule p)

/-- A run that succeeds leaves the stack as it was. -/
theorem Settled.stack_eq {a : α} (h : Settled p) (hrun : p.run s = .ok a t) :
    t.stack = s.stack := by
  -- On how the parser is made. No step by itself changes the stack.
  induction h generalizing s t with
  | bind _ _ hp hf =>
    obtain ⟨b, u, h₁, h₂⟩ := run_bind_eq_ok hrun
    exact (hf b h₂).trans (hp h₁)
  | accept? wanted => exact ((compositional_framed.accept? wanted).ok hrun).2
  | inside rule _ hleave =>
    obtain ⟨u, hbody, rfl⟩ := run_inside_eq_ok hrun
    rw [State.popped, hleave _ _ _ hbody]
    rfl
  | failAt => cases hrun
  | pure | get | report =>
    cases hrun
    rfl

theorem compositional_settled : Compositional Settled where
  pure := .pure
  bind := .bind
  look view := fun _ hf => .bind .get fun s => hf (view s)
  rounds _ hf := .bind .get fun s => hf s.ahead.length
  report := .report
  failAt := .failAt
  accept? := .accept?
  inside rule := fun hp => .inside rule hp fun _ _ _ hrun => hp.stack_eq hrun

/-- Leaves a number of operations together. What it does where other entries are on top of the stack
is left open. -/
def Releases (release : Nat → Parser Unit) : Prop :=
  ∀ (count : Nat) (s : State) (outer : List Rule),
    s.stack = List.replicate count .operation ++ outer →
      (release count).run s = .ok () { s with stack := outer }

variable (config : ParserConfig) (level : Precedence) (release : Nat → Parser Unit)

/-- Parses the rest of a chain that is inside of `count` operations. All of them are left together
when the chain ends. -/
def heldLinks : Nat → Nat → Expr → Parser Expr
  | 0, count, left => do
    match ← operator? level.operators with
    | none =>
      release count
      return left
    | some _ => fail (.nestingTooDeep config.maxDepth)
  | depth + 1, count, left => do
    match ← operator? level.operators with
    | none =>
      release count
      return left
    | some (op, span) =>
      enter .operation
      let right ← operand config level depth
      heldLinks depth (count + 1) (.binary op left right span)

def withStack (stack : List Rule) :
    EStateM.Result SyntaxError State α → EStateM.Result SyntaxError State α
  | .ok a t => .ok a { t with stack }
  | .error e t => .error e t

variable {config level release} {depth : Nat}

theorem run_bind_withStack {β : Type} {p : Parser α} (hp : Framed p) {f g : α → Parser β}
    {stack : List Rule}
    (h : ∀ a t, t.stack = s.stack → (f a).run t = withStack stack ((g a).run t)) :
    (p >>= f).run s = withStack stack ((p >>= g).run s) := by
  cases hrun : p.run s with
  | ok a t =>
    rw [run_bind_of_ok hrun, run_bind_of_ok hrun]
    exact h a t (hp.ok hrun).2
  | error e t =>
    rw [run_bind_of_error hrun, run_bind_of_error hrun]
    rfl

theorem withStack_inside (stack : List Rule) (rule : Rule) (p : Parser α) (s : State) :
    withStack stack ((inside rule p).run s) = withStack stack (p.run (s.pushed rule)) := by
  cases hrun : p.run (s.pushed rule) with
  | ok a t =>
    rw [run_inside_of_ok hrun]
    rfl
  | error e t => rw [run_inside_of_error hrun]

theorem run_release_bind (h : Releases release) {count : Nat} {outer : List Rule}
    (hstack : s.stack = List.replicate count .operation ++ outer) (a : α) :
    (release count >>= fun _ => pure a).run s = withStack outer (.ok a s) := by
  rw [run_bind_of_ok (h count s outer hstack)]
  rfl

theorem run_heldLinks (h : Releases release) {count : Nat} {left : Expr} {outer : List Rule}
    (hstack : s.stack = List.replicate count .operation ++ outer) :
    (heldLinks config level release depth count left).run s =
      withStack outer ((links config level depth left).run s) := by
  have hoperator := compositional_framed.operator? level.operators
  -- On the levels. Within the next operation the stack begins with one operation more.
  induction depth generalizing count left s with
  | zero =>
    rw [heldLinks, links_eq]
    refine run_bind_withStack hoperator fun next t ht => ?_
    cases next with
    | none => exact run_release_bind h (ht.trans hstack) left
    | some sign => rfl
  | succ depth ih =>
    rw [heldLinks, links_eq]
    refine run_bind_withStack hoperator fun next t ht => ?_
    cases next with
    | none => exact run_release_bind h (ht.trans hstack) left
    | some sign =>
      have hinner : (t.pushed .operation).stack =
          List.replicate (count + 1) .operation ++ outer := by
        rw [State.pushed, ht, hstack, List.replicate_succ, List.cons_append]
      have hoperand := Compositional.operand (compositional_framed.pervades config depth) level
      change (operand config level depth >>= _).run (t.pushed .operation) =
        withStack outer ((inside .operation _).run t)
      rw [withStack_inside]
      exact run_bind_withStack hoperand fun right u hu => ih (hu.trans hinner)

theorem links_eq_heldLinks (h : Releases release) (left : Expr) :
    links config level depth left = heldLinks config level release depth 0 left := by
  funext s
  have hframed := (compositional_framed.pervades config depth).links level left
  have hstack : s.stack = List.replicate 0 .operation ++ s.stack := rfl
  change (links config level depth left).run s = (heldLinks config level release depth 0 left).run s
  rw [run_heldLinks h hstack]
  cases hrun : (links config level depth left).run s with
  | ok tree t => rw [withStack, ← (hframed.ok hrun).2]
  | error e t => rfl

structure Deepens (p : Parser α) : Prop where
  framed : Framed p
  error {s t : State} {e : SyntaxError} (h : p.run s = .error e t) : s.stack.reverse <+: e.stack

theorem Deepens.bind {β : Type} {f : α → Parser β} (hp : Deepens p) (hf : ∀ a, Deepens (f a)) :
    Deepens (p >>= f) where
  framed := hp.framed.bind fun a => (hf a).framed
  error h := by
    rcases run_bind_eq_error h with h₁ | ⟨a, t, h₁, h₂⟩
    · exact hp.error h₁
    · rw [← (hp.framed.ok h₁).2]
      exact (hf a).error h₂

theorem compositional_deepens : Compositional Deepens where
  pure a := ⟨compositional_framed.pure a, nofun⟩
  bind := .bind
  look view := fun _ hf => .bind ⟨framed_get, nofun⟩ fun s => hf (view s)
  rounds _ hf := .bind ⟨framed_get, nofun⟩ fun s => hf s.ahead.length
  report event := ⟨compositional_framed.report event, nofun⟩
  failAt location cause := by
    refine ⟨compositional_framed.failAt location cause, fun {s t e} h => ?_⟩
    cases h
    exact List.prefix_rfl
  accept? wanted :=
    ⟨compositional_framed.accept? wanted, fun h => (run_accept?_ne_error wanted _ _ _ h).elim⟩
  inside rule := by
    refine fun {p} hp => ⟨compositional_framed.inside rule hp.framed, fun {s t e} h => ?_⟩
    have hprefix := hp.error (run_inside_eq_error h)
    rw [State.pushed, List.reverse_cons] at hprefix
    exact (List.prefix_append _ _).trans hprefix

/-- The parsers of the rules, with `depth` levels left to nest. Operations have none of their own,
for they belong to the chains. -/
inductive Production (config : ParserConfig) (depth : Nat) : {α : Type} → Rule → Parser α → Prop
  | program (hdepth : config.maxDepth = depth) : Production config depth .program (program config)
  | sequence : Production config depth .sequence (sequence config depth)
  | statement : Production config depth .statement (statement config depth)
  | conditional : Production config depth .conditional (conditional config depth)
  | loop : Production config depth .loop (loop config depth)
  | assign : Production config depth .assign (assign config depth)
  | read : Production config depth .read (read config depth)
  | write : Production config depth .write (write config depth)
  | comparison : Production config depth .comparison (comparison config depth)
  | sum : Production config depth .sum (sum config depth)
  | product : Production config depth .product (product config depth)
  | factor : Production config depth .factor (factor config depth)

variable {rule : Rule}

/-- What the steps have and keep holds of the parsers of all rules. -/
theorem Compositional.production {P : {α : Type} → Parser α → Prop} (h : Compositional P)
    (hp : Production config depth rule p) : Starts P rule p := by
  have hd := h.pervades config depth
  cases hp with
  | program => exact h.program config
  | sequence => exact hd.sequence
  | statement => exact hd.statement
  | conditional => exact hd.conditional
  | loop => exact hd.loop
  | assign => exact hd.assign
  | read => exact hd.read
  | write => exact hd.write
  | comparison => exact hd.comparison
  | sum => exact hd.chain .sum
  | product => exact hd.chain .product
  | factor => exact hd.factor

theorem Derived.tokens_ne_nil {symbol : Symbol} (hsymbol : symbol.nullable = false) {limit : Nat}
    {tokens : List Token} {tree : symbol.Tree} (h : Derived config symbol limit tokens tree) :
    tokens ≠ [] := by
  obtain ⟨D, rfl, -, -⟩ := h
  exact D.tokens_ne_nil hsymbol

theorem Yields.exists_moved {R : List Token → α → Prop} (h : Yields p R)
    (hR : ∀ {tokens a}, R tokens a → tokens ≠ []) {a : α} (hrun : p.run s = .ok a t) :
    ∃ front, front ≠ [] ∧ s.Moved front t := by
  obtain ⟨front, hmoved, hr⟩ := h hrun
  exact ⟨front, hR hr, hmoved⟩

/-- A rule that succeeds has consumed something. -/
theorem Production.exists_moved {a : α} (hp : Production config depth rule p)
    (hrun : p.run s = .ok a t) : ∃ front, front ≠ [] ∧ s.Moved front t := by
  have hsound := sound config depth
  cases hp with
  | program =>
    obtain ⟨depth, body, u, -, -, hsequence, -, rfl⟩ := run_program_eq_ok hrun
    obtain ⟨front, hfront, hmoved⟩ :=
      (sound config depth).sequence.exists_moved (Derived.tokens_ne_nil rfl) hsequence
    exact ⟨front, hfront, hmoved.ahead_eq, hmoved.passed_eq, hmoved.isEnd_eq⟩
  | sequence => exact hsound.sequence.exists_moved (Derived.tokens_ne_nil rfl) hrun
  | statement => exact hsound.statement.exists_moved (Derived.tokens_ne_nil rfl) hrun
  | conditional => exact hsound.conditional.exists_moved (Derived.tokens_ne_nil rfl) hrun
  | loop => exact hsound.loop.exists_moved (Derived.tokens_ne_nil rfl) hrun
  | assign => exact hsound.assign.exists_moved (Derived.tokens_ne_nil rfl) hrun
  | read => exact hsound.read.exists_moved (Derived.tokens_ne_nil rfl) hrun
  | write => exact hsound.write.exists_moved (Derived.tokens_ne_nil rfl) hrun
  | comparison => exact hsound.comparison.exists_moved (Derived.tokens_ne_nil rfl) hrun
  | sum => exact (hsound.chain .sum).exists_moved (Derived.tokens_ne_nil rfl) hrun
  | product => exact (hsound.chain .product).exists_moved (Derived.tokens_ne_nil rfl) hrun
  | factor => exact hsound.factor.exists_moved (Derived.tokens_ne_nil rfl) hrun

/-- The rules keep their frame, in whatever state they are tried. The configuration is given to them
and not part of the state. If a rule succeeds, the stack is what it was, and the parse has advanced.
If it fails, the error tells all rules that the parse was inside of before, and the parse has not
gone back. No entry of the stack is taken off but that of the rule that is left. The operations of a
chain may as well be left together: no entry of another rule is among those that are taken off. -/
theorem frame_of_production (hp : Production config depth rule p) :
    (∀ s a t, p.run s = .ok a t → s.Advanced t) ∧
    (∀ s e t, p.run s = .error e t →
      s.stack.reverse <+: e.stack ∧ t.tokens = s.tokens ∧ s.cursor ≤ t.cursor) ∧
    Settled p ∧
    ∀ release, Releases release → ∀ level left,
      links config level depth left = heldLinks config level release depth 0 left := by
  obtain ⟨hframed, hdeepens⟩ := (compositional_deepens.production hp).holds
  refine ⟨fun s a t hrun => ?_, fun s e t hrun => ⟨hdeepens hrun, ?_⟩, ?_, ?_⟩
  · obtain ⟨front, hfront, hmoved⟩ := hp.exists_moved hrun
    exact hmoved.advanced hfront (hframed.ok hrun).2
  · obtain ⟨front, hmoved⟩ := (hframed.error hrun).moved
    exact ⟨hmoved.tokens_eq, hmoved.cursor_eq ▸ Nat.le_add_right _ _⟩
  · exact (compositional_settled.production hp).holds
  · exact fun release hrelease level left => links_eq_heldLinks hrelease left

/-- After `write` there is room for `x` in four levels, but not for `x + y`: its operation takes up
one of them, which is missing for the last factor. -/
theorem frame_of_production_of_sum :
    let x : Token := ⟨.identifier, "x", {}⟩
    let outer : State :=
      { passed := [⟨.keyword .writeWord, "write", {}⟩]
        ahead := []
        stack := [.write, .statement, .sequence, .program] }
    let one : State := { outer with ahead := [x] }
    let two : State := { outer with ahead := [x, ⟨.operator .plus, "+", {}⟩, x] }
    (∃ a t, (comparison ⟨8, false⟩ 4).run one = .ok a t ∧ one.Advanced t) ∧
    (∃ e t, (comparison ⟨8, false⟩ 4).run two = .error e t ∧
      two.stack.reverse <+: e.stack ∧ t.tokens = two.tokens ∧ two.cursor ≤ t.cursor) ∧
    Settled (comparison ⟨8, false⟩ 4) ∧
    ∀ level left, links ⟨8, false⟩ level 4 left =
      heldLinks ⟨8, false⟩ level
        (fun count => modify fun s => { s with stack := s.stack.drop count }) 4 0 left := by
  have hproduction : Production ⟨8, false⟩ 4 .comparison _ := .comparison
  obtain ⟨hok, herror, hsettled, hheld⟩ := frame_of_production hproduction
  refine ⟨⟨_, _, rfl, hok _ _ _ rfl⟩, ⟨_, _, rfl, herror _ _ _ rfl⟩, hsettled, hheld _ ?_⟩
  intro count s outer hstack
  change EStateM.Result.ok () { s with stack := s.stack.drop count } = _
  rw [hstack, List.drop_left' List.length_replicate]

end Parser

end TinyLang

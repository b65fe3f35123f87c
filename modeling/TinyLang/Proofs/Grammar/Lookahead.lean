import TinyLang.Proofs.Grammar.Likeness

/-!
A parse looks at the kinds of tokens only, and no further than to the token ahead. The texts of
numbers are the exception, since a number may be too large.
-/
namespace TinyLang

def Token.Fits (token : Token) : Prop :=
  token.kind = .number → (Decimal.signed64? token.lexeme).isSome

def SyntaxError.Cause.BlamesKind (cause : SyntaxError.Cause) : Prop :=
  (∀ text, cause ≠ .numberTooLarge text) ∧ ∀ limit, cause ≠ .nestingTooDeep limit

theorem SyntaxError.Cause.blamesKind_ofUnknown (lexeme : String) : (ofUnknown lexeme).BlamesKind := by
  unfold ofUnknown
  split <;> simp [BlamesKind]

namespace Parser

variable {α β γ δ : Type} {s t u : State} {after : Token.Kind}

/-- Ahead are first tokens of the given kinds, with numbers that fit, and then the rest, which begins
with one more given kind. -/
def Echoes (word : List Token.Kind) (after : Token.Kind) (ahead rest : List Token) : Prop :=
  ∃ front, ahead = front ++ rest ∧ Token.kinds front = word ∧ (∀ token ∈ front, token.Fits) ∧
    Token.nextKind rest = after

theorem Echoes.of_nil {ahead rest : List Token} (h : Echoes [] after ahead rest) :
    ahead = rest ∧ Token.nextKind ahead = after := by
  obtain ⟨front, rfl, hkinds, -, hkind⟩ := h
  obtain rfl : front = [] := List.map_eq_nil_iff.mp hkinds
  exact ⟨rfl, hkind⟩

theorem Echoes.of_singleton {first : Token.Kind} {ahead rest : List Token}
    (h : Echoes [first] after ahead rest) :
    ∃ token, ahead = token :: rest ∧ token.kind = first ∧ token.Fits := by
  obtain ⟨front, rfl, hkinds, hfits, -⟩ := h
  obtain ⟨token, rfl, hkind⟩ := List.map_eq_singleton_iff.mp hkinds
  exact ⟨token, rfl, hkind, hfits token (List.mem_singleton_self token)⟩

/-- An echo of two parts passes a point after which it echoes the second part. -/
theorem Echoes.of_append {front back : List Token} {ahead rest : List Token}
    (h : Echoes (Token.kinds (front ++ back)) u.kind ahead rest) (hmoved : t.Moved back u) :
    ∃ middle, Echoes (Token.kinds front) t.kind ahead middle ∧
      Echoes (Token.kinds back) u.kind middle rest := by
  obtain ⟨copy, rfl, hkinds, hfits, hkind⟩ := h
  rw [Token.kinds_append] at hkinds
  obtain ⟨copy₁, copy₂, rfl, h₁, h₂⟩ := List.map_eq_append_iff.mp hkinds
  have hmiddle : Token.nextKind (copy₂ ++ rest) = t.kind := by
    cases back with
    | nil =>
      obtain rfl : copy₂ = [] := List.map_eq_nil_iff.mp h₂
      rw [hmoved.kind_eq_of_nil, List.nil_append, hkind]
    | cons token _ =>
      obtain ⟨token', _, rfl, htoken, -⟩ := List.map_eq_cons_iff.mp h₂
      rw [hmoved.kind_eq, List.cons_append, Token.nextKind_cons, htoken]
  refine ⟨copy₂ ++ rest, ⟨copy₁, List.append_assoc .., h₁, ?_, hmiddle⟩, copy₂, rfl, h₂, ?_, hkind⟩
  · exact fun token hmem => hfits token (List.mem_append_left _ hmem)
  · exact fun token hmem => hfits token (List.mem_append_right _ hmem)

/-- Whether nothing is accepted depends on the kind ahead only. -/
theorem run_accept?_eq_none_iff {wanted : Token.Kind → Bool} :
    (accept? wanted).run s = .ok none s ↔ (s.kind ≠ .endOfInput → wanted s.kind = false) := by
  constructor
  · intro hrun hend
    rcases hahead : s.ahead with _ | ⟨token, rest⟩
    · exact absurd (State.kind_nil hahead) hend
    · have hkind := State.kind_cons hahead
      have hnotEnd : token.isEnd = false := decide_eq_false (hkind ▸ hend)
      rw [run_accept?_cons wanted hahead, hnotEnd, ← hkind] at hrun
      cases hwanted : wanted s.kind with
      | false => rfl
      | true =>
        rw [hwanted] at hrun
        cases hrun
  · intro h
    by_cases hend : s.kind = .endOfInput
    · exact run_accept?_of_end wanted hend
    · exact run_accept?_of_not (h hend)

/-- What the first parser does on some tokens the second one does on an echo of them. The values that
they return are related, and for each value of the first there is one to go on with. Errors that do
not blame a kind are left out. -/
structure Mimics (R : α → β → Prop) (p : Parser α) (q : Parser β) : Prop where
  ok : ∀ {s a t}, p.run s = .ok a t → (∃ b, R a b) ∧ ∃ front, s.Moved front t ∧
    ∀ s' rest, Echoes (Token.kinds front) t.kind s'.ahead rest →
      ∃ b t', q.run s' = .ok b t' ∧ t'.ahead = rest ∧ R a b
  error : ∀ {s e t}, p.run s = .error e t → e.cause.BlamesKind → ∃ front, s.Moved front t ∧
    ∀ s' rest, Echoes (Token.kinds front) t.kind s'.ahead rest →
      ∃ e' t', q.run s' = .error e' t' ∧ e'.cause.BlamesKind

namespace Mimics

variable {R : α → β → Prop} {p : Parser α} {q : Parser β}

theorem pure {a : α} {b : β} (h : R a b) : Mimics R (Pure.pure a) (Pure.pure b) where
  ok {s _ _} hrun := by
    cases hrun
    refine ⟨⟨b, h⟩, [], .refl s, fun s' rest hecho => ?_⟩
    exact ⟨b, s', rfl, hecho.of_nil.1, h⟩
  error hrun := by cases hrun

theorem bind {R' : γ → δ → Prop} {f : α → Parser γ} {g : β → Parser δ} (hp : Mimics R p q)
    (hf : ∀ a b, R a b → Mimics R' (f a) (g b)) : Mimics R' (p >>= f) (q >>= g) where
  ok {s c u} hrun := by
    obtain ⟨a, t, h₁, h₂⟩ := run_bind_eq_ok hrun
    obtain ⟨⟨b, hab⟩, front, hfront, hfirst⟩ := hp.ok h₁
    -- Which tokens are consumed does not hang on an echo, so any related value will do.
    obtain ⟨hd, back, hback, -⟩ := (hf a b hab).ok h₂
    refine ⟨hd, front ++ back, hfront.trans hback, fun s' rest hecho => ?_⟩
    obtain ⟨middle, hecho₁, hecho₂⟩ := hecho.of_append hback
    obtain ⟨b, t', hrun₁, rfl, hab⟩ := hfirst s' middle hecho₁
    obtain ⟨-, back', hback', hsecond⟩ := (hf a b hab).ok h₂
    obtain rfl : back' = back := hback'.eq hback
    obtain ⟨d, u', hrun₂, hrest, hcd⟩ := hsecond t' rest hecho₂
    exact ⟨d, u', (run_bind_of_ok hrun₁).trans hrun₂, hrest, hcd⟩
  error {s e u} hrun hblame := by
    rcases run_bind_eq_error hrun with h₁ | ⟨a, t, h₁, h₂⟩
    · obtain ⟨front, hfront, hfirst⟩ := hp.error h₁ hblame
      refine ⟨front, hfront, fun s' rest hecho => ?_⟩
      obtain ⟨e', t', hrun₁, hblame'⟩ := hfirst s' rest hecho
      exact ⟨e', t', run_bind_of_error hrun₁, hblame'⟩
    · obtain ⟨⟨b, hab⟩, front, hfront, hfirst⟩ := hp.ok h₁
      obtain ⟨back, hback, -⟩ := (hf a b hab).error h₂ hblame
      refine ⟨front ++ back, hfront.trans hback, fun s' rest hecho => ?_⟩
      obtain ⟨middle, hecho₁, hecho₂⟩ := hecho.of_append hback
      obtain ⟨b, t', hrun₁, rfl, hab⟩ := hfirst s' middle hecho₁
      obtain ⟨back', hback', hsecond⟩ := (hf a b hab).error h₂ hblame
      obtain rfl : back' = back := hback'.eq hback
      obtain ⟨e', u', hrun₂, hblame'⟩ := hsecond t' rest hecho₂
      exact ⟨e', u', (run_bind_of_ok hrun₁).trans hrun₂, hblame'⟩

theorem rounds {f : Nat → Parser α} {g : Nat → Parser β} (hf : EnoughRounds f)
    (hg : EnoughRounds g) (h : ∀ count, Mimics R (f count) (g count)) :
    Mimics R (get >>= fun s => f s.ahead.length) (get >>= fun s => g s.ahead.length) where
  ok {s a t} hrun := by
    have hrun' : (f s.ahead.length).run s = .ok a t := hrun
    obtain ⟨hb, front, hmoved, -⟩ := (h _).ok hrun'
    refine ⟨hb, front, hmoved, fun s' rest hecho => ?_⟩
    -- The numbers of rounds in the two runs differ, but the larger one does for both.
    let count := max s.ahead.length s'.ahead.length
    rw [hf s count (Nat.le_max_left _ _)] at hrun'
    obtain ⟨-, front', hmoved', hall⟩ := (h count).ok hrun'
    obtain rfl : front' = front := hmoved'.eq hmoved
    obtain ⟨b, t', hrun₁, hrest, hab⟩ := hall s' rest hecho
    exact ⟨b, t', (hg s' count (Nat.le_max_right _ _)).trans hrun₁, hrest, hab⟩
  error {s e t} hrun hblame := by
    have hrun' : (f s.ahead.length).run s = .error e t := hrun
    obtain ⟨front, hmoved, -⟩ := (h _).error hrun' hblame
    refine ⟨front, hmoved, fun s' rest hecho => ?_⟩
    let count := max s.ahead.length s'.ahead.length
    rw [hf s count (Nat.le_max_left _ _)] at hrun'
    obtain ⟨front', hmoved', hall⟩ := (h count).error hrun' hblame
    obtain rfl : front' = front := hmoved'.eq hmoved
    obtain ⟨e', t', hrun₁, hblame'⟩ := hall s' rest hecho
    exact ⟨e', t', (hg s' count (Nat.le_max_right _ _)).trans hrun₁, hblame'⟩

theorem kind : Mimics (· = ·) Parser.kind Parser.kind where
  ok {s a t} hrun := by
    cases hrun
    refine ⟨⟨_, rfl⟩, [], .refl s, fun s' rest hecho => ?_⟩
    obtain ⟨hrest, hkind⟩ := hecho.of_nil
    exact ⟨s'.kind, s', rfl, hrest, hkind.symm⟩
  error hrun := by cases hrun

theorem unexpected {cause : Token → SyntaxError.Cause} (h : SyntaxError.Cause.Expects cause) :
    Mimics R (Parser.unexpected cause) (Parser.unexpected cause) where
  ok hrun := by
    rw [run_unexpected] at hrun
    cases hrun
  error {s e t} hrun _ := by
    rw [run_unexpected] at hrun
    cases hrun
    refine ⟨[], .still rfl rfl, fun s' rest _ => ⟨_, _, run_unexpected cause s', ?_⟩⟩
    dsimp only
    split
    · exact SyntaxError.Cause.blamesKind_ofUnknown _
    · cases h <;> simp [SyntaxError.Cause.BlamesKind]

theorem tooDeep (limit : Nat) :
    Mimics R (fail (.nestingTooDeep limit)) (fail (.nestingTooDeep limit)) where
  ok hrun := by cases hrun
  error hrun hblame := by
    cases hrun
    exact absurd rfl (hblame.2 limit)

/-- Steps that consume nothing and cannot fail. -/
theorem still {p q : Parser Unit} (hp : ∀ s, ∃ t, p.run s = .ok () t ∧ s.Moved [] t)
    (hq : ∀ s, ∃ t, q.run s = .ok () t ∧ s.Moved [] t) : Mimics (fun _ _ => True) p q where
  ok {s a t} hrun := by
    obtain ⟨u, hrun', hmoved⟩ := hp s
    rw [hrun'] at hrun
    cases hrun
    refine ⟨⟨(), trivial⟩, [], hmoved, fun s' rest hecho => ?_⟩
    obtain ⟨t', hrun', hmoved'⟩ := hq s'
    exact ⟨(), t', hrun', hmoved'.ahead_eq.symm.trans hecho.of_nil.1, trivial⟩
  error {s e t} hrun := by
    obtain ⟨u, hrun', -⟩ := hp s
    rw [hrun'] at hrun
    cases hrun

theorem report (event event' : ParseEvent) :
    Mimics (fun _ _ => True) (Parser.report event) (Parser.report event') :=
  still (fun _ => ⟨_, rfl, .still rfl rfl⟩) fun _ => ⟨_, rfl, .still rfl rfl⟩

/-- The token that is accepted on an echo is a number that fits, if it is a number. -/
theorem accept? (wanted : Token.Kind → Bool) :
    Mimics (Option.Rel fun token token' =>
        wanted token.kind = true ∧ token.kind = token'.kind ∧ token'.Fits)
      (Parser.accept? wanted) (Parser.accept? wanted) where
  ok {s next t} hrun := by
    cases next with
    | none =>
      obtain rfl := run_accept?_eq_none hrun
      refine ⟨⟨none, .none⟩, [], .refl t, fun s' rest hecho => ?_⟩
      obtain ⟨hrest, hkind⟩ := hecho.of_nil
      have hnone : s'.kind ≠ .endOfInput → wanted s'.kind = false := by
        rw [show s'.kind = t.kind from hkind]
        exact run_accept?_eq_none_iff.mp hrun
      exact ⟨none, s', run_accept?_eq_none_iff.mpr hnone, hrest, .none⟩
    | some token =>
      obtain ⟨rest, hahead, hend, hwanted, rfl⟩ := run_accept?_eq_some hrun
      have hvalue : (Decimal.signed64? "0").isSome := by decide
      have hzero : { token with lexeme := "0" }.Fits := fun _ => hvalue
      refine ⟨⟨some { token with lexeme := "0" }, .some ⟨hwanted, rfl, hzero⟩⟩, [token],
        State.moved_advance hahead hend, fun s' rest' hecho => ?_⟩
      obtain ⟨copy, hahead', hcopy, hfits⟩ := hecho.of_singleton
      have hend' : copy.isEnd = false := by rw [Token.isEnd, hcopy, ← Token.isEnd, hend]
      refine ⟨some copy, s'.advance copy rest', ?_, rfl, .some ⟨hwanted, hcopy.symm, hfits⟩⟩
      rw [run_accept?_cons wanted hahead', hend', hcopy, hwanted]
      rfl
  error hrun := (run_accept?_ne_error _ _ _ _ hrun).elim

theorem numeral {token token' : Token} (hnumber : token'.kind = .number) (hfits : token'.Fits) :
    Mimics (fun _ _ => True) (Parser.numeral token) (Parser.numeral token') := by
  obtain ⟨value', hvalue'⟩ := Option.isSome_iff_exists.mp (hfits hnumber)
  rw [Parser.numeral, Parser.numeral, hvalue']
  split
  · exact pure trivial
  · -- The number is too large, which blames its text and no kind.
    refine ⟨nofun, fun hrun hblame => ?_⟩
    cases hrun
    exact absurd rfl (hblame.1 _)

end Mimics

/-- Tokens of one kind are alike if the second one is no number that is too large. Trees may differ in
anything. -/
def sameKinds : Likeness where
  token token token' := token.kind = token'.kind ∧ token'.Fits
  expr _ _ := True
  stmt _ _ := True
  body _ _ := True
  kind_eq h := h.1
  name _ _ := trivial
  binary _ _ _ _ := trivial
  conditional _ _ _ := trivial
  loop _ _ _ := trivial
  assign _ _ _ := trivial
  read _ _ _ := trivial
  write _ _ := trivial
  nil := trivial
  cons _ _ := trivial

theorem compositional_mimics : sameKinds.Compositional Mimics where
  pure := .pure
  bind := .bind
  rounds := .rounds
  kind := .kind
  accept? := .accept?
  numeral h hkind := .numeral (h.1 ▸ hkind) h.2
  unexpected := .unexpected
  tooDeep := .tooDeep
  enter rule := .still (fun s => ⟨_, rfl, s.moved_pushed rule⟩) fun s => ⟨_, rfl, s.moved_pushed rule⟩
  leave := .still (fun s => ⟨_, rfl, s.moved_popped⟩) fun s => ⟨_, rfl, s.moved_popped⟩
  start _ := .still (fun _ => ⟨_, rfl, .still rfl rfl⟩) fun _ => ⟨_, rfl, .still rfl rfl⟩
  finished _ := .report _ _
  parsed _ := .report _ _

theorem mimics_program (config : ParserConfig) :
    Mimics (fun _ _ => True) (program config) (program config) :=
  compositional_mimics.program config

end Parser

end TinyLang

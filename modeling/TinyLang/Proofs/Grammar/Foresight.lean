import TinyLang.Proofs.Grammar.Cutoff

namespace TinyLang

namespace Parser

variable {α β : Type} {rest rest' : List Token} {s s' t t' : State}

/-- The states differ in what stands behind the tokens in sight only, of which there is at least
one. -/
def State.SameSight (rest rest' : List Token) (s s' : State) : Prop :=
  ∃ window, window ≠ [] ∧ s.ahead = window ++ rest ∧ s' = { s with ahead := window ++ rest' }

namespace State.SameSight

theorem passed_eq (h : SameSight rest rest' s s') : s.passed = s'.passed := by
  obtain ⟨window, -, -, rfl⟩ := h
  rfl

theorem head?_eq (h : SameSight rest rest' s s') : s.ahead.head? = s'.ahead.head? := by
  obtain ⟨window, hne, hahead, rfl⟩ := h
  obtain ⟨token, window', rfl⟩ := List.exists_cons_of_ne_nil hne
  rw [hahead]
  rfl

theorem pushed (h : SameSight rest rest' s s') (rule : Rule) :
    SameSight rest rest' (s.pushed rule) (s'.pushed rule) := by
  obtain ⟨window, hne, hahead, rfl⟩ := h
  exact ⟨window, hne, hahead, rfl⟩

theorem popped (h : SameSight rest rest' s s') : SameSight rest rest' s.popped s'.popped := by
  obtain ⟨window, hne, hahead, rfl⟩ := h
  exact ⟨window, hne, hahead, rfl⟩

theorem report (h : SameSight rest rest' s s') (event : ParseEvent) :
    SameSight rest rest' (s.report event) (s'.report event) := by
  obtain ⟨window, hne, hahead, rfl⟩ := h
  exact ⟨window, hne, hahead, rfl⟩

end State.SameSight

inductive SameRun (rest rest' : List Token) : EStateM.Result SyntaxError State α →
    EStateM.Result SyntaxError State α → Prop
  | ok {a : α} {t t' : State} (h : t.SameSight rest rest' t') :
      SameRun rest rest' (.ok a t) (.ok a t')
  | error {e : SyntaxError} {t t' : State} (h : t.SameSight rest rest' t') :
      SameRun rest rest' (.error e t) (.error e t')

/-- A run that ends before some tokens does not hang on them, if it has stopped at a token before
them. -/
structure Nearsighted (p : Parser α) : Prop where
  framed : Framed p
  run {rest rest' : List Token} {s s' : State} (h : s.SameSight rest rest' s')
    (hstop : rest.length < (final (p.run s)).ahead.length) :
    SameRun rest rest' (p.run s) (p.run s')

theorem SameRun.cases {r r' : EStateM.Result SyntaxError State α} (h : SameRun rest rest' r r') :
    (∃ a t t', r = .ok a t ∧ r' = .ok a t' ∧ t.SameSight rest rest' t') ∨
      ∃ e t t', r = .error e t ∧ r' = .error e t' ∧ t.SameSight rest rest' t' := by
  cases h with
  | ok h => exact .inl ⟨_, _, _, rfl, rfl, h⟩
  | error h => exact .inr ⟨_, _, _, rfl, rfl, h⟩

namespace Nearsighted

theorem bind {p : Parser α} {f : α → Parser β} (hp : Nearsighted p) (hf : ∀ a, Nearsighted (f a)) :
    Nearsighted (p >>= f) where
  framed := hp.framed.bind fun a => (hf a).framed
  run {rest rest' s s'} h hstop := by
    -- What is in sight at the end was in sight after the first parser.
    have honward := onward_final_bind (p := p) (fun a => (hf a).framed) s
    obtain ⟨a, t, t', hrun, hrun', ht⟩ | ⟨e, t, t', hrun, hrun', ht⟩ :=
      (hp.run h (Nat.lt_of_lt_of_le hstop honward.length_le)).cases
    · rw [run_bind_of_ok hrun] at hstop
      rw [run_bind_of_ok hrun, run_bind_of_ok hrun']
      exact (hf a).run ht hstop
    · rw [run_bind_of_error hrun, run_bind_of_error hrun']
      exact .error ht

theorem accept? (wanted : Token.Kind → Bool) : Nearsighted (Parser.accept? wanted) where
  framed := compositional_framed.accept? wanted
  run {rest rest' s s'} h hstop := by
    obtain ⟨window, hne, hahead, rfl⟩ := h
    obtain ⟨token, window, rfl⟩ := List.exists_cons_of_ne_nil hne
    have hrun := run_accept?_cons wanted (s := s) hahead
    have hrun' := run_accept?_cons wanted
      (s := { s with ahead := token :: window ++ rest' }) (List.cons_append ..)
    rw [hrun] at hstop
    rw [hrun, hrun']
    split at hstop
    · next hwanted =>
      have hwindow : window ≠ [] := by
        rintro rfl
        exact Nat.lt_irrefl _ hstop
      rw [if_pos hwanted, if_pos hwanted]
      exact .ok ⟨window, hwindow, rfl, rfl⟩
    · next hnot =>
      rw [if_neg hnot, if_neg hnot]
      exact .ok ⟨token :: window, hne, hahead, rfl⟩

theorem inside (rule : Rule) {p : Parser α} (hp : Nearsighted p) :
    Nearsighted (Parser.inside rule p) where
  framed := compositional_framed.inside rule hp.framed
  run {rest rest' s s'} h hstop := by
    have honward := onward_final_inside p rule s
    obtain ⟨a, t, t', hrun, hrun', ht⟩ | ⟨e, t, t', hrun, hrun', ht⟩ :=
      (hp.run (h.pushed rule) (Nat.lt_of_lt_of_le hstop honward.length_le)).cases
    · rw [run_inside_of_ok hrun, run_inside_of_ok hrun']
      exact .ok ht.popped
    · rw [run_inside_of_error hrun, run_inside_of_error hrun']
      exact .error ht

end Nearsighted

theorem compositional_nearsighted : Compositional Nearsighted where
  pure a := ⟨compositional_framed.pure a, fun h _ => .ok h⟩
  bind := .bind
  look view := by
    refine fun {f} hview hf => ⟨framed_get.bind fun s => (hf (view s)).framed, ?_⟩
    intro rest rest' s s' h hstop
    have hsame : view s = view s' := hview s s' h.passed_eq h.head?_eq
    change SameRun rest rest' ((f (view s)).run s) ((f (view s')).run s')
    rw [← hsame]
    exact (hf (view s)).run h hstop
  rounds := by
    refine fun {α f} hmore hf => ⟨framed_get.bind fun s => (hf s.ahead.length).framed, ?_⟩
    intro rest rest' s s' h hstop
    have hrun := hmore s (max s.ahead.length s'.ahead.length) (Nat.le_max_left _ _)
    have hrun' := hmore s' (max s.ahead.length s'.ahead.length) (Nat.le_max_right _ _)
    change rest.length < (final ((f s.ahead.length).run s)).ahead.length at hstop
    change SameRun rest rest' ((f s.ahead.length).run s) ((f s'.ahead.length).run s')
    rw [hrun] at hstop
    rw [hrun, hrun']
    exact (hf _).run h hstop
  report event := ⟨compositional_framed.report event, fun h _ => .ok (h.report event)⟩
  failAt location cause := by
    refine ⟨compositional_framed.failAt location cause, ?_⟩
    rintro rest rest' s _ ⟨window, hne, hahead, rfl⟩ -
    exact .error ⟨window, hne, hahead, rfl⟩
  accept? := .accept?
  inside := .inside

end Parser

namespace Program

open TinyLang.Parser

variable {config : ParserConfig} {tokens : List Token}

/-- A parse that stops at a token does not hang on what stands behind the token. -/
theorem sameRun_of_consumed (hnext : (consumed config tokens).length < tokens.length)
    (later : List Token) :
    SameRun (tokens.drop ((consumed config tokens).length + 1)) later
      ((program config).run { ahead := tokens })
      ((program config).run
        { ahead := tokens.take ((consumed config tokens).length + 1) ++ later }) := by
  generalize hcount : (consumed config tokens).length = count at hnext ⊢
  have hprogram := (compositional_nearsighted.program config).holds
  obtain ⟨front, hmoved⟩ := (hprogram.framed.onward { ahead := tokens }).moved
  have hlength : tokens.length =
      count + (final ((program config).run { ahead := tokens })).ahead.length := by
    have hpassed := hmoved.passed_eq
    have hahead : tokens = front ++ _ := hmoved.ahead_eq
    rw [consumed_eq, hpassed] at hcount
    rw [← hcount]
    conv_lhs => rw [hahead]
    simp
  refine hprogram.run ⟨tokens.take (count + 1), ?_, ?_, rfl⟩ ?_
  · simp only [ne_eq, List.take_eq_nil_iff, Nat.add_eq_zero_iff, Nat.one_ne_zero, and_false,
      false_or]
    exact List.ne_nil_of_length_pos (by omega)
  · exact (List.take_append_drop _ _).symm
  · rw [List.length_drop]
    omega

/-- An error that is found with a token ahead is found, after the same tokens, whatever follows that
token. -/
theorem parse_take_append {error : SyntaxError} (h : parse config tokens = .error error)
    (hnext : (consumed config tokens).length < tokens.length) (later : List Token) :
    parse config (tokens.take ((consumed config tokens).length + 1) ++ later) = .error error ∧
      consumed config (tokens.take ((consumed config tokens).length + 1) ++ later) =
        consumed config tokens := by
  obtain ⟨t, hrun⟩ := parse_eq_error_iff.mp h
  obtain ⟨a, t, t', hrun₁, hrun', ht⟩ | ⟨e, t, t', hrun₁, hrun', ht⟩ :=
    (sameRun_of_consumed hnext later).cases
  · rw [hrun] at hrun₁
    cases hrun₁
  · rw [hrun] at hrun₁
    cases hrun₁
    refine ⟨parse_eq_error_iff.mpr ⟨t', hrun'⟩, ?_⟩
    rw [consumed_eq config (_ ++ later), hrun', consumed_eq config tokens, hrun]
    exact congrArg List.reverse ht.passed_eq.symm

/-- With eight levels, that the number of `write 9223372036854775808 + y` is too large shows when `+`
is ahead, and a factor of `write x + y` is refused when `y` is ahead. So what follows may be anything,
such as another program. -/
theorem parse_take_append_of_write :
    let config : ParserConfig := ⟨8, false⟩
    let write : Token := ⟨.keyword .writeWord, "write", {}⟩
    let large : Token := ⟨.number, "9223372036854775808", {}⟩
    let plus : Token := ⟨.operator .plus, "+", {}⟩
    let x : Token := ⟨.identifier, "x", {}⟩
    let y : Token := ⟨.identifier, "y", {}⟩
    let stack : List Rule := [.program, .sequence, .statement, .write, .comparison, .sum]
    parse config ([write, large, plus] ++ [write, y]) =
      .error ⟨.numberTooLarge "9223372036854775808", {}, stack ++ [.product, .factor]⟩ ∧
    parse config ([write, x, plus, y] ++ [write, y]) =
      .error ⟨.nestingTooDeep 8, {}, stack ++ [.operation, .product]⟩ := by
  intro config write large plus x y stack
  have hnumber : parse config [write, large, plus] = .error ⟨.numberTooLarge "9223372036854775808",
      {}, stack ++ [.product, .factor]⟩ := by decide +kernel
  have hdeep : parse config [write, x, plus, y] = .error ⟨.nestingTooDeep 8, {},
      stack ++ [.operation, .product]⟩ := by decide +kernel
  have hcount : (consumed config [write, large, plus]).length = 2 ∧
      (consumed config [write, x, plus, y]).length = 3 := by decide +kernel
  constructor
  · have hparse := parse_take_append hnumber (hcount.1 ▸ by decide) [write, y]
    rw [hcount.1] at hparse
    exact hparse.1
  · have hparse := parse_take_append hdeep (hcount.2 ▸ by decide) [write, y]
    rw [hcount.2] at hparse
    exact hparse.1

end Program

end TinyLang

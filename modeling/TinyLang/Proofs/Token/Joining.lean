import TinyLang.Proofs.Grammar.Relocation
import TinyLang.Proofs.Token.Composition

namespace TinyLang

namespace Token

theorem join_singleton (token : Token) : join [token] = token.lexeme := by
  rw [join, List.map_singleton, String.intercalate_singleton]

theorem toList_join_cons (token : Token) {tokens : List Token} (h : tokens ≠ []) :
    (join (token :: tokens)).toList = token.lexeme.toList ++ ' ' :: (join tokens).toList := by
  have hne : tokens.map lexeme ≠ [] := by simpa using h
  rw [join, List.map_cons, String.intercalate_cons_of_ne_nil hne]
  simp [join]

theorem forall₂_bare_of_content {tokens tokens' : List Token}
    (h : tokens.map content = tokens'.map content) :
    List.Forall₂ (fun token token' => token.bare = token'.bare) tokens tokens' := by
  rw [← List.forall₂_eq_eq_eq, List.forall₂_map_left_iff, List.forall₂_map_right_iff] at h
  exact h.imp fun token token' heq => bare_eq_iff.mpr (Prod.mk.inj heq)

/-- Joining looks at lexemes only. -/
theorem join_eq_of_content {tokens tokens' : List Token}
    (h : tokens.map content = tokens'.map content) : join tokens = join tokens' := by
  have hlexemes := congrArg (List.map Prod.snd) h
  rw [List.map_map, List.map_map] at hlexemes
  exact congrArg " ".intercalate hlexemes

end Token

/-- Behind any text, the joined tokens are scanned as the tokens that they are. -/
theorem Scans.exists_joined {front rest : List Char} {tokens : List Token}
    (h : Scans front rest tokens) (front' : List Char) : ∃ tokens',
      Scans front' (Token.join tokens).toList tokens' ∧
        tokens'.map Token.content = tokens.map Token.content := by
  have hblank : Gap [' '] := .blank (by decide) .nil
  induction h generalizing front' with
  | ending hgap =>
    rw [Token.join_singleton]
    exact ⟨_, .ending .nil, rfl⟩
  | unclosed hgap hbody =>
    rw [Token.toList_join_cons _ (List.cons_ne_nil _ _), Token.join_singleton, Token.behind_lexeme,
      Token.behind_lexeme, String.toList_ofList, String.toList_ofList]
    exact ⟨_, @Scans.unclosed front' [] [' '] .nil (by decide), rfl⟩
  | @token front gap lexeme after kind tokens hgap hmatches hkind hbrace later ih =>
    obtain ⟨tokens', hscans, hcontent⟩ := ih (front' ++ lexeme ++ [' '])
    have hbehind : Scans (front' ++ lexeme) (' ' :: (Token.join tokens).toList) tokens' :=
      Scans.gap_append hblank hscans
    have hspaced : kind.Matches lexeme (' ' :: (Token.join tokens).toList) := by
      refine hmatches.of_head? hkind hbrace fun c hc => .inr ?_
      obtain rfl := Option.some.inj hc
      exact hblank.setsApart ' ' rfl
    rw [Token.toList_join_cons _ later.ne_nil, Token.behind_lexeme, String.toList_ofList]
    refine ⟨_, .token .nil hspaced hkind hbrace hbehind, ?_⟩
    rw [List.map_cons, List.map_cons, hcontent]
    rfl

namespace Program

/-- Scanning and parsing are stable under normal spacing: joined with single blanks, the tokens of a
text are scanned again, they are parsed to the same program or the same error except for the places,
and joining them once more changes nothing. -/
theorem parse_join (source : String) :
    (tokenize (Token.join (tokenize source))).map Token.content =
        (tokenize source).map Token.content ∧
      (∀ config, Relocated (tokenize source) (tokenize (Token.join (tokenize source)))
        (parse config (tokenize source))
        (parse config (tokenize (Token.join (tokenize source))))) ∧
      Token.join (tokenize (Token.join (tokenize source))) = Token.join (tokenize source) := by
  obtain ⟨tokens, hscans, hcontent⟩ := (scans_tokenize source).exists_joined []
  obtain rfl : tokenize (Token.join (tokenize source)) = tokens := tokenize_eq_iff.mpr hscans
  have hsame := Token.forall₂_bare_of_content hcontent.symm
  exact ⟨hcontent, fun config => (parse_of_same_kinds config).1 _ _ hsame,
    Token.join_eq_of_content hcontent⟩

/-- The colon stays apart from the equals sign, the digit from the letter, and the last brace is
still that of a comment that is never closed. -/
example : Token.join (tokenize ":\x7bé\x7d=\n\x7d1a \x7b b") = ": = \x7d 1 a \x7b " := by
  decide +kernel

end Program

end TinyLang

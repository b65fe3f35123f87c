import TinyLang.Proofs.Token.Positions

namespace TinyLang

namespace Position

/-- A position of a text when the text stands behind `front`. On its first line the columns are
moved too. -/
def moved (front : List Char) (p : Position) : Position where
  line := p.line + front.count '\n'
  column := if p.line = 1 then p.column + (lastLine front).length else p.column

theorem next_moved (front : List Char) {p : Position} (hline : p.line ≠ 0) (c : Char) :
    (p.moved front).next c = (p.next c).moved front := by
  by_cases hc : c = '\n'
  · simp [next, moved, hc, hline]
    omega
  · by_cases hfirst : p.line = 1
    · simp [next, moved, hc, hfirst]
      omega
    · simp [next, moved, hc, hfirst]

theorem counted_append (front back : List Char) :
    counted (front ++ back) = (counted back).moved front := by
  induction back using List.reverseRecOn with
  | nil => simp [counted, moved, lastLine, Nat.add_comm]
  | append_singleton back c ih =>
    have hline : (counted back).line ≠ 0 := by simp [counted]
    calc counted (front ++ (back ++ [c])) = (counted (front ++ back)).next c := by
          rw [next_counted, List.append_assoc]
      _ = ((counted back).moved front).next c := by rw [ih]
      _ = ((counted back).next c).moved front := next_moved front hline c
      _ = (counted (back ++ [c])).moved front := by rw [next_counted]

end Position

def Span.moved (front : List Char) (span : Span) : Span where
  offset := span.offset + Text.byteLength front
  length := span.length
  start := span.start.moved front
  stop := span.stop.moved front

namespace Token

def moved (front : List Char) (token : Token) : Token :=
  { token with span := token.span.moved front }

def content (token : Token) : Kind × String := (token.kind, token.lexeme)

theorem content_moved (front : List Char) (token : Token) :
    (token.moved front).content = token.content := rfl

/-- The brace of a comment that is never closed, as a token. -/
theorem opensComment_behind (front : List Char) : (behind front .unknown ['{']).opensComment :=
  ⟨rfl, String.toList_ofList⟩

theorem behind_append (front before : List Char) (kind : Kind) (lexeme : List Char) :
    behind (front ++ before) kind lexeme = (behind before kind lexeme).moved front := by
  have hstart : Position.first.advance (front ++ before) =
      (Position.first.advance before).moved front := by
    rw [Position.advance_first, Position.advance_first, Position.counted_append]
  have hstop : (Position.first.advance (front ++ before)).advance lexeme =
      ((Position.first.advance before).advance lexeme).moved front := by
    rw [← Position.advance_append, ← Position.advance_append, Position.advance_first,
      Position.advance_first, List.append_assoc, Position.counted_append]
  simp only [behind, moved, Span.behind, Span.moved]
  rw [hstop, hstart, Text.byteLength_append, Nat.add_comm]

end Token

/-- The tokens of a text do not depend on what stands before it, except for their places. -/
theorem Scans.moved {before rest : List Char} {tokens : List Token} (h : Scans before rest tokens)
    (front : List Char) : Scans (front ++ before) rest (tokens.map (Token.moved front)) := by
  induction h with
  | @ending before gap hgap =>
    have hmoved := @Scans.ending (front ++ before) gap hgap
    simpa only [List.map_cons, List.map_nil, ← Token.behind_append, List.append_assoc] using hmoved
  | @unclosed before gap body hgap hbody =>
    have hmoved := @Scans.unclosed (front ++ before) gap body hgap hbody
    simpa only [List.map_cons, List.map_nil, ← Token.behind_append, List.append_assoc] using hmoved
  | @token before gap lexeme after kind tokens hgap hmatches hkind hbrace later ih =>
    rw [← List.append_assoc] at ih
    have hmoved := Scans.token hgap hmatches hkind hbrace ih
    simpa only [List.map_cons, ← Token.behind_append, List.append_assoc] using hmoved

/-- No token goes on with this character if it could have ended before. -/
def SetsApart (c : Char) : Prop := c.isAlphanum = false ∧ c ≠ '='

/-- Blanks and comments set tokens apart. -/
theorem Gap.setsApart {gap : List Char} (h : Gap gap) : ∀ c ∈ gap.head?, SetsApart c := by
  intro c hc
  cases h with
  | nil => cases hc
  | blank hblank later =>
    obtain rfl := Option.some.inj hc
    constructor
    · by_contra halphanum
      rw [Bool.not_eq_false] at halphanum
      rw [not_isBlank_of_isAlphanum halphanum] at hblank
      cases hblank
    · rintro rfl
      cases hblank
  | comment hbody later =>
    obtain rfl := Option.some.inj hc
    exact ⟨rfl, by decide⟩

theorem Gap.append {gap gap' : List Char} (h : Gap gap) (h' : Gap gap') : Gap (gap ++ gap') := by
  induction h with
  | nil => exact h'
  | blank hc later ih => exact .blank hc ih
  | comment hbody later ih =>
    rw [List.cons_append, List.append_assoc, List.cons_append]
    exact .comment hbody ih

/-- Of what follows a token only the first character matters, and none that sets tokens apart. The
brace of a comment that is never closed is the exception. -/
theorem Token.Kind.Matches.of_head? {kind : Token.Kind} {lexeme after after' : List Char}
    (h : kind.Matches lexeme after) (hkind : kind ≠ .endOfInput) (hbrace : lexeme ≠ ['{'])
    (hhead : ∀ c ∈ after'.head?, c ∈ after.head? ∨ SetsApart c) : kind.Matches lexeme after' := by
  have hword (h : IsWord lexeme after) : IsWord lexeme after' := by
    refine ⟨h.1, h.2.1, fun c hc => ?_⟩
    rcases hhead c hc with hc | hc
    · exact h.2.2 c hc
    · exact hc.1
  cases kind with
  | keyword word => exact ⟨hword h.1, h.2⟩
  | identifier => exact ⟨hword h.1, h.2⟩
  | number =>
    refine ⟨h.1, h.2.1, fun c hc => ?_⟩
    rcases hhead c hc with hc | hc
    · exact h.2.2 c hc
    · have hparts : c.isAlpha = false ∧ c.isDigit = false := by
        simpa [Char.isAlphanum] using hc.1
      exact hparts.2
  | unknown =>
    obtain ⟨c, rfl, hc⟩ := h
    refine ⟨c, rfl, { hc with colon := fun hcolon hequal => ?_, brace := fun h => ?_ }⟩
    · rcases hhead '=' hequal with hequal | hequal
      · exact hc.colon hcolon hequal
      · exact hequal.2 rfl
    · exact absurd (congrArg (fun d => [d]) h) hbrace
  | endOfInput => exact absurd rfl hkind
  | _ => exact h

/-- A text that ends where a token ends is the gap and the token. -/
theorem append_inj_of_endOffset {front gap lexeme after a b : List Char} {kind : Token.Kind}
    (h : a ++ b = gap ++ (lexeme ++ after))
    (hend : (Token.behind (front ++ gap) kind lexeme).endOffset = Text.byteLength (front ++ a)) :
    a = gap ++ lexeme ∧ b = after := by
  have hlength : Text.byteLength (gap ++ lexeme) = Text.byteLength a := by
    simp only [Token.behind_endOffset, Text.byteLength_append] at hend ⊢
    omega
  rw [← List.append_assoc] at h
  exact Text.append_inj_of_byteLength h hlength.symm

/-- Of two fronts of a text the one with fewer bytes is a front of the other. -/
theorem exists_append_of_byteLength_le {a b c d : List Char} (h : a ++ b = c ++ d)
    (hle : Text.byteLength c ≤ Text.byteLength a) : ∃ middle, a = c ++ middle ∧ middle ++ b = d := by
  rcases List.append_eq_append_iff.mp h with ⟨middle, rfl, rfl⟩ | ⟨middle, rfl, rfl⟩
  · have hnothing : Text.byteLength middle = Text.byteLength [] := by
      rw [Text.byteLength_append] at hle
      rw [Text.byteLength_nil]
      omega
    obtain ⟨rfl, -⟩ := Text.append_inj_of_byteLength (List.append_nil middle) hnothing
    exact ⟨[], by simp, rfl⟩
  · exact ⟨middle, rfl, rfl⟩

namespace Scans

variable {front a gap b : List Char} {tokens later : List Token}

theorem ne_nil (h : Scans front a tokens) : tokens ≠ [] := by
  cases h <;> exact List.cons_ne_nil _ _

/-- A text has only one list of tokens. -/
theorem eq {tokens' : List Token} (h : Scans front a tokens) (h' : Scans front a tokens') :
    tokens = tokens' :=
  (@Scanner.remaining_of_scans "" _ _ _ h).symm.trans (Scanner.remaining_of_scans h')

/-- In front of a text a gap leaves no trace. -/
theorem gap_append (hgap : Gap gap) (h : Scans (front ++ gap) b tokens) :
    Scans front (gap ++ b) tokens := by
  cases h with
  | ending hgap' =>
    rw [List.append_assoc]
    exact .ending (hgap.append hgap')
  | unclosed hgap' hbody =>
    have hjoined := @Scans.unclosed front _ _ (hgap.append hgap') hbody
    simpa only [List.append_assoc] using hjoined
  | @token _ gap' lexeme after kind tokens hgap' hmatches hkind hbrace later =>
    have hlater : Scans (front ++ ((gap ++ gap') ++ lexeme)) after tokens := by
      simpa only [List.append_assoc] using later
    have hjoined := Scans.token (hgap.append hgap') hmatches hkind hbrace hlater
    simpa only [List.append_assoc] using hjoined

/-- Behind a text that leaves no comment open and a gap, the tokens of another text follow. -/
theorem append_gap (h : Scans front a tokens) (hclosed : ∀ token ∈ tokens, ¬ token.opensComment)
    (hgap : Gap gap) (hne : gap ≠ []) (hlater : Scans (front ++ a ++ gap) b later) :
    Scans front (a ++ (gap ++ b)) (tokens.dropLast ++ later) := by
  induction h with
  | @ending front gap' hgap' =>
    have hjoined : Scans (front ++ gap') (gap ++ b) later := gap_append hgap hlater
    exact gap_append hgap' hjoined
  | unclosed hgap' hbody =>
    exact absurd (Token.opensComment_behind _) (hclosed _ (List.mem_cons_self ..))
  | @token front gap' lexeme after kind tokens hgap' hmatches hkind hbrace htokens ih =>
    obtain ⟨-, hclosed⟩ := List.forall_mem_cons.mp hclosed
    have hrest : Scans (front ++ (gap' ++ lexeme)) (after ++ (gap ++ b)) (tokens.dropLast ++ later) :=
      ih hclosed (by simpa only [List.append_assoc] using hlater)
    have hhead : ∀ c ∈ (after ++ (gap ++ b)).head?, c ∈ after.head? ∨ SetsApart c := by
      intro c hc
      cases after with
      | nil =>
        obtain ⟨d, gap, rfl⟩ := List.exists_cons_of_ne_nil hne
        exact .inr (hgap.setsApart c hc)
      | cons d after => exact .inl hc
    have hjoined := Scans.token hgap' (hmatches.of_head? hkind hbrace hhead) hkind hbrace hrest
    rw [List.dropLast_cons_of_ne_nil htokens.ne_nil]
    simpa only [List.append_assoc, List.cons_append] using hjoined

/-- No token stands before the text. -/
theorem le_offset (h : Scans front a tokens) :
    ∀ token ∈ tokens, Text.byteLength front ≤ token.span.offset := by
  induction h with
  | ending hgap =>
    rw [List.forall_mem_singleton, Token.behind_offset, Text.byteLength_append]
    exact Nat.le_add_right _ _
  | unclosed hgap hbody =>
    rw [List.forall_mem_cons, List.forall_mem_singleton, Token.behind_offset, Token.behind_offset,
      Text.byteLength_append, Text.byteLength_append]
    exact ⟨Nat.le_add_right _ _, Nat.le_add_right _ _⟩
  | token hgap hmatches hkind hbrace later ih =>
    rw [List.forall_mem_cons, Token.behind_offset, Text.byteLength_append]
    refine ⟨Nat.le_add_right _ _, fun token htoken => ?_⟩
    have hle := ih token htoken
    rw [Text.byteLength_append] at hle
    omega

/-- Where a text ends behind one of the tokens, it has the tokens up to that one, and the rest has
the later ones unless a comment is left open. -/
theorem exists_split {token : Token} (h : Scans front (a ++ b) tokens) (hmem : token ∈ tokens)
    (hend : token.endOffset = Text.byteLength (front ++ a)) : ∃ initial later,
      tokens = initial ++ later ∧
      Scans front a (initial ++ [.behind (front ++ a) .endOfInput []]) ∧
      ((∀ token ∈ initial, ¬ token.opensComment) → Scans (front ++ a) b later) := by
  generalize hrest : a ++ b = rest at h
  induction h generalizing a with
  | @ending front gap hgap =>
    obtain rfl := List.mem_singleton.mp hmem
    rw [← List.append_nil gap, ← List.append_nil (gap ++ []), List.append_assoc] at hrest
    obtain ⟨rfl, rfl⟩ := append_inj_of_endOffset hrest hend
    rw [List.append_nil]
    refine ⟨[], _, rfl, .ending hgap, fun _ => ?_⟩
    simpa using @Scans.ending (front ++ gap) [] .nil
  | @unclosed front gap body hgap hbody =>
    obtain ⟨body', rfl, hbody'⟩ : ∃ body', a = gap ++ (['{'] ++ body') ∧ '}' ∉ body' := by
      rcases List.mem_cons.mp hmem with rfl | hmem
      · obtain ⟨rfl, -⟩ := append_inj_of_endOffset hrest hend
        exact ⟨[], rfl, List.not_mem_nil⟩
      · obtain rfl := List.mem_singleton.mp hmem
        rw [← List.append_nil (gap ++ _), ← List.append_nil (gap ++ _ ++ []), List.append_assoc] at hrest
        obtain ⟨rfl, -⟩ := append_inj_of_endOffset hrest hend
        exact ⟨body, List.append_nil _, hbody⟩
    refine ⟨[_], [_], rfl, .unclosed hgap hbody', fun hclosed => ?_⟩
    exact absurd (Token.opensComment_behind _) (hclosed _ (List.mem_cons_self ..))
  | @token front gap lexeme after kind tokens hgap hmatches hkind hbrace htokens ih =>
    rcases List.mem_cons.mp hmem with rfl | hmem
    · obtain ⟨rfl, rfl⟩ := append_inj_of_endOffset hrest hend
      refine ⟨[_], tokens, rfl, ?_, fun _ => htokens⟩
      have hlast : Scans (front ++ (gap ++ lexeme)) []
          [.behind (front ++ (gap ++ lexeme)) .endOfInput []] := by
        simpa using @Scans.ending (front ++ (gap ++ lexeme)) [] .nil
      have hmatches' := @Token.Kind.Matches.of_head? _ _ _ [] hmatches hkind hbrace (by simp)
      simpa using Scans.token hgap hmatches' hkind hbrace hlast
    · have hle : Text.byteLength (gap ++ lexeme) ≤ Text.byteLength a := by
        have hoffset := htokens.le_offset _ hmem
        simp only [Token.endOffset, Text.byteLength_append] at hoffset hend ⊢
        omega
      rw [← List.append_assoc] at hrest
      obtain ⟨a', rfl, rfl⟩ := exists_append_of_byteLength_le hrest hle
      obtain ⟨initial, later, rfl, hinitial, hlater⟩ :=
        ih hmem (by simpa only [List.append_assoc] using hend) rfl
      have hhead : ∀ c ∈ a'.head?, c ∈ (a' ++ b).head? ∨ SetsApart c := by
        intro c hc
        cases a' with
        | nil => cases hc
        | cons d a' => exact .inl hc
      have hjoined := Scans.token hgap (hmatches.of_head? hkind hbrace hhead) hkind hbrace hinitial
      refine ⟨_ :: initial, later, rfl, ?_, fun hclosed => ?_⟩
      · simpa only [List.append_assoc, List.cons_append] using hjoined
      · simpa only [List.append_assoc] using hlater (List.forall_mem_cons.mp hclosed).2

end Scans

/-- The tokens of a text, where the text stands behind another one. -/
theorem scans_moved (front : List Char) (source : String) :
    Scans front source.toList ((tokenize source).map (Token.moved front)) := by
  have hmoved := (scans_tokenize source).moved front
  rwa [List.append_nil] at hmoved

/-- Two texts stay apart: there is a gap between them, or else a token ends where they meet. -/
def Apart (a gap b : String) : Prop :=
  gap ≠ "" ∨ ∃ token ∈ tokenize (a ++ b), token.endOffset = a.utf8ByteSize

theorem tokenize_of_apart {a gap b : String} (hclosed : ∀ token ∈ tokenize a, ¬ token.opensComment)
    (hgap : Gap gap.toList) (hapart : Apart a gap b) :
    tokenize (a ++ gap ++ b) =
      (tokenize a).dropLast ++ (tokenize b).map (Token.moved (a ++ gap).toList) := by
  have hlater := scans_moved (a ++ gap).toList b
  by_cases hne : gap = ""
  · subst hne
    rcases hapart with hne | ⟨token, htoken, hend⟩
    · exact absurd rfl hne
    rw [← Text.byteLength_toList, ← List.nil_append a.toList] at hend
    have hscans := scans_tokenize (a ++ b)
    rw [String.toList_append] at hscans
    obtain ⟨initial, later, htokens, hinitial, hsplit⟩ := hscans.exists_split htoken hend
    rw [tokenize_eq_iff.mpr hinitial] at hclosed
    have hsplit' := hsplit fun token hmem => hclosed token (List.mem_append_left _ hmem)
    rw [String.append_empty] at hlater ⊢
    rw [htokens, tokenize_eq_iff.mpr hinitial, List.dropLast_concat]
    exact congrArg (initial ++ ·) (hsplit'.eq hlater)
  · have hne' : gap.toList ≠ [] := by simpa using hne
    rw [String.toList_append] at hlater
    have hwhole := (scans_tokenize a).append_gap hclosed hgap hne' hlater
    rw [tokenize_eq_iff, String.toList_append, String.toList_append, List.append_assoc]
    exact hwhole

/-- Scanning is compositional. Behind a text that leaves no comment open and a gap, the tokens of
another text follow, with their places moved. What tokens there are does not depend on the gap, nor
does it if a gap is put in between two tokens. -/
theorem tokenize_append_gap {a gap : String} (b : String)
    (hclosed : ∀ token ∈ tokenize a, ¬ token.opensComment) (hgap : Gap gap.toList)
    (hapart : Apart a gap b) :
    tokenize (a ++ gap ++ b) =
      (tokenize a).dropLast ++ (tokenize b).map (Token.moved (a ++ gap).toList) ∧
    ∀ gap' : String, Gap gap'.toList → Apart a gap' b →
      (tokenize (a ++ gap' ++ b)).map Token.content =
        (tokenize (a ++ gap ++ b)).map Token.content := by
  have hcontent (front : List Char) :
      ((tokenize b).map (Token.moved front)).map Token.content = (tokenize b).map Token.content := by
    rw [List.map_map]
    exact List.map_congr_left fun token _ => token.content_moved front
  refine ⟨tokenize_of_apart hclosed hgap hapart, fun gap' hgap' hapart' => ?_⟩
  rw [tokenize_of_apart hclosed hgap hapart, tokenize_of_apart hclosed hgap' hapart',
    List.map_append, List.map_append, hcontent, hcontent]

/-- A comment keeps the colon apart from the equals sign, and so does a blank. -/
theorem tokenize_append_gap_of_colon :
    tokenize ("x:" ++ "\x7bé\n\x7d" ++ "=y") =
      (tokenize "x:").dropLast ++ (tokenize "=y").map (Token.moved "x:\x7bé\n\x7d".toList) ∧
    (tokenize ("x:" ++ " " ++ "=y")).map Token.content =
      (tokenize ("x:" ++ "\x7bé\n\x7d" ++ "=y")).map Token.content := by
  have hclosed : ∀ token ∈ tokenize "x:", ¬ token.opensComment := by
    have htokens : tokenize "x:" = [⟨.identifier, "x", ⟨0, 1, ⟨1, 1⟩, ⟨1, 2⟩⟩⟩,
        ⟨.unknown, ":", ⟨1, 1, ⟨1, 2⟩, ⟨1, 3⟩⟩⟩, ⟨.endOfInput, "", ⟨2, 0, ⟨1, 3⟩, ⟨1, 3⟩⟩⟩] := by
      decide +kernel
    simp [htokens, Token.opensComment]
  have hcomment : Gap "\x7bé\n\x7d".toList := @Gap.comment ['é', '\n'] [] (by decide) .nil
  have hblank : Gap " ".toList := .blank (by decide) .nil
  have happend := tokenize_append_gap "=y" hclosed hcomment (.inl (by decide))
  exact ⟨happend.1, happend.2 " " hblank (.inl (by decide))⟩

end TinyLang

import TinyLang.Proofs.Token.Lexical
import TinyLang.Token.Scanner

namespace TinyLang

def Span.behind (front lexeme : List Char) : Span where
  offset := Text.byteLength front
  length := Text.byteLength lexeme
  start := Position.first.advance front
  stop := (Position.first.advance front).advance lexeme

def Token.behind (front : List Char) (kind : Token.Kind) (lexeme : List Char) : Token :=
  ⟨kind, String.ofList lexeme, .behind front lexeme⟩

/-- `Scans front rest tokens` says that the text `rest`, directly behind the text `front`, has these
tokens by the lexical rules. -/
inductive Scans : List Char → List Char → List Token → Prop
  | ending {front gap : List Char} (hgap : Gap gap) :
      Scans front gap [.behind (front ++ gap) .endOfInput []]
  /-- A comment that is never closed takes all that follows. -/
  | unclosed {front gap body : List Char} (hgap : Gap gap) (hbody : '}' ∉ body) :
      Scans front (gap ++ (['{'] ++ body)) [.behind (front ++ gap) .unknown ['{'],
        .behind (front ++ (gap ++ (['{'] ++ body))) .endOfInput []]
  | token {front gap lexeme after : List Char} {kind : Token.Kind} {tokens : List Token}
      (hgap : Gap gap) (hmatches : kind.Matches lexeme after) (hkind : kind ≠ .endOfInput)
      (hbrace : lexeme ≠ ['{']) (later : Scans (front ++ (gap ++ lexeme)) after tokens) :
      Scans front (gap ++ (lexeme ++ after)) (.behind (front ++ gap) kind lexeme :: tokens)

/-- Every text has tokens. -/
theorem exists_scans (front rest : List Char) : ∃ tokens, Scans front rest tokens := by
  induction hlength : rest.length using Nat.strong_induction_on generalizing front rest with
  | _ length ih =>
    subst hlength
    obtain ⟨gap, kind, lexeme, after, hgap, hmatches, rfl⟩ := Chunk.exists_matches rest
    by_cases hkind : kind = .endOfInput
    · subst hkind
      obtain ⟨rfl, rfl⟩ := hmatches
      exact ⟨_, by simpa using .ending hgap⟩
    by_cases hbrace : lexeme = ['{']
    · subst hbrace
      exact ⟨_, .unclosed hgap hmatches.eq_unknown.2⟩
    · have hlexeme := List.length_pos_iff.mpr (hmatches.lexeme_ne_nil hkind)
      have hshorter : after.length < (gap ++ (lexeme ++ after)).length := by
        simp
        omega
      obtain ⟨tokens, later⟩ := ih after.length hshorter (front ++ (gap ++ lexeme)) after rfl
      exact ⟨_, .token hgap hmatches hkind hbrace later⟩

namespace Scanner

variable {source : String} {front gap lexeme after : List Char} {kind : Token.Kind}

def behind (source : String) (front rest : List Char) : Scanner where
  source
  rest
  offset := Text.byteLength front
  position := Position.first.advance front

/-- One step gives out the token that the lexical rules find, and passes it and what is dropped. -/
theorem next?_of_matches (hgap : Gap gap) (hmatches : kind.Matches lexeme after) :
    (behind source front (gap ++ (lexeme ++ after))).next? =
      some (.behind (front ++ gap) kind lexeme,
        { behind source (front ++ (gap ++ (lexeme ++ (Cut.ofMatch kind lexeme after).dropped)))
            (Cut.ofMatch kind lexeme after).rest with
          finished := kind = .endOfInput }) := by
  have hcut : (Cut.ofMatch kind lexeme after).kind = kind ∧
      (Cut.ofMatch kind lexeme after).lexeme = lexeme := by
    rw [Cut.ofMatch]
    split <;> exact ⟨rfl, rfl⟩
  simp [next?, behind, Chunk.ofText_of_matches hgap hmatches, hcut, Token.behind, Span.behind,
    Nat.add_assoc]

theorem remaining_of_next? {scan after : Scanner} {token : Token}
    (h : scan.next? = some (token, after)) : scan.remaining = token :: after.remaining := by
  rw [remaining]
  split
  · simp_all
  · simp_all

theorem remaining_of_finished {scan : Scanner} (h : scan.finished = true) :
    scan.remaining = [] := by
  rw [remaining]
  split
  · rfl
  · simp_all [next?]

/-- Behind the last token, scanning gives out the end of the input and nothing more. -/
theorem remaining_of_gap (source : String) (front : List Char) (hgap : Gap gap) :
    (behind source front gap).remaining = [.behind (front ++ gap) .endOfInput []] := by
  have hmatches : Token.Kind.Matches .endOfInput [] [] := ⟨rfl, rfl⟩
  have hnext := @next?_of_matches source front _ _ _ _ hgap hmatches
  rw [List.append_nil, List.append_nil] at hnext
  rw [remaining_of_next? hnext, remaining_of_finished (by simp)]

/-- Scanning gives out the tokens that the lexical rules find. -/
theorem remaining_of_scans {rest : List Char} {tokens : List Token} (h : Scans front rest tokens) :
    (behind source front rest).remaining = tokens := by
  induction h with
  | ending hgap => exact remaining_of_gap source _ hgap
  | @unclosed front gap body hgap hbody =>
    have hmatches : Token.Kind.Matches .unknown ['{'] body := ⟨_, rfl, .openBrace hbody⟩
    rw [remaining_of_next? (next?_of_matches hgap hmatches)]
    have hlater := remaining_of_gap source (front ++ (gap ++ (['{'] ++ body))) .nil
    rw [List.append_nil] at hlater
    rw [← hlater]
    rfl
  | token hgap hmatches hkind hbrace later ih =>
    rw [remaining_of_next? (next?_of_matches hgap hmatches), ← ih]
    simp [Cut.ofMatch, hbrace, hkind, behind]

end Scanner

/-- The tokens of a text are those, and only those, that the lexical rules find. -/
theorem tokenize_eq_iff {source : String} {tokens : List Token} :
    tokenize source = tokens ↔ Scans [] source.toList tokens := by
  have hscan : tokenize source = (Scanner.behind source [] source.toList).remaining := rfl
  constructor
  · rintro rfl
    obtain ⟨tokens, h⟩ := exists_scans [] source.toList
    rwa [hscan, Scanner.remaining_of_scans h]
  · intro h
    rw [hscan, Scanner.remaining_of_scans h]

theorem scans_tokenize (source : String) : Scans [] source.toList (tokenize source) :=
  tokenize_eq_iff.mp rfl

end TinyLang

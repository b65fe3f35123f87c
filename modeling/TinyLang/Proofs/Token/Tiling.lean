import Mathlib.Data.List.Chain
import TinyLang.Proofs.Token.Scanning

namespace TinyLang

namespace Token

def endOffset (token : Token) : Nat := token.span.offset + token.span.length

def Precedes (token later : Token) : Prop := token.endOffset ≤ later.span.offset

instance : Trans Precedes Precedes Precedes where
  trans := fun hab hbc => (hab.trans (Nat.le_add_right _ _)).trans hbc

def opensComment (token : Token) : Prop :=
  token.kind = .unknown ∧ token.lexeme.toList = ['{']

structure Adjacent (source : List Char) (token next : Token) (gap : List Char) : Prop where
  precedes : token.Precedes next
  slice :
    Text.slice? token.endOffset (next.span.offset - token.endOffset) source = some gap
  between : ¬ token.opensComment → Gap gap
  dropped : token.opensComment → '}' ∉ gap ∧ next.kind = .endOfInput ∧
    next.span.offset = Text.byteLength source

@[simp] theorem behind_kind (front : List Char) (kind : Kind) (lexeme : List Char) :
    (behind front kind lexeme).kind = kind := rfl

@[simp] theorem behind_lexeme (front : List Char) (kind : Kind) (lexeme : List Char) :
    (behind front kind lexeme).lexeme = String.ofList lexeme := rfl

@[simp] theorem behind_offset (front : List Char) (kind : Kind) (lexeme : List Char) :
    (behind front kind lexeme).span.offset = Text.byteLength front := rfl

@[simp] theorem behind_length (front : List Char) (kind : Kind) (lexeme : List Char) :
    (behind front kind lexeme).span.length = Text.byteLength lexeme := rfl

@[simp] theorem behind_endOffset (front : List Char) (kind : Kind) (lexeme : List Char) :
    (behind front kind lexeme).endOffset = Text.byteLength (front ++ lexeme) := by
  rw [Text.byteLength_append]
  rfl

end Token

namespace Scans

variable {front rest : List Char} {tokens : List Token}

/-- The last token, and no other one, is the end of the input, and stands behind the text. -/
theorem exists_ending (h : Scans front rest tokens) : ∃ initial,
    tokens = initial ++ [.behind (front ++ rest) .endOfInput []] ∧
      ∀ token ∈ initial, token.kind ≠ .endOfInput := by
  induction h with
  | ending hgap => exact ⟨[], rfl, by simp⟩
  | unclosed hgap hbody => exact ⟨[_], rfl, by simp⟩
  | @token front gap lexeme after kind tokens hgap hmatches hkind hbrace later ih =>
    obtain ⟨initial, rfl, hinitial⟩ := ih
    refine ⟨.behind (front ++ gap) kind lexeme :: initial, by simp, ?_⟩
    rw [List.forall_mem_cons]
    exact ⟨hkind, hinitial⟩

/-- Each token is spelled by the lexical rules, and stands at its place. -/
theorem exists_behind (h : Scans front rest tokens) : ∀ token ∈ tokens, ∃ before lexeme after,
    before ++ (lexeme ++ after) = front ++ rest ∧ token = .behind before token.kind lexeme ∧
      token.kind.Matches lexeme after := by
  induction h with
  | ending hgap =>
    rw [List.forall_mem_singleton]
    exact ⟨_, [], [], List.append_nil _, rfl, rfl, rfl⟩
  | @unclosed front gap body hgap hbody =>
    rw [List.forall_mem_cons, List.forall_mem_singleton]
    constructor
    · exact ⟨_, ['{'], body, by simp, rfl, _, rfl, .openBrace hbody⟩
    · exact ⟨_, [], [], List.append_nil _, rfl, rfl, rfl⟩
  | @token front gap lexeme after kind tokens hgap hmatches hkind hbrace later ih =>
    rw [List.forall_mem_cons]
    refine ⟨⟨front ++ gap, lexeme, after, by simp, rfl, hmatches⟩, fun token htoken => ?_⟩
    obtain ⟨before, lexeme', after', hbefore, htoken⟩ := ih token htoken
    exact ⟨before, lexeme', after', by simp [hbefore], htoken⟩

/-- The text of a token is the slice of the whole text at its place. -/
theorem slice (h : Scans front rest tokens) : ∀ token ∈ tokens,
    Text.slice? token.span.offset token.span.length (front ++ rest) =
      some token.lexeme.toList := by
  intro token htoken
  obtain ⟨before, lexeme, after, hsource, htoken, -⟩ := h.exists_behind token htoken
  rw [htoken, ← hsource, Token.behind_lexeme, String.toList_ofList]
  exact Text.slice?_append before lexeme after

/-- The text of a token is empty only at the end of the input. -/
theorem lexeme_ne (h : Scans front rest tokens) : ∀ token ∈ tokens,
    token.kind ≠ .endOfInput → token.lexeme ≠ "" := by
  intro token htoken hkind hempty
  obtain ⟨before, lexeme, after, -, htoken, hmatches⟩ := h.exists_behind token htoken
  refine hmatches.lexeme_ne_nil hkind ?_
  rw [htoken, Token.behind_lexeme] at hempty
  simpa using hempty

/-- There is no blank in the text of a token. -/
theorem not_isBlank (h : Scans front rest tokens) : ∀ token ∈ tokens, ∀ c ∈ token.lexeme.toList,
    Text.isBlank c = false := by
  intro token htoken
  obtain ⟨before, lexeme, after, -, htoken, hmatches⟩ := h.exists_behind token htoken
  rw [htoken, Token.behind_lexeme, String.toList_ofList]
  exact hmatches.not_isBlank

/-- The first token stands behind a gap. -/
theorem exists_first (h : Scans front rest tokens) : ∃ gap token after,
    tokens.head? = some token ∧ Gap gap ∧ front ++ rest = front ++ (gap ++ after) ∧
      token.span.offset = Text.byteLength (front ++ gap) := by
  cases h with
  | ending hgap => exact ⟨rest, _, [], rfl, hgap, by simp, rfl⟩
  | unclosed hgap hbody => exact ⟨_, _, _, rfl, hgap, rfl, rfl⟩
  | token hgap hmatches hkind hbrace later => exact ⟨_, _, _, rfl, hgap, rfl, rfl⟩

/-- Between two tokens there is only what may stand there. -/
theorem isChain (h : Scans front rest tokens) :
    tokens.IsChain fun token next => ∃ gap, token.Adjacent (front ++ rest) next gap := by
  induction h with
  | ending hgap => exact .singleton _
  | @unclosed front gap body hgap hbody =>
    refine .cons_cons ⟨body, ?_⟩ (.singleton _)
    have hslice := Text.slice?_append (front ++ gap ++ ['{']) body []
    exact
      { precedes := by simp [Token.Precedes]
        slice := by simpa [Nat.add_sub_cancel_left, ← Nat.add_assoc] using hslice
        between := fun h => absurd ⟨rfl, by simp⟩ h
        dropped := fun _ => ⟨hbody, rfl, by simp⟩ }
  | @token front gap lexeme after kind tokens hgap hmatches hkind hbrace later ih =>
    obtain ⟨gap', next, after', hnext, hgap', hafter, hoffset⟩ := later.exists_first
    obtain ⟨tokens', rfl⟩ := List.head?_eq_some_iff.mp hnext
    have hwhole : front ++ (gap ++ lexeme) ++ after = front ++ (gap ++ (lexeme ++ after)) := by simp
    rw [hwhole] at ih hafter
    refine .cons_cons ⟨gap', ?_⟩ ih
    have hslice := Text.slice?_append (front ++ (gap ++ lexeme)) gap' after'
    rw [← hafter] at hslice
    exact
      { precedes := by simp [Token.Precedes, hoffset]
        slice := by simpa [hoffset, Nat.add_sub_cancel_left, ← Nat.add_assoc] using hslice
        between := fun _ => hgap'
        dropped := fun h => absurd (by simpa using h.2) hbrace }

end Scans

/-- The tokens of a text tile it. -/
structure Tiling (source : String) (tokens : List Token) : Prop where
  ending : ∃ initial last, tokens = initial ++ [last] ∧
    (∀ token ∈ initial, token.kind ≠ .endOfInput) ∧ last.kind = .endOfInput ∧
      last.span.offset = source.utf8ByteSize ∧ last.span.length = 0
  ordered : tokens.Pairwise Token.Precedes
  lexeme : ∀ token ∈ tokens,
    Text.slice? token.span.offset token.span.length source.toList = some token.lexeme.toList ∧
      (token.kind ≠ .endOfInput → token.lexeme ≠ "")
  firstGap : ∃ gap token, tokens.head? = some token ∧ Gap gap ∧
    Text.slice? 0 token.span.offset source.toList = some gap
  laterGap : tokens.IsChain fun token next => ∃ gap, token.Adjacent source.toList next gap

/-- The tokens of a text tile it, and scanning never comes to a text of which no token can be
recognized. -/
theorem tiling_tokenize (source : String) :
    Tiling source (tokenize source) ∧
      ∀ scan : Scanner, (Chunk.recognize? scan.rest).isSome = true := by
  have h := scans_tokenize source
  refine ⟨?_, fun scan => Chunk.isSome_recognize? scan.rest⟩
  exact
    { ending := by
        obtain ⟨initial, htokens, hinitial⟩ := h.exists_ending
        exact ⟨initial, _, htokens, hinitial, rfl, Text.byteLength_toList source, rfl⟩
      ordered := by
        -- A token ends no earlier than it begins, so it is enough to compare neighbours.
        have hneighbours : (tokenize source).IsChain Token.Precedes :=
          h.isChain.imp fun token next ⟨_, hadjacent⟩ => hadjacent.precedes
        exact hneighbours.pairwise
      lexeme := fun token htoken => ⟨h.slice token htoken, h.lexeme_ne token htoken⟩
      firstGap := by
        obtain ⟨gap, token, after, hhead, hgap, hsource, hoffset⟩ := h.exists_first
        refine ⟨gap, token, hhead, hgap, ?_⟩
        rw [← List.nil_append source.toList, hsource, hoffset]
        exact Text.slice?_append [] gap after
      laterGap := h.isChain }

end TinyLang

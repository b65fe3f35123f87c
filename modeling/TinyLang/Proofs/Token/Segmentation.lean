import TinyLang.Proofs.Token.Tiling

namespace TinyLang

structure Piece where
  kind : Token.Kind
  offset : Nat
  length : Nat
deriving DecidableEq

def Token.piece (token : Token) : Piece := ⟨token.kind, token.span.offset, token.span.length⟩

namespace Piece

def endOffset (piece : Piece) : Nat := piece.offset + piece.length

def Spelled (source : List Char) (piece : Piece) : Prop :=
  ∃ front lexeme after, front ++ (lexeme ++ after) = source ∧
    Text.byteLength front = piece.offset ∧ Text.byteLength lexeme = piece.length ∧
      piece.kind.Matches lexeme after

def OpensComment (source : List Char) (piece : Piece) : Prop :=
  piece.kind = .unknown ∧ Text.slice? piece.offset piece.length source = some ['{']

def GapBetween (source : List Char) (start stop : Nat) : Prop :=
  ∃ gap, Gap gap ∧ start ≤ stop ∧ Text.slice? start (stop - start) source = some gap

/-- Between two pieces there is only what may stand between tokens, but behind a comment that is
never closed there is all that is left. -/
structure Adjacent (source : List Char) (piece next : Piece) : Prop where
  between : ¬ piece.OpensComment source → GapBetween source piece.endOffset next.offset
  dropped : piece.OpensComment source → next.offset = Text.byteLength source

end Piece

/-- Pieces into which a text can be cut by the lexical rules, from one of its bytes on. -/
structure Segmentation (source : List Char) (start : Nat) (pieces : List Piece) : Prop where
  ending : ∃ initial, pieces = initial ++ [⟨.endOfInput, Text.byteLength source, 0⟩] ∧
    ∀ piece ∈ initial, piece.kind ≠ .endOfInput
  spelled : ∀ piece ∈ pieces, piece.Spelled source
  firstGap : ∀ piece ∈ pieces.head?, Piece.GapBetween source start piece.offset
  laterGap : pieces.IsChain (Piece.Adjacent source)

namespace Piece

theorem gapBetween_of_append {front gap after : List Char} (hgap : Gap gap) :
    GapBetween (front ++ (gap ++ after)) (Text.byteLength front)
      (Text.byteLength (front ++ gap)) := by
  refine ⟨gap, hgap, by simp, ?_⟩
  rw [Text.byteLength_append, Nat.add_sub_cancel_left]
  exact Text.slice?_append front gap after

/-- The gap behind a known front of a text is the front of what is left. -/
theorem GapBetween.exists_append {front rest : List Char} {stop : Nat}
    (h : GapBetween (front ++ rest) (Text.byteLength front) stop) :
    ∃ gap after, Gap gap ∧ rest = gap ++ after ∧ stop = Text.byteLength (front ++ gap) := by
  obtain ⟨gap, hgap, hle, hslice⟩ := h
  obtain ⟨front', after, hsource, hfront, hlength⟩ := Text.slice?_eq_some_iff.mp hslice
  obtain ⟨-, rfl⟩ := Text.append_inj_of_byteLength hsource hfront.symm
  refine ⟨gap, after, hgap, rfl, ?_⟩
  rw [Text.byteLength_append]
  omega

/-- A piece behind a known front of a text has its text at the front of what is left. -/
theorem Spelled.exists_append {front rest : List Char} {piece : Piece}
    (h : piece.Spelled (front ++ rest)) (hoffset : piece.offset = Text.byteLength front) :
    ∃ lexeme after, rest = lexeme ++ after ∧ piece.length = Text.byteLength lexeme ∧
      piece.kind.Matches lexeme after := by
  obtain ⟨front', lexeme, after, hsource, hfront, hlength, hmatches⟩ := h
  obtain ⟨-, rfl⟩ := Text.append_inj_of_byteLength hsource (hfront.trans hoffset)
  exact ⟨lexeme, after, rfl, hlength.symm, hmatches⟩

/-- A piece behind the whole text has no text, and ends the input. -/
theorem Spelled.eq_endOfInput {source : List Char} {piece : Piece} (h : piece.Spelled source)
    (hoffset : piece.offset = Text.byteLength source) : piece.kind = .endOfInput := by
  rw [← List.append_nil source] at h
  obtain ⟨lexeme, after, hrest, -, hmatches⟩ := h.exists_append hoffset
  obtain ⟨rfl, -⟩ := List.append_eq_nil_iff.mp hrest.symm
  by_contra hkind
  exact hmatches.lexeme_ne_nil hkind rfl

theorem opensComment_iff {front lexeme after : List Char} {piece : Piece}
    (hoffset : piece.offset = Text.byteLength front)
    (hlength : piece.length = Text.byteLength lexeme) (hmatches : piece.kind.Matches lexeme after) :
    piece.OpensComment (front ++ (lexeme ++ after)) ↔ lexeme = ['{'] := by
  rw [OpensComment, hoffset, hlength, Text.slice?_append, Option.some_inj]
  refine and_iff_right_of_imp ?_
  rintro rfl
  exact hmatches.eq_unknown.1

end Piece

namespace Segmentation

variable {source : List Char} {start : Nat} {piece : Piece} {later : List Piece}

/-- The first piece is the end of the input and the only one, or there is a next one. -/
theorem cases (h : Segmentation source start (piece :: later)) :
    (piece = ⟨.endOfInput, Text.byteLength source, 0⟩ ∧ later = []) ∨
      (piece.kind ≠ .endOfInput ∧ ∃ next ∈ later.head?, piece.Adjacent source next ∧
        (next.kind = .endOfInput → later = [⟨.endOfInput, Text.byteLength source, 0⟩])) := by
  obtain ⟨⟨initial, hpieces, hinitial⟩, -, -, hchain⟩ := h
  cases initial with
  | nil =>
    obtain ⟨rfl, rfl⟩ := List.cons.inj hpieces
    exact .inl ⟨rfl, rfl⟩
  | cons first initial =>
    rw [List.cons_append] at hpieces
    obtain ⟨rfl, rfl⟩ := List.cons.inj hpieces
    obtain ⟨hkind, hinitial⟩ := List.forall_mem_cons.mp hinitial
    obtain ⟨hadjacent, -⟩ := List.isChain_cons.mp hchain
    refine .inr ⟨hkind, ?_⟩
    cases initial with
    | nil => exact ⟨_, rfl, hadjacent _ rfl, fun _ => rfl⟩
    | cons next initial =>
      refine ⟨next, rfl, hadjacent _ rfl, fun hend => ?_⟩
      exact absurd hend (hinitial next (List.mem_cons_self ..))

/-- What follows the first piece cuts up what is behind it. -/
theorem tail {next : Piece} (h : Segmentation source start (piece :: later))
    (hnext : next ∈ later.head?) (hopen : ¬ piece.OpensComment source) :
    Segmentation source piece.endOffset later := by
  obtain ⟨⟨initial, hpieces, hinitial⟩, hspelled, -, hchain⟩ := h
  obtain ⟨hadjacent, hlater⟩ := List.isChain_cons.mp hchain
  cases initial with
  | nil =>
    obtain ⟨-, rfl⟩ := List.cons.inj hpieces
    cases hnext
  | cons first initial =>
    rw [List.cons_append] at hpieces
    obtain ⟨rfl, rfl⟩ := List.cons.inj hpieces
    exact
      { ending := ⟨initial, rfl, (List.forall_mem_cons.mp hinitial).2⟩
        spelled := (List.forall_mem_cons.mp hspelled).2
        firstGap := fun next hnext => (hadjacent next hnext).between hopen
        laterGap := hlater }

end Segmentation

variable {front rest : List Char}

/-- The tokens that the lexical rules find are pieces into which the text can be cut. -/
theorem Scans.segmentation {tokens : List Token} (h : Scans front rest tokens) :
    Segmentation (front ++ rest) (Text.byteLength front) (tokens.map Token.piece) where
  ending := by
    obtain ⟨initial, rfl, hinitial⟩ := h.exists_ending
    exact ⟨initial.map Token.piece, by simp [Token.piece], by simpa [Token.piece] using hinitial⟩
  spelled := by
    rw [List.forall_mem_map]
    intro token htoken
    obtain ⟨before, lexeme, after, hsource, htoken, hmatches⟩ := h.exists_behind token htoken
    refine ⟨before, lexeme, after, hsource, ?_, ?_, hmatches⟩ <;> rw [htoken] <;> rfl
  firstGap := by
    obtain ⟨gap, token, after, hhead, hgap, hsource, hoffset⟩ := h.exists_first
    rw [List.head?_map, hhead, hsource]
    rintro _ ⟨⟩
    rw [Token.piece, hoffset]
    exact Piece.gapBetween_of_append hgap
  laterGap := by
    rw [List.isChain_map]
    refine h.isChain.imp_of_mem_imp ?_
    rintro token next htoken - ⟨gap, hadjacent⟩
    have hopen : token.piece.OpensComment (front ++ rest) ↔ token.opensComment := by
      simp only [Piece.OpensComment, Token.opensComment, Token.piece, h.slice token htoken,
        Option.some_inj]
    exact
      { between := fun hno => ⟨gap, hadjacent.between (hopen.not.mp hno), hadjacent.precedes,
          hadjacent.slice⟩
        dropped := fun hyes => (hadjacent.dropped (hopen.mp hyes)).2.2 }

/-- Pieces into which a text can be cut are the tokens that the lexical rules find. -/
theorem Segmentation.exists_scans {pieces : List Piece}
    (h : Segmentation (front ++ rest) (Text.byteLength front) pieces) :
    ∃ tokens, Scans front rest tokens ∧ pieces = tokens.map Token.piece := by
  induction pieces generalizing front rest with
  | nil =>
    obtain ⟨⟨initial, hpieces, -⟩, -, -, -⟩ := h
    simp at hpieces
  | cons piece later ih =>
    obtain ⟨gap, rest, hgap, rfl, hoffset⟩ := (h.firstGap piece rfl).exists_append
    rw [← List.append_assoc] at h
    have hspelled := h.spelled piece (List.mem_cons_self ..)
    obtain ⟨lexeme, after, rfl, hlength, hmatches⟩ := hspelled.exists_append hoffset
    have hopen := Piece.opensComment_iff hoffset hlength hmatches
    have hpiece : piece = (Token.behind (front ++ gap) piece.kind lexeme).piece := by
      cases piece
      simp_all [Token.piece]
    obtain ⟨rfl, rfl⟩ | ⟨hkind, next, hnext, hadjacent, hlast⟩ := h.cases
    · obtain ⟨rfl, rfl⟩ := hmatches
      refine ⟨[.behind (front ++ gap) .endOfInput []], by simpa using .ending hgap, ?_⟩
      rw [hpiece]
      rfl
    by_cases hbrace : lexeme = ['{']
    · subst hbrace
      have hmem := List.mem_cons_of_mem piece (List.mem_of_head? hnext)
      have hend := (h.spelled next hmem).eq_endOfInput (hadjacent.dropped (hopen.mpr rfl))
      obtain ⟨hkind, hbody⟩ := hmatches.eq_unknown
      refine ⟨_, .unclosed hgap hbody, ?_⟩
      rw [hlast hend, hpiece, hkind]
      simp [Token.piece]
    · have htext : front ++ gap ++ (lexeme ++ after) = front ++ (gap ++ lexeme) ++ after := by simp
      have hend : piece.endOffset = Text.byteLength (front ++ (gap ++ lexeme)) := by
        rw [Piece.endOffset, hoffset, hlength]
        simp [Nat.add_assoc]
      have hlater := h.tail hnext (hopen.not.mpr hbrace)
      rw [hend, htext] at hlater
      obtain ⟨tokens, hscans, rfl⟩ := ih hlater
      refine ⟨_, .token hgap hmatches hkind hbrace hscans, ?_⟩
      rw [List.map_cons, ← hpiece]

/-- The tokens of a text are the only way to cut it into pieces by the lexical rules. -/
theorem segmentation_iff (source : String) (pieces : List Piece) :
    Segmentation source.toList 0 pieces ↔ pieces = (tokenize source).map Token.piece := by
  constructor
  · intro h
    obtain ⟨tokens, hscans, rfl⟩ := @Segmentation.exists_scans [] source.toList pieces h
    rw [tokenize_eq_iff.mpr hscans]
  · rintro rfl
    exact (scans_tokenize source).segmentation

end TinyLang

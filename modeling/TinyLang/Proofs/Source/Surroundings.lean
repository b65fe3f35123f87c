import Mathlib.Data.List.Nodup
import TinyLang.Proofs.Source.Excerpts
import TinyLang.Proofs.Text.Trimming

namespace TinyLang

namespace Text

/-- There is one more piece than there are separators. -/
theorem length_pieces {α : Type} [DecidableEq α] (separator : α) (text : List α) :
    (pieces separator text).length = text.count separator + 1 := by
  induction text using pieces_induction separator with
  | last text hnot =>
    rw [pieces_of_not_mem hnot, List.count_eq_zero.mpr hnot, List.length_singleton]
  | step front rest hnot ih =>
    rw [pieces_append hnot, List.length_cons, ih, List.count_append, List.count_eq_zero.mpr hnot,
      List.count_cons_self, Nat.zero_add]

end Text

namespace SourceLine

def total (source : String) : Nat := source.toList.count '\n' + 1

/-- The line is cut out of the source: what stands before it, the carriage returns that it does not
show, and what stands behind it make up the source together with its text. -/
structure CutFrom (source : String) (line : SourceLine) (front returns back : List Char) :
    Prop where
  source_eq : source.toList = front ++ (line.text.toList ++ (returns ++ back))
  starts : front = [] ∨ front.getLast? = some '\n'
  ends : back = [] ∨ back.head? = some '\n'
  feed_not_mem : '\n' ∉ line.text.toList
  returns_eq : ∀ c ∈ returns, c = '\r'
  last_ne : ∀ c ∈ line.text.toList.getLast?, c ≠ '\r'
  number_eq : line.number = front.count '\n' + 1
  offset_eq : line.offset = Text.byteLength front

/-- What is left of a piece without its carriage returns is a line where the piece stands. -/
theorem exists_cutFrom {source : String} {front piece back : List Char}
    (hsource : source.toList = front ++ (piece ++ back))
    (hstarts : front = [] ∨ front.getLast? = some '\n')
    (hends : back = [] ∨ back.head? = some '\n') (hpiece : '\n' ∉ piece) (column : Nat) :
    ∃ returns, CutFrom source ⟨front.count '\n' + 1, column, Text.byteLength front,
      String.ofList (Text.trimReturns piece)⟩ front returns back := by
  obtain ⟨returns, hcut, hreturns, hlast⟩ := Text.exists_dropEndWhile (· == '\r') piece
  have htext : (String.ofList (Text.trimReturns piece)).toList = Text.trimReturns piece :=
    String.toList_ofList
  refine ⟨returns, ?_, hstarts, hends, ?_, fun c hc => beq_iff_eq.mp (hreturns c hc), ?_, rfl, rfl⟩
  · rw [hsource, htext, ← List.append_assoc (Text.trimReturns piece)]
    exact congrArg (fun text => front ++ (text ++ back)) hcut
  · rw [htext]
    intro hmem
    apply hpiece
    rw [hcut]
    exact List.mem_append_left _ hmem
  · rw [htext]
    exact fun c hc => beq_eq_false_iff_ne.mp (hlast c hc)

/-- The lines of the rest of a source are cut from it where they stand. -/
theorem cutFrom_of_mem_enumerate {source : String} {front rest : List Char} {line : SourceLine}
    (hsource : source.toList = front ++ rest)
    (hstarts : front = [] ∨ front.getLast? = some '\n')
    (h : line ∈ enumerate (front.count '\n' + 1) (Text.byteLength front) (Text.pieces '\n' rest)) :
    ∃ before returns after, CutFrom source line before returns after := by
  induction rest using Text.pieces_induction '\n' generalizing front with
  | last text hfeed =>
    rw [Text.pieces_of_not_mem hfeed] at h
    obtain rfl := List.mem_singleton.mp h
    have hend : source.toList = front ++ (text ++ []) := by rw [hsource, List.append_nil]
    obtain ⟨returns, hcut⟩ := exists_cutFrom hend hstarts (.inl rfl) hfeed 0
    exact ⟨front, returns, [], hcut⟩
  | step piece rest hfeed ih =>
    rw [Text.pieces_append hfeed, enumerate] at h
    rcases List.mem_cons.mp h with rfl | hlater
    · obtain ⟨returns, hcut⟩ := exists_cutFrom hsource hstarts (.inr rfl) hfeed 0
      exact ⟨front, returns, '\n' :: rest, hcut⟩
    · have hnext : source.toList = (front ++ (piece ++ ['\n'])) ++ rest := by simp [hsource]
      have hnumber : (front ++ (piece ++ ['\n'])).count '\n' = front.count '\n' + 1 := by
        simp [List.count_eq_zero.mpr hfeed]
      have hoffset : Text.byteLength (front ++ (piece ++ ['\n'])) =
          Text.byteLength front + Text.byteLength piece + 1 := by
        have hsize : '\n'.utf8Size = 1 := by decide
        simp [hsize, Nat.add_assoc]
      refine ih hnext (.inr (by simp)) ?_
      rwa [hnumber, hoffset]

theorem cutFrom_of_mem_all {source : String} {line : SourceLine} (h : line ∈ all source) :
    ∃ before returns after, CutFrom source line before returns after :=
  cutFrom_of_mem_enumerate (List.nil_append _).symm (.inl rfl) h

theorem map_number_enumerate (lines : List (List Char)) (number offset : Nat) :
    (enumerate number offset lines).map SourceLine.number = List.range' number lines.length := by
  induction lines generalizing number offset with
  | nil => rfl
  | cons line lines ih => rw [enumerate, List.map_cons, ih, List.length_cons, List.range'_succ]

theorem map_number_all (source : String) :
    (all source).map SourceLine.number = List.range' 1 (total source) := by
  rw [all, map_number_enumerate, Text.length_pieces, total]

end SourceLine

section Excerpt

/-- The lines of the source that are near to a span. The one on which the span starts has its
column. -/
def nearLines (before after : Nat) (source : String) (span : Span) : List SourceLine :=
  ((SourceLine.all source).filter fun line =>
    span.line - before ≤ line.number && line.number ≤ span.line + after).map fun line =>
      if line.number = span.line then { line with column := span.column - 1 } else line

variable {before after : Nat} {source : String} {span : Span}

theorem map_number_nearLines :
    (nearLines before after source span).map SourceLine.number =
      (List.range' 1 (SourceLine.total source)).filter fun number =>
        span.line - before ≤ number && number ≤ span.line + after := by
  rw [nearLines, ← SourceLine.map_number_all, List.filter_map, List.map_map]
  apply List.map_congr_left
  intro line _
  simp only [Function.comp_apply]
  split <;> rfl

theorem mem_map_number_nearLines_iff {number : Nat} :
    number ∈ (nearLines before after source span).map SourceLine.number ↔
      number ≤ SourceLine.total source ∧ max 1 (span.line - before) ≤ number ∧
        number ≤ span.line + after := by
  rw [map_number_nearLines, List.mem_filter, List.mem_range'_1]
  simp only [Bool.and_eq_true, decide_eq_true_eq]
  omega

theorem exists_of_mem_nearLines {line : SourceLine}
    (h : line ∈ nearLines before after source span) : ∃ entry ∈ SourceLine.all source,
      line = { entry with column := if entry.number = span.line then span.column - 1 else 0 } := by
  obtain ⟨entry, hentry, rfl⟩ := List.mem_map.mp h
  have hall := List.mem_of_mem_filter hentry
  have hcolumn := (SourceLine.number_of_mem_enumerate hall).2.2
  refine ⟨entry, hall, ?_⟩
  split
  · rfl
  · rw [← hcolumn]

/-- Past the last line a line of its own is added. -/
theorem excerpt_eq_append (hline : 1 ≤ span.line) :
    excerpt before after source span = nearLines before after source span ++
      if span.line ≤ SourceLine.total source then []
      else [⟨span.line, span.column - 1, source.utf8ByteSize, ""⟩] := by
  have hbase : ((nearLines before after source span).any fun line => line.number == span.line) =
      decide (span.line ≤ SourceLine.total source) := by
    have hmem : span.line ∈ (nearLines before after source span).map SourceLine.number ↔
        span.line ≤ SourceLine.total source := by
      rw [mem_map_number_nearLines_iff]
      omega
    rw [Bool.eq_iff_iff, decide_eq_true_iff, ← hmem, List.any_eq_true, List.mem_map]
    simp only [beq_iff_eq]
  rw [← Text.byteLength_toList]
  change (if ((nearLines before after source span).any fun line => line.number == span.line) = true
    then nearLines before after source span
    else nearLines before after source span ++ _) = _
  rw [hbase]
  by_cases hwithin : span.line ≤ SourceLine.total source
  · rw [if_pos (decide_eq_true hwithin), if_pos hwithin, List.append_nil]
  · rw [if_neg (by simpa using hwithin), if_neg hwithin]

theorem pairwise_excerpt (hline : 1 ≤ span.line) :
    (excerpt before after source span).Pairwise (·.number < ·.number) := by
  rw [excerpt_eq_append hline, List.pairwise_append]
  refine ⟨?_, ?_, fun line hnear line' hpast => ?_⟩
  · rw [← List.pairwise_map, map_number_nearLines]
    exact List.Pairwise.filter _ List.pairwise_lt_range'
  · split
    · exact .nil
    · exact List.pairwise_singleton _ _
  · have hwithin := mem_map_number_nearLines_iff.mp (List.mem_map_of_mem hnear)
    split at hpast
    · cases hpast
    · obtain rfl := List.mem_singleton.mp hpast
      show line.number < span.line
      omega

theorem mem_map_number_excerpt_iff (hline : 1 ≤ span.line) {number : Nat} :
    number ∈ (excerpt before after source span).map SourceLine.number ↔ number = span.line ∨
      number ≤ SourceLine.total source ∧ max 1 (span.line - before) ≤ number ∧
        number ≤ span.line + after := by
  rw [excerpt_eq_append hline, List.map_append, List.mem_append, mem_map_number_nearLines_iff]
  split
  · simp only [List.map_nil, List.not_mem_nil, or_false]
    omega
  · rw [List.map_singleton, List.mem_singleton, or_comm]

structure Surrounding (before after : Nat) (source : String) (span : Span)
    (lines : List SourceLine) : Prop where
  increasing : lines.Pairwise (·.number < ·.number)
  count_line : (lines.map SourceLine.number).count span.line = 1
  number_iff : ∀ number, number ∈ lines.map SourceLine.number ↔ number = span.line ∨
    number ≤ SourceLine.total source ∧ max 1 (span.line - before) ≤ number ∧
      number ≤ span.line + after
  cutFrom : ∀ line ∈ lines, line.number ≤ SourceLine.total source →
    ∃ front returns back, line.CutFrom source front returns back
  column_eq : ∀ line ∈ lines,
    line.column = if line.number = span.line then span.column - 1 else 0
  /-- The line of a span past the last line is empty and comes last. -/
  past_end : SourceLine.total source < span.line →
    lines.getLast? = some ⟨span.line, span.column - 1, source.utf8ByteSize, ""⟩

/-- The lines around a span are those of the source near the line on which the span starts, each as
it is in the source. -/
theorem surrounding_excerptAt (before after : Nat) (source : String) (hline : 1 ≤ span.line) :
    (excerptAt before after source span).2 = span.line ∧
      Surrounding before after source span (excerptAt before after source span).1 := by
  have hincreasing : (excerpt before after source span).Pairwise (·.number < ·.number) :=
    pairwise_excerpt hline
  have hcases : ∀ line ∈ excerpt before after source span,
      line ∈ nearLines before after source span ∨ SourceLine.total source < span.line ∧
        line = ⟨span.line, span.column - 1, source.utf8ByteSize, ""⟩ := by
    intro line hmem
    rw [excerpt_eq_append hline, List.mem_append] at hmem
    split at hmem
    · exact .inl (hmem.resolve_right List.not_mem_nil)
    · next hpast => exact hmem.imp_right fun h => ⟨Nat.lt_of_not_le hpast, List.mem_singleton.mp h⟩
  refine ⟨rfl, ?_⟩
  exact
    { increasing := hincreasing
      count_line := by
        have hnodup : ((excerpt before after source span).map SourceLine.number).Nodup :=
          (List.pairwise_map.mpr hincreasing).imp Nat.ne_of_lt
        have hmem : span.line ∈ (excerpt before after source span).map SourceLine.number :=
          (mem_map_number_excerpt_iff hline).mpr (.inl rfl)
        exact List.count_eq_one_of_mem hnodup hmem
      number_iff := fun number => mem_map_number_excerpt_iff hline
      cutFrom := by
        intro line hmem hwithin
        obtain hnear | ⟨hpast, rfl⟩ := hcases line hmem
        · obtain ⟨entry, hall, rfl⟩ := exists_of_mem_nearLines hnear
          obtain ⟨front, returns, back, hcut⟩ := SourceLine.cutFrom_of_mem_all hall
          exact ⟨front, returns, back, { hcut with }⟩
        · exact absurd hwithin (Nat.not_le_of_lt hpast)
      column_eq := by
        intro line hmem
        obtain hnear | ⟨-, rfl⟩ := hcases line hmem
        · obtain ⟨entry, -, rfl⟩ := exists_of_mem_nearLines hnear
          rfl
        · exact (if_pos rfl).symm
      past_end := by
        intro hpast
        change (excerpt before after source span).getLast? = _
        rw [excerpt_eq_append hline, if_neg (Nat.not_le_of_lt hpast), List.getLast?_concat] }

/-- A span past the end of a text of two lines, of which the first ends with a carriage return. -/
theorem surrounding_excerptAt_of_past_end :
    let span : Span := .point 6 ⟨4, 0⟩
    1 ≤ span.line ∧
      (excerptAt 2 1 "é\r\nx\r" span) = ([⟨2, 0, 4, "x"⟩, ⟨4, 0, 6, ""⟩], 4) ∧
      Surrounding 2 1 "é\r\nx\r" span [⟨2, 0, 4, "x"⟩, ⟨4, 0, 6, ""⟩] := by
  intro span
  have hline : 1 ≤ span.line := by decide
  have hlines : excerptAt 2 1 "é\r\nx\r" span = ([⟨2, 0, 4, "x"⟩, ⟨4, 0, 6, ""⟩], 4) := by
    decide +kernel
  have hsurrounding := (surrounding_excerptAt 2 1 "é\r\nx\r" hline).2
  rw [hlines] at hsurrounding
  exact ⟨hline, hlines, hsurrounding⟩

end Excerpt

end TinyLang

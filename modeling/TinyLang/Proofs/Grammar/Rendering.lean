import TinyLang.Proofs.Grammar.Ending
import TinyLang.Proofs.Grammar.Location
import TinyLang.Proofs.Source.Excerpts
import TinyLang.Proofs.Text.Quoting

namespace TinyLang

namespace SyntaxError

namespace Cause

open TinyLang.Text (IsLine)

theorem isLine_name (kind : Token.Kind) : IsLine kind.name.toList := by
  have hall : ∀ kind ∈ Token.Kind.all, IsLine kind.name.toList := by decide
  exact hall kind kind.mem_all

theorem isLine_describe (token : Token) : IsLine (describe token).toList := by
  unfold describe
  split
  · decide
  · apply IsLine.toList_append ?_ (Text.isLine_quote token.lexeme)
    exact IsLine.toList_append (isLine_name token.kind) (by decide)

/-- Whatever stands in the tokens, a message is a single line. -/
theorem isLine_message (cause : Cause) : IsLine cause.message.toList := by
  cases cause with
  | expectedToken expected found =>
    have hkinds : IsLine (" or ".intercalate (expected.map Token.Kind.name)).toList := by
      rw [String.toList_intercalate, List.map_map]
      apply IsLine.intercalate (by decide)
      rw [List.forall_mem_map]
      exact fun kind _ => isLine_name kind
    apply IsLine.toList_append ?_ (isLine_describe found)
    apply IsLine.toList_append ?_ (by decide)
    exact IsLine.toList_append (by decide) hkinds
  | expectedStatement found => exact IsLine.toList_append (by decide) (isLine_describe found)
  | expectedExpression found => exact IsLine.toList_append (by decide) (isLine_describe found)
  | unknownCharacter text => exact IsLine.toList_append (by decide) (Text.isLine_quote text)
  | unclosedComment => decide
  | numberTooLarge text =>
    apply IsLine.toList_append ?_ (by decide)
    exact IsLine.toList_append (by decide) (Text.isLine_quote text)
  | nestingTooDeep limit => exact IsLine.toList_append (by decide) (.toString limit)

end Cause

end SyntaxError

/-- Of the tokens of a text only the last one is not kept. -/
theorem Token.filter_open {initial : List Token} {last : Token}
    (hinitial : ∀ token ∈ initial, token.isEnd = false) (hlast : last.isEnd = true) :
    ((initial ++ [last]).filter fun token => !token.isEnd) = initial := by
  have hkept : initial.filter (fun token => !token.isEnd) = initial :=
    List.filter_eq_self.mpr fun token htoken => by rw [hinitial token htoken]; rfl
  rw [List.filter_append, hkept]
  simp [hlast]

namespace Scans

variable {source : String} {tokens : List Token}

/-- A token is seen on the line on which it starts, at its column. -/
theorem exists_shown (h : Scans [] source.toList tokens) {token : Token} (hmem : token ∈ tokens)
    (hopen : token.isEnd = false) : ∃ before after,
      SourceLine.shown source token.span.start.line =
        before ++ (token.lexeme.toList ++ after) ∧ token.span.start.column = before.length + 1 := by
  obtain ⟨front, lexeme, behind, hsource, heq, hmatches⟩ := h.exists_behind token hmem
  have hblank := h.not_isBlank token hmem
  have hkind : token.kind ≠ .endOfInput := by simpa [Token.isEnd] using hopen
  have hne := hmatches.lexeme_ne_nil hkind
  rw [heq, Token.behind_lexeme, String.toList_ofList] at hblank
  have hfeed : ∀ c ∈ lexeme, decide (c ≠ '\n') = true := by
    intro c hc
    apply decide_eq_true
    rintro rfl
    exact absurd (hblank '\n' hc) (by decide)
  have hlast : ∀ c ∈ (Position.lastLine front ++ lexeme).getLast?, Text.isBlank c = false := by
    intro c hc
    rw [List.getLast?_append_of_ne_nil _ hne] at hc
    exact hblank c (List.mem_of_getLast? hc)
  have hstart : token.span.start = Position.counted front := by
    rw [heq]
    exact Position.advance_first front
  have hshown : SourceLine.shown source (Position.counted front).line = _ :=
    SourceLine.shown_counted hsource
  rw [List.takeWhile_append_of_pos hfeed, ← List.append_assoc, Text.trimEnd,
    Text.dropEndWhile_append hlast, List.append_assoc] at hshown
  have hlexeme : token.lexeme.toList = lexeme := by
    rw [heq, Token.behind_lexeme, String.toList_ofList]
  rw [hstart, hlexeme]
  exact ⟨Position.lastLine front, _, hshown, Nat.add_comm 1 _⟩

/-- Only the end of the input covers no byte. -/
theorem isEmpty_span (h : Scans [] source.toList tokens) {token : Token} (hmem : token ∈ tokens)
    (hopen : token.isEnd = false) : token.span.isEmpty = false := by
  have hkind : token.kind ≠ .endOfInput := by simpa [Token.isEnd] using hopen
  have hne : token.lexeme.toList ≠ [] := by simpa using h.lexeme_ne token hmem hkind
  have hpos := Text.byteLength_pos hne
  obtain ⟨-, -, -, -, hlength⟩ := Text.slice?_eq_some_iff.mp (h.slice token hmem)
  rw [Span.isEmpty, beq_eq_false_iff_ne]
  omega

/-- The place of the end is directly behind the last token before the end of the input, or it is
that of the end of the input if this is the only token. -/
theorem end_cases (h : Scans [] source.toList tokens) {count : Nat}
    (hopen : ∀ token ∈ tokens.take count, token.isEnd = false)
    (hend : ∀ token, tokens[count]? = some token → token.isEnd = true) :
    ((tokens.filter fun token => !token.isEnd) = [] ∧
      Token.endSpan tokens count = .behind source.toList []) ∨
    ∃ last ∈ tokens, last.isEnd = false ∧
      (tokens.filter fun token => !token.isEnd).getLast? = some last ∧
        Token.endSpan tokens count = last.span.after := by
  obtain ⟨initial, rfl, hinitial⟩ := h.exists_ending
  generalize heof : Token.behind ([] ++ source.toList) .endOfInput [] = eof at *
  have heofEnd : eof.isEnd = true := by rw [← heof]; rfl
  have hinitialOpen : ∀ token ∈ initial, token.isEnd = false := by
    intro token htoken
    simpa [Token.isEnd] using hinitial token htoken
  have hfilter := Token.filter_open hinitialOpen heofEnd
  obtain rfl : count = initial.length := by
    have hle := Token.count_le_of_isEnd heofEnd hopen
    by_contra hne
    have hlt : count < initial.length := by omega
    have htoken : (initial ++ [eof])[count]? = some initial[count] := by
      rw [List.getElem?_append_left hlt, List.getElem?_eq_getElem hlt]
    have hopen' := hinitialOpen _ (List.getElem_mem hlt)
    rw [hend _ htoken] at hopen'
    cases hopen'
  rw [hfilter]
  rcases List.eq_nil_or_concat initial with rfl | ⟨init, last, rfl⟩
  · left
    refine ⟨rfl, ?_⟩
    rw [← heof]
    rfl
  · right
    refine ⟨last, by simp, hinitialOpen last (by simp), by simp, ?_⟩
    simp [Token.endSpan]

end Scans

namespace SyntaxError

inductive Marks (tokens : List Token) (error : SyntaxError) (shown : List Char) : List Char → Prop
  | token {token : Token} {before after : List Char} (hmem : token ∈ tokens)
    (hopen : token.isEnd = false) (habout : error.cause.IsAbout token)
    (hlocation : error.location = token.span) (hfull : error.location.isEmpty = false)
    (hshown : shown = before ++ (token.lexeme.toList ++ after))
    (hcolumn : error.location.column = before.length + 1) :
    Marks tokens error shown (List.replicate before.length ' ' ++
      List.replicate token.lexeme.toList.length '~')
  | point (hempty : error.location.isEmpty = true) (hcolumn : 1 ≤ error.location.column)
    (hlast : ∀ token ∈ (tokens.filter fun token => !token.isEnd).getLast?, ∃ before after,
      shown = (before ++ token.lexeme.toList) ++ after ∧
        error.location.column = (before ++ token.lexeme.toList).length + 1) :
    Marks tokens error shown (List.replicate (error.location.column - 1) '-' ++ ['^'])

section Located

variable {source : String} {tokens : List Token} {error : SyntaxError}

/-- An error is where some front of the source ends. -/
theorem Located.exists_start (h : error.Located tokens) (hscans : Scans [] source.toList tokens) :
    ∃ front back, front ++ back = source.toList ∧
      error.location.start = Position.counted front := by
  cases h with
  | @token token hmem hopen hlocation habout =>
    obtain ⟨front, lexeme, behind, hsource, heq, -⟩ := hscans.exists_behind token hmem
    refine ⟨front, lexeme ++ behind, hsource, ?_⟩
    rw [hlocation, heq]
    exact Position.advance_first front
  | ending hopen hend hlocation =>
    rw [hlocation]
    rcases hscans.end_cases hopen hend with ⟨-, hspan⟩ | ⟨last, hmem, -, -, hspan⟩
    · refine ⟨source.toList, [], List.append_nil _, ?_⟩
      rw [hspan]
      exact Position.advance_first source.toList
    · obtain ⟨front, lexeme, behind, hsource, heq, -⟩ := hscans.exists_behind last hmem
      refine ⟨front ++ lexeme, behind, (List.append_assoc _ _ _).trans hsource, ?_⟩
      rw [hspan, heq, ← Position.advance_first, Position.advance_append]
      rfl

theorem toList_marker_of_isEmpty (h : error.location.isEmpty = true) (column : Nat) :
    (error.marker source column).toList = List.replicate column '-' ++ ['^'] := by
  rw [marker, if_pos h, String.toList_append, Text.toList_repeated]
  rfl

theorem toList_marker_of_slice {lexeme : List Char} (h : error.location.isEmpty = false)
    (hslice : Text.slice? error.location.offset error.location.length source.toList = some lexeme)
    (column : Nat) : (error.marker source column).toList =
      List.replicate column ' ' ++ List.replicate lexeme.length '~' := by
  rw [marker, if_neg (by simp [h]), hslice, String.toList_append, Text.toList_repeated,
    Text.toList_repeated]
  rfl

/-- The marker of an error is below the token at fault, or points behind the last token. -/
theorem Located.marks (h : error.Located tokens) (hscans : Scans [] source.toList tokens) :
    error.Marks tokens (SourceLine.shown source error.location.line)
      (error.marker source (error.location.column - 1)).toList := by
  have hpos : 1 ≤ error.location.column := by
    obtain ⟨front, back, -, hstart⟩ := h.exists_start hscans
    rw [Span.column, hstart]
    exact Nat.le_add_right 1 _
  cases h with
  | @token token hmem hopen hlocation habout =>
    obtain ⟨before, after, hshown, hcolumn⟩ := hscans.exists_shown hmem hopen
    have hslice := hscans.slice token hmem
    have hfull := hscans.isEmpty_span hmem hopen
    rw [← hlocation] at hslice hfull hcolumn hshown
    have hblanks : error.location.column - 1 = before.length := by
      rw [Span.column, hcolumn, Nat.add_sub_cancel]
    rw [toList_marker_of_slice hfull hslice, hblanks]
    exact .token hmem hopen habout hlocation hfull hshown hcolumn
  | @ending count hopen hend hlocation =>
    have hcases := hscans.end_cases hopen hend
    have hempty : error.location.isEmpty = true := by
      rw [hlocation]
      rcases hcases with ⟨-, hspan⟩ | ⟨last, -, -, -, hspan⟩
      · rw [hspan]
        rfl
      · rw [hspan]
        rfl
    rw [toList_marker_of_isEmpty hempty]
    refine .point hempty hpos ?_
    rcases hcases with ⟨hnone, -⟩ | ⟨last, hmem, hlast, hfilter, hspan⟩
    · rw [hnone]
      intro token htoken
      cases htoken
    · obtain ⟨before, after, hshown, hcolumn⟩ := hscans.exists_shown hmem hlast
      have hplaced := hscans.placed last hmem
      have hline : error.location.line = last.span.start.line := by
        rw [hlocation, hspan]
        exact hplaced.stop_line
      have hstop : error.location.column = (before ++ last.lexeme.toList).length + 1 := by
        have hcount := hplaced.stop_column
        rw [hlocation, hspan, List.length_append]
        show last.span.stop.column = _
        omega
      rw [hfilter, hline]
      intro token htoken
      obtain rfl := Option.some.inj htoken
      exact ⟨before, after, hshown.trans (List.append_assoc _ _ _).symm, hstop⟩

end Located

section Rows

variable (error : SyntaxError) (source : String)

/-- The first line that is shown: two lines before that of the error, if there are so many. -/
def firstShown : Nat := max 1 (error.location.line - 2)

def shownNumbers : List Nat :=
  List.range' error.firstShown (error.location.line + 1 - error.firstShown)

def numberWidth : Nat := (toString error.location.line).toList.length

def margin (label : List Char) : List Char :=
  List.replicate (error.numberWidth - label.length) ' ' ++ label ++ " | ".toList

def sourceRow (number : Nat) : List Char :=
  error.margin (toString number).toList ++ SourceLine.shown source number

def renderedLines (mark : List Char) : List (List Char) :=
  ("syntax error: " ++ error.message).toList :: ("  -> " ++ toString error.location).toList ::
    (error.shownNumbers.map (error.sourceRow source) ++ [error.margin [] ++ mark])

variable {error source}

theorem length_toString_le {number : Nat} (h : number ≤ error.location.line) :
    (toString number).toList.length ≤ error.numberWidth := by
  rw [numberWidth, Text.toList_toString, Text.toList_toString]
  exact Text.length_toDigits_mono (by decide) h

theorem length_margin {label : List Char} (h : label.length ≤ error.numberWidth) :
    (error.margin label).length = error.numberWidth + 3 := by
  simp only [margin, List.length_append, List.length_replicate]
  have hbar : " | ".toList.length = 3 := rfl
  omega

theorem isLine_margin {label : List Char} (h : Text.IsLine label) :
    Text.IsLine (error.margin label) := by
  have hblanks := Text.IsLine.replicate (c := ' ') (by decide) (by decide)
  exact ((hblanks _).append h).append (by decide)

theorem isLine_sourceRow (number : Nat) : Text.IsLine (error.sourceRow source number) :=
  (isLine_margin (.toString number)).append (SourceLine.isLine_shown source number)

theorem isLine_location (span : Span) : Text.IsLine (toString span).toList := by
  have htext : toString span = toString span.line ++ ":" ++ toString span.column := rfl
  rw [htext]
  apply Text.IsLine.toList_append ?_ (.toString span.column)
  exact Text.IsLine.toList_append (.toString span.line) (by decide)

theorem Marks.isLine {tokens : List Token} {shown mark : List Char}
    (h : error.Marks tokens shown mark) : Text.IsLine mark := by
  cases h with
  | token =>
    have hblanks := Text.IsLine.replicate (c := ' ') (by decide) (by decide)
    exact (hblanks _).append (.replicate (by decide) (by decide) _)
  | point => exact .append (.replicate (by decide) (by decide) _) (by decide)

theorem isLine_renderedLines {mark : List Char} (h : Text.IsLine mark) :
    ∀ row ∈ error.renderedLines source mark, Text.IsLine row := by
  simp only [renderedLines, List.forall_mem_cons, List.forall_mem_append, List.forall_mem_map]
  refine ⟨?_, ?_, fun number _ => isLine_sourceRow number, ?_, List.forall_mem_nil _⟩
  · exact .toList_append (by decide) error.cause.isLine_message
  · exact .toList_append (by decide) (isLine_location error.location)
  · exact (isLine_margin (by decide)).append h

theorem toList_row (number : Nat) (text : List Char) (tail : String) :
    (Text.padded error.numberWidth number ++ " | " ++ String.ofList text ++ "\n" ++ tail).toList =
      error.margin (toString number).toList ++ text ++ '\n' :: tail.toList := by
  simp only [Text.padded, margin, String.toList_append, Text.toList_repeated, String.toList_ofList,
    String.length_toList, List.append_assoc]
  rfl

theorem toList_markerRow (mark : String) :
    (Text.repeated error.numberWidth ' ' ++ " | " ++ mark ++ "\n").toList =
      error.margin [] ++ mark.toList ++ ['\n'] := by
  simp only [margin, String.toList_append, Text.toList_repeated, List.append_nil]
  rfl

theorem foldl_max_of_le {numbers : List Nat} {least most : Nat} (h : ∀ n ∈ numbers, n ≤ most)
    (hleast : least ≤ most) : (numbers ++ [most]).foldl max least = most := by
  induction numbers generalizing least with
  | nil => exact Nat.max_eq_right hleast
  | cons n numbers ih =>
    rw [List.forall_mem_cons] at h
    exact ih h.2 (Nat.max_le.mpr ⟨hleast, h.1⟩)

/-- No number is longer than that of the line of the error. -/
theorem foldl_width {earlier : List SourceLine}
    (h : ∀ entry ∈ earlier, entry.number < error.location.line) :
    (earlier.map (fun entry => (toString entry.number).length) ++
      [(toString error.location.line).length]).foldl max 1 = error.numberWidth := by
  rw [numberWidth, String.length_toList]
  apply foldl_max_of_le
  · rw [List.forall_mem_map]
    intro entry hentry
    have hle := length_toString_le (Nat.le_of_lt (h entry hentry))
    rwa [numberWidth, String.length_toList, String.length_toList] at hle
  · rw [← String.length_toList, Text.toList_toString]
    exact Nat.length_toDigits_pos

/-- Above the snippet stand the message and the place. -/
theorem toList_render_of_snippet {rows : List (List Char)}
    (h : (error.snippet source).toList = Text.ofRows rows) :
    (error.render source).toList = Text.ofRows (("syntax error: " ++ error.message).toList ::
      ("  -> " ++ toString error.location).toList :: rows) := by
  have hbreak : "\n  -> ".toList = '\n' :: "  -> ".toList := rfl
  have hend : "\n".toList = ['\n'] := rfl
  have hparts : (error.render source).toList = ("syntax error: " ++ error.message ++ "\n  -> " ++
      toString error.location ++ "\n").toList ++ (error.snippet source).toList :=
    String.toList_append
  rw [hparts, h]
  simp only [String.toList_append, hbreak, hend, List.append_assoc, List.cons_append,
    List.nil_append, Text.ofRows_cons]

section Pieces

variable {closed later : List (List Char)} {text : List Char}
  (hpieces : Text.pieces '\n' source.toList = closed ++ text :: later)
  (hline : error.location.line = closed.length + 1)
include hpieces hline

/-- The excerpt for an error ends with its line, and at most two lines are before it. -/
theorem exists_excerpt : ∃ earlier offset,
    excerpt 2 0 source error.location = earlier ++ [⟨error.location.line,
      error.location.column - 1, offset, String.ofList (Text.trimReturns text)⟩] ∧
    (∀ entry ∈ earlier, entry.number < error.location.line) ∧
    earlier.map (fun entry => (entry.number, Text.trimEnd entry.text.toList)) =
      (List.range' error.firstShown (error.location.line - error.firstShown)).map fun number =>
        (number, SourceLine.shown source number) := by
  obtain ⟨front, near, rfl, hnear⟩ : ∃ front near, closed = front ++ near ∧
      near.length = min 2 (front.length + near.length) := by
    refine ⟨closed.take (closed.length - 2), closed.drop (closed.length - 2), ?_, ?_⟩
    · exact (List.take_append_drop _ _).symm
    · rw [List.length_drop, List.length_take]
      omega
  rw [List.length_append] at hline
  have hparts : Text.pieces '\n' source.toList = front ++ (near ++ text :: ([] ++ later)) := by
    rw [hpieces, List.append_assoc, List.nil_append]
  have hexcerpt : excerpt 2 0 source error.location = _ :=
    excerpt_eq hparts hline hnear (Nat.zero_min _).symm
  have hfirst : error.firstShown = front.length + 1 := by
    rw [firstShown]
    omega
  have hlength : error.location.line - (front.length + 1) = near.length := by omega
  refine ⟨_, _, hexcerpt, ?_, ?_⟩
  · intro entry hentry
    have hnumber := SourceLine.number_of_mem_enumerate hentry
    omega
  · rw [hfirst, hlength]
    exact SourceLine.map_enumerate_shown hparts _

theorem shown_line : SourceLine.shown source error.location.line = Text.trimEnd text := by
  have hindex : error.location.line - 1 = closed.length := by omega
  rw [SourceLine.shown, hindex, hpieces, List.getElem?_append_right (Nat.le_refl _), Nat.sub_self]
  rfl

/-- The snippet of an error ends with the line of the error, and below it comes the marker. -/
theorem toList_snippet : (error.snippet source).toList =
    Text.ofRows (error.shownNumbers.map (error.sourceRow source) ++
      [error.margin [] ++ (error.marker source (error.location.column - 1)).toList]) := by
  obtain ⟨earlier, offset, hexcerpt, hbelow, hentries⟩ := exists_excerpt hpieces hline
  have hshown := shown_line hpieces hline
  have hrange : error.shownNumbers =
      List.range' error.firstShown (error.location.line - error.firstShown) ++
        [error.location.line] := by
    have hfirst : error.firstShown ≤ error.location.line := by
      rw [firstShown]
      omega
    have hlength : error.location.line + 1 - error.firstShown =
        error.location.line - error.firstShown + 1 := by omega
    rw [shownNumbers, hlength, List.range'_1_concat, Nat.add_sub_cancel' hfirst]
  rw [snippet, hexcerpt, hrange]
  simp only [List.map_append, List.map_cons, List.map_nil, foldl_width hbelow, if_true,
    String.toList_join, List.flatMap_append, List.flatMap_map, List.flatMap_singleton, toList_row,
    toList_markerRow, Text.ofRows_append, Text.ofRows_cons, Text.ofRows_nil, List.append_assoc,
    String.toList_ofList, Text.trimEnd_trimReturns, sourceRow, hshown, List.singleton_append,
    List.append_left_inj]
  have hsame := congrArg (List.map fun (number, shown) =>
    error.margin (toString number).toList ++ shown) hentries
  rw [List.map_map, List.map_map] at hsame
  have hrows : (List.range' error.firstShown (error.location.line - error.firstShown)).map
      (error.sourceRow source) = earlier.map fun entry =>
        error.margin (toString entry.number).toList ++ Text.trimEnd entry.text.toList :=
    hsame.symm
  rw [hrows, Text.ofRows, List.flatMap_map]
  apply List.flatMap_congr
  intro entry hentry
  rw [if_neg (Nat.ne_of_lt (hbelow entry hentry)), List.append_assoc]
  rfl

theorem toList_render : (error.render source).toList = Text.ofRows
    (error.renderedLines source (error.marker source (error.location.column - 1)).toList) :=
  toList_render_of_snippet (toList_snippet hpieces hline)

end Pieces

end Rows

/-- The line of the error is there, and what is rendered are the lines for it, with a mark at the
text at fault. -/
structure Rendered (source : String) (tokens : List Token) (error : SyntaxError) : Prop where
  line_pos : 1 ≤ error.location.line
  line_le : error.location.line ≤ (Text.pieces '\n' source.toList).length
  margin_eq : ∀ number ∈ error.shownNumbers,
    (error.margin (toString number).toList).length = (error.margin []).length
  pieces_eq : ∃ mark, error.Marks tokens (SourceLine.shown source error.location.line) mark ∧
    Text.pieces '\n' (error.render source).toList = error.renderedLines source mark ++ [[]]

theorem Located.rendered {source : String} {tokens : List Token} {error : SyntaxError}
    (h : error.Located tokens) (hscans : Scans [] source.toList tokens) :
    error.Rendered source tokens := by
  obtain ⟨front, back, hsource, hstart⟩ := h.exists_start hscans
  obtain ⟨closed, later, hpieces, hclosed⟩ := Position.exists_pieces_append front back
  rw [hsource] at hpieces
  have hline : error.location.line = closed.length + 1 := by
    rw [Span.line, hstart, hclosed]
    exact Nat.add_comm 1 _
  have hmarks := h.marks hscans
  exact
    { line_pos := by omega
      line_le := by
        rw [hpieces, List.length_append, List.length_cons]
        omega
      margin_eq := by
        intro number hnumber
        have hrange := List.mem_range'_1.mp hnumber
        have hle : number ≤ error.location.line := by omega
        rw [length_margin (length_toString_le hle), length_margin (Nat.zero_le _)]
      pieces_eq := by
        refine ⟨_, hmarks, ?_⟩
        rw [toList_render hpieces hline, Text.pieces_ofRows fun row hrow =>
          (isLine_renderedLines hmarks.isLine row hrow).not_mem] }

end SyntaxError

namespace Program

/-- A rendered error shows the lines of the source up to its own, and marks the text at fault or the
point behind the last token. -/
theorem render_of_parse {config : ParserConfig} {source : String} {error : SyntaxError}
    (h : parse config (tokenize source) = .error error) : error.Rendered source (tokenize source) :=
  (located_of_parse h).rendered (scans_tokenize source)

/-- The number below a comment is at fault, and at the end of the other text a name is missing. -/
theorem render_of_parse_of_read :
    (∃ error, parse ⟨256, false⟩ (tokenize "\x7bé\x7d\r\n\tread 5 ") = .error error ∧
      error.location.isEmpty = false ∧
        error.Rendered "\x7bé\x7d\r\n\tread 5 " (tokenize "\x7bé\x7d\r\n\tread 5 ")) ∧
    ∃ error, parse ⟨256, false⟩ (tokenize "\nread \t\n ") = .error error ∧
      error.location.isEmpty = true ∧
        error.Rendered "\nread \t\n " (tokenize "\nread \t\n ") := by
  have htoken : parse ⟨256, false⟩ (tokenize "\x7bé\x7d\r\n\tread 5 ") =
      .error ⟨.expectedToken [.identifier] ⟨.number, "5", ⟨12, 1, ⟨2, 7⟩, ⟨2, 8⟩⟩⟩,
        ⟨12, 1, ⟨2, 7⟩, ⟨2, 8⟩⟩, [.program, .sequence, .statement, .read]⟩ := by
    decide +kernel
  have hend : parse ⟨256, false⟩ (tokenize "\nread \t\n ") =
      .error ⟨.expectedToken [.identifier] (.endAt 9 ⟨3, 2⟩), .point 5 ⟨2, 5⟩,
        [.program, .sequence, .statement, .read]⟩ := by
    decide +kernel
  exact ⟨⟨_, htoken, rfl, render_of_parse htoken⟩, _, hend, rfl, render_of_parse hend⟩

end Program

end TinyLang

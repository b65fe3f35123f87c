import TinyLang.CommandLine.Run
import TinyLang.Proofs.Grammar.Rendering

namespace TinyLang

namespace SyntaxError

variable (error : SyntaxError) (source : String)

/-- The rows for a line of an excerpt: the line behind its number, and the marker below the line of
the error. -/
def entryRows (width : Nat) (line : SourceLine) : List (List Char) :=
  ((Text.padded width line.number ++ " | ").toList ++ Text.trimEnd line.text.toList) ::
    if line.number = error.location.line then
      [(Text.repeated width ' ' ++ " | " ++ error.marker source line.column).toList]
    else []

variable {error source}

theorem isLine_marker (column : Nat) : Text.IsLine (error.marker source column).toList := by
  have hrun (count : Nat) {c : Char} (hfeed : c ≠ '\n') (hmark : c ≠ '\r') :
      Text.IsLine (Text.repeated count c).toList := by
    rw [Text.toList_repeated]
    exact .replicate hfeed hmark count
  unfold marker
  split
  · exact .toList_append (hrun _ (by decide) (by decide)) (by decide)
  · exact .toList_append (hrun _ (by decide) (by decide)) (hrun _ (by decide) (by decide))

theorem isLine_entryRows {width : Nat} {line : SourceLine}
    (h : Text.IsLine (Text.trimEnd line.text.toList)) :
    ∀ row ∈ error.entryRows source width line, Text.IsLine row := by
  have hblanks (count : Nat) : Text.IsLine (Text.repeated count ' ').toList := by
    rw [Text.toList_repeated]
    exact .replicate (by decide) (by decide) count
  have hnumber : Text.IsLine (Text.padded width line.number ++ " | ").toList :=
    .toList_append (.toList_append (hblanks _) (.toString _)) (by decide)
  rw [entryRows, List.forall_mem_cons]
  refine ⟨hnumber.append h, ?_⟩
  split
  · rw [List.forall_mem_singleton]
    exact .toList_append (.toList_append (hblanks _) (by decide)) (isLine_marker _)
  · exact List.forall_mem_nil _

/-- Wherever an error is said to be, and in whatever source, its snippet is made of lines. -/
theorem exists_rows_snippet (error : SyntaxError) (source : String) : ∃ rows,
    (error.snippet source).toList = Text.ofRows rows ∧ ∀ row ∈ rows, Text.IsLine row := by
  generalize hlines : excerpt 2 0 source error.location = lines
  generalize hwidth : (lines.map fun line => (toString line.number).length).foldl max 1 = width
  refine ⟨lines.flatMap (error.entryRows source width), ?_, ?_⟩
  · rw [snippet, hlines, hwidth, String.toList_join, List.flatMap_map, Text.ofRows_flatMap]
    apply List.flatMap_congr
    intro line _
    rw [entryRows]
    split <;> simp
  · intro row hrow
    obtain ⟨line, hline, hrow⟩ := List.mem_flatMap.mp hrow
    rw [← hlines] at hline
    exact isLine_entryRows (SourceLine.isLine_of_mem_excerpt hline) row hrow

def rowsAt (error : SyntaxError) (place : String) (rows : List (List Char)) : List (List Char) :=
  ("syntax error: " ++ error.message).toList :: ("  -> " ++ place).toList :: rows

variable {rows : List (List Char)} {place : String}

theorem isLine_rowsAt (hrows : ∀ row ∈ rows, Text.IsLine row) (hplace : Text.IsLine place.toList) :
    ∀ row ∈ error.rowsAt place rows, Text.IsLine row := by
  rw [rowsAt, List.forall_mem_cons, List.forall_mem_cons]
  refine ⟨?_, ?_, hrows⟩
  · exact .toList_append (by decide) error.cause.isLine_message
  · exact .toList_append (by decide) hplace

/-- For the pieces of a text a row may end with a carriage return. -/
theorem pieces_rowsAt (hrows : ∀ row ∈ rows, Text.IsLine row) (hplace : '\n' ∉ place.toList) :
    Text.pieces '\n' (Text.ofRows (error.rowsAt place rows)) = error.rowsAt place rows ++ [[]] := by
  apply Text.pieces_ofRows
  have hmessage : '\n' ∉ error.message.toList := error.cause.isLine_message.not_mem
  rw [rowsAt, List.forall_mem_cons, List.forall_mem_cons]
  refine ⟨?_, ?_, fun row hrow => (hrows row hrow).not_mem⟩
  · simpa using hmessage
  · simpa using hplace

/-- A rendered error is made of lines. -/
theorem exists_rows_render (error : SyntaxError) (source : String) : ∃ rows,
    (error.render source).toList = Text.ofRows (error.rowsAt (toString error.location) rows) ∧
      ∀ row ∈ rows, Text.IsLine row := by
  obtain ⟨rows, hsnippet, hrows⟩ := exists_rows_snippet error source
  exact ⟨rows, toList_render_of_snippet hsnippet, hrows⟩

end SyntaxError

namespace CommandLine

/-- The path is put in before the place, and all other lines are as they were. -/
theorem toList_renderAt {error : SyntaxError} {source : String} {rows : List (List Char)}
    (hrender : (error.render source).toList =
      Text.ofRows (error.rowsAt (toString error.location) rows))
    (hrows : ∀ row ∈ rows, Text.IsLine row) (path : String) :
    (renderAt path error source).toList =
      Text.ofRows (error.rowsAt (path ++ ":" ++ toString error.location) rows) := by
  have hlines : Text.lines '\n' '\r' (error.render source).toList =
      error.rowsAt (toString error.location) rows := by
    rw [hrender]
    exact Text.lines_ofRows
      (SyntaxError.isLine_rowsAt hrows (SyntaxError.isLine_location error.location))
  have hlater : (rows.map String.ofList).mapIdx (fun _ line => line ++ "\n") =
      rows.map fun row => String.ofList row ++ "\n" := by
    apply List.ext_getElem <;> simp
  rw [renderAt, hlines, String.toList_join]
  simp [SyntaxError.rowsAt, hlater, Text.ofRows, List.flatMap_map]

/-- Put under the path of its file, a rendered error differs from itself in nothing but its second
line. The message takes up one line, whatever the tokens hold. -/
theorem pieces_renderAt {path : String} (hpath : '\n' ∉ path.toList) (error : SyntaxError)
    (source : String) :
    '\n' ∉ error.message.toList ∧
    (Text.pieces '\n' (error.render source).toList)[1]? = some ("  -> " ++
      toString error.location.line ++ ":" ++ toString error.location.column).toList ∧
    Text.pieces '\n' (renderAt path error source).toList =
      (Text.pieces '\n' (error.render source).toList).set 1 ("  -> " ++ path ++ ":" ++
        toString error.location.line ++ ":" ++ toString error.location.column).toList := by
  obtain ⟨rows, hrender, hrows⟩ := error.exists_rows_render source
  have hplace : toString error.location =
      toString error.location.line ++ ":" ++ toString error.location.column := rfl
  have hold := (SyntaxError.isLine_location error.location).not_mem
  have hnew : '\n' ∉ (path ++ ":" ++ toString error.location).toList := by simp [hpath, hold]
  rw [toList_renderAt hrender hrows, hrender, SyntaxError.pieces_rowsAt hrows hnew,
    SyntaxError.pieces_rowsAt hrows hold]
  refine ⟨error.cause.isLine_message.not_mem, ?_, ?_⟩
  · simp [SyntaxError.rowsAt, hplace, String.append_assoc]
  · simp [SyntaxError.rowsAt, hplace, String.append_assoc]

/-- Neither a token of line breaks nor carriage returns in the source and the path break a line. -/
theorem pieces_renderAt_of_returns :
    ∃ error, Program.parse {} [⟨.unknown, "\r\n", ⟨3, 2, ⟨2, 1⟩, ⟨3, 1⟩⟩⟩] = .error error ∧
      '\n' ∉ "a\r.tny".toList ∧ '\n' ∉ error.message.toList ∧
      Text.pieces '\n' (renderAt "a\r.tny" error "x\r\n\r\ny\r").toList =
        (Text.pieces '\n' (error.render "x\r\n\r\ny\r").toList).set 1
          "  -> a\r.tny:2:1".toList := by
  have herror : Program.parse {} [⟨.unknown, "\r\n", ⟨3, 2, ⟨2, 1⟩, ⟨3, 1⟩⟩⟩] =
      .error ⟨.unknownCharacter "\r\n", ⟨3, 2, ⟨2, 1⟩, ⟨3, 1⟩⟩,
        [.program, .sequence, .statement]⟩ := by
    decide +kernel
  have hpath : '\n' ∉ "a\r.tny".toList := by decide
  obtain ⟨hmessage, -, hpieces⟩ := pieces_renderAt hpath _ "x\r\n\r\ny\r"
  exact ⟨_, herror, hpath, hmessage, hpieces⟩

end CommandLine

end TinyLang

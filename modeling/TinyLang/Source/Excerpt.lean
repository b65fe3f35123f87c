import TinyLang.Source.Span
import TinyLang.Text.Blank
import TinyLang.Text.Lines
import TinyLang.Text.Measure

namespace TinyLang

structure SourceLine where
  number : Nat
  /-- How many characters stand before the span that the line was asked for; 0 on other lines. -/
  column : Nat
  offset : Nat
  text : String
deriving DecidableEq

namespace SourceLine

/-- Numbers consecutive lines and finds where each starts, one byte being taken by the line feed
between two lines. -/
def enumerate (number offset : Nat) : List (List Char) → List SourceLine
  | [] => []
  | line :: rest =>
    ⟨number, 0, offset, String.ofList (Text.trimReturns line)⟩ ::
      enumerate (number + 1) (offset + Text.byteLength line + 1) rest

def all (source : String) : List SourceLine :=
  enumerate 1 0 (Text.pieces '\n' source.toList)

end SourceLine

/-- The line on which a span starts, with up to `before` lines before it and `after` lines after
it. A span past the last line has an empty line of its own, after all others. -/
def excerpt (before after : Nat) (source : String) (span : Span) : List SourceLine :=
  let base := span.line
  let column := span.column - 1
  let near := (SourceLine.all source).filter fun line =>
    base - before ≤ line.number && line.number ≤ base + after
  let marked := near.map fun line => if line.number = base then { line with column } else line
  if marked.any (·.number == base) then marked
  else marked ++ [⟨base, column, Text.byteLength source.toList, ""⟩]

def excerptAt (before after : Nat) (source : String) (span : Span) : List SourceLine × Nat :=
  (excerpt before after source span, span.line)

end TinyLang

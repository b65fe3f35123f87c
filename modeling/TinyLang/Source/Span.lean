import TinyLang.Text.Notation

/-!
Places in a text. A position counts lines and characters from 1; a span also counts bytes, from 0.
-/
namespace TinyLang

structure Position where
  line : Nat := 1
  column : Nat := 1
deriving DecidableEq, Ord, Inhabited

namespace Position

def first : Position := ⟨1, 1⟩

def next (p : Position) (c : Char) : Position :=
  if c = '\n' then ⟨p.line + 1, 1⟩ else ⟨p.line, p.column + 1⟩

def advance (p : Position) (text : List Char) : Position :=
  text.foldl next p

@[simp] theorem advance_nil (p : Position) : p.advance [] = p := rfl

@[simp] theorem advance_append (p : Position) (front back : List Char) :
    p.advance (front ++ back) = (p.advance front).advance back :=
  List.foldl_append

instance : ToString Position := ⟨fun p => s!"{p.line}:{p.column}"⟩

def record (p : Position) : Record :=
  .fields "Position" [.entry "line" (.ofNat p.line), .entry "column" (.ofNat p.column)]

end Position

/-- A region of a text: `length` bytes from the byte `offset` on. The position `stop` is the one
directly after its last character. Spans are ordered by their fields, in this order. -/
structure Span where
  offset : Nat := 0
  length : Nat := 0
  start : Position := .first
  stop : Position := .first
deriving DecidableEq, Ord, Inhabited

namespace Span

def point (offset : Nat) (p : Position) : Span := ⟨offset, 0, p, p⟩

def after (s : Span) : Span := point (s.offset + s.length) s.stop

def isEmpty (s : Span) : Bool := s.length == 0

def line (s : Span) : Nat := s.start.line

def column (s : Span) : Nat := s.start.column

instance : ToString Span := ⟨fun s => toString s.start⟩

def record (s : Span) : Record :=
  .fields "Span" [.entry "offset" (.ofNat s.offset), .entry "len" (.ofNat s.length),
    .entry "start" s.start.record, .entry "end" s.stop.record]

end Span

end TinyLang

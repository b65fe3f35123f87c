import TinyLang.Journal
import TinyLang.Text.Measure
import TinyLang.Token.Basic
import TinyLang.Token.Chunk

namespace TinyLang

structure Scanner where
  source : String
  rest : List Char
  offset : Nat := 0
  position : Position := .first
  finished : Bool := false

namespace Scanner

def ofSource (source : String) : Scanner := { source, rest := source.toList }

def next? (scan : Scanner) : Option (Token × Scanner) :=
  if scan.finished then none
  else
    let chunk := Chunk.ofText scan.rest
    let offset := scan.offset + Text.byteLength chunk.gap
    let start := scan.position.advance chunk.gap
    let length := Text.byteLength chunk.lexeme
    let stop := start.advance chunk.lexeme
    let token : Token := ⟨chunk.kind, String.ofList chunk.lexeme, ⟨offset, length, start, stop⟩⟩
    some (token,
      { source := scan.source
        rest := chunk.rest
        offset := offset + length + Text.byteLength chunk.dropped
        position := stop.advance chunk.dropped
        finished := chunk.kind = .endOfInput })

/-- An upper bound on the number of tokens still to come. -/
def work (scan : Scanner) : Nat := if scan.finished then 0 else scan.rest.length + 1

theorem work_lt_of_next? {scan after : Scanner} {token : Token}
    (h : scan.next? = some (token, after)) : after.work < scan.work := by
  rw [next?] at h
  split at h
  · simp at h
  · next unfinished =>
    simp only [Option.some.injEq, Prod.mk.injEq] at h
    obtain ⟨-, rfl⟩ := h
    by_cases ending : (Chunk.ofText scan.rest).kind = .endOfInput
    · simp [work, unfinished, ending]
    · have shorter := Chunk.length_rest_lt ending
      simp [work, unfinished, ending, shorter]

def remaining (scan : Scanner) : List Token :=
  match _step : scan.next? with
  | none => []
  | some (token, after) => token :: after.remaining
termination_by scan.work
decreasing_by exact work_lt_of_next? _step

def drain (scan : Scanner) : Scanner :=
  match _step : scan.next? with
  | none => scan
  | some (_, after) => after.drain
termination_by scan.work
decreasing_by exact work_lt_of_next? _step

def record (scan : Scanner) : Record :=
  .fields "Lexer" [.entry "source" (.plain (Text.quote scan.source)),
    .entry "offset" (.ofNat scan.offset), .entry "position" scan.position.record,
    .entry "finished" (.plain (toString scan.finished))]

end Scanner

def tokenize (source : String) : List Token := (Scanner.ofSource source).remaining

namespace Token

def join (tokens : List Token) : String := " ".intercalate (tokens.map Token.lexeme)

def scanJournal (tokens : List Token) : List Journal.Entry :=
  tokens.map (fun token => ⟨.trace, .scanner, "lexed " ++ token.describe⟩) ++
    [⟨.debug, .scanning, s!"scanned {tokens.length} tokens"⟩]

end Token

end TinyLang

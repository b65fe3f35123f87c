import TinyLang.Journal
import TinyLang.Text.Blank
import TinyLang.Text.Lines
import TinyLang.Text.Measure
import TinyLang.Token.Basic

/-!
Token listings: tokens saved as text, one on a line, as the lexeme, a comma and the name of the
kind. The last comma of a line divides it, so a comma in a lexeme needs no escape. Blank lines are
skipped, and reading stops at the first end of input.
-/
namespace TinyLang

inductive ListingError where
  | notText
  | malformedLine (line : Nat) (text : String)
  | unknownKind (line : Nat) (kind : String)
deriving DecidableEq

def ListingError.message : ListingError → String
  | notText => "stream did not contain valid UTF-8"
  | malformedLine line text =>
    s!"line {line}: expected `lexeme,KIND`, found " ++ Text.quote text
  | unknownKind line kind => s!"line {line}: unknown token kind " ++ Text.quote kind

instance : ToString ListingError := ⟨ListingError.message⟩

namespace Listing

def writeLine (token : Token) : String := token.lexeme ++ "," ++ token.kind.name ++ "\n"

def write (tokens : List Token) : String := String.join (tokens.map writeLine)

def splitLastComma? : List Char → Option (List Char × List Char)
  | [] => none
  | c :: rest =>
    match splitLastComma? rest with
    | some (front, back) => some (c :: front, back)
    | none => if c = ',' then some ([], rest) else none

theorem splitLastComma?_eq_none_iff {text : List Char} :
    splitLastComma? text = none ↔ ',' ∉ text := by
  fun_induction splitLastComma? text with
  | case1 => simp
  | case2 c rest front back hrest ih => simp_all
  | case3 rest hrest ih => simp
  | case4 c rest hrest hc ih => simp_all [eq_comm]

theorem splitLastComma?_append {back : List Char} (h : ',' ∉ back) (front : List Char) :
    splitLastComma? (front ++ ',' :: back) = some (front, back) := by
  induction front with
  | nil =>
    rw [List.nil_append, splitLastComma?, splitLastComma?_eq_none_iff.mpr h]
    exact if_pos rfl
  | cons c front ih => rw [List.cons_append, splitLastComma?, ih]

/-- The last comma is the one behind which there is no other. -/
theorem splitLastComma?_eq_some_iff {text front back : List Char} :
    splitLastComma? text = some (front, back) ↔ text = front ++ ',' :: back ∧ ',' ∉ back := by
  constructor
  · intro h
    fun_induction splitLastComma? text generalizing front with
    | case1 => cases h
    | case2 c rest front' back' hrest ih =>
      cases h
      obtain ⟨rfl, hback⟩ := ih hrest
      exact ⟨rfl, hback⟩
    | case3 rest hrest _ =>
      cases h
      exact ⟨rfl, splitLastComma?_eq_none_iff.mp hrest⟩
    | case4 => cases h
  · rintro ⟨rfl, hback⟩
    exact splitLastComma?_append hback front

/-- Reads the token of a line that has the given number and starts at the given byte. A blank line
has none. The token stands at the start of its line. -/
def readLine (number offset : Nat) (line : List Char) : Except ListingError (Option Token) :=
  let text := Text.trimReturns line
  if text.all Text.isBlank then .ok none
  else
    match splitLastComma? text with
    | none => .error (.malformedLine number (String.ofList text))
    | some (lexeme, back) =>
      let name := String.ofList (Text.trim back)
      match Token.Kind.ofName? name with
      | none => .error (.unknownKind number name)
      | some .endOfInput => .ok (some (.endAt offset ⟨number, 1⟩))
      | some kind =>
        .ok (some ⟨kind, String.ofList lexeme,
          ⟨offset, Text.byteLength lexeme, ⟨number, 1⟩, ⟨number, 1 + lexeme.length⟩⟩⟩)

/-- Reads the tokens of lines, of which the first has the given number and starts at the given byte;
`none` is a line that is no text. An end of input is added after the last line if there is none
before. -/
def readLines (number offset : Nat) : List (Option (List Char)) → Except ListingError (List Token)
  | [] => .ok [.endAt offset ⟨number, 1⟩]
  | none :: _ => .error .notText
  | some line :: rest => do
    let token ← readLine number offset line
    if token.any Token.isEnd then return token.toList
    let later ← readLines (number + 1) (offset + Text.byteLength line + 1) rest
    return token.toList ++ later

def read (text : String) : Except ListingError (List Token) :=
  readLines 1 0 ((Text.lines '\n' '\r' text.toList).map some)

/-- Reads a listing from the bytes of a file. Lines after the end of input may hold any bytes. -/
def readBytes (bytes : ByteArray) : Except ListingError (List Token) :=
  readLines 1 0 <| (Text.lines 10 13 bytes.toList).map fun line =>
    (String.fromUTF8? ⟨line.toArray⟩).map String.toList

def journal (tokens : List Token) : List Journal.Entry :=
  [⟨.debug, .listing, s!"read {tokens.length} tokens from listing"⟩]

end Listing

end TinyLang

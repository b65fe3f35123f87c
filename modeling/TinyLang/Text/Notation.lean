namespace TinyLang.Text

def repeated (count : Nat) (c : Char) : String := String.ofList (List.replicate count c)

@[simp] theorem toList_repeated (count : Nat) (c : Char) :
    (repeated count c).toList = List.replicate count c :=
  String.toList_ofList

/-- A number with blanks before it, so that it takes up `width` characters unless it is longer. -/
def padded (width n : Nat) : String := repeated (width - (toString n).length) ' ' ++ toString n

theorem length_padded (width n : Nat) :
    (padded width n).length = max width (toString n).length := by
  rw [padded, String.length_append, ← String.length_toList, toList_repeated, List.length_replicate]
  omega

end TinyLang.Text

namespace TinyLang.Decimal

def digits? (text : List Char) : Option Nat :=
  if text ≠ [] ∧ text.all Char.isDigit then some (Nat.ofDigitChars 10 text 0) else none

def unsigned64? (text : String) : Option Nat := do
  let value ← match text.toList with
    | '+' :: digits => digits? digits
    | digits => digits? digits
  if value < Nat.pow 2 64 then some value else none

def signed64? (text : String) : Option Int64 := do
  let value : Int ← match text.toList with
    | '+' :: digits => (digits? digits).map Int.ofNat
    | '-' :: digits => (digits? digits).map fun n => -(n : Int)
    | digits => (digits? digits).map Int.ofNat
  if -Int.pow 2 63 ≤ value ∧ value < Int.pow 2 63 then some (Int64.ofInt value) else none

end TinyLang.Decimal

namespace TinyLang

inductive Record where
  | plain (text : String)
  | entry (label : String) (value : Record)
  | fields (name : String) (entries : List Record)
  | wrapped (name : String) (value : Record)
  | list (items : List Record)

namespace Record

def ofNat (n : Nat) : Record := .plain (toString n)

mutual

def compact : Record → String
  | plain text => text
  | entry label value => label ++ ": " ++ compact value
  | fields name entries =>
    if entries.isEmpty then name
    else name ++ " \x7b " ++ ", ".intercalate (compactAll entries) ++ " \x7d"
  | wrapped name value => name ++ "(" ++ compact value ++ ")"
  | list items => "[" ++ ", ".intercalate (compactAll items) ++ "]"

def compactAll : List Record → List String
  | [] => []
  | value :: rest => compact value :: compactAll rest

end

def margin (depth : Nat) : String := Text.repeated (4 * depth) ' '

mutual

def spread (depth : Nat) : Record → String
  | plain text => text
  | entry label value => label ++ ": " ++ spread depth value
  | fields name entries =>
    if entries.isEmpty then name
    else name ++ " \x7b\n" ++ spreadLines (depth + 1) entries ++ margin depth ++ "\x7d"
  | wrapped name value =>
    name ++ "(\n" ++ margin (depth + 1) ++ spread (depth + 1) value ++ ",\n" ++ margin depth ++ ")"
  | list items =>
    if items.isEmpty then "[]"
    else "[\n" ++ spreadLines (depth + 1) items ++ margin depth ++ "]"

def spreadLines (depth : Nat) : List Record → String
  | [] => ""
  | value :: rest => margin depth ++ spread depth value ++ ",\n" ++ spreadLines depth rest

end

def pretty (value : Record) : String := spread 0 value

end Record

end TinyLang

import TinyLang.Grammar.Productions
import TinyLang.Listing
import TinyLang.Token.Scanner

namespace TinyLang

inductive FileError where
  | missing
  | isDirectory
  | notDirectory
  | nameTooLong
  | notText
  | other (message : String)
deriving DecidableEq

def FileError.message : FileError → String
  | missing => "No such file or directory (os error 2)"
  | isDirectory => "Is a directory (os error 21)"
  | notDirectory => "Not a directory (os error 20)"
  | nameTooLong => "File name too long (os error 36)"
  | notText => "stream did not contain valid UTF-8"
  | other message => message

inductive InputError where
  | file (error : FileError)
  | listing (error : ListingError)
  | grammar (error : SyntaxError)
deriving DecidableEq

instance : ToString InputError where
  toString
    | .file error => error.message
    | .listing error => error.message
    | .grammar error => toString error

abbrev FileContent := Except FileError ByteArray

namespace FileContent

def text (content : FileContent) : Except FileError String := do
  match String.fromUTF8? (← content) with
  | some text => return text
  | none => throw .notText

def tokens (content : FileContent) : Except FileError (List Token) := tokenize <$> content.text

def program (content : FileContent) : Except InputError Program := do
  let tokens ← content.tokens.mapError .file
  (Program.parse {} tokens).mapError .grammar

def listedProgram (content : FileContent) : Except InputError Program := do
  let bytes ← content.mapError .file
  let tokens ← (Listing.readBytes bytes).mapError .listing
  (Program.parse {} tokens).mapError .grammar

end FileContent

end TinyLang

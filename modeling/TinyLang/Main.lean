import TinyLang.CommandLine.Run

namespace TinyLang.CommandLine

/-- What a failed access to a file means. The number of an error comes with either sign. -/
def fileErrorOf : IO.Error → FileError
  | .noFileOrDirectory .. => .missing
  | error@(.inappropriateType _ code _) =>
    if code = 20 ∨ code = -20 then .notDirectory
    else if code = 21 ∨ code = -21 then .isDirectory
    else .other (toString error)
  | error@(.invalidArgument _ code _) =>
    if code = 36 ∨ code = -36 then .nameTooLong else .other (toString error)
  | error => .other (toString error)

def readFile (path : String) : IO FileContent := do
  try
    return .ok (← IO.FS.readBinFile path)
  catch error => return .error (fileErrorOf error)

def writeFile (path : String) (content : ByteArray) : IO (Except FileError Unit) := do
  try
    IO.FS.writeBinFile path content
    return .ok ()
  catch error => return .error (fileErrorOf error)

def realFiles : FileAccess IO where
  read := readFile
  write := writeFile

def usage : String :=
  "Scans and parses TINY programs\n\n" ++
    "Usage: tinyc [-v|-q]... scan [-o OUT] FILE\n" ++
    "       tinyc [-v|-q]... parse [--tokens] [-f tree|dot|debug] [--max-depth N]\n" ++
    "             [--allow-trailing-semicolon] [-o OUT] FILE"

def UsageError.message : UsageError → String
  | missingFile => "error: FILE is missing\n\n" ++ usage
  | unknownArgument => "error: unexpected argument\n\n" ++ usage
  | unknownCommand => "error: unknown command\n\n" ++ usage
  | missingCommand => "error: a command is missing\n\n" ++ usage
  | invalidValue => "error: a value is missing or not allowed\n\n" ++ usage
  | invalidNumber => "error: a number is malformed or out of range\n\n" ++ usage
  | unneededValue => "error: a value where none is taken\n\n" ++ usage
  | conflict => "error: options exclude each other\n\n" ++ usage
  | nothingGiven | helpWanted => usage
  | versionWanted => "tinyc 0.0.0"

def printEntries (arguments : Arguments) (journal : List Journal.Entry) : IO Unit := do
  for entry in arguments.shown journal do
    if entry.level.toStderr then IO.eprintln entry.line else IO.println entry.line

end TinyLang.CommandLine

open TinyLang.CommandLine in
def main (words : List String) : IO UInt32 := do
  match ← runWords realFiles words with
  | .error error =>
    if error.exitCode = 0 then IO.println error.message else IO.eprintln error.message
    return UInt32.ofNat error.exitCode
  | .ok (arguments, outcome) =>
    printEntries arguments outcome.journal
    IO.print outcome.stdout
    IO.eprint outcome.stderr
    printEntries arguments outcome.closing
    for cause in outcome.causes do
      IO.eprintln cause
    return UInt32.ofNat outcome.exitCode

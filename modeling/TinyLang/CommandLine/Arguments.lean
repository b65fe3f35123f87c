import TinyLang.Grammar.Parser
import TinyLang.Journal
import TinyLang.Text.Notation
import TinyLang.Text.Quoted

/-!
Words are read from left to right. An option that takes a value waits for it until the next word,
and a value or a file name is checked only when something after it is taken up, so an unknown word
that follows it is reported first.
-/
namespace TinyLang.CommandLine

inductive Format where
  | tree | dot | record
deriving DecidableEq

def Format.ofWord? : String → Option Format
  | "tree" => some tree
  | "dot" => some dot
  | "debug" => some record
  | _ => none

def Format.name : Format → String
  | tree => "Tree"
  | dot => "Dot"
  | record => "Debug"

inductive Command where
  | scan (file : String) (output : Option String)
  | parse (file : String) (output : Option String) (listing : Bool) (format : Format)
      (config : ParserConfig)
deriving DecidableEq

structure Arguments where
  verbose : Nat
  quiet : Nat
  command : Command
deriving DecidableEq

inductive UsageError where
  | missingFile
  | unknownArgument
  | unknownCommand
  | missingCommand
  | nothingGiven
  | invalidValue
  | invalidNumber
  | unneededValue
  | conflict
  | helpWanted
  | versionWanted
deriving DecidableEq

def UsageError.exitCode : UsageError → Nat
  | helpWanted | versionWanted => 0
  | _ => 2

inductive Valued where
  | output | format | maxDepth
deriving DecidableEq

inductive Switch where
  | verbose | quiet | help | version | listing | trailingSemicolon
deriving DecidableEq

inductive Flag where
  | valued (v : Valued)
  | switch (s : Switch)
deriving DecidableEq

inductive Scope where
  | root | scan | parse
deriving DecidableEq

namespace Scope

def short? (scope : Scope) (c : Char) : Option Flag :=
  match scope, c with
  | _, 'v' => some (.switch .verbose)
  | _, 'q' => some (.switch .quiet)
  | _, 'h' => some (.switch .help)
  | root, 'V' => some (.switch .version)
  | scan, 'o' | parse, 'o' => some (.valued .output)
  | parse, 'f' => some (.valued .format)
  | _, _ => none

def long? (scope : Scope) (name : String) : Option Flag :=
  match scope, name with
  | _, "help" => some (.switch .help)
  | root, "version" => some (.switch .version)
  | scan, "output" | parse, "output" => some (.valued .output)
  | parse, "format" => some (.valued .format)
  | parse, "max-depth" => some (.valued .maxDepth)
  | parse, "tokens" => some (.switch .listing)
  | parse, "allow-trailing-semicolon" => some (.switch .trailingSemicolon)
  | _, _ => none

end Scope

structure Given where
  verbose : Nat := 0
  quiet : Nat := 0
  file : Option String := none
  output : Option String := none
  format : Option Format := none
  maxDepth : Option Nat := none
  listing : Bool := false
  trailingSemicolon : Bool := false

namespace Given

def withSwitch (given : Given) : Switch → Except UsageError Given
  | .verbose =>
    if given.verbose < 2 then .ok { given with verbose := given.verbose + 1 }
    else .error .invalidNumber
  | .quiet =>
    if given.quiet < 2 then .ok { given with quiet := given.quiet + 1 } else .error .invalidNumber
  | .help => .error .helpWanted
  | .version => .error .versionWanted
  | .listing => if given.listing then .error .conflict else .ok { given with listing := true }
  | .trailingSemicolon =>
    if given.trailingSemicolon then .error .conflict
    else .ok { given with trailingSemicolon := true }

def withValue (given : Given) (text : String) : Valued → Except UsageError Given
  | .output =>
    if given.output.isSome then .error .conflict
    else if text.isEmpty then .error .invalidValue
    else .ok { given with output := text }
  | .format =>
    if given.format.isSome then .error .conflict
    else match Format.ofWord? text with
      | some format => .ok { given with format }
      | none => .error .invalidValue
  | .maxDepth =>
    if given.maxDepth.isSome then .error .conflict
    else match Decimal.unsigned64? text with
      | some depth => .ok { given with maxDepth := depth }
      | none => .error .invalidNumber

def withFile (given : Given) (name : String) : Except UsageError Given :=
  if name.isEmpty then .error .invalidValue else .ok { given with file := name }

def checkConflict (given : Given) : Except UsageError Unit :=
  if given.verbose ≠ 0 ∧ given.quiet ≠ 0 then .error .conflict else .ok ()

end Given

inductive Pending where
  | nothing
  | option (v : Valued) (text : Option String)
  | file (name : String)

structure Reading where
  given : Given := {}
  pending : Pending := .nothing

namespace Reading

def settle (reading : Reading) : Except UsageError Given :=
  match reading.pending with
  | .nothing => .ok reading.given
  | .option _ none => .error .invalidValue
  | .option v (some text) => reading.given.withValue text v
  | .file name => reading.given.withFile name

def switch (reading : Reading) (s : Switch) : Except UsageError Reading := do
  return { given := ← (← reading.settle).withSwitch s }

/-- Reads an option with the value that is attached to it. Without one it waits for the next
word. -/
def valued (reading : Reading) (v : Valued) : Option String → Except UsageError Reading
  | some text => do return { given := ← (← reading.settle).withValue text v }
  | none => do return { given := ← reading.settle, pending := .option v none }

def long (reading : Reading) (scope : Scope) (name : String) (value : Option String) :
    Except UsageError Reading :=
  match scope.long? name with
  | none => .error .unknownArgument
  | some (.valued v) => reading.valued v value
  | some (.switch s) => if value.isSome then .error .unneededValue else reading.switch s

/-- Reads the letters after a dash. The first option that takes a value takes the rest of them,
without an equals sign at the front. -/
def cluster (scope : Scope) : List Char → Reading → Except UsageError Reading
  | [], reading => .ok reading
  | c :: rest, reading =>
    match scope.short? c, rest with
    | none, _ => .error .unknownArgument
    | some (.switch s), _ => do cluster scope rest (← reading.switch s)
    | some (.valued v), [] => reading.valued v none
    | some (.valued v), '=' :: text => reading.valued v (String.ofList text)
    | some (.valued v), text => reading.valued v (String.ofList text)

def fileName (reading : Reading) (name : String) : Except UsageError Reading :=
  match reading.given.file, reading.pending with
  | some _, _ | _, .file _ => .error .unknownArgument
  | none, _ => do return { given := ← reading.settle, pending := .file name }

def plain (reading : Reading) (text : String) : Except UsageError Reading :=
  match reading.pending with
  | .option v none => .ok { reading with pending := .option v (some text) }
  | _ => reading.fileName text

end Reading

inductive Word where
  | escape
  | long (name : String) (value : Option String)
  | cluster (letters : List Char)
  | plain

def Word.ofString (text : String) : Word :=
  match text.toList with
  | ['-', '-'] => escape
  | '-' :: '-' :: body =>
    let name := String.ofList (body.takeWhile (· ≠ '='))
    match body.dropWhile (· ≠ '=') with
    | [] => long name none
    | _ :: value => long name (some (String.ofList value))
  | '-' :: c :: rest => cluster (c :: rest)
  | _ => plain

/-- Reads the words after a command. The flag says that the words stand after two dashes. -/
def readWords (scope : Scope) : Bool → Reading → List String → Except UsageError Given
  | _, reading, [] => reading.settle
  | true, reading, word :: rest => do readWords scope true (← reading.fileName word) rest
  | false, reading, word :: rest =>
    match Word.ofString word with
    | .escape => readWords scope true reading rest
    | .long name value => do readWords scope false (← reading.long scope name value) rest
    | .cluster letters => do readWords scope false (← reading.cluster scope letters) rest
    | .plain => do readWords scope false (← reading.plain word) rest

def commandNames : List String := ["scan", "parse", "help"]

/-- Reads all that follows the name of a command; `before` is what was given before it. A journal
option after the command counts for the one before. -/
def readCommand (before : Given) (name : String) (words : List String) :
    Except UsageError Arguments := do
  let scope : Scope ← match name, words with
    | "scan", _ => .ok .scan
    | "parse", _ => .ok .parse
    | "help", [] => .error .helpWanted
    | "help", [word] =>
      .error (if commandNames.contains word then .helpWanted else .unknownCommand)
    | _, _ => .error .unknownCommand
  let given ← readWords scope false {} words
  given.checkConflict
  let some file := given.file | throw .missingFile
  before.checkConflict
  let command := match scope with
    | .parse => .parse file given.output given.listing (given.format.getD .tree)
        ⟨given.maxDepth.getD 256, given.trailingSemicolon⟩
    | _ => .scan file given.output
  return {
    verbose := if given.verbose = 0 then before.verbose else given.verbose
    quiet := if given.quiet = 0 then before.quiet else given.quiet
    command }

def readRoot : Bool → Reading → List String → Except UsageError Arguments
  | _, reading, [] =>
    if reading.given.verbose = 0 ∧ reading.given.quiet = 0 then .error .nothingGiven
    else .error .missingCommand
  | true, _, word :: _ =>
    .error (if commandNames.contains word then .unknownArgument else .unknownCommand)
  | false, reading, word :: rest =>
    match Word.ofString word with
    | .escape => readRoot true reading rest
    | .long name value => do readRoot false (← reading.long .root name value) rest
    | .cluster letters => do readRoot false (← reading.cluster .root letters) rest
    | .plain => readCommand reading.given word rest

namespace Arguments

def ofWords (words : List String) : Except UsageError Arguments := readRoot false {} words

def verbosity (arguments : Arguments) : Int := arguments.verbose - arguments.quiet

def level? (arguments : Arguments) : Option Journal.Level :=
  if arguments.verbosity ≤ -2 then none
  else if arguments.verbosity = -1 then some .error
  else if arguments.verbosity = 0 then some .warn
  else if arguments.verbosity = 1 then some .debug
  else some .trace

def recordPath : Option String → Record
  | none => .plain "None"
  | some path => .plain ("Some(" ++ Text.quote path ++ ")")

def record (arguments : Arguments) : Record :=
  let command := match arguments.command with
    | .scan file output =>
      .wrapped "Scan" (.fields "ScanArgs" [.entry "file" (.plain (Text.quote file)),
        .entry "output" (recordPath output)])
    | .parse file output listing format config =>
      .wrapped "Parse" (.fields "ParseArgs" [.entry "file" (.plain (Text.quote file)),
        .entry "tokens" (.plain (toString listing)), .entry "format" (.plain format.name),
        .entry "max_depth" (.ofNat config.maxDepth),
        .entry "allow_trailing_semicolon" (.plain (toString config.trailingSemicolon)),
        .entry "output" (recordPath output)])
  .fields "Args" [
    .entry "logging" (.fields "LoggingArgs" [.entry "verbose" (.ofNat arguments.verbose),
      .entry "quiet" (.ofNat arguments.quiet)]),
    .entry "command" command]

end Arguments

end TinyLang.CommandLine

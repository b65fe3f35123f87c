import TinyLang.CommandLine.Arguments
import TinyLang.CommandLine.Folder
import TinyLang.Syntax.Outline
import TinyLang.Syntax.Graph
import TinyLang.Syntax.Record

namespace TinyLang.CommandLine

open Journal

structure Draft where
  journal : List Entry := []
  diagnosis : String := ""
  text : Except (List String) String
  /-- What is reported after the text or the diagnosis has been shown. -/
  closing : List Entry := []

structure Outcome where
  stdout : String := ""
  stderr : String := ""
  causes : List String := []
  journal : List Entry := []
  /-- What is reported after the texts and before the causes. -/
  closing : List Entry := []

def renderAt (path : String) (error : SyntaxError) (source : String) : String :=
  let lines := (Text.lines '\n' '\r' (error.render source).toList).map String.ofList
  String.join <| lines.mapIdx fun index line =>
    (if index = 1 then "  -> " ++ path ++ ":" ++ toString error.location else line) ++ "\n"

def Format.write (program : Program) : Format → String
  | tree => program.draw 2
  | dot => program.dot
  | record => program.record.pretty ++ "\n"

namespace Command

def file : Command → String
  | scan file _ => file
  | parse file .. => file

def output : Command → Option String
  | scan _ output => output
  | parse _ output .. => output

def draftScan (file source : String) : Draft :=
  let tokens := tokenize source
  let unknown := tokens.countP (·.kind = .unknown)
  { journal := Token.scanJournal tokens ++
      if unknown = 0 then []
      else [⟨.warn, .command, file ++ " contains " ++ toString unknown ++ " unrecognized characters"⟩]
    text := .ok (Listing.write tokens)
    closing := [⟨.info, .command, s!"scanned {tokens.length} tokens"⟩] }

def draftProgram (file source : String) (format : Format) (config : ParserConfig)
    (before : List Entry) (tokens : List Token) : Draft :=
  let journal := before ++ Program.parseJournal config tokens
  match Program.parse config tokens with
  | .ok program => { journal, text := .ok (format.write program) }
  | .error error =>
    let stack : Record := .list (error.stack.map fun rule => .plain (Text.quote rule.name))
    { journal
      diagnosis := renderAt file error source
      text := .error ["could not parse " ++ file]
      closing := [⟨.debug, .command, "non terminal stack: " ++ stack.compact⟩] }

def draft (command : Command) (content : FileContent) : Draft :=
  match content.text with
  | .error error => { text := .error ["could not read " ++ command.file, error.message] }
  | .ok source =>
    match command with
    | scan file _ => draftScan file source
    | parse file _ listing format config =>
      if listing then
        match Listing.read source with
        | .error error => { text := .error ["invalid token listing " ++ file, error.message] }
        | .ok tokens =>
          draftProgram file source format config (Listing.journal tokens) tokens
      else
        let tokens := tokenize source
        draftProgram file source format config (Token.scanJournal tokens) tokens

end Command

namespace Draft

def failed (draft : Draft) (causes : List String) : Outcome :=
  { stderr := draft.diagnosis, causes, journal := draft.journal, closing := draft.closing }

def delivered (draft : Draft) (stdout : String) : Outcome :=
  { stdout, stderr := draft.diagnosis, journal := draft.journal, closing := draft.closing }

def undelivered (draft : Draft) (path : String) (error : FileError) : Outcome :=
  { causes := ["could not create " ++ path, error.message], journal := draft.journal }

/-- Delivers the text of a draft to a file, or else to standard output. Without a text nothing is
written. -/
def deliver {m : Type → Type} [Monad m] (access : FileAccess m) (output : Option String)
    (draft : Draft) : m Outcome :=
  match draft.text, output with
  | .error causes, _ => pure (draft.failed causes)
  | .ok text, none => pure (draft.delivered text)
  | .ok text, some path => do
    match ← access.write path text.toUTF8 with
    | .error error => return draft.undelivered path error
    | .ok () => return draft.delivered ""

end Draft

namespace Arguments

def opening (arguments : Arguments) : List Entry :=
  [⟨.trace, .command, "starting tinyc with args: " ++ arguments.record.compact⟩,
    ⟨.debug, .command, "tinyc version: 0.0.0"⟩]

def runWith {m : Type → Type} [Monad m] (access : FileAccess m) (arguments : Arguments) :
    m Outcome := do
  let draft := arguments.command.draft (← access.read arguments.command.file)
  let outcome ← draft.deliver access arguments.command.output
  return { outcome with journal := arguments.opening ++ outcome.journal }

def run (arguments : Arguments) (folder : Folder) : Outcome × Folder :=
  (arguments.runWith Folder.system.access).run folder

def shown (arguments : Arguments) (journal : List Entry) : List Entry :=
  match arguments.level? with
  | none => []
  | some level => journal.filter fun entry => entry.level.rank ≤ level.rank

end Arguments

def runWords {m : Type → Type} [Monad m] (access : FileAccess m) (words : List String) :
    m (Except UsageError (Arguments × Outcome)) :=
  match Arguments.ofWords words with
  | .error error => return .error error
  | .ok arguments => return .ok (arguments, ← arguments.runWith access)

namespace Outcome

def exitCode (outcome : Outcome) : Nat := if outcome.causes.isEmpty then 0 else 1

end Outcome

end TinyLang.CommandLine

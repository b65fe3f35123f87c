import TinyLang.CommandLine.Run
import TinyLang.Proofs.Listing.Rewriting
import TinyLang.Proofs.Text.Encoding

namespace TinyLang

namespace FileContent

theorem text_ok (bytes : ByteArray) :
    text (.ok bytes) = (String.fromUTF8? bytes).elim (.error FileError.notText) .ok := by
  cases hbytes : String.fromUTF8? bytes with
  | some source =>
    simp only [text, bind, Except.bind, hbytes]
    rfl
  | none =>
    simp only [text, bind, Except.bind, hbytes]
    rfl

theorem text_toUTF8 (source : String) : text (.ok source.toUTF8) = .ok source := by
  rw [text_ok, Text.fromUTF8?_eq_some_iff_toUTF8.mpr rfl, Option.elim_some]

theorem text_of_not_text {bytes : ByteArray} (h : ∀ source : String, source.toUTF8 ≠ bytes) :
    text (.ok bytes) = .error .notText := by
  have hbytes : String.fromUTF8? bytes = none :=
    Option.eq_none_iff_forall_ne_some.mpr fun source hsource =>
      h source (Text.fromUTF8?_eq_some_iff_toUTF8.mp hsource)
  rw [text_ok, hbytes, Option.elim_none]

end FileContent

namespace CommandLine

/-- What tokens a command has of a source. The flag says that the source is a listing. -/
inductive Supplies : Bool → String → List Token → Prop
  | scanned (source : String) : Supplies false source (tokenize source)
  | listed {source : String} {tokens : List Token}
      (h : Listing.readBytes source.toUTF8 = .ok tokens) : Supplies true source tokens

inductive Failure where
  | file (error : FileError)
  | listing (error : ListingError)
  | grammar (source : String) (error : SyntaxError)

def Failure.diagnosis (file : String) : Failure → String
  | grammar source error => renderAt file error source
  | _ => ""

inductive Format.Shows (program : Program) : Format → String → Prop
  | tree : Shows program .tree (program.draw 2)
  | dot : Shows program .dot program.dot
  | record : Shows program .record (program.record.pretty ++ "\n")

theorem Format.shows_iff {program : Program} {format : Format} {text : String} :
    format.Shows program text ↔ text = format.write program := by
  constructor
  · rintro ⟨⟩ <;> rfl
  · rintro rfl
    cases format with
    | tree => exact .tree
    | dot => exact .dot
    | record => exact .record

namespace Command

inductive Fails : Command → FileContent → Failure → Prop
  | unread {command : Command} (error : FileError) : Fails command (.error error) (.file error)
  | notText {command : Command} {bytes : ByteArray} (h : ∀ source : String, source.toUTF8 ≠ bytes) :
      Fails command (.ok bytes) (.file .notText)
  | listing {file source : String} {output : Option String} {format : Format}
      {config : ParserConfig} {error : ListingError}
      (h : Listing.readBytes source.toUTF8 = .error error) :
      Fails (parse file output true format config) (.ok source.toUTF8) (.listing error)
  | grammar {file source : String} {output : Option String} {listing : Bool} {format : Format}
      {config : ParserConfig} {tokens : List Token} {error : SyntaxError}
      (htokens : Supplies listing source tokens) (h : Program.parse config tokens = .error error) :
      Fails (parse file output listing format config) (.ok source.toUTF8) (.grammar source error)

inductive Makes : Command → FileContent → String → Prop
  | scan (file source : String) (output : Option String) :
      Makes (scan file output) (.ok source.toUTF8) (Listing.write (tokenize source))
  | parse {file source : String} {output : Option String} {listing : Bool} {format : Format}
      {config : ParserConfig} {tokens : List Token} {program : Program} {text : String}
      (htokens : Supplies listing source tokens) (h : Program.parse config tokens = .ok program)
      (htext : format.Shows program text) :
      Makes (parse file output listing format config) (.ok source.toUTF8) text

variable {command : Command} {content : FileContent}

/-- A command makes a text or fails. -/
theorem fails_or_makes (command : Command) (content : FileContent) :
    (∃ failure, command.Fails content failure) ∨ ∃ text, command.Makes content text := by
  cases content with
  | error error => exact .inl ⟨_, .unread error⟩
  | ok bytes =>
    by_cases hbytes : ∃ source : String, source.toUTF8 = bytes
    · obtain ⟨source, rfl⟩ := hbytes
      cases command with
      | scan file output => exact .inr ⟨_, .scan file source output⟩
      | parse file output listing format config =>
        have hparse (tokens : List Token) (htokens : Supplies listing source tokens) :
            let command := parse file output listing format config
            (∃ failure, command.Fails (.ok source.toUTF8) failure) ∨
              ∃ text, command.Makes (.ok source.toUTF8) text := by
          cases hprogram : Program.parse config tokens with
          | ok program => exact .inr ⟨_, .parse htokens hprogram (Format.shows_iff.mpr rfl)⟩
          | error error => exact .inl ⟨_, .grammar htokens hprogram⟩
        cases listing with
        | false => exact hparse _ (.scanned source)
        | true =>
          cases hread : Listing.readBytes source.toUTF8 with
          | ok tokens => exact hparse _ (.listed hread)
          | error error => exact .inl ⟨_, .listing hread⟩
    · exact .inl ⟨_, .notText fun source hsource => hbytes ⟨source, hsource⟩⟩

theorem draft_parse {source : String} {listing : Bool} {tokens : List Token}
    (htokens : Supplies listing source tokens) (file : String) (output : Option String)
    (format : Format) (config : ParserConfig) :
    ∃ before, draft (parse file output listing format config) (.ok source.toUTF8) =
      draftProgram file source format config before tokens := by
  rw [draft, FileContent.text_toUTF8]
  cases htokens with
  | scanned => exact ⟨_, rfl⟩
  | listed htokens =>
    rw [Listing.readBytes_toUTF8] at htokens
    simp only [if_true, htokens]
    exact ⟨_, rfl⟩

theorem draft_of_fails {failure : Failure} (h : command.Fails content failure) :
    (∃ cause causes, (command.draft content).text = .error (cause :: causes)) ∧
      (command.draft content).diagnosis = failure.diagnosis command.file := by
  cases h with
  | unread error => exact ⟨⟨_, _, rfl⟩, rfl⟩
  | notText h =>
    rw [draft, FileContent.text_of_not_text h]
    exact ⟨⟨_, _, rfl⟩, rfl⟩
  | listing h =>
    rw [Listing.readBytes_toUTF8] at h
    rw [draft, FileContent.text_toUTF8]
    simp only [h]
    exact ⟨⟨_, _, rfl⟩, rfl⟩
  | @grammar file source output listing format config tokens error htokens h =>
    obtain ⟨before, hdraft⟩ := draft_parse htokens file output format config
    simp only [hdraft, draftProgram, h, Failure.diagnosis, Command.file]
    exact ⟨⟨_, _, rfl⟩, trivial⟩

theorem draft_of_makes {text : String} (h : command.Makes content text) :
    (command.draft content).text = .ok text := by
  cases h with
  | scan =>
    rw [draft, FileContent.text_toUTF8]
    rfl
  | @parse file source output listing format config tokens program text htokens h htext =>
    obtain ⟨before, hdraft⟩ := draft_parse htokens file output format config
    rw [hdraft, draftProgram, h, Format.shows_iff.mp htext]

/-- There is only one text that a command makes. -/
theorem Makes.unique {text text' : String} (h : command.Makes content text)
    (h' : command.Makes content text') : text = text' := by
  have htext := draft_of_makes h
  rw [draft_of_makes h'] at htext
  exact (Except.ok.inj htext).symm

end Command

section Run

variable {σ : Type}

def Received (system : FileSystem σ) (files : σ) (output : Option String) (text : String)
    (outcome : Outcome) (after : σ) : Prop :=
  match output with
  | none => outcome.stdout = text ∧ after = files
  | some path => outcome.stdout = "" ∧ system.write files path text.toUTF8 = (.ok (), after)

structure Delivers (system : FileSystem σ) (files : σ) (command : Command) (outcome : Outcome)
    (after : σ) : Prop where
  complete : (∃ failure, command.Fails (system.read files command.file) failure) ∨
    ∃ text, command.Makes (system.read files command.file) text
  of_fails {failure : Failure} (h : command.Fails (system.read files command.file) failure) :
    outcome.exitCode = 1 ∧ after = files ∧ outcome.stdout = "" ∧
      outcome.stderr = failure.diagnosis command.file
  of_success (h : outcome.exitCode = 0) :
    ∃ text, command.Makes (system.read files command.file) text ∧
      Received system files command.output text outcome after
  /-- Only the destination can keep a command that makes a text from success. -/
  success {text : String} (h : command.Makes (system.read files command.file) text)
    (hwrite : ∀ path, command.output = some path →
      (system.write files path text.toUTF8).1 = .ok ()) : outcome.exitCode = 0

variable {system : FileSystem σ} {files : σ} {draft : Draft} {text : String}

/-- Where nothing keeps the destination from being written, it gets the text that is made. -/
theorem Delivers.received {command : Command} {outcome : Outcome} {after : σ}
    (h : Delivers system files command outcome after)
    (hmakes : command.Makes (system.read files command.file) text)
    (hwrite : ∀ path, command.output = some path →
      (system.write files path text.toUTF8).1 = .ok ()) :
    outcome.exitCode = 0 ∧ Received system files command.output text outcome after := by
  have hexit := h.success hmakes hwrite
  obtain ⟨text', hmakes', hreceived⟩ := h.of_success hexit
  rw [hmakes.unique hmakes']
  exact ⟨hexit, hreceived⟩

theorem run_deliver_of_error {causes : List String} (h : draft.text = .error causes)
    (output : Option String) :
    (draft.deliver system.access output).run files = (draft.failed causes, files) := by
  obtain ⟨journal, diagnosis, result, closing⟩ := draft
  obtain rfl : result = .error causes := h
  rfl

theorem run_deliver_none (h : draft.text = .ok text) :
    (draft.deliver system.access none).run files = (draft.delivered text, files) := by
  obtain ⟨journal, diagnosis, result, closing⟩ := draft
  obtain rfl : result = .ok text := h
  rfl

theorem run_deliver_written {path : String} {after : σ} (h : draft.text = .ok text)
    (hwrite : system.write files path text.toUTF8 = (.ok (), after)) :
    (draft.deliver system.access (some path)).run files = (draft.delivered "", after) := by
  have hstep : (system.access.write path text.toUTF8).run files = (.ok (), after) := hwrite
  simp only [Draft.deliver, h, StateT.run_bind, hstep]
  rfl

theorem run_deliver_unwritten {path : String} {error : FileError} {after : σ}
    (h : draft.text = .ok text)
    (hwrite : system.write files path text.toUTF8 = (.error error, after)) :
    (draft.deliver system.access (some path)).run files =
      (draft.undelivered path error, after) := by
  have hstep : (system.access.write path text.toUTF8).run files = (.error error, after) := hwrite
  simp only [Draft.deliver, h, StateT.run_bind, hstep]
  rfl

/-- The outcome of a run is that of the delivery of its draft, with more in the journal. -/
theorem run_runWith {arguments : Arguments} {outcome : Outcome} {after : σ}
    (h : ((arguments.command.draft (system.read files arguments.command.file)).deliver system.access
      arguments.command.output).run files = (outcome, after)) :
    (arguments.runWith system.access).run files =
      ({ outcome with journal := arguments.opening ++ outcome.journal }, after) := by
  have hrun : (arguments.runWith system.access).run files =
      let ended := ((arguments.command.draft (system.read files arguments.command.file)).deliver
        system.access arguments.command.output).run files
      ({ ended.1 with journal := arguments.opening ++ ended.1.journal }, ended.2) := rfl
  rw [hrun, h]

variable {arguments : Arguments}

theorem run_of_fails {failure : Failure}
    (h : arguments.command.Fails (system.read files arguments.command.file) failure) :
    ∃ outcome, (arguments.runWith system.access).run files = (outcome, files) ∧
      outcome.exitCode = 1 ∧ outcome.stdout = "" ∧
      outcome.stderr = failure.diagnosis arguments.command.file := by
  obtain ⟨⟨cause, causes, htext⟩, hdiagnosis⟩ := Command.draft_of_fails h
  exact ⟨_, run_runWith (run_deliver_of_error htext _), rfl, rfl, hdiagnosis⟩

/-- A text that is made reaches its destination, or else the file could not be written. -/
theorem run_of_makes
    (h : arguments.command.Makes (system.read files arguments.command.file) text) :
    ∃ outcome after, (arguments.runWith system.access).run files = (outcome, after) ∧
      (outcome.exitCode = 0 ∧
          Received system files arguments.command.output text outcome after ∨
        outcome.exitCode = 1 ∧ ∃ path error, arguments.command.output = some path ∧
          system.write files path text.toUTF8 = (.error error, after)) := by
  have htext := Command.draft_of_makes h
  cases houtput : arguments.command.output with
  | none =>
    have hrun := @run_deliver_none _ system files _ _ htext
    rw [← houtput] at hrun
    exact ⟨_, _, run_runWith hrun, .inl ⟨rfl, rfl, rfl⟩⟩
  | some path =>
    obtain ⟨result, after, hwrite⟩ : ∃ result after,
        system.write files path text.toUTF8 = (result, after) := ⟨_, _, rfl⟩
    cases result with
    | ok =>
      have hrun := run_deliver_written htext hwrite
      rw [← houtput] at hrun
      exact ⟨_, _, run_runWith hrun, .inl ⟨rfl, rfl, hwrite⟩⟩
    | error error =>
      have hrun := run_deliver_unwritten htext hwrite
      rw [← houtput] at hrun
      exact ⟨_, _, run_runWith hrun, .inr ⟨rfl, path, error, rfl, hwrite⟩⟩

theorem delivers_of_run {outcome : Outcome} {after : σ}
    (hrun : (arguments.runWith system.access).run files = (outcome, after)) :
    Delivers system files arguments.command outcome after where
  complete := arguments.command.fails_or_makes _
  of_fails h := by
    obtain ⟨outcome', hrun', hexit, hstdout, hstderr⟩ := run_of_fails h
    cases hrun.symm.trans hrun'
    exact ⟨hexit, rfl, hstdout, hstderr⟩
  of_success hsuccess := by
    rcases arguments.command.fails_or_makes (system.read files arguments.command.file) with
      ⟨failure, hfails⟩ | ⟨text, hmakes⟩
    · obtain ⟨outcome', hrun', hexit, -⟩ := run_of_fails hfails
      cases hrun.symm.trans hrun'
      omega
    · obtain ⟨outcome', after', hrun', hended⟩ := run_of_makes hmakes
      cases hrun.symm.trans hrun'
      rcases hended with ⟨-, hreceived⟩ | ⟨hexit, -⟩
      · exact ⟨text, hmakes, hreceived⟩
      · omega
  success hmakes hwrite := by
    obtain ⟨outcome', after', hrun', hended⟩ := run_of_makes hmakes
    cases hrun.symm.trans hrun'
    rcases hended with ⟨hexit, -⟩ | ⟨-, path, error, houtput, herror⟩
    · exact hexit
    · have hok := hwrite path houtput
      rw [herror] at hok
      cases hok

/-- A command that fails to make a text of its file leaves all files as they were and nothing on
standard output. The text that a command makes is what its destination gets. -/
theorem delivers_runWords {words : List String} (h : Arguments.ofWords words = .ok arguments)
    (system : FileSystem σ) (files : σ) :
    ∃ outcome after,
      (runWords system.access words).run files = (.ok (arguments, outcome), after) ∧
        Delivers system files arguments.command outcome after := by
  refine ⟨((arguments.runWith system.access).run files).1,
    ((arguments.runWith system.access).run files).2, ?_, delivers_of_run rfl⟩
  rw [runWords, h]
  rfl

/-- A file of a folder that receives a text has its bytes, and the others stay as they were. -/
theorem Folder.find?_of_received {folder after : Folder} {path name : String} {outcome : Outcome}
    (leads : folder.resolve path = .ok (.inside name))
    (h : Received Folder.system folder (some path) text outcome after) :
    after.find? name = some text.toUTF8 ∧
      ∀ other, other ≠ name → after.find? other = folder.find? other := by
  have hwrite := Folder.system_write_eq_ok_iff.mp h.2
  exact ⟨Folder.find?_write leads hwrite, fun other => Folder.find?_write_of_ne leads hwrite⟩

/-- A file that ends too early cannot be parsed, and the old tree stays where it is. The tokens of
the file can be listed in its place, and once the file is complete its tree takes the place too, with
no level to spare and a semicolon at the end that has to be allowed. -/
theorem delivers_runWords_of_read :
    (∃ outcome, (runWords Folder.system.access ["parse", "-o", "out.txt", "in.tiny"]).run
        ⟨[("in.tiny", "read".toUTF8), ("out.txt", "old".toUTF8)]⟩ =
          (.ok (⟨0, 0, .parse "in.tiny" (some "out.txt") false .tree {}⟩, outcome),
            ⟨[("in.tiny", "read".toUTF8), ("out.txt", "old".toUTF8)]⟩) ∧
      outcome.exitCode = 1 ∧ outcome.stdout = "") ∧
    (∃ outcome after, (runWords Folder.system.access ["scan", "-o", "out.txt", "in.tiny"]).run
        ⟨[("in.tiny", "read".toUTF8), ("out.txt", "old".toUTF8)]⟩ =
          (.ok (⟨0, 0, .scan "in.tiny" (some "out.txt")⟩, outcome), after) ∧
      outcome.exitCode = 0 ∧ outcome.stdout = "" ∧
      after.find? "out.txt" = some "read,READ\n,EOF\n".toUTF8) ∧
    ∃ outcome after, (runWords Folder.system.access ["parse", "--max-depth", "4",
        "--allow-trailing-semicolon", "-o", "out.txt", "in.tiny"]).run
        ⟨[("in.tiny", "read x;".toUTF8), ("out.txt", "old".toUTF8)]⟩ =
          (.ok (⟨0, 0, .parse "in.tiny" (some "out.txt") false .tree ⟨4, true⟩⟩, outcome), after) ∧
      outcome.exitCode = 0 ∧ outcome.stdout = "" ∧
      after.find? "out.txt" = some "program\n  sequence\n    read (x)\n".toUTF8 := by
  have hscan : Arguments.ofWords ["scan", "-o", "out.txt", "in.tiny"] =
      .ok ⟨0, 0, .scan "in.tiny" (some "out.txt")⟩ := rfl
  have hparse : Arguments.ofWords ["parse", "-o", "out.txt", "in.tiny"] =
      .ok ⟨0, 0, .parse "in.tiny" (some "out.txt") false .tree {}⟩ := rfl
  have hallowing : Arguments.ofWords ["parse", "--max-depth", "4", "--allow-trailing-semicolon",
      "-o", "out.txt", "in.tiny"] =
      .ok ⟨0, 0, .parse "in.tiny" (some "out.txt") false .tree ⟨4, true⟩⟩ := rfl
  have htokens : tokenize "read" =
      [⟨.keyword .readWord, "read", ⟨0, 4, ⟨1, 1⟩, ⟨1, 5⟩⟩⟩, .endAt 4 ⟨1, 5⟩] := by
    decide +kernel
  refine ⟨?_, ?_, ?_⟩
  · have herror : Program.parse {} (tokenize "read") =
        .error ⟨.expectedToken [.identifier] (.endAt 4 ⟨1, 5⟩), .point 4 ⟨1, 5⟩,
          [.program, .sequence, .statement, .read]⟩ := by
      rw [htokens]
      decide +kernel
    obtain ⟨outcome, after, hrun, hdelivers⟩ := delivers_runWords hparse Folder.system
      ⟨[("in.tiny", "read".toUTF8), ("out.txt", "old".toUTF8)]⟩
    obtain ⟨hexit, rfl, hstdout, -⟩ := hdelivers.of_fails (.grammar (.scanned "read") herror)
    exact ⟨outcome, hrun, hexit, hstdout⟩
  · obtain ⟨outcome, after, hrun, hdelivers⟩ := delivers_runWords hscan Folder.system
      ⟨[("in.tiny", "read".toUTF8), ("out.txt", "old".toUTF8)]⟩
    have hmakes := Command.Makes.scan "in.tiny" "read" (some "out.txt")
    obtain ⟨hexit, hstdout, hwrite⟩ := hdelivers.received hmakes fun path hpath => by
      cases hpath
      rfl
    refine ⟨outcome, after, hrun, hexit, hstdout, ?_⟩
    rw [htokens] at hwrite
    cases hwrite
    rfl
  · have htokens' : tokenize "read x;" =
        [⟨.keyword .readWord, "read", ⟨0, 4, ⟨1, 1⟩, ⟨1, 5⟩⟩⟩,
          ⟨.identifier, "x", ⟨5, 1, ⟨1, 6⟩, ⟨1, 7⟩⟩⟩, ⟨.semicolon, ";", ⟨6, 1, ⟨1, 7⟩, ⟨1, 8⟩⟩⟩,
          .endAt 7 ⟨1, 8⟩] := by
      decide +kernel
    have hprogram : Program.parse ⟨4, true⟩ (tokenize "read x;") =
        .ok ⟨[.read "x" ⟨0, 4, ⟨1, 1⟩, ⟨1, 5⟩⟩]⟩ := by
      rw [htokens']
      exact Parser.parse_eq_ok_of_toOption rfl
    have hdraw : Program.draw 2 ⟨[.read "x" ⟨0, 4, ⟨1, 1⟩, ⟨1, 5⟩⟩]⟩ =
        "program\n  sequence\n    read (x)\n" := by
      decide +kernel
    obtain ⟨outcome, after, hrun, hdelivers⟩ := delivers_runWords hallowing Folder.system
      ⟨[("in.tiny", "read x;".toUTF8), ("out.txt", "old".toUTF8)]⟩
    have hmakes : Command.Makes (.parse "in.tiny" (some "out.txt") false .tree ⟨4, true⟩)
        (.ok "read x;".toUTF8) _ := .parse (.scanned "read x;") hprogram .tree
    obtain ⟨hexit, hstdout, hwrite⟩ := hdelivers.received hmakes fun path hpath => by
      cases hpath
      rfl
    refine ⟨outcome, after, hrun, hexit, hstdout, ?_⟩
    rw [hdraw] at hwrite
    cases hwrite
    rfl

end Run

end CommandLine

end TinyLang

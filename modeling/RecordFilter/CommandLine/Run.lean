import RecordFilter.CommandLine.LogFilter
import RecordFilter.CommandLine.Options
import RecordFilter.CommandLine.World
import RecordFilter.Pipeline
import RecordFilter.Settings.Basic

/-!
# Running a command line

A run reads its settings, compiles the expression, opens the input, creates the output and sends
the lines of the input through the pipeline. It stops at the first step that fails. The output file
is emptied when it is created, before anything is read, so a file that is both input and output is
read as empty.
-/

namespace RecordFilter

/-- How a run has ended. -/
structure Outcome where
  /-- The exit code; a run that was broken off from outside has none. -/
  exitCode : Option Nat
  stdout : Text.Bytes
  /-- The error that has ended the run, if one has. -/
  error : Option String
  log : List LogLine
  /-- The surroundings afterwards. -/
  world : World

namespace Run

/-- The name and version of the program. -/
def versionLine : String := "booleval 0.1.0"

/-- How the program is used. -/
def usageLine : String := "Usage: booleval [OPTIONS]"

/-- The variable that gives the expression when no option does. -/
def expressionVariable : String := "BOOLEVAL_EXPR"

/-- The variable that says what is logged. -/
def logVariable : String := "RUST_LOG"

/-! ## Settings -/

/-- A settings file that has been found: its form and its content. -/
abbrev SettingsFile := Settings.FileForm × Text.Bytes

/-- The form that the name at the end of a path tells. -/
def formOf? (path : String) : Option Settings.FileForm :=
  ((Path.trimmed? path).bind fun (_, name) => Path.ending? name).bind fun ending =>
    Settings.FileForm.ofEnding? (String.ofList ending)

/-- What stands in the place of the missing ending behind a name that has one already. -/
def placeholder : String := ".placeholder"

/-- The path with an ending for the one that is missing. Behind a name with an ending it goes to the
end of the whole path, which then must not end with a slash. -/
def completed? (path ending : String) : Option String :=
  match (Path.trimmed? path).bind fun (_, name) => Path.ending? name with
  | some _ => Path.withEnding? (path ++ placeholder) ending
  | none => Path.withEnding? path ending

/-- The settings file that a path leads to when it gets one of the endings. -/
def completedFile? (w : World) (path : String) : Option SettingsFile :=
  Settings.FileForm.all.findSome? fun form =>
    form.endings.findSome? fun ending =>
      ((completed? path ending).bind w.read?).map fun content => (form, content)

/-- The settings file of a path. When there is no file, the path may lack its ending. -/
def settingsFile? (w : World) (path : String) : Option SettingsFile :=
  match w.read? path with
  | some content => (formOf? path).map fun form => (form, content)
  | none => completedFile? w path

/-- The configuration that the options name. Without a file there is none, and the environment is
not looked at. -/
def configuration? (w : World) (o : Options) : Except String (Option Configuration) :=
  match o.config with
  | none => .ok none
  | some path =>
    let found := (settingsFile? w path).bind fun (form, content) =>
      Configuration.load? form content w.environment
    match found with
    | some configuration => .ok (some configuration)
    | none => .error ("Config: Failed to load " ++ Text.quoted path)

/-- The settings of the run. -/
def settings? (w : World) (o : Options) : Except String Settings :=
  match configuration? w o with
  | .error message => .error message
  | .ok configuration =>
    .ok (Settings.resolve configuration (o.expression.or (w.environment.lookup expressionVariable))
      o.ignoreCase o.batchSize)

/-! ## The log -/

/-- The rank of what is logged if the environment does not say. -/
def usualRank (verbose : Bool) : Nat := if verbose then Level.info.rank else Level.warn.rank

/-- What is logged, if the environment says it in a way that can be understood. -/
def logFilter? (w : World) (verbose : Bool) : Option LogFilter :=
  LogFilter.ofText? ((w.environment.lookup logVariable).getD "").toList (usualRank verbose)

/-- Progress of the run. -/
def progress (message : String) : LogLine := ⟨.info, .application, message⟩

/-- That a character in the expression is stray. -/
def strayLines (settings : Settings) : List LogLine :=
  match (TokenList.ofText settings.expression.toList settings.ignoreCase).stray with
  | some stray =>
    [⟨.trace, .lexer, "Lexer: stray " ++ Text.quotedChar stray.char ++ " at offset " ++
      ParseError.count stray.offset⟩]
  | none => []

/-- That the expression is not used. -/
def rejectionLine (r : Evaluator.Rejection) : LogLine := ⟨.warn, .evaluator, r.warning⟩

/-- What the evaluator does. -/
def filterLines (e : Evaluator) : List LogLine :=
  match e.condition with
  | some c =>
    [⟨.debug, .evaluator, "Filter: built " ++ c.text ++ " (" ++ ParseError.count c.relations ++
      " relations)"⟩, progress ("Filter: " ++ c.text)]
  | none => [progress "Filter: empty, passing all records"]

/-- Where records come from. -/
def sourceLine (path : Option String) : LogLine :=
  match path with
  | some path => progress ("Source: " ++ Text.quoted path)
  | none => progress "Source: stdin"

/-- Where matching records go. -/
def sinkLine (path : Option String) : LogLine :=
  match path with
  | some path => progress ("Sink: jsonl -> " ++ Text.quoted path)
  | none => progress "Sink: jsonl -> stdout"

/-- That a line holds no record. -/
def skipLine (number : Nat) : LogLine := ⟨.warn, .application, Pipeline.skipWarning number⟩

/-- The result of a run that came to its end. -/
def doneLine (t : Pipeline.Tally) : LogLine :=
  ⟨.info, .program, "Done! Matched " ++ ParseError.count t.matched ++ " of " ++
    ParseError.count t.read ++ " records (" ++ ParseError.count t.skipped ++ " skipped)"⟩

/-! ## Endings -/

/-- The error that the threads cannot be started. -/
def threadsError : String := "CLI: Failed to initialize thread pool"

/-- The error that a file cannot be opened for reading. -/
def inputError (path : String) : String := "CLI: Failed to open input " ++ Text.quoted path

/-- The error that a file cannot be opened for writing. -/
def outputError (path : String) : String := "CLI: Failed to create output " ++ Text.quoted path

/-- A run that stopped at a step that failed. -/
def failed (w : World) (log : List LogLine) (message : String) : Outcome :=
  ⟨some 1, [], some message, log, w⟩

/-- A run that cannot be started, since what is to be logged is said in a way that cannot be
understood. -/
def crashed (w : World) : Outcome := ⟨some 101, [], none, [], w⟩

/-- The exit code of a run whose pipeline has ended like this. One that was broken off from outside
has none. -/
def exitCodeOf : Pipeline.Ending → Option Nat
  | .complete => some 0
  | .crashed => some 101
  | .aborted => none
  | .unreadable _ | .unwritable _ | .unfinished => some 1

/-! ## Sources and targets -/

/-- The path that is given, unless it stands for the standard stream: a dash, perhaps with slashes
and dots behind it. -/
def file? (path : Option String) : Option String :=
  path.filter fun p => Path.dropStays (Path.segments p) != [['-']]

/-- Where the lines of the input are. -/
inductive Source where
  | stdin
  | file (l : Location)
  /-- There is nothing to read. -/
  | void
  /-- It can be opened, but not read. -/
  | unreadable

/-- The source at a place, if there is something to open. -/
def sourceAt? (w : World) (l : Location) : Option Source :=
  (w.entryAt? l).map fun
    | .file _ => .file l
    | .directory => .unreadable
    | .device .stdin => .stdin
    | .device _ => .void

/-- Opens the input. -/
def source? (w : World) : Option String → Option Source
  | none => some .stdin
  | some path => (w.along? path (Path.segments path)).bind (sourceAt? w)

/-- The lines of a source. -/
def linesOf (w : World) : Source → List (Option String)
  | .stdin => Pipeline.textLines w.stdin
  | .file l => Pipeline.textLines ((w.fileAt? l).getD [])
  | .void => []
  | .unreadable => Pipeline.noLines

/-- Where matching records go. -/
inductive Target where
  | stdout
  | file (l : Location)
  /-- Everything is taken and nothing is kept. -/
  | void
  /-- Nothing is taken. -/
  | full

/-- The target at a place. -/
def targetAt (w : World) (l : Location) : Target :=
  match w.devices.lookup l with
  | some .null => .void
  | some .full => .full
  | some .stdin => .void
  | some .stdout => .stdout
  | none => .file l

/-- Finds the target of the output. -/
def target? (w : World) : Option String → Option Target
  | none => some .stdout
  | some path => (w.target? path).map (targetAt w)

/-- How many bytes are held back before they are passed on. -/
def bufferSize : Nat := 8192

/-- What a sink into the target is able to do. -/
def capacityOf : Target → Pipeline.Capacity
  | .full => .holds bufferSize
  | _ => .unlimited

/-- The surroundings with a target that has a content. -/
def written (w : World) (content : Text.Bytes) : Target → World
  | .file l => w.put l content
  | _ => w

/-- What a target shows on the standard output. -/
def shown (content : Text.Bytes) : Target → Text.Bytes
  | .stdout => content
  | _ => []

/-! ## Steps -/

/-- Sends the lines of the source through the pipeline, with everything open. -/
def process (w : World) (log : List LogLine) (e : Evaluator) (source : Source) (target : Target)
    (batchSize : Nat) : Outcome :=
  let (ending, p) :=
    Pipeline.run e (linesOf w source) (.empty (capacityOf target)) batchSize w.memory
  let log := log ++ p.skipped.toList.map skipLine
  let content := p.sink.output
  ⟨exitCodeOf ending, shown content target, ending.error?,
    if ending = .complete then log ++ [doneLine p.tally] else log, written w content target⟩

/-- Creates the output and sends the source through the pipeline. -/
def toTarget (w : World) (log : List LogLine) (e : Evaluator) (source : Source)
    (output : Option String) (batchSize : Nat) : Outcome :=
  let log := log ++ [sinkLine output]
  match target? w output with
  | some target => process (written w [] target) log e source target batchSize
  | none => failed w log (outputError (output.getD ""))

/-- Opens the input and creates the output. -/
def fromSource (w : World) (log : List LogLine) (e : Evaluator) (input output : Option String)
    (batchSize : Nat) : Outcome :=
  let log := log ++ [sourceLine input]
  match source? w input with
  | some source => toTarget w log e source output batchSize
  | none => failed w log (inputError (input.getD ""))

/-- The run that the options ask for, with everything logged. -/
def filter (w : World) (o : Options) : Outcome :=
  if o.threads.any (w.threads < ·) then failed w [] threadsError
  else
    match settings? w o with
    | .error message => failed w [] message
    | .ok settings =>
      match Evaluator.compile settings.ignoreCase settings.expression with
      | .error r => failed w (strayLines settings ++ [rejectionLine r]) r.message
      | .ok e =>
        fromSource w (filterLines e) e (file? o.input) (file? o.output) settings.batchSize

/-- Runs a command line. -/
def run (words : List String) (w : World) : Outcome :=
  match Request.read words with
  | .misuse => ⟨some 2, [], none, [], w⟩
  | .version => ⟨some 0, Text.encodeLine versionLine, none, [], w⟩
  | .help => ⟨some 0, Text.encodeLine usageLine, none, [], w⟩
  | .run o =>
    match logFilter? w o.verbose with
    | none => crashed w
    | some f =>
      let outcome := filter w o
      { outcome with log := outcome.log.filter f.shows }

end Run

end RecordFilter

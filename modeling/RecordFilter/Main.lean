import RecordFilter.CommandLine.Run

/-!
# The program

Reads what a run needs from the file system, runs the command line, and carries out what the run
has left behind. Nothing is decided here.
-/

namespace RecordFilter

/-- The content of a file, if it can be read. -/
def contentOf? (path : String) : IO (Option Text.Bytes) := do
  try
    return some (← IO.FS.readBinFile path).toList
  catch _ =>
    return none

/-- The path leads to a directory: it can be opened, but not read. -/
def isDirectoryPath (path : String) : IO Bool := do
  try
    let _ ← IO.FS.Handle.mk path .read
    return (← contentOf? path).isNone
  catch _ =>
    return false

/-- The rest of a stream. -/
partial def readRest (stream : IO.FS.Stream) (taken : ByteArray) : IO ByteArray := do
  let chunk ← stream.read 65536
  if chunk.isEmpty then return taken
  readRest stream (taken ++ chunk)

/-- Where the variables of the environment can be read. -/
def environmentPath : String := "/proc/self/environ"

/-- A variable with its text, around the first equals sign. -/
def variableOf (bytes : Text.Bytes) : String × String :=
  let text := Text.decodeLossy bytes
  let name := text.takeWhile (· != '=')
  (String.ofList name, String.ofList (text.drop (name.length + 1)))

/-- The names of the variables that are looked up where the others cannot be read. -/
def variableNames : List String :=
  [Run.expressionVariable, Run.logVariable, "BOOLEVAL_EXPRESSION", "BOOLEVAL_CASE_INSENSITIVE",
    "BOOLEVAL_BATCH_SIZE"]

/-- The variables of the environment. -/
def environment : IO (List (String × String)) := do
  match ← contentOf? environmentPath with
  | some content => return ((content.splitOn 0).filter (!·.isEmpty)).map variableOf
  | none =>
    variableNames.filterMapM fun name => do
      return (← IO.getEnv name).map fun text => (name, text)

/-- The paths at which a settings file is looked for. -/
def settingsPaths (path : String) : List String :=
  path :: (Settings.FileForm.all.flatMap Settings.FileForm.endings).filterMap (Run.completed? path)

/-- The devices that a path may lead to. -/
def devices : List (Location × Device) :=
  [("/dev/null", .null), ("/dev/full", .full), ("/dev/stdin", .stdin),
    ("/dev/stdout", .stdout)].map fun (path, d) => (Location.ofPath path, d)

/-- The path above, as far as its segments tell. -/
def pathAbove (path : String) : String :=
  let kept := (Path.dropStays (Path.segments path)).dropLast
  if kept.isEmpty then "." else if kept == [[]] then "/" else String.ofList (['/'].intercalate kept)

/-- The surroundings of a run with these options. -/
def worldOf (o : Options) : IO World := do
  let paths := o.config.toList.flatMap settingsPaths ++ (Run.file? o.input).toList ++
    (Run.file? o.output).toList
  let files ← (paths.filter fun path => (devices.lookup (Location.ofPath path)).isNone).filterMapM
    fun path => do return (← contentOf? path).map fun content => (Location.ofPath path, content)
  let directories ← (paths ++ paths.map pathAbove).filterMapM fun path => do
    return if ← isDirectoryPath path then some (Location.ofPath path) else none
  let usesStdin : Bool := (Run.file? o.input).all fun path =>
    devices.lookup (Location.ofPath path) == some .stdin
  let stdin ← if usesStdin then readRest (← IO.getStdin) ByteArray.empty else pure ByteArray.empty
  return { files, directories, devices, stdin := stdin.toList, environment := ← environment }

/-- Writes the output file of a run, if the run has changed it; there is an error if the file does
not let itself be written. -/
def writeOutput (o : Options) (before after : World) : IO (Option String) := do
  match Run.file? o.output with
  | none => return none
  | some path =>
    match after.read? path with
    | none => return none
    | some content =>
      if before.read? path == some content then return none
      try
        IO.FS.writeBinFile path ⟨content.toArray⟩
        return none
      catch _ =>
        return some (Run.outputError path)

/-- The exit code of a run that was broken off. -/
def abortCode : Nat := 134

/-- Reports what a run has said and answers its exit code. -/
def report (outcome : Outcome) : IO UInt32 := do
  let stderr ← IO.getStderr
  for line in outcome.log do
    stderr.putStrLn line.text
  (← IO.getStdout).write ⟨outcome.stdout.toArray⟩
  if let some message := outcome.error then
    stderr.putStrLn ("Error: " ++ message)
  return UInt32.ofNat (outcome.exitCode.getD abortCode)

/-- Runs the command line and answers its exit code. -/
def runProgram (words : List String) : IO UInt32 := do
  match Request.read words with
  | .run o =>
    let world ← worldOf o
    let outcome := Run.run words world
    match ← writeOutput o world outcome.world with
    | none => report outcome
    | some message => report (Run.failed world [] message)
  | _ =>
    report (Run.run words
      { files := [], directories := [], devices := [], stdin := [], environment := [] })

end RecordFilter

/-- The program. -/
def main (words : List String) : IO UInt32 := RecordFilter.runProgram words

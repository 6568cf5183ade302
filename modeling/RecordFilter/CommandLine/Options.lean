import RecordFilter.Numeral

/-!
# Command-line options

A command line is a list of words. A long option begins with two dashes and has its value after an
equals sign or in the next word; a short one is a letter after one dash, where several may stand
together, and its value is the rest of the word, less an equals sign, or the next word. A value in
a word of its own does not begin with a dash, unless it is a dash. An option is given at most once,
and nothing but options is given. The words are read from left to right until one of them is wrong
or asks for the version or for help.
-/

namespace RecordFilter

/-- The options of a run. -/
structure Options where
  /-- The expression that records have to meet. -/
  expression : Option String
  /-- The settings file. -/
  config : Option String
  /-- Where records are read from. -/
  input : Option String
  /-- Where matching records are written to. -/
  output : Option String
  /-- Keywords are recognised in any case. -/
  ignoreCase : Bool
  /-- How many threads may be used. -/
  threads : Option Nat
  /-- How many records are evaluated together. -/
  batchSize : Option Nat
  /-- Progress is reported. -/
  verbose : Bool
  deriving DecidableEq

/-- What a command line asks for. -/
inductive Request where
  | run (options : Options)
  | version
  | help
  /-- The command line is wrong. -/
  | misuse
  deriving DecidableEq

namespace Options

/-- Nothing is given. -/
def empty : Options := ⟨none, none, none, none, false, none, none, false⟩

/-! ## Names -/

/-- The options that have a value. -/
inductive Valued where
  | expression
  | config
  | input
  | output
  | threads
  | batchSize
  deriving DecidableEq

/-- The options that stand for themselves. -/
inductive Flag where
  | ignoreCase
  | verbose
  | version
  | help
  deriving DecidableEq

/-- What a name stands for. -/
inductive Named where
  | valued (option : Valued)
  | flag (flag : Flag)

/-- The names that follow two dashes. -/
def long? (name : String) : Option Named :=
  match name with
  | "expr" => some (.valued .expression)
  | "config" => some (.valued .config)
  | "input" => some (.valued .input)
  | "output" => some (.valued .output)
  | "threads" => some (.valued .threads)
  | "batch-size" => some (.valued .batchSize)
  | "case-insensitive" => some (.flag .ignoreCase)
  | "verbose" => some (.flag .verbose)
  | "version" => some (.flag .version)
  | "help" => some (.flag .help)
  | _ => none

/-- The letters that follow one dash. -/
def short? (letter : Char) : Option Named :=
  match letter with
  | 'e' => some (.valued .expression)
  | 'c' => some (.valued .config)
  | 'i' => some (.valued .input)
  | 'o' => some (.valued .output)
  | 't' => some (.valued .threads)
  | 'v' => some (.flag .verbose)
  | 'V' => some (.flag .version)
  | 'h' => some (.flag .help)
  | _ => none

/-! ## Giving options -/

/-- Fills a place that is still empty. -/
def fill {α : Type} (place : Option α) (value : Option α) : Option (Option α) :=
  match place, value with
  | none, some v => some (some v)
  | _, _ => none

/-- A path is not empty. -/
def path? (value : List Char) : Option String :=
  if value.isEmpty then none else some (String.ofList value)

/-- Gives an option its value; it must not have one, and the value has to be of its kind. -/
def set? (o : Options) (value : List Char) : Valued → Option Options
  | .expression =>
    (fill o.expression (some (String.ofList value))).map fun v => { o with expression := v }
  | .config => (fill o.config (path? value)).map fun v => { o with config := v }
  | .input => (fill o.input (path? value)).map fun v => { o with input := v }
  | .output => (fill o.output (path? value)).map fun v => { o with output := v }
  | .threads =>
    (fill o.threads (Numeral.natural64? value)).map fun v => { o with threads := v }
  | .batchSize =>
    (fill o.batchSize (Numeral.natural64? value)).map fun v => { o with batchSize := v }

/-- What comes of a flag: other options, or an answer. -/
inductive Raised where
  | options (o : Options)
  | answer (r : Request)

/-- Raises a flag, which must not be raised. -/
def raise (o : Options) : Flag → Raised
  | .ignoreCase => if o.ignoreCase then .answer .misuse else .options { o with ignoreCase := true }
  | .verbose => if o.verbose then .answer .misuse else .options { o with verbose := true }
  | .version => .answer .version
  | .help => .answer .help

/-! ## Reading words -/

/-- What follows a word has been read of: more words, the value of an option, or an answer. -/
inductive State where
  | ready (o : Options)
  | awaiting (o : Options) (option : Valued)
  | answered (r : Request)

/-- Gives an option its value, or finds the command line wrong. -/
def give (o : Options) (option : Valued) (value : List Char) : State :=
  match o.set? value option with
  | some o => .ready o
  | none => .answered .misuse

/-- Reads a long option, without its dashes. -/
def readLong (o : Options) (word : List Char) : State :=
  let name := word.takeWhile (· != '=')
  match long? (String.ofList name), word.dropWhile (· != '=') with
  | some (.valued option), '=' :: value => give o option value
  | some (.valued option), _ => .awaiting o option
  | some (.flag flag), [] =>
    match o.raise flag with
    | .options o => .ready o
    | .answer r => .answered r
  | _, _ => .answered .misuse

/-- Reads short options that stand together, without their dash. -/
def readShort (o : Options) : List Char → State
  | [] => .ready o
  | letter :: rest =>
    match short? letter with
    | some (.flag flag) =>
      match o.raise flag with
      | .options o => readShort o rest
      | .answer r => .answered r
    | some (.valued option) =>
      match rest with
      | [] => .awaiting o option
      | '=' :: value => give o option value
      | value => give o option value
    | none => .answered .misuse

/-- Reads a word. Two dashes alone end the options, and nothing may follow them. -/
def readWord (o : Options) (word : List Char) (last : Bool) : State :=
  match word with
  | ['-', '-'] => if last then .ready o else .answered .misuse
  | '-' :: '-' :: long => readLong o long
  | '-' :: letter :: letters => readShort o (letter :: letters)
  | _ => .answered .misuse

/-- The word may be the value of the option before it. -/
def isValue (word : List Char) : Bool := word.head? != some '-' || word == ['-']

/-- Reads the words that follow. -/
def readAll : State → List (List Char) → Request
  | .answered r, _ => r
  | .ready o, [] => .run o
  | .awaiting _ _, [] => .misuse
  | .ready o, word :: rest => readAll (readWord o word rest.isEmpty) rest
  | .awaiting o option, word :: rest =>
    if isValue word then readAll (give o option word) rest else .misuse

end Options

namespace Request

/-- What the words of a command line ask for. -/
def read (words : List String) : Request :=
  Options.readAll (.ready .empty) (words.map String.toList)

end Request

end RecordFilter

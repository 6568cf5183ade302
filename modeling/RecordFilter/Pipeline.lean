import RecordFilter.Evaluator
import RecordFilter.Record
import RecordFilter.Text.Lines

/-!
# The pipeline

The lines of a file go through an evaluator into a sink, in their order. Blank lines are passed
over, though they count in line numbers. A line that holds no record is skipped with a warning, a
record that meets the condition is handed to the sink, and any other is dropped. Lines are
collected into batches: the verdicts on a batch are all found before the first of them is carried
out, and what has been collected when a line turns out not to be text is lost. The room for a batch
is set aside before the first line is read, and there is no run without it.
-/

namespace RecordFilter.Pipeline

/-! ## Verdicts -/

/-- What becomes of a line. -/
inductive Verdict where
  | accept
  | reject
  /-- The line holds no record. -/
  | skip
  deriving DecidableEq

/-- What the evaluator makes of a line. -/
def verdict (e : Evaluator) (line : String) : Verdict :=
  match Record.ofLine line with
  | none => .skip
  | some fields => if e.accepts fields then .accept else .reject

/-! ## Sinks -/

/-- What a sink is able to do. -/
inductive Capacity where
  | unlimited
  /-- It takes no line from the given call on, counted from one. -/
  | failsAt (call : Nat)
  /-- It can hold lines back up to a number of bytes, and pass none of them on. -/
  | holds (room : Nat)
  deriving DecidableEq

/-- Where accepted lines go. -/
structure Sink where
  capacity : Capacity
  /-- The lines taken so far. -/
  lines : Array String
  /-- The lines that it has been handed so far, one with each call. The last one may be a line that
  it did not take. -/
  calls : Array String

namespace Sink

/-- A sink that has been handed nothing. -/
def empty (capacity : Capacity) : Sink := ⟨capacity, #[], #[]⟩

/-- What the sink has taken: each line with a line feed. -/
def output (s : Sink) : Text.Bytes := s.lines.toList.flatMap Text.encodeLine

/-- The sink cannot take the line. -/
def refuses (s : Sink) (line : String) : Bool :=
  match s.capacity with
  | .unlimited => false
  | .failsAt call => call = s.calls.size + 1
  | .holds room => room < s.output.length + (Text.encodeLine line).length

/-- Hands the sink a line. It is an error when the sink does not take it. -/
def add (s : Sink) (line : String) : Except Sink Sink :=
  if s.refuses line then .error { s with calls := s.calls.push line }
  else .ok { s with lines := s.lines.push line, calls := s.calls.push line }

/-- The sink has passed on everything that it was handed, or can do so now. -/
def canFinish (s : Sink) : Bool :=
  match s.capacity with
  | .holds _ => s.lines.isEmpty
  | _ => true

end Sink

/-! ## Runs -/

/-- A line of text with its number in the file, counted from one. -/
structure NumberedLine where
  number : Nat
  text : String

/-- How many lines have been read, matched and skipped. -/
structure Tally where
  read : Nat
  matched : Nat
  skipped : Nat
  deriving DecidableEq

/-- What a run has done so far. -/
structure Progress where
  sink : Sink
  tally : Tally
  /-- The numbers of the lines that were skipped. -/
  skipped : Array Nat

/-- Why a run has ended. -/
inductive Ending where
  /-- The file has been read to its end. -/
  | complete
  /-- The line is not text. -/
  | unreadable (line : Nat)
  /-- The sink did not take the line. -/
  | unwritable (line : Nat)
  /-- The sink has taken all lines, but not passed them on. -/
  | unfinished
  /-- More room is needed for a batch than can be asked for. -/
  | crashed
  /-- More room is needed for a batch than there is. -/
  | aborted
  deriving DecidableEq

/-- The error that a run reports which did not come to the end of its file. Without the room for a
batch it cannot report any. -/
def Ending.error? : Ending → Option String
  | .complete | .crashed | .aborted => none
  | .unreadable line => some ("Pipeline: Failed reading line " ++ ParseError.count line)
  | .unwritable line => some ("Pipeline: Failed writing line " ++ ParseError.count line)
  | .unfinished => some "Pipeline: Failed to finalize sink"

/-- The warning that a line holds no record. -/
def skipWarning (line : Nat) : String :=
  "Pipeline: Skipping line " ++ ParseError.count line ++ ": not a JSON object"

/-- The start of a run into a sink. -/
def Progress.start (sink : Sink) : Progress := ⟨sink, ⟨0, 0, 0⟩, #[]⟩

/-- Carries out the verdict on a line. It is an error when the sink does not take the line. -/
def Progress.settle (p : Progress) (line : NumberedLine) : Verdict → Except Progress Progress
  | .accept =>
    match p.sink.add line.text with
    | .ok sink =>
      .ok { p with sink := sink, tally := { p.tally with read := p.tally.read + 1,
                                                         matched := p.tally.matched + 1 } }
    | .error sink => .error { p with sink := sink }
  | .reject => .ok { p with tally := { p.tally with read := p.tally.read + 1 } }
  | .skip =>
    .ok { p with tally := { p.tally with read := p.tally.read + 1,
                                         skipped := p.tally.skipped + 1 }
                 skipped := p.skipped.push line.number }

/-- Carries out the verdicts on a batch in order, up to the line that the sink does not take. -/
def settleAll : List (NumberedLine × Verdict) → Progress → Ending × Progress
  | [], p => (.complete, p)
  | (line, v) :: rest, p =>
    match p.settle line v with
    | .ok p => settleAll rest p
    | .error p => (.unwritable line.number, p)

/-- Finds the verdicts on a batch, then carries them out. -/
def flush (e : Evaluator) (batch : List NumberedLine) (p : Progress) : Ending × Progress :=
  settleAll (batch.map fun line => (line, verdict e line.text)) p

/-- Runs the lines from the given number on, behind those of the batch that is being collected. -/
def feed (e : Evaluator) (batchSize : Nat) :
    List (Option String) → Nat → Array NumberedLine → Progress → Ending × Progress
  | [], _, batch, p => flush e batch.toList p
  | none :: _, number, _, p => (.unreadable number, p)
  | some text :: rest, number, batch, p =>
    if Text.isBlankText text.toList then feed e batchSize rest (number + 1) batch p
    else
      let batch := batch.push ⟨number, text⟩
      if batchSize ≤ batch.size then
        match flush e batch.toList p with
        | (.complete, p) => feed e batchSize rest (number + 1) #[] p
        | failed => failed
      else feed e batchSize rest (number + 1) batch p

/-- Lets the sink pass on what it still holds back. -/
def finish : Ending × Progress → Ending × Progress
  | (.complete, p) => (if p.sink.canFinish then .complete else .unfinished, p)
  | failed => failed

/-- The lines of a file, as far as they are text. -/
def textLines (input : Text.Bytes) : List (Option String) := (Text.lines input).map Text.decode?

/-- The lines of something that cannot be read. -/
def noLines : List (Option String) := [none]

/-! ## Room for a batch -/

/-- How many bytes are set aside for each line of a batch. -/
def bytesPerLine : Nat := 32

/-- How many bytes are set aside for a batch, which has room for at least one line. -/
def batchBytes (batchSize : Nat) : Nat := max batchSize 1 * bytesPerLine

/-- The most bytes that can be asked for at once, however many there are. -/
def maxAllocation : Nat := 0x7FFFFFFFFFFFFFFF

/-- Runs lines through the evaluator into the sink, in batches of at least one record. There are
`memory` bytes for a batch, and if nothing is said of them, as many as can be asked for. -/
def run (e : Evaluator) (lines : List (Option String)) (sink : Sink) (batchSize : Nat)
    (memory : Nat := maxAllocation) : Ending × Progress :=
  if maxAllocation < batchBytes batchSize then (.crashed, .start sink)
  else if memory < batchBytes batchSize then (.aborted, .start sink)
  else finish (feed e (max batchSize 1) lines 1 #[] (.start sink))

end RecordFilter.Pipeline

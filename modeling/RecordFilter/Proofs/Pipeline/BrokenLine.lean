import Mathlib
import RecordFilter.Proofs.Pipeline.LineFilter

/-!
# A line that is not text

A run ends at the first line that is not text. The lines before it have been collected into batches;
those of full batches have been settled by then, and those that were waiting for their batch to fill
are lost. So the accepted lines before the broken one are all in the sink just when none of them was
waiting, which depends on the size of batches.

* `feed_broken`: what is settled before a broken line;
* `run_broken`: a run into a sink that never fails, up to a broken line.
-/

namespace RecordFilter.Pipeline

/-! ## Full batches -/

/-- The lines that make up full batches. -/
def batched (batchSize : Nat) (ls : List NumberedLine) : List NumberedLine :=
  ls.take (ls.length / batchSize * batchSize)

/-- The lines after them, which wait for their batch to fill. -/
def waiting (batchSize : Nat) (ls : List NumberedLine) : List NumberedLine :=
  ls.drop (ls.length / batchSize * batchSize)

theorem batched_append_waiting (batchSize : Nat) (ls : List NumberedLine) :
    batched batchSize ls ++ waiting batchSize ls = ls := List.take_append_drop _ _

theorem batched_of_lt {batchSize : Nat} {ls : List NumberedLine} (h : ls.length < batchSize) :
    batched batchSize ls = [] := by
  rw [batched, Nat.div_eq_of_lt h, Nat.zero_mul, List.take_zero]

/-- A full batch comes first. -/
theorem batched_append {batchSize : Nat} (hpos : 0 < batchSize) {batch : List NumberedLine}
    (hbatch : batch.length = batchSize) (ls : List NumberedLine) :
    batched batchSize (batch ++ ls) = batch ++ batched batchSize ls := by
  have hlength : (batch ++ ls).length / batchSize * batchSize =
      batch.length + ls.length / batchSize * batchSize := by
    rw [List.length_append, hbatch, Nat.add_div_left _ hpos, Nat.succ_mul, Nat.add_comm]
  rw [batched, hlength, List.take_length_add_append, batched]

/-! ## The broken line -/

/-- **What is settled before a broken line**: the full batches, as one. -/
theorem feed_broken (e : Evaluator) {batchSize : Nat} (texts : List String)
    (rest : List (Option String)) (number : Nat) (batch : Array NumberedLine)
    (hbatch : batch.size < batchSize) (p : Progress) :
    feed e batchSize (texts.map some ++ none :: rest) number batch p =
      match flush e (batched batchSize (batch.toList ++ nonblank number texts)) p with
      | (.complete, q) => (.unreadable (number + texts.length), q)
      | failed => failed := by
  induction texts generalizing number batch p with
  | nil =>
    have hnone : batched batchSize (batch.toList ++ nonblank number []) = [] :=
      batched_of_lt (by simpa [nonblank, numbered] using hbatch)
    rw [hnone]
    rfl
  | cons text texts ih =>
    have hnumber : number + (text :: texts).length = number + 1 + texts.length := by
      rw [List.length_cons]
      omega
    rw [List.map_cons, List.cons_append, feed, nonblank_cons, hnumber]
    split
    · exact ih (number + 1) batch hbatch p
    · have hsplit : batch.toList ++ ⟨number, text⟩ :: nonblank (number + 1) texts =
          (batch.push ⟨number, text⟩).toList ++ nonblank (number + 1) texts := by simp
      rw [hsplit]
      dsimp only
      split
      · next hfull =>
        have hlength : (batch.push ⟨number, text⟩).toList.length = batchSize := by
          rw [Array.size_push] at hfull
          rw [Array.length_toList, Array.size_push]
          omega
        have hpos : 0 < batchSize := Nat.zero_lt_of_lt hbatch
        rw [batched_append hpos hlength, flush, flush, List.map_append, settleAll_append]
        cases settleAll _ p with
        | mk ending q =>
          cases ending with
          | complete => exact ih (number + 1) #[] hpos q
          | _ => rfl
      · next hopen => exact ih (number + 1) _ (Nat.lt_of_not_le hopen) p

theorem textLines_broken {input : Text.Bytes} {texts : List String} {broken : Text.Bytes}
    {more : List Text.Bytes} (h : Text.splitLines input = texts.map Text.encode ++ broken :: more)
    (hbroken : ∀ text, Text.encode text ≠ broken) :
    textLines input = texts.map some ++ none :: more.map Text.decode? := by
  rw [textLines, Text.lines_eq_splitLines, h, List.map_append, List.map_cons, List.map_map,
    Text.decode?_eq_none hbroken]
  exact congrArg (· ++ _) (List.map_congr_left fun text _ => Text.decode?_encode text)

/-- The lines as they are written, each with a line feed. -/
def written (ls : List NumberedLine) : Text.Bytes :=
  ls.flatMap fun l => Text.encode l.text ++ [Text.lineFeed]

theorem written_append (ls ms : List NumberedLine) :
    written (ls ++ ms) = written ls ++ written ms := List.flatMap_append

theorem written_eq_nil_iff (ls : List NumberedLine) : written ls = [] ↔ ls = [] := by
  cases ls <;> simp [written]

theorem output_of_filtered {e : Evaluator} {ls : List NumberedLine} {p q : Progress}
    (h : Filtered e ls p q) : q.sink.output = p.sink.output ++ written (accepted e ls) := by
  rw [Sink.output, h.lines, List.flatMap_append, List.flatMap_map]
  rfl

/-- **A run ends at the first line that is not text**, and names it. The accepted lines of full
batches before it are in the sink that never fails. These are all accepted lines before it just when
none of them was waiting for its batch to fill. If there is no room for a batch, the run does not
get as far as that, and nothing is in the sink. -/
theorem run_broken (e : Evaluator) {input : Text.Bytes} {texts : List String}
    {broken : Text.Bytes} {more : List Text.Bytes}
    (hinput : Text.splitLines input = texts.map Text.encode ++ broken :: more)
    (hbroken : ∀ text, Text.encode text ≠ broken) {sink : Sink}
    (hsink : sink.capacity = .unlimited) (batchSize memory : Nat) :
    (HasRoom memory batchSize → ∃ q,
      run e (textLines input) sink batchSize memory = (.unreadable (texts.length + 1), q) ∧
      q.sink.output = sink.output ++
        written (accepted e (batched (max batchSize 1) (nonblank 1 texts))) ∧
      (q.sink.output = sink.output ++ written (accepted e (nonblank 1 texts)) ↔
        accepted e (waiting (max batchSize 1) (nonblank 1 texts)) = [])) ∧
    (¬ HasRoom memory batchSize → ∃ ending, (ending = .crashed ∨ ending = .aborted) ∧
      run e (textLines input) sink batchSize memory = (ending, .start sink)) := by
  refine ⟨fun hroom => ?_, fun hroom => run_of_not_hasRoom hroom e _ sink⟩
  have hpos : 0 < max batchSize 1 := by omega
  obtain ⟨q, hflush, hfiltered⟩ := flush_filtered e (p := .start sink) hsink
    (batched (max batchSize 1) (nonblank 1 texts))
  have houtput : q.sink.output = sink.output ++
      written (accepted e (batched (max batchSize 1) (nonblank 1 texts))) :=
    output_of_filtered hfiltered
  refine ⟨q, ?_, houtput, ?_⟩
  · have hfeed := feed_broken e texts (more.map Text.decode?) 1 #[] hpos (.start sink)
    rw [show (#[] : Array NumberedLine).toList ++ nonblank 1 texts = nonblank 1 texts from rfl,
      hflush] at hfeed
    rw [run_of_hasRoom hroom, textLines_broken hinput hbroken, hfeed, Nat.add_comm]
    rfl
  · have hparts : accepted e (nonblank 1 texts) =
        accepted e (batched (max batchSize 1) (nonblank 1 texts)) ++
          accepted e (waiting (max batchSize 1) (nonblank 1 texts)) := by
      conv_lhs => rw [← batched_append_waiting (max batchSize 1) (nonblank 1 texts)]
      exact List.filter_append ..
    rw [houtput, hparts, written_append, ← List.append_assoc, List.self_eq_append_right]
    exact written_eq_nil_iff _

/-- Three lines that are accepted, and one that is not text. -/
def brokenInput : Text.Bytes :=
  Text.encode "\x7b\"a\":1\x7d\n\x7b\"a\":1\x7d\n\x7b\"a\":1\x7d\n" ++ [0xFF, Text.lineFeed]

/-- In batches of two lines, for which 64 bytes are room enough, the third one is lost. -/
theorem run_broken_fourth :
    Text.splitLines brokenInput =
        (List.replicate 3 "\x7b\"a\":1\x7d").map Text.encode ++ [0xFF] :: [] ∧
      (∀ text, Text.encode text ≠ [0xFF]) ∧
      HasRoom 64 2 ∧
      ∃ q, run sampleEvaluator (textLines brokenInput) (.empty .unlimited) 2 64 =
          (.unreadable 4, q) ∧
        q.sink.output = Text.encode "\x7b\"a\":1\x7d\n\x7b\"a\":1\x7d\n" := by
  have hinput : Text.splitLines brokenInput =
      (List.replicate 3 "\x7b\"a\":1\x7d").map Text.encode ++ [0xFF] :: [] := by decide +kernel
  have hbroken : ∀ text, Text.encode text ≠ [0xFF] := by
    intro text htext
    have hread := Text.decode?_encode text
    rw [htext] at hread
    cases hread
  have hsink : (Sink.empty .unlimited).capacity = .unlimited := rfl
  have hroom : HasRoom 64 2 := by decide
  obtain ⟨q, hrun, houtput, -⟩ :=
    (run_broken sampleEvaluator hinput hbroken hsink 2 64).1 hroom
  refine ⟨hinput, hbroken, hroom, q, hrun, houtput.trans ?_⟩
  decide +kernel

end RecordFilter.Pipeline

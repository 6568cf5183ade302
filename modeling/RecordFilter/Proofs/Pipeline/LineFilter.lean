import Mathlib
import RecordFilter.Proofs.Pipeline.Room
import RecordFilter.Proofs.Text.Lines

/-!
# The pipeline as a filter of lines

Collecting lines into batches makes no difference to what becomes of them: what is fed to the
pipeline is settled line by line, the lines of the batch first, up to the first line that the sink
does not take. So a run into a sink that never fails is the plain filter: of the lines that are not
blank, those that hold a record which the evaluator accepts go to the sink, and those that hold none
are skipped.

* `feed_texts`: batches are settled as one;
* `flush_filtered`: what is settled is filtered;
* `run_texts`: a run over texts settles them as one batch;
* `run_filters`: a run into a sink that never fails, for all sizes of batches for which there is
  room.
-/

namespace RecordFilter.Pipeline

/-! ## The plain filter -/

/-- The lines with their numbers, the first of which is given. -/
def numbered (first : Nat) (texts : List String) : List NumberedLine :=
  (texts.zipIdx first).map fun l => ⟨l.2, l.1⟩

/-- The lines that are not blank, with their numbers. -/
def nonblank (first : Nat) (texts : List String) : List NumberedLine :=
  (numbered first texts).filter fun l => !Text.isBlankText l.text.toList

/-- The lines that hold a record which the evaluator accepts. -/
def accepted (e : Evaluator) (ls : List NumberedLine) : List NumberedLine :=
  ls.filter fun l => (Record.ofLine l.text).any e.accepts

/-- The lines that hold no record. -/
def recordless (ls : List NumberedLine) : List NumberedLine :=
  ls.filter fun l => (Record.ofLine l.text).isNone

theorem numbered_cons (first : Nat) (text : String) (texts : List String) :
    numbered first (text :: texts) = ⟨first, text⟩ :: numbered (first + 1) texts := rfl

theorem nonblank_cons (first : Nat) (text : String) (texts : List String) :
    nonblank first (text :: texts) =
      if Text.isBlankText text.toList then nonblank (first + 1) texts
      else ⟨first, text⟩ :: nonblank (first + 1) texts := by
  rw [nonblank, numbered_cons, List.filter_cons]
  cases Text.isBlankText text.toList <;> rfl

theorem le_of_mem_numbered {first : Nat} {texts : List String} {l : NumberedLine}
    (h : l ∈ numbered first texts) : first ≤ l.number := by
  obtain ⟨⟨text, number⟩, hmem, rfl⟩ := List.mem_map.mp h
  exact List.le_snd_of_mem_zipIdx hmem

theorem pairwise_numbered (first : Nat) (texts : List String) :
    (numbered first texts).Pairwise fun l m => l.number < m.number := by
  induction texts generalizing first with
  | nil => exact .nil
  | cons text texts ih =>
    rw [numbered_cons, List.pairwise_cons]
    exact ⟨fun m hm => le_of_mem_numbered hm, ih (first + 1)⟩

/-! ## Batches -/

/-- Lines are settled in parts, as long as the sink takes them. -/
theorem settleAll_append (ls ms : List (NumberedLine × Verdict)) (p : Progress) :
    settleAll (ls ++ ms) p =
      match settleAll ls p with
      | (.complete, q) => settleAll ms q
      | failed => failed := by
  induction ls generalizing p with
  | nil => rfl
  | cons l ls ih =>
    obtain ⟨line, v⟩ := l
    rw [List.cons_append, settleAll, settleAll]
    cases p.settle line v with
    | error q => rfl
    | ok q => exact ih q

/-- **Batches are settled as one**: feeding lines settles those of the batch and then those that are
not blank, whatever the size of batches. -/
theorem feed_texts (e : Evaluator) (batchSize : Nat) (texts : List String) (number : Nat)
    (batch : Array NumberedLine) (p : Progress) :
    feed e batchSize (texts.map some) number batch p =
      flush e (batch.toList ++ nonblank number texts) p := by
  induction texts generalizing number batch p with
  | nil =>
    rw [List.map_nil, feed, nonblank, numbered]
    simp
  | cons text texts ih =>
    rw [List.map_cons, feed, nonblank_cons]
    split
    · exact ih (number + 1) batch p
    · have hbatch : batch.toList ++ ⟨number, text⟩ :: nonblank (number + 1) texts =
          (batch.push ⟨number, text⟩).toList ++ nonblank (number + 1) texts := by simp
      rw [hbatch]
      dsimp only
      split
      · rw [flush, flush, List.map_append, settleAll_append]
        cases settleAll _ p with
        | mk ending q =>
          cases ending with
          | complete => exact ih (number + 1) #[] q
          | _ => rfl
      · exact ih (number + 1) _ p

/-! ## Filtering -/

/-- From one state of the run to the other, the lines have been filtered. -/
structure Filtered (e : Evaluator) (ls : List NumberedLine) (p q : Progress) : Prop where
  capacity : q.sink.capacity = p.sink.capacity
  lines : q.sink.lines.toList = p.sink.lines.toList ++ (accepted e ls).map NumberedLine.text
  calls : q.sink.calls.toList = p.sink.calls.toList ++ (accepted e ls).map NumberedLine.text
  read : q.tally.read = p.tally.read + ls.length
  matched : q.tally.matched = p.tally.matched + (accepted e ls).length
  skipped : q.tally.skipped = p.tally.skipped + (recordless ls).length
  numbers : q.skipped.toList = p.skipped.toList ++ (recordless ls).map NumberedLine.number

theorem Filtered.nil (e : Evaluator) (p : Progress) : Filtered e [] p p := by
  constructor <;> simp [accepted, recordless]

theorem Filtered.append {e : Evaluator} {ls ms : List NumberedLine} {p q r : Progress}
    (first : Filtered e ls p q) (rest : Filtered e ms q r) : Filtered e (ls ++ ms) p r := by
  have haccepted : accepted e (ls ++ ms) = accepted e ls ++ accepted e ms := List.filter_append ..
  have hrecordless : recordless (ls ++ ms) = recordless ls ++ recordless ms :=
    List.filter_append ..
  constructor
  · exact rest.capacity.trans first.capacity
  · rw [rest.lines, first.lines, haccepted, List.map_append, List.append_assoc]
  · rw [rest.calls, first.calls, haccepted, List.map_append, List.append_assoc]
  · rw [rest.read, first.read, List.length_append, Nat.add_assoc]
  · rw [rest.matched, first.matched, haccepted, List.length_append, Nat.add_assoc]
  · rw [rest.skipped, first.skipped, hrecordless, List.length_append, Nat.add_assoc]
  · rw [rest.numbers, first.numbers, hrecordless, List.map_append, List.append_assoc]

theorem add_of_not_refuses {s : Sink} {line : String} (h : s.refuses line = false) :
    s.add line = .ok ⟨s.capacity, s.lines.push line, s.calls.push line⟩ := by
  rw [Sink.add, h]
  rfl

theorem eq_of_add {s t : Sink} {line : String} (h : s.add line = .ok t) :
    t = ⟨s.capacity, s.lines.push line, s.calls.push line⟩ := by
  cases hrefuses : s.refuses line with
  | true =>
    rw [Sink.add, hrefuses] at h
    cases h
  | false => exact Except.ok.inj (h.symm.trans (add_of_not_refuses hrefuses))

theorem filtered_of_settle {e : Evaluator} {p q : Progress} {l : NumberedLine}
    (h : p.settle l (verdict e l.text) = .ok q) : Filtered e [l] p q := by
  cases hrecord : Record.ofLine l.text with
  | none =>
    have hverdict : verdict e l.text = .skip := by rw [verdict, hrecord]
    rw [hverdict] at h
    cases h
    constructor <;> simp [accepted, recordless, hrecord]
  | some fields =>
    cases haccepts : e.accepts fields with
    | true =>
      have hverdict : verdict e l.text = .accept := by simp [verdict, hrecord, haccepts]
      rw [hverdict, Progress.settle] at h
      cases hadd : p.sink.add l.text with
      | error sink =>
        rw [hadd] at h
        cases h
      | ok sink =>
        rw [hadd, eq_of_add hadd] at h
        cases h
        constructor <;> simp [accepted, recordless, hrecord, haccepts]
    | false =>
      have hverdict : verdict e l.text = .reject := by simp [verdict, hrecord, haccepts]
      rw [hverdict] at h
      cases h
      constructor <;> simp [accepted, recordless, hrecord, haccepts]

theorem settle_filtered (e : Evaluator) {p : Progress} (hsink : p.sink.capacity = .unlimited)
    (l : NumberedLine) : ∃ q, p.settle l (verdict e l.text) = .ok q ∧ Filtered e [l] p q := by
  have hsettle : ∃ q, p.settle l (verdict e l.text) = .ok q := by
    cases verdict e l.text with
    | accept =>
      have hrefuses : p.sink.refuses l.text = false := by rw [Sink.refuses, hsink]
      rw [Progress.settle, add_of_not_refuses hrefuses]
      exact ⟨_, rfl⟩
    | reject => exact ⟨_, rfl⟩
    | skip => exact ⟨_, rfl⟩
  obtain ⟨q, hq⟩ := hsettle
  exact ⟨q, hq, filtered_of_settle hq⟩

/-- **What is settled is filtered**, when the sink never fails. -/
theorem flush_filtered (e : Evaluator) {p : Progress} (hsink : p.sink.capacity = .unlimited)
    (ls : List NumberedLine) : ∃ q, flush e ls p = (.complete, q) ∧ Filtered e ls p q := by
  induction ls generalizing p with
  | nil => exact ⟨p, rfl, .nil e p⟩
  | cons l ls ih =>
    obtain ⟨q, hq, hfirst⟩ := settle_filtered e hsink l
    obtain ⟨r, hr, hrest⟩ := ih (hfirst.capacity.trans hsink)
    refine ⟨r, ?_, hfirst.append hrest⟩
    rw [flush, List.map_cons, settleAll, hq]
    exact hr

/-! ## Runs -/

theorem textLines_eq {input : Text.Bytes} {texts : List String}
    (h : Text.splitLines input = texts.map Text.encode) : textLines input = texts.map some := by
  rw [textLines, Text.lines_eq_splitLines, h, List.map_map]
  exact List.map_congr_left fun text _ => Text.decode?_encode text

theorem splitLines_eq {input : Text.Bytes} {texts : List String}
    (h : textLines input = texts.map some) : Text.splitLines input = texts.map Text.encode := by
  rw [textLines, Text.lines_eq_splitLines] at h
  generalize Text.splitLines input = lines at h
  induction texts generalizing lines with
  | nil => rw [List.map_eq_nil_iff.mp h, List.map_nil]
  | cons text texts ih =>
    obtain ⟨line, rest, rfl, hline, hrest⟩ := List.map_eq_cons_iff.mp h
    rw [List.map_cons, ih rest hrest, Text.encode_of_decode hline]

/-- **A run over texts settles those that are not blank**, as one batch, whatever the size of
batches. -/
theorem run_texts (e : Evaluator) (texts : List String) (sink : Sink) {batchSize memory : Nat}
    (hroom : HasRoom memory batchSize) :
    run e (texts.map some) sink batchSize memory =
      finish (flush e (nonblank 1 texts) (.start sink)) := by
  rw [run_of_hasRoom hroom, feed_texts]
  rfl

theorem run_of_flush {e : Evaluator} {texts : List String} {sink : Sink} {q : Progress}
    (hflush : flush e (nonblank 1 texts) (.start sink) = (.complete, q))
    (hfinish : q.sink.canFinish = true) {batchSize memory : Nat}
    (hroom : HasRoom memory batchSize) :
    run e (texts.map some) sink batchSize memory = (.complete, q) := by
  rw [run_texts e texts sink hroom, hflush, finish, hfinish]
  rfl

theorem exists_run_filtered (e : Evaluator) {input : Text.Bytes} {texts : List String}
    (hinput : Text.splitLines input = texts.map Text.encode) {sink : Sink}
    (hsink : sink.capacity = .unlimited) :
    ∃ q, (∀ batchSize memory, HasRoom memory batchSize →
        run e (textLines input) sink batchSize memory = (.complete, q)) ∧
      Filtered e (nonblank 1 texts) (.start sink) q := by
  obtain ⟨q, hflush, hfiltered⟩ := flush_filtered e (p := .start sink) hsink (nonblank 1 texts)
  have hfinish : q.sink.canFinish = true := by
    rw [Sink.canFinish, hfiltered.capacity.trans hsink]
  refine ⟨q, fun batchSize memory hroom => ?_, hfiltered⟩
  rw [textLines_eq hinput]
  exact run_of_flush hflush hfinish hroom

/-- **A run into a sink that never fails filters the lines**, whatever the size of batches, if there
is room for them. The lines are those of the file, all of them texts. -/
theorem run_filters (e : Evaluator) {input : Text.Bytes} {texts : List String}
    (hinput : Text.splitLines input = texts.map Text.encode) {sink : Sink}
    (hsink : sink.capacity = .unlimited) :
    ∃ q, (∀ batchSize memory, HasRoom memory batchSize →
        run e (textLines input) sink batchSize memory = (.complete, q)) ∧
      q.sink.output = sink.output ++
        (accepted e (nonblank 1 texts)).flatMap (fun l => Text.encode l.text ++ [Text.lineFeed]) ∧
      q.tally = ⟨(nonblank 1 texts).length, (accepted e (nonblank 1 texts)).length,
        (recordless (nonblank 1 texts)).length⟩ ∧
      q.skipped.toList = (recordless (nonblank 1 texts)).map NumberedLine.number ∧
      q.skipped.toList.Pairwise (· < ·) := by
  obtain ⟨q, hrun, hfiltered⟩ := exists_run_filtered e hinput hsink
  have hnumbers : q.skipped.toList =
      (recordless (nonblank 1 texts)).map NumberedLine.number := hfiltered.numbers
  refine ⟨q, hrun, ?_, ?_, hnumbers, ?_⟩
  · rw [Sink.output, hfiltered.lines, List.flatMap_append, List.flatMap_map]
    rfl
  · rw [← Nat.zero_add (nonblank 1 texts).length, ← Nat.zero_add (accepted e _).length,
      ← Nat.zero_add (recordless _).length]
    exact (congr (congr (congrArg Tally.mk hfiltered.read) hfiltered.matched) hfiltered.skipped)
  · rw [hnumbers, List.pairwise_map]
    exact (pairwise_numbered 1 texts).sublist (List.filter_sublist.trans List.filter_sublist)

/-- A line of each kind: accepted, blank, no record, rejected, and accepted again. -/
def sampleTexts : List String :=
  ["\x7b\"a\":1\x7d", " ", "x", "\x7b\"a\":2\x7d", "\x7b\"a\":1.0\x7d"]

/-- A file of these lines. The first one ends with a carriage return, and the last one is not
ended. -/
def sampleInput : Text.Bytes :=
  Text.encode "\x7b\"a\":1\x7d\r\n \nx\n\x7b\"a\":2\x7d\n\x7b\"a\":1.0\x7d"

/-- The evaluator of an expression with one relation. -/
def sampleEvaluator : Evaluator := ((Evaluator.unbuilt false).build "a 1").2

theorem splitLines_sampleInput :
    Text.splitLines sampleInput = sampleTexts.map Text.encode := by decide

theorem accepted_sample : accepted sampleEvaluator (nonblank 1 sampleTexts) =
    [⟨1, "\x7b\"a\":1\x7d"⟩, ⟨5, "\x7b\"a\":1.0\x7d"⟩] := by
  have hparts : (accepted sampleEvaluator (nonblank 1 sampleTexts)).map
      (fun l => (l.number, l.text)) =
        [⟨1, "\x7b\"a\":1\x7d"⟩, ⟨5, "\x7b\"a\":1.0\x7d"⟩] := by decide +kernel
  have hinjective : Function.Injective fun l : NumberedLine => (l.number, l.text) := by
    rintro ⟨n, t⟩ ⟨m, u⟩ h
    obtain ⟨rfl, rfl⟩ := Prod.mk.inj h
    rfl
  exact List.map_injective_iff.mpr hinjective hparts

/-- Two of the five lines are accepted, and the third one is skipped. -/
theorem run_filters_sample :
    Text.splitLines sampleInput = sampleTexts.map Text.encode ∧
      ∃ q, (∀ batchSize memory, HasRoom memory batchSize →
          run sampleEvaluator (textLines sampleInput) (.empty .unlimited) batchSize memory =
            (.complete, q)) ∧
        q.sink.output = Text.encode "\x7b\"a\":1\x7d\n\x7b\"a\":1.0\x7d\n" ∧ q.tally = ⟨4, 2, 1⟩ ∧
        q.skipped.toList = [3] := by
  have hsink : (Sink.empty .unlimited).capacity = .unlimited := rfl
  obtain ⟨q, hrun, houtput, htally, hskipped, -⟩ :=
    run_filters sampleEvaluator splitLines_sampleInput hsink
  refine ⟨splitLines_sampleInput, q, hrun, houtput.trans ?_, htally.trans ?_, hskipped.trans ?_⟩ <;>
    decide +kernel

end RecordFilter.Pipeline

import Mathlib
import RecordFilter.Proofs.CommandLine.Refusal
import RecordFilter.Proofs.Pipeline.Completion

/-!
# A command line as a filter

A run with code zero whose input and output are not the same file has written to its output the
lines of its input that pass the effective condition, and nothing else has changed. The threads, the
size of batches and the report of progress decide whether there is such a run, but not what it
writes. If the input and the output are the same file, nothing is left of it, since it has been
emptied before its lines are read.

* `Completed.holds`: what the output holds;
* `Completed.exit_iff`: when another run that asks for the same ends with code zero;
* `target_holds_passing`: command lines as filters;
* `emptied_in_place`: a file that is filtered onto itself.
-/

namespace RecordFilter

open Pipeline

/-- The options with others in place of those that say how the work is done. -/
def Options.reworked (o : Options) (threads batchSize : Option Nat) (verbose : Bool) : Options :=
  { o with threads := threads, batchSize := batchSize, verbose := verbose }

namespace Run

variable {w : World} {o : Options} {c : Option Configuration} {condition : Option Condition}
  {source : Source} {target : Target} {texts : List String}

/-! ## Runs with code zero -/

/-- What a run with code zero has gone through. -/
structure Completed (w : World) (o : Options) (c : Option Configuration)
    (condition : Option Condition) (source : Source) (target : Target) (texts : List String) : Prop
    extends Opened w o c condition source target where
  log : ∃ f, logFilter? w o.verbose = some f
  room : HasRoom w.memory (effectiveBatchSize o c)
  lines : linesOf (written w [] target) source = texts.map some
  taken : target = .full → texts.filter (passes condition) = []

/-- What the pipeline has gone through when it ends with code zero. -/
theorem lines_of_process (log : List LogLine) {e : Evaluator} {batchSize : Nat}
    (h : (process w log e source target batchSize).exitCode = some 0) :
    HasRoom w.memory batchSize ∧ ∃ texts : List String, linesOf w source = texts.map some ∧
      (target = .full → texts.filter (passes e.condition) = []) := by
  rw [process] at h
  cases hrun :
    Pipeline.run e (linesOf w source) (.empty (capacityOf target)) batchSize w.memory with
  | mk ending q =>
    rw [hrun] at h
    cases ending with
    | complete =>
      obtain ⟨hroom, texts, hlines, hkept, hcapacity, hfinish⟩ := complete_of_run hrun
      refine ⟨hroom, texts, hlines, ?_⟩
      rintro rfl
      rw [Sink.canFinish, hcapacity] at hfinish
      rw [← keeps_eq, ← hkept]
      exact Array.toList_eq_nil_iff.mpr (Array.isEmpty_iff.mp hfinish)
    | _ => cases h

/-- What the pipeline does with lines that are all texts. -/
theorem outcome_process {e : Evaluator} {batchSize : Nat} {texts : List String}
    (hroom : HasRoom w.memory batchSize) (hlines : linesOf w source = texts.map some)
    (htaken : target = .full → texts.filter (passes e.condition) = []) (log : List LogLine) :
    (process w log e source target batchSize).exitCode = some 0 ∧
      (process w log e source target batchSize).stdout =
        shown ((texts.filter (passes e.condition)).flatMap Text.encodeLine) target ∧
      (process w log e source target batchSize).world =
        written w ((texts.filter (passes e.condition)).flatMap Text.encodeLine) target := by
  rw [← keeps_eq] at htaken ⊢
  have hcapacity : capacityOf target = .unlimited ∨ texts.filter (keeps e) = [] := by
    cases target with
    | full => exact .inr (htaken rfl)
    | _ => exact .inl rfl
  obtain ⟨q, hkept, hrun⟩ := exists_run_complete hcapacity
  have houtput : q.sink.output = (texts.filter (keeps e)).flatMap Text.encodeLine := by
    rw [Sink.output, hkept]
  rw [process, hlines, hrun batchSize w.memory hroom, ← houtput]
  exact ⟨rfl, rfl, rfl⟩

theorem exists_completed {words : List String} (hread : Request.read words = .run o)
    (hexit : (run words w).exitCode = some 0) :
    ∃ c condition source target texts, Completed w o c condition source target texts := by
  rcases leavesNoTrace_or_opened hread w with
    ⟨⟨code, hcode, hne⟩, -⟩ | ⟨c, condition, source, target, hopened⟩
  · rw [hexit] at hcode
    exact absurd (Option.some.inj hcode).symm hne
  · cases hlog : logFilter? w o.verbose with
    | none =>
      rw [run, hread] at hexit
      dsimp only at hexit
      rw [hlog] at hexit
      cases hexit
    | some f =>
      obtain ⟨log, hfilter⟩ := hopened.filter_eq
      rw [run_eq hread hlog, hfilter] at hexit
      obtain ⟨hroom, texts, hlines, htaken⟩ := lines_of_process log hexit
      rw [memory_written] at hroom
      exact ⟨c, condition, source, target, texts, hopened, ⟨f, hlog⟩, hroom, hlines, htaken⟩

/-- **What a run with code zero has written**: the lines that pass, each with a line feed. -/
theorem Completed.outcome {words : List String} {texts : List String}
    (h : Completed w o c condition source target texts) (hread : Request.read words = .run o) :
    (run words w).exitCode = some 0 ∧
      (run words w).stdout =
        shown ((texts.filter (passes condition)).flatMap Text.encodeLine) target ∧
      (run words w).world =
        written w ((texts.filter (passes condition)).flatMap Text.encodeLine) target := by
  obtain ⟨f, hlog⟩ := h.log
  obtain ⟨log, hfilter⟩ := h.filter_eq
  have hroom : HasRoom (written w [] target).memory (effectiveBatchSize o c) := by
    rw [memory_written]
    exact h.room
  obtain ⟨hexit, hstdout, hworld⟩ :=
    outcome_process (e := evaluatorOf o c condition) hroom h.lines h.taken log
  rw [run_eq hread hlog, hfilter]
  exact ⟨hexit, hstdout, hworld.trans (written_written ..)⟩

/-! ## The output -/

theorem holds_written {outcome : Outcome} {content : Text.Bytes}
    (hstdout : outcome.stdout = shown content target)
    (hworld : outcome.world = written w content target) (hfull : target = .full → content = []) :
    target.Holds outcome content := by
  cases target with
  | stdout => exact hstdout
  | file l =>
    refine ⟨?_, hstdout⟩
    rw [hworld]
    exact w.fileAt?_put l content
  | void => exact hstdout
  | full => exact ⟨hfull rfl, hstdout⟩

theorem fileAt?_written {content : Text.Bytes} {l : Location} (h : target ≠ .file l) :
    (written w content target).fileAt? l = w.fileAt? l := by
  cases target with
  | file m =>
    have hne : l ≠ m := fun heq => h (congrArg Target.file heq.symm)
    exact w.fileAt?_put_of_ne hne content
  | _ => rfl

/-- The lines that have been read are those of the content of the input, if this is not the file
that has been emptied for the output. -/
theorem Completed.exists_input (h : Completed w o c condition source target texts)
    (hdistinct : ∀ l, source = .file l → target ≠ .file l) :
    ∃ input, source.content? w = some input ∧ Text.splitLines input = texts.map Text.encode := by
  have hlines := h.lines
  rw [linesOf_written hdistinct] at hlines
  rcases exists_content h.reads with rfl | ⟨input, hinput⟩
  · obtain ⟨_, _, -, hnone, -⟩ := List.map_eq_cons_iff.mp hlines.symm
    cases hnone
  · rw [linesOf_eq hinput] at hlines
    exact ⟨input, hinput, splitLines_eq hlines⟩

/-- **What the output holds**: the lines that pass, each with a line feed. -/
theorem Completed.holds {words : List String}
    (h : Completed w o c condition source target texts) (hread : Request.read words = .run o) :
    target.Holds (run words w) ((texts.filter (passes condition)).flatMap Text.encodeLine) := by
  obtain ⟨-, hstdout, hworld⟩ := h.outcome hread
  refine holds_written hstdout hworld fun hfull => ?_
  rw [h.taken hfull]
  rfl

/-! ## Other command lines -/

/-- Another run that asks for the same goes through the same, if its threads can be started and
there is room for its batches. -/
theorem Completed.reworked (h : Completed w o c condition source target texts)
    {threads batchSize : Option Nat} (hthreads : ∀ n ∈ threads, n ≤ w.threads)
    {verbose : Bool}
    (hroom : HasRoom w.memory (effectiveBatchSize (o.reworked threads batchSize verbose) c)) :
    Completed w (o.reworked threads batchSize verbose) c condition source target texts :=
  have ⟨_, hlog⟩ := h.log
  { threads := hthreads
    configuration := h.configuration
    parse := h.parse
    reads := h.reads
    writes := h.writes
    log := exists_logFilter hlog verbose
    room := hroom
    lines := h.lines
    taken := h.taken }

/-- **When another run that asks for the same ends with code zero**: its threads can be started and
there is room for its batches. -/
theorem Completed.exit_iff {words : List String} {threads batchSize : Option Nat} {verbose : Bool}
    (h : Completed w o c condition source target texts)
    (hread : Request.read words = .run (o.reworked threads batchSize verbose)) :
    (run words w).exitCode = some 0 ↔ (∀ n ∈ threads, n ≤ w.threads) ∧
      HasRoom w.memory (effectiveBatchSize (o.reworked threads batchSize verbose) c) := by
  constructor
  · intro hexit
    obtain ⟨c', _, _, _, _, h'⟩ := exists_completed hread hexit
    have hsame : Except.ok c' = Except.ok c := h'.configuration.symm.trans h.configuration
    cases hsame
    exact ⟨h'.threads, h'.room⟩
  · rintro ⟨hthreads, hroom⟩
    exact ((h.reworked hthreads hroom).outcome hread).1

/-! ## Filtering -/

/-- **Command lines as filters.** When a run ends with code zero, and its input and output are not
the same file, the output holds the lines of the input that pass the effective condition, each with
a line feed, and all other files are as they were. What is shown and left behind is the same for all
numbers of threads, sizes of batches and reports of progress with which a run ends with code zero,
and these are all for which the threads can be started and there is room for a batch. -/
theorem target_holds_passing {words : List String} (hread : Request.read words = .run o)
    (hexit : (run words w).exitCode = some 0)
    (hdistinct : ∀ l, source? w (file? o.input) = some (.file l) →
      target? w (file? o.output) ≠ some (.file l)) :
    ∃ (c : Option Configuration) (condition : Option Condition) (source : Source)
      (target : Target) (input : Text.Bytes) (texts : List String),
      configuration? w o = .ok c ∧
      Condition.parse (effectiveIgnoreCase o c) (effectiveExpression w o c) = .ok condition ∧
      source? w (file? o.input) = some source ∧ target? w (file? o.output) = some target ∧
      source.content? w = some input ∧ Text.splitLines input = texts.map Text.encode ∧
      target.Holds (run words w) ((texts.filter (passes condition)).flatMap Text.encodeLine) ∧
      (∀ l, target ≠ .file l → (run words w).world.fileAt? l = w.fileAt? l) ∧
      ∀ others threads batchSize verbose,
        Request.read others = .run (o.reworked threads batchSize verbose) →
        ((run others w).exitCode = some 0 ↔ (∀ n ∈ threads, n ≤ w.threads) ∧
          HasRoom w.memory (effectiveBatchSize (o.reworked threads batchSize verbose) c)) ∧
        ((run others w).exitCode = some 0 →
          (run others w).stdout = (run words w).stdout ∧
          (run others w).world = (run words w).world) := by
  obtain ⟨c, condition, source, target, texts, h⟩ := exists_completed hread hexit
  obtain ⟨input, hinput, hsplit⟩ := h.exists_input fun l hsource htarget =>
    hdistinct l (hsource ▸ h.reads) (htarget ▸ h.writes)
  obtain ⟨-, hstdout, hworld⟩ := h.outcome hread
  refine ⟨c, condition, source, target, input, texts, h.configuration, h.parse, h.reads, h.writes,
    hinput, hsplit, h.holds hread, fun l hl => ?_,
    fun others threads batchSize verbose hothers => ?_⟩
  · rw [hworld]
    exact fileAt?_written hl
  · refine ⟨h.exit_iff hothers, fun hzero => ?_⟩
    obtain ⟨hthreads, hroom⟩ := (h.exit_iff hothers).mp hzero
    obtain ⟨-, hstdout', hworld'⟩ := (h.reworked hthreads hroom).outcome hothers
    exact ⟨hstdout'.trans hstdout.symm, hworld'.trans hworld.symm⟩

/-- A file in the current directory. -/
def sampleFile (name : String) : Location := ⟨false, 0, [name.toList]⟩

/-- Five lines to be filtered, the last of which is not ended, an output that is there already, and
settings that the environment overrides but for the treatment of case. -/
def sampleWorld : World where
  files :=
    [(sampleFile "in", Text.encode ("\x7b\"a\":1\x7d\r\n \nx\n\x7b\"b\":\"y\"\x7d\n" ++
      "\x7b\"c\":3,\"b\":\"x\"\x7d")),
    (sampleFile "out", Text.encode "old\n"),
    (sampleFile "f.json", Text.encode
      "\x7b\"case_insensitive\": true, \"expression\": \"c 3\", \"batch_size\": 9\x7d")]
  directories := []
  devices := []
  stdin := []
  environment := [("BOOLEVAL_EXPR", "a 1 OR b x"), ("BOOLEVAL_BATCH_SIZE", "1")]

/-- The options of a run over these files. -/
def sampleOptions : Options :=
  ⟨none, some "f.json", some "in", some "out", false, some 4, none, true⟩

/-- Two lines pass and take the place of what was in the output, with one record in a batch or
two. -/
theorem target_holds_passing_sample :
    let words := ["-vc", "f.json", "--input=in", "-o", "out", "-t4"]
    let others := ["-c=f.json", "-iin", "-oout", "--batch-size", "2"]
    Request.read words = .run sampleOptions ∧
      Request.read others = .run (sampleOptions.reworked none (some 2) false) ∧
      (run words sampleWorld).exitCode = some 0 ∧ (run others sampleWorld).exitCode = some 0 ∧
      (run words sampleWorld).world.fileAt? (sampleFile "out") =
        some (Text.encode "\x7b\"a\":1\x7d\n\x7b\"c\":3,\"b\":\"x\"\x7d\n") ∧
      (run others sampleWorld).world = (run words sampleWorld).world := by
  intro words others
  have hread : Request.read words = .run sampleOptions := by decide +kernel
  have hothers : Request.read others = .run (sampleOptions.reworked none (some 2) false) := by
    decide +kernel
  have hexit : (run words sampleWorld).exitCode = some 0 := by
    rw [run, hread]
    decide +kernel
  have hsource : source? sampleWorld (file? sampleOptions.input) =
      some (.file (sampleFile "in")) := rfl
  have htarget : target? sampleWorld (file? sampleOptions.output) =
      some (.file (sampleFile "out")) := rfl
  have hdistinct : ∀ l, source? sampleWorld (file? sampleOptions.input) = some (.file l) →
      target? sampleWorld (file? sampleOptions.output) ≠ some (.file l) := by
    intro l hl hsame
    cases hsource.symm.trans hl
    cases htarget.symm.trans hsame
  obtain ⟨c, condition, source, target, input, texts, -, -, -, -, -, -, -, -, hsame⟩ :=
    target_holds_passing hread hexit hdistinct
  obtain ⟨hiff, hworld⟩ := hsame others none (some 2) false hothers
  have hroom : HasRoom sampleWorld.memory 2 := by decide
  have hzero := hiff.mpr ⟨nofun, hroom⟩
  refine ⟨hread, hothers, hexit, hzero, ?_, (hworld hzero).2⟩
  rw [run, hread]
  decide +kernel

/-! ## One file as input and output -/

theorem flatMap_encodeLine_eq_nil {lines : List String} :
    lines.flatMap Text.encodeLine = [] ↔ lines = [] := by
  cases lines with
  | nil => simp
  | cons line lines => simp [Text.encodeLine]

/-- **A file that is filtered onto itself is emptied**, though the run ends with code zero. So it
holds the lines that pass the effective condition only if none of its lines does. -/
theorem emptied_in_place {words : List String} (hread : Request.read words = .run o)
    (hexit : (run words w).exitCode = some 0) {l : Location}
    (hsource : source? w (file? o.input) = some (.file l))
    (htarget : target? w (file? o.output) = some (.file l)) :
    (run words w).world.fileAt? l = some [] ∧ (run words w).stdout = [] ∧
      (∀ m, m ≠ l → (run words w).world.fileAt? m = w.fileAt? m) ∧
      ∃ (c : Option Configuration) (condition : Option Condition) (input : Text.Bytes),
        configuration? w o = .ok c ∧
        Condition.parse (effectiveIgnoreCase o c) (effectiveExpression w o c) = .ok condition ∧
        w.fileAt? l = some input ∧
        ∀ texts : List String, Text.splitLines input = texts.map Text.encode →
          ((run words w).world.fileAt? l =
              some ((texts.filter (passes condition)).flatMap Text.encodeLine) ↔
            ∀ line ∈ texts, passes condition line = false) := by
  obtain ⟨c, condition, source, target, texts, h⟩ := exists_completed hread hexit
  cases h.reads.symm.trans hsource
  cases h.writes.symm.trans htarget
  obtain ⟨input, hinput⟩ : ∃ input, w.fileAt? l = some input :=
    (exists_content hsource).resolve_left nofun
  -- What is read is what the output has been emptied to.
  have hnone : texts = [] := by
    have hlines := h.lines
    rw [linesOf, written, w.fileAt?_put l []] at hlines
    exact List.map_eq_nil_iff.mp hlines.symm
  subst hnone
  obtain ⟨-, hstdout, hworld⟩ := h.outcome hread
  have hfile : (run words w).world.fileAt? l = some [] := by
    rw [hworld]
    exact w.fileAt?_put l []
  refine ⟨hfile, hstdout, fun m hm => ?_, c, condition, input, h.configuration, h.parse, hinput,
    fun lines _ => ?_⟩
  · rw [hworld]
    exact w.fileAt?_put_of_ne hm []
  · rw [hfile, Option.some.injEq, eq_comm, flatMap_encodeLine_eq_nil, List.filter_eq_nil_iff]
    simp only [Bool.not_eq_true]

/-- A file with one record. -/
def singleWorld : World where
  files := [(sampleFile "a.jsonl", Text.encode "\x7b\"a\":1\x7d\n")]
  directories := []
  devices := []
  stdin := []
  environment := []

/-- The record passes, and nothing is left of it. -/
theorem emptied_in_place_sample :
    let words := ["--input", "a.jsonl", "--output", "a.jsonl", "--expr", "a 1"]
    let line := "\x7b\"a\":1\x7d"
    let c := Condition.relation .eq "a" (.integer 1)
    Condition.parse false "a 1" = .ok (some c) ∧ passes (some c) line = true ∧
      singleWorld.fileAt? (sampleFile "a.jsonl") = some (Text.encodeLine line) ∧
      (run words singleWorld).exitCode = some 0 ∧
      (run words singleWorld).world.fileAt? (sampleFile "a.jsonl") = some [] := by
  intro words line c
  have hread : Request.read words =
      .run ⟨some "a 1", none, some "a.jsonl", some "a.jsonl", false, none, none, false⟩ := by
    decide +kernel
  have hexit : (run words singleWorld).exitCode = some 0 := by
    rw [run, hread]
    decide +kernel
  obtain ⟨hfile, -⟩ := emptied_in_place (l := sampleFile "a.jsonl") hread hexit rfl rfl
  refine ⟨by decide +kernel, by decide +kernel, by decide +kernel, hexit, hfile⟩

end Run

end RecordFilter

import Mathlib
import RecordFilter.CommandLine.Run
import RecordFilter.Proofs.Pipeline.Sequence

/-!
# The stages of a run

Before the first line is read, a run starts its threads, loads the configuration, compiles the
expression, opens the input and creates the output. When all of this has succeeded, the run is on
its way: the output has been emptied, and all that is left to do is to send the lines of the input
through the pipeline. The settings that it goes by are those of the command line, where there are
any, then those of the environment and the configuration.

* `settings?_eq`: the effective settings;
* `linesOf_written`: emptying the output leaves the lines of another input as they are;
* `Opened.filter_eq`: what a run on its way is left to do.
-/

namespace RecordFilter

open Pipeline

namespace World

theorem put_put (w : World) (l : Location) (first second : Text.Bytes) :
    (w.put l first).put l second = w.put l second := by
  simp [put]

theorem fileAt?_of_entryAt? {w : World} {l : Location} {content : Text.Bytes}
    (h : w.entryAt? l = some (.file content)) : w.fileAt? l = some content := by
  rw [entryAt?] at h
  split at h
  · cases h
  · split at h
    · cases h
    · obtain ⟨_, hcontent, heq⟩ := Option.map_eq_some_iff.mp h
      cases heq
      exact hcontent

end World

namespace Run

variable {w : World} {o : Options} {c : Option Configuration} {condition : Option Condition}
  {source : Source} {target : Target}

/-! ## Effective settings -/

/-- The expression of a run: the one of the command line, else the one of the environment, else the
one of the configuration, else a blank one. -/
def effectiveExpression (w : World) (o : Options) (c : Option Configuration) : String :=
  match o.expression, w.environment.lookup expressionVariable, c.bind Configuration.expression with
  | some given, _, _ => given
  | none, some inherited, _ => inherited
  | none, none, some configured => configured
  | none, none, none => ""

/-- Keywords are recognised in any case if the command line or the configuration says so. -/
def effectiveIgnoreCase (o : Options) (c : Option Configuration) : Bool :=
  o.ignoreCase || c.any Configuration.ignoreCase

/-- The size of batches: the one of the command line, else the one of the configuration, else the
usual one. -/
def effectiveBatchSize (o : Options) (c : Option Configuration) : Nat :=
  match o.batchSize, c.bind Configuration.batchSize with
  | some given, _ => max given 1
  | none, some configured => max configured 1
  | none, none => Settings.defaultBatchSize

theorem resolve_eq (w : World) (o : Options) (c : Option Configuration) :
    Settings.resolve c (o.expression.or (w.environment.lookup expressionVariable)) o.ignoreCase
        o.batchSize =
      ⟨effectiveExpression w o c, effectiveIgnoreCase o c, effectiveBatchSize o c⟩ := by
  rw [effectiveExpression, effectiveIgnoreCase, effectiveBatchSize, Settings.resolve]
  rcases c with _ | ⟨configured, _, size⟩
  · cases o.expression <;> cases w.environment.lookup expressionVariable <;>
      cases o.batchSize <;> rfl
  · cases o.expression <;> cases w.environment.lookup expressionVariable <;>
      cases configured <;> cases o.batchSize <;> cases size <;> rfl

theorem settings?_eq (h : configuration? w o = .ok c) :
    settings? w o =
      .ok ⟨effectiveExpression w o c, effectiveIgnoreCase o c, effectiveBatchSize o c⟩ := by
  rw [settings?, h]
  exact congrArg _ (resolve_eq w o c)

/-- The line holds a record that meets the condition, if there is one. -/
def passes (condition : Option Condition) (line : String) : Bool :=
  (Record.ofLine line).any fun fields => condition.all fun c => c.holds fields

theorem keeps_eq (e : Evaluator) : keeps e = passes e.condition := by
  funext line
  rw [keeps, passes]
  congr 1
  funext fields
  rw [Evaluator.accepts]
  cases e.condition <;> rfl

/-! ## Sources and targets -/

/-- The content of a source that can be read. -/
def Source.content? (w : World) : Source → Option Text.Bytes
  | .stdin => some w.stdin
  | .file l => w.fileAt? l
  | .void => some []
  | .unreadable => none

/-- What a target holds of a content that has been written to it. A target that takes nothing holds
it only if it is empty. -/
def Target.Holds (outcome : Outcome) (content : Text.Bytes) : Target → Prop
  | .stdout => outcome.stdout = content
  | .file l => outcome.world.fileAt? l = some content ∧ outcome.stdout = []
  | .void => outcome.stdout = []
  | .full => content = [] ∧ outcome.stdout = []

theorem linesOf_eq {input : Text.Bytes} (h : source.content? w = some input) :
    linesOf w source = textLines input := by
  cases source with
  | stdin => rw [linesOf, Option.some.inj h]
  | file l =>
    have hfile : w.fileAt? l = some input := h
    rw [linesOf, hfile, Option.getD_some]
  | void => rw [← Option.some.inj h]; rfl
  | unreadable => cases h

theorem exists_content {input : Option String} (h : source? w input = some source) :
    source = .unreadable ∨ ∃ content, source.content? w = some content := by
  cases input with
  | none =>
    cases h
    exact .inr ⟨w.stdin, rfl⟩
  | some path =>
    obtain ⟨l, -, hl⟩ := Option.bind_eq_some_iff.mp h
    obtain ⟨entry, hentry, rfl⟩ := Option.map_eq_some_iff.mp hl
    cases entry with
    | file content => exact .inr ⟨content, World.fileAt?_of_entryAt? hentry⟩
    | directory => exact .inl rfl
    | device d =>
      cases d with
      | null => exact .inr ⟨[], rfl⟩
      | full => exact .inr ⟨[], rfl⟩
      | stdin => exact .inr ⟨w.stdin, rfl⟩
      | stdout => exact .inr ⟨[], rfl⟩

/-- Emptying the output leaves the lines of another source as they are. -/
theorem linesOf_written {content : Text.Bytes} (h : ∀ l, source = .file l → target ≠ .file l) :
    linesOf (written w content target) source = linesOf w source := by
  cases target with
  | stdout => rfl
  | void => rfl
  | full => rfl
  | file l =>
    cases source with
    | stdin => rfl
    | void => rfl
    | unreadable => rfl
    | file m =>
      have hne : m ≠ l := fun heq => h m rfl (congrArg Target.file heq.symm)
      rw [written, linesOf, linesOf, w.fileAt?_put_of_ne hne]

theorem written_written (w : World) (first second : Text.Bytes) (target : Target) :
    written (written w first target) second target = written w second target := by
  cases target with
  | file l => exact w.put_put l first second
  | _ => rfl

theorem memory_written (w : World) (content : Text.Bytes) (target : Target) :
    (written w content target).memory = w.memory := by
  cases target <;> rfl

/-! ## On its way -/

/-- All that comes before the first line is read has succeeded. -/
structure Opened (w : World) (o : Options) (c : Option Configuration)
    (condition : Option Condition) (source : Source) (target : Target) : Prop where
  threads : ∀ n ∈ o.threads, n ≤ w.threads
  configuration : configuration? w o = .ok c
  parse : Condition.parse (effectiveIgnoreCase o c) (effectiveExpression w o c) = .ok condition
  reads : source? w (file? o.input) = some source
  writes : target? w (file? o.output) = some target

/-- The evaluator of a run that is on its way. -/
def evaluatorOf (o : Options) (c : Option Configuration) (condition : Option Condition) :
    Evaluator :=
  ⟨effectiveIgnoreCase o c, condition, none⟩

theorem any_threads_iff {threads : Option Nat} {most : Nat} :
    threads.any (most < ·) = true ↔ ∃ n ∈ threads, most < n := by
  cases threads <;> simp

/-- What a run on its way is left to do: it sends its lines through the pipeline, with the output
emptied. -/
theorem Opened.filter_eq (h : Opened w o c condition source target) :
    ∃ log, filter w o = process (written w [] target) log (evaluatorOf o c condition) source target
      (effectiveBatchSize o c) := by
  have hthreads : ¬ o.threads.any (w.threads < ·) = true := by
    rw [any_threads_iff]
    push Not
    exact h.threads
  rw [filter, if_neg hthreads, settings?_eq h.configuration]
  dsimp only
  rw [Evaluator.compile, h.parse]
  dsimp only
  rw [fromSource, h.reads]
  dsimp only
  rw [toTarget, h.writes]
  exact ⟨_, rfl⟩

/-! ## Words -/

theorem run_eq {words : List String} {f : LogFilter} (hread : Request.read words = .run o)
    (hlog : logFilter? w o.verbose = some f) :
    run words w = { filter w o with log := (filter w o).log.filter f.shows } := by
  rw [run, hread]
  dsimp only
  rw [hlog]

theorem exists_logFilter {verbose : Bool} {f : LogFilter} (h : logFilter? w verbose = some f)
    (other : Bool) : ∃ g, logFilter? w other = some g := by
  obtain ⟨ds, hds, -⟩ := Option.map_eq_some_iff.mp h
  exact ⟨⟨ds, usualRank other⟩, Option.map_eq_some_iff.mpr ⟨ds, hds, rfl⟩⟩

end Run

end RecordFilter

import Mathlib
import RecordFilter.Proofs.CommandLine.Stages

/-!
# Refused runs

A run is refused when its command line is wrong, when its threads cannot be started, when its
configuration cannot be loaded, when its expression cannot be read, or when its input or output
cannot be opened. These are the ways in which a run does not get on its way, and none of them leaves
a trace, whatever else is wrong. In particular, no record passes because the expression could not be
read.

* `refused_or_opened`: a run is refused or on its way;
* `leavesNoTrace_of_refused`: what a refused run leaves behind.
-/

namespace RecordFilter.Run

variable {words : List String} {w : World}

/-! ## Causes -/

/-- Why a run does not get on its way. -/
inductive Refused (words : List String) (w : World) : Prop where
  /-- The command line is wrong. -/
  | misuse (hread : Request.read words = .misuse)
  /-- More threads are asked for than can be started. -/
  | threads {o : Options} {n : Nat} (hread : Request.read words = .run o) (hn : n ∈ o.threads)
      (hmany : w.threads < n)
  /-- The settings file that is named is missing, cannot be read, or gives a value of the wrong
  kind. -/
  | configuration {o : Options} {path : String} (hread : Request.read words = .run o)
      (hpath : o.config = some path)
      (hload : ∀ form content, settingsFile? w path = some (form, content) →
        Configuration.load? form content w.environment = none)
  /-- The expression cannot be read. -/
  | expression {o : Options} {c : Option Configuration} {reason : ParseError}
      (hread : Request.read words = .run o) (hconfiguration : configuration? w o = .ok c)
      (hparse : Condition.parse (effectiveIgnoreCase o c) (effectiveExpression w o c) =
        .error reason)
  /-- The path of the input leads to nothing that can be opened. -/
  | input {o : Options} {path : String} (hread : Request.read words = .run o)
      (hpath : file? o.input = some path) (hfind : w.find? path = none)
  /-- The path of the output leads to no file that is there or can be created. -/
  | output {o : Options} {path : String} (hread : Request.read words = .run o)
      (hpath : file? o.output = some path) (htarget : w.target? path = none)

/-! ## Stages that fail -/

theorem source?_eq_none_iff {path : Option String} :
    source? w path = none ↔ ∃ p, path = some p ∧ w.find? p = none := by
  cases path with
  | none => simp [source?]
  | some p =>
    have hnone : ∀ l, sourceAt? w l = none ↔ w.entryAt? l = none := fun l => Option.map_eq_none_iff
    simp [source?, World.find?, Option.bind_eq_none_iff, hnone]

theorem target?_eq_none_iff {path : Option String} :
    target? w path = none ↔ ∃ p, path = some p ∧ w.target? p = none := by
  cases path with
  | none => simp [target?]
  | some p => simp [target?]

theorem configuration?_eq_error_iff {o : Options} :
    (∃ message, configuration? w o = .error message) ↔
      ∃ path, o.config = some path ∧ ∀ form content, settingsFile? w path = some (form, content) →
        Configuration.load? form content w.environment = none := by
  rw [configuration?]
  cases o.config with
  | none => simp
  | some path =>
    dsimp only
    split
    · next c hfound =>
      obtain ⟨⟨form, content⟩, hfile, hload⟩ := Option.bind_eq_some_iff.mp hfound
      refine iff_of_false nofun fun ⟨_, hpath, hnone⟩ => ?_
      cases hpath
      cases hload.symm.trans (hnone form content hfile)
    · next hfound =>
      rw [Option.bind_eq_none_iff] at hfound
      exact iff_of_true ⟨_, rfl⟩ ⟨path, rfl, fun form content h => hfound (form, content) h⟩

/-! ## What is left behind -/

/-- The run has ended with a code other than zero, has shown nothing and has left everything as it
was. -/
def LeavesNoTrace (outcome : Outcome) (w : World) : Prop :=
  (∃ code, outcome.exitCode = some code ∧ code ≠ 0) ∧ outcome.stdout = [] ∧ outcome.world = w

theorem leavesNoTrace_failed (w : World) (log : List LogLine) (message : String) :
    LeavesNoTrace (failed w log message) w :=
  ⟨⟨1, rfl, Nat.one_ne_zero⟩, rfl, rfl⟩

/-- All stages succeed, or one is refused and nothing has been touched. -/
theorem filter_cases {o : Options} (hread : Request.read words = .run o) (w : World) :
    (Refused words w ∧ LeavesNoTrace (filter w o) w) ∨
      ∃ c condition source target, Opened w o c condition source target := by
  -- The stages in their order: the output is created last, so one that fails has touched nothing.
  by_cases hthreads : ∃ n ∈ o.threads, w.threads < n
  · obtain ⟨n, hn, hmany⟩ := hthreads
    refine .inl ⟨.threads hread hn hmany, ?_⟩
    rw [filter, if_pos (any_threads_iff.mpr ⟨n, hn, hmany⟩)]
    exact leavesNoTrace_failed ..
  rw [filter, if_neg (mt any_threads_iff.mp hthreads)]
  push Not at hthreads
  cases hconfiguration : configuration? w o with
  | error message =>
    obtain ⟨path, hpath, hload⟩ := configuration?_eq_error_iff.mp ⟨message, hconfiguration⟩
    refine .inl ⟨.configuration hread hpath hload, ?_⟩
    rw [settings?, hconfiguration]
    exact leavesNoTrace_failed ..
  | ok c =>
    rw [settings?_eq hconfiguration]
    dsimp only
    cases hparse : Condition.parse (effectiveIgnoreCase o c) (effectiveExpression w o c) with
    | error reason =>
      refine .inl ⟨.expression hread hconfiguration hparse, ?_⟩
      rw [Evaluator.compile, hparse]
      exact leavesNoTrace_failed ..
    | ok condition =>
      rw [Evaluator.compile, hparse]
      dsimp only
      rw [fromSource]
      cases hsource : source? w (file? o.input) with
      | none =>
        obtain ⟨path, hpath, hfind⟩ := source?_eq_none_iff.mp hsource
        exact .inl ⟨.input hread hpath hfind, leavesNoTrace_failed ..⟩
      | some source =>
        dsimp only
        rw [toTarget]
        cases htarget : target? w (file? o.output) with
        | none =>
          obtain ⟨path, hpath, hnone⟩ := target?_eq_none_iff.mp htarget
          exact .inl ⟨.output hread hpath hnone, leavesNoTrace_failed ..⟩
        | some target =>
          exact .inr ⟨c, condition, source, target, hthreads, hconfiguration, hparse, hsource,
            htarget⟩

/-- **A run is refused or on its way.** -/
theorem refused_or_opened {o : Options} (hread : Request.read words = .run o) (w : World) :
    Refused words w ∨ ∃ c condition source target, Opened w o c condition source target :=
  (filter_cases hread w).imp_left And.left

theorem leavesNoTrace_or_opened {o : Options} (hread : Request.read words = .run o) (w : World) :
    LeavesNoTrace (run words w) w ∨
      ∃ c condition source target, Opened w o c condition source target := by
  cases hlog : logFilter? w o.verbose with
  | none =>
    left
    rw [run, hread]
    dsimp only
    rw [hlog]
    exact ⟨⟨101, rfl, by decide⟩, rfl, rfl⟩
  | some f =>
    rw [run_eq hread hlog]
    exact (filter_cases hread w).imp_left And.right

theorem Opened.not_refused {o : Options} {c : Option Configuration} {condition : Option Condition}
    {source : Source} {target : Target} (h : Opened w o c condition source target)
    (hread : Request.read words = .run o) : ¬ Refused words w := by
  intro hrefused
  cases hrefused with
  | misuse hmisuse => cases hread.symm.trans hmisuse
  | threads hread' hn hmany =>
    cases hread.symm.trans hread'
    exact absurd (h.threads _ hn) (Nat.not_le.mpr hmany)
  | configuration hread' hpath hload =>
    cases hread.symm.trans hread'
    obtain ⟨message, herror⟩ := configuration?_eq_error_iff.mpr ⟨_, hpath, hload⟩
    cases h.configuration.symm.trans herror
  | expression hread' hconfiguration hparse =>
    cases hread.symm.trans hread'
    have hsame := h.configuration.symm.trans hconfiguration
    cases hsame
    cases h.parse.symm.trans hparse
  | input hread' hpath hfind =>
    cases hread.symm.trans hread'
    cases h.reads.symm.trans (source?_eq_none_iff.mpr ⟨_, hpath, hfind⟩)
  | output hread' hpath hnone =>
    cases hread.symm.trans hread'
    cases h.writes.symm.trans (target?_eq_none_iff.mpr ⟨_, hpath, hnone⟩)

theorem Refused.read (h : Refused words w) :
    Request.read words = .misuse ∨ ∃ o, Request.read words = .run o := by
  cases h with
  | misuse hread => exact .inl hread
  | threads hread => exact .inr ⟨_, hread⟩
  | configuration hread => exact .inr ⟨_, hread⟩
  | expression hread => exact .inr ⟨_, hread⟩
  | input hread => exact .inr ⟨_, hread⟩
  | output hread => exact .inr ⟨_, hread⟩

/-- **A refused run leaves no trace**: its exit code is not zero, nothing has been shown, and all
files, that of the output among them, are as they were. -/
theorem leavesNoTrace_of_refused (h : Refused words w) : LeavesNoTrace (run words w) w := by
  rcases h.read with hread | ⟨o, hread⟩
  · rw [run, hread]
    exact ⟨⟨2, rfl, by decide⟩, rfl, rfl⟩
  · rcases leavesNoTrace_or_opened hread w with htrace | ⟨c, condition, source, target, hopened⟩
    · exact htrace
    · exact absurd h (hopened.not_refused hread)

/-- Settings with a size of batches that is no number, an output that is there already, and an
expression in the environment that cannot be read. -/
def refusedWorld : World where
  files :=
    [(⟨false, 0, ["f.json".toList]⟩, Text.encode "\x7b\"batch_size\": \"many\"\x7d"),
    (⟨false, 0, ["out".toList]⟩, Text.encode "old\n")]
  directories := []
  devices := []
  stdin := Text.encode "\x7b\"a\":1\x7d"
  environment := [("BOOLEVAL_EXPR", "(a 1")]

/-- An output that is given twice, settings that cannot be converted, an expression with a group
that is not closed, and an input that is not there. -/
theorem leavesNoTrace_of_refused_sample :
    [["-oout", "-o", "out"], ["-o", "out", "-c", "f.json"], ["-o", "out"],
        ["-o", "out", "-e", "a 1", "-i", "in"]].Forall fun words =>
      Refused words refusedWorld ∧ LeavesNoTrace (run words refusedWorld) refusedWorld := by
  have hmisuse : Refused ["-oout", "-o", "out"] refusedWorld := .misuse (by decide +kernel)
  have hconfiguration : Refused ["-o", "out", "-c", "f.json"] refusedWorld := by
    have hread : Request.read ["-o", "out", "-c", "f.json"] =
        .run ⟨none, some "f.json", none, some "out", false, none, none, false⟩ := by decide +kernel
    have hfound : settingsFile? refusedWorld "f.json" =
        some (.json, Text.encode "\x7b\"batch_size\": \"many\"\x7d") := rfl
    refine .configuration hread rfl fun form content hfile => ?_
    cases hfound.symm.trans hfile
    decide +kernel
  have hexpression : Refused ["-o", "out"] refusedWorld := by
    have hread : Request.read ["-o", "out"] =
        .run ⟨none, none, none, some "out", false, none, none, false⟩ := by decide +kernel
    have hparse : Condition.parse false "(a 1" = .error (.unclosedGroup .endOfInput) := by
      decide +kernel
    exact .expression (c := none) hread rfl hparse
  have hinput : Refused ["-o", "out", "-e", "a 1", "-i", "in"] refusedWorld := by
    have hread : Request.read ["-o", "out", "-e", "a 1", "-i", "in"] =
        .run ⟨some "a 1", none, some "in", some "out", false, none, none, false⟩ := by
      decide +kernel
    exact .input hread rfl rfl
  exact ⟨⟨hmisuse, leavesNoTrace_of_refused hmisuse⟩,
    ⟨hconfiguration, leavesNoTrace_of_refused hconfiguration⟩,
    ⟨hexpression, leavesNoTrace_of_refused hexpression⟩,
    ⟨hinput, leavesNoTrace_of_refused hinput⟩⟩

end RecordFilter.Run

import Mathlib
import RecordFilter.Proofs.CommandLine.Stages
import RecordFilter.Proofs.Decimal.ReadBack
import RecordFilter.Proofs.Settings.Flat

/-!
# Sizes of batches

The room for a batch is asked for at once, before the first line is read. The size of batches may be
any number of 64 bits but zero, whether it comes from the command line, from the environment or from
a settings file, but only those below `2 ^ 58` have a room that can be asked for. So there are sizes
that are admitted and that a run cannot go on with: it crashes when its output has been emptied.

* `Options.Kept.read`: what holds of all options that a command line can give;
* `effectiveBatchSize_lt`: sizes of batches have 64 bits;
* `read_batchSize`: all of them can be given;
* `crashed_iff_large_batch`: when a run that is on its way crashes.
-/

namespace RecordFilter

open Pipeline

/-! ## Options -/

namespace Options

/-- A property that options keep, whatever is given on the command line. -/
structure Kept (P : Options → Prop) : Prop where
  empty : P .empty
  set : ∀ {o o' : Options} {value : List Char} {option : Valued}, P o →
    o.set? value option = some o' → P o'
  raise : ∀ {o o' : Options} {flag : Flag}, P o → o.raise flag = .options o' → P o'

/-- The options that have been read have the property. -/
def State.Has (P : Options → Prop) : State → Prop
  | .ready o => P o
  | .awaiting o _ => P o
  | .answered r => ∀ o, r = .run o → P o

section Kept
variable {P : Options → Prop} {o : Options}

theorem Kept.give (hP : Kept P) (ho : P o) (option : Valued) (value : List Char) :
    (give o option value).Has P := by
  unfold Options.give
  split
  · next o' hset => exact hP.set ho hset
  · exact fun _ h => nomatch h

theorem raise_ne_run {flag : Flag} {o' : Options} : o.raise flag ≠ .answer (.run o') := by
  cases flag with
  | ignoreCase | verbose =>
    rw [raise]
    split <;> nofun
  | version | help => nofun

theorem Kept.readLong (hP : Kept P) (ho : P o) (word : List Char) : (readLong o word).Has P := by
  unfold Options.readLong
  dsimp only
  split
  · exact hP.give ho _ _
  · exact ho
  · split
    · next o' hraise => exact hP.raise ho hraise
    · next r hraise =>
      rintro o' rfl
      exact absurd hraise raise_ne_run
  · exact fun _ h => nomatch h

theorem Kept.readShort (hP : Kept P) (letters : List Char) (ho : P o) :
    (readShort o letters).Has P := by
  induction letters generalizing o with
  | nil => exact ho
  | cons letter rest ih =>
    rw [Options.readShort]
    split
    · split
      · next o' hraise => exact ih (hP.raise ho hraise)
      · next r hraise =>
        rintro o' rfl
        exact absurd hraise raise_ne_run
    · split
      · exact ho
      · exact hP.give ho _ _
      · exact hP.give ho _ _
    · exact fun _ h => nomatch h

theorem Kept.readWord (hP : Kept P) (ho : P o) (word : List Char) (last : Bool) :
    (readWord o word last).Has P := by
  unfold Options.readWord
  split
  · cases last with
    | true => exact ho
    | false => exact fun _ h => nomatch h
  · exact hP.readLong ho _
  · exact hP.readShort _ ho
  · exact fun _ h => nomatch h

theorem Kept.readAll (hP : Kept P) (words : List (List Char)) {s : State} (hs : s.Has P)
    (h : readAll s words = .run o) : P o := by
  induction words generalizing s with
  | nil =>
    cases s with
    | ready o' =>
      cases h
      exact hs
    | awaiting o' option => cases h
    | answered r => exact hs o h
  | cons word rest ih =>
    cases s with
    | ready o' => exact ih (hP.readWord hs word rest.isEmpty) h
    | awaiting o' option =>
      rw [Options.readAll] at h
      split at h
      · exact ih (hP.give hs option word) h
      · cases h
    | answered r => exact hs o h

/-- **What options keep holds of all that a command line can give.** -/
theorem Kept.read (hP : Kept P) {words : List String} (h : Request.read words = .run o) : P o :=
  hP.readAll (words.map String.toList) (s := .ready .empty) hP.empty h

end Kept

theorem kept_batchSize : Kept fun o => ∀ n ∈ o.batchSize, n < UInt64.size where
  empty := nofun
  set {o o' value option} ho h := by
    cases option with
    | batchSize =>
      obtain ⟨place, hfill, rfl⟩ := Option.map_eq_some_iff.mp h
      unfold fill at hfill
      split at hfill
      · next v _ hvalue =>
        cases hfill
        rintro n ⟨⟩
        exact Numeral.natural64?_lt hvalue
      · cases hfill
    | _ =>
      obtain ⟨place, -, rfl⟩ := Option.map_eq_some_iff.mp h
      exact ho
  raise {o o' flag} ho h := by
    cases flag with
    | ignoreCase | verbose =>
      rw [raise] at h
      split at h
      · cases h
      · cases h
        exact ho
    | version | help => cases h

end Options

namespace Configuration

theorem batchSize_lt {file environment : Settings.Layer} {c : Configuration}
    (h : ofLayers? file environment = some c) : ∀ n ∈ c.batchSize, n < UInt64.size := by
  intro n hn
  obtain ⟨-, -, hsize⟩ := converted_of_ofLayers? h
  rw [Option.mem_def.mp hn] at hsize
  cases hvalue : lookup file environment Settings.batchSizeKey with
  | none =>
    rw [hvalue] at hsize
    cases hsize
  | some v =>
    rw [hvalue] at hsize
    exact RawValue.toCount_lt hsize

end Configuration

namespace Run

variable {words : List String} {w : World} {o : Options} {c : Option Configuration}
  {condition : Option Condition} {source : Source} {target : Target}

/-! ## Sizes -/

theorem batchSize_lt_of_configuration? (h : configuration? w o = .ok c) :
    ∀ n ∈ c.bind Configuration.batchSize, n < UInt64.size := by
  unfold configuration? at h
  split at h
  · cases h
    exact nofun
  · dsimp only at h
    split at h
    · next c' hfound =>
      cases h
      obtain ⟨⟨form, content⟩, -, hload⟩ := Option.bind_eq_some_iff.mp hfound
      unfold Configuration.load? at hload
      split at hload
      · exact Configuration.batchSize_lt hload
      · cases hload
    · cases h

theorem effectiveBatchSize_pos (o : Options) (c : Option Configuration) :
    0 < effectiveBatchSize o c := by
  unfold effectiveBatchSize
  split
  · exact Nat.lt_of_lt_of_le Nat.one_pos (Nat.le_max_right _ _)
  · exact Nat.lt_of_lt_of_le Nat.one_pos (Nat.le_max_right _ _)
  · decide

/-- Sizes of batches have 64 bits, wherever they come from. -/
theorem effectiveBatchSize_lt (hread : Request.read words = .run o)
    (hconfiguration : configuration? w o = .ok c) : effectiveBatchSize o c < UInt64.size := by
  have hone : 1 < UInt64.size := by decide
  unfold effectiveBatchSize
  split
  · next n hn => exact Nat.max_lt.mpr ⟨Options.kept_batchSize.read hread n hn, hone⟩
  · next n _ hn => exact Nat.max_lt.mpr ⟨batchSize_lt_of_configuration? hconfiguration n hn, hone⟩
  · decide

/-- The options that give nothing but a size of batches. -/
def batchOptions (n : Nat) : Options := { Options.empty with batchSize := some n }

theorem read_batchSize {n : Nat} (hn : n < UInt64.size) :
    Request.read ["--batch-size", String.ofList (Nat.toDigits 10 n)] = .run (batchOptions n) := by
  have hname : Options.readWord .empty "--batch-size".toList false =
      .awaiting .empty .batchSize := rfl
  obtain ⟨digit, rest, hdigits, hdigit⟩ := Numeral.beginsDigit_toDigits n
  have hplus : Numeral.dropPlus (Nat.toDigits 10 n) = Nat.toDigits 10 n := by
    rw [hdigits, Numeral.dropPlus]
    rintro _ ⟨⟩
    cases hdigit
  have hsize : Numeral.natural64? (Nat.toDigits 10 n) = some n := by
    rw [Numeral.natural64?, hplus, Numeral.natural?_toDigits]
    exact Option.filter_some_pos (decide_eq_true hn)
  have hvalue : Options.isValue (Nat.toDigits 10 n) = true := by
    have hdash : digit ≠ '-' := by
      rintro rfl
      cases hdigit
    rw [hdigits, Options.isValue]
    simp [hdash]
  rw [Request.read, List.map_cons, List.map_cons, List.map_nil, Options.readAll]
  show Options.readAll (Options.readWord .empty "--batch-size".toList false) _ = _
  rw [hname, Options.readAll, String.toList_ofList, if_pos hvalue, Options.give, Options.set?,
    hsize]
  rfl

/-! ## Room -/

theorem exitCodeOf_eq_iff {ending : Ending} : exitCodeOf ending = some 101 ↔ ending = .crashed := by
  cases ending <;> simp [exitCodeOf]

theorem process_of_large (w : World) (log : List LogLine) (e : Evaluator) (source : Source)
    (target : Target) {n : Nat} (h : 2 ^ 58 ≤ n) :
    (process w log e source target n).stdout = [] ∧
      (process w log e source target n).error = none ∧
      (process w log e source target n).world = written w [] target := by
  rw [process, run_of_large h]
  refine ⟨?_, rfl, rfl⟩
  cases target <;> rfl

/-- **Sizes of batches that a run cannot go on with.** The size that a run goes by has 64 bits and
is not zero, wherever it comes from. A run that is on its way crashes just when a batch of this size
needs more room than can be asked for. It has then emptied its output, shown nothing and reported no
error. All sizes of 64 bits can be given, the large ones among them. -/
theorem crashed_iff_large_batch {f : LogFilter} (hread : Request.read words = .run o)
    (hlog : logFilter? w o.verbose = some f) (h : Opened w o c condition source target) :
    (0 < effectiveBatchSize o c ∧ effectiveBatchSize o c < UInt64.size) ∧
      ((run words w).exitCode = some 101 ↔ 2 ^ 58 ≤ effectiveBatchSize o c) ∧
      ((run words w).exitCode = some 101 → (run words w).stdout = [] ∧
        (run words w).error = none ∧ (run words w).world = written w [] target) ∧
      ∀ n < UInt64.size, Request.read ["--batch-size", String.ofList (Nat.toDigits 10 n)] =
        .run (batchOptions n) := by
  have hpos := effectiveBatchSize_pos o c
  have hlt := effectiveBatchSize_lt hread h.configuration
  obtain ⟨log, hfilter⟩ := h.filter_eq
  have hexit : (run words w).exitCode = some 101 ↔ 2 ^ 58 ≤ effectiveBatchSize o c := by
    rw [run_eq hread hlog, hfilter]
    exact exitCodeOf_eq_iff.trans fst_run_eq_crashed_iff
  refine ⟨⟨hpos, hlt⟩, hexit, fun hcrash => ?_, fun n hn => read_batchSize hn⟩
  obtain ⟨hstdout, herror, hworld⟩ := process_of_large (written w [] target) log
    (evaluatorOf o c condition) source target (hexit.mp hcrash)
  rw [run_eq hread hlog, hfilter]
  exact ⟨hstdout, herror, hworld.trans (written_written ..)⟩

/-- A settings file with a number that is larger than all sizes, and an output that is there
already. -/
def largeWorld (environment : List (String × String)) : World where
  files :=
    [(⟨false, 0, ["f.yaml".toList]⟩, Text.encode "batch_size: 1e300\n"),
    (⟨false, 0, ["out".toList]⟩, Text.encode "old\n")]
  directories := []
  devices := []
  stdin := Text.encode "\x7b\"a\":1\x7d\n"
  environment := environment

/-- Runs that crash: with the least of the sizes on the command line, with the largest one in the
environment, and with a number in the file that is more than any size. The next smaller size has a
room that can be asked for. -/
theorem crashed_iff_large_batch_sample :
    let w := largeWorld []
    let v := largeWorld [("BOOLEVAL_BATCH_SIZE", "18446744073709551615")]
    (run ["-oout", "--batch-size", "288230376151711744"] w).exitCode = some 101 ∧
      (run ["-oout", "--batch-size", "288230376151711743"] w).exitCode ≠ some 101 ∧
      (run ["-oout", "-cf.yaml"] v).exitCode = some 101 ∧
      (run ["-oout", "-cf.yaml"] w).exitCode = some 101 ∧
      (run ["-oout", "-cf.yaml"] w).world.fileAt? ⟨false, 0, ["out".toList]⟩ = some [] := by
  intro w v
  let given (n : Nat) : Options := ⟨none, none, none, some "out", false, none, some n, false⟩
  let configured : Options := ⟨none, some "f.yaml", none, some "out", false, none, none, false⟩
  let c : Option Configuration := some ⟨none, false, some 18446744073709551615⟩
  let target : Target := .file ⟨false, 0, ["out".toList]⟩
  have hgiven : ∀ n, Opened w (given n) none none .stdin target := fun n =>
    ⟨nofun, rfl, Condition.parse_blank rfl false, rfl, rfl⟩
  have hfile : Opened w configured c none .stdin target :=
    ⟨nofun, by decide +kernel, by decide +kernel, rfl, rfl⟩
  have hvariable : Opened v configured c none .stdin target :=
    ⟨nofun, by decide +kernel, by decide +kernel, rfl, rfl⟩
  have hread₁ : Request.read ["-oout", "--batch-size", "288230376151711744"] =
      .run (given 288230376151711744) := by decide +kernel
  have hread₂ : Request.read ["-oout", "--batch-size", "288230376151711743"] =
      .run (given 288230376151711743) := by decide +kernel
  have hread : Request.read ["-oout", "-cf.yaml"] = .run configured := by decide +kernel
  obtain ⟨-, hleast, -⟩ := crashed_iff_large_batch hread₁ rfl (hgiven _)
  obtain ⟨-, hnext, -⟩ := crashed_iff_large_batch hread₂ rfl (hgiven _)
  obtain ⟨-, hlargest, -⟩ := crashed_iff_large_batch hread rfl hvariable
  obtain ⟨-, hmore, hworld, -⟩ := crashed_iff_large_batch hread rfl hfile
  have hcrash := hmore.mpr (by decide)
  refine ⟨hleast.mpr (by decide), mt hnext.mp (by decide), hlargest.mpr (by decide), hcrash, ?_⟩
  rw [(hworld hcrash).2.2]
  exact w.fileAt?_put _ []

end Run

end RecordFilter

import Mathlib
import RecordFilter.Pipeline

/-!
# Room for a batch

The room for a batch is set aside before the first line is read. It has to be no more than can be
asked for at once, whatever memory there is, and no more than there is. A run without it has taken
nothing from its lines and handed nothing to its sink; with it, the run never ends for want of room.

* `run_of_hasRoom`: with room, the lines are fed to the pipeline;
* `run_of_not_hasRoom`, `run_of_large`: without room, nothing is done;
* `fst_run_eq_crashed_iff`: the sizes of batches for which no room can be asked.
-/

namespace RecordFilter.Pipeline

variable {e : Evaluator} {lines : List (Option String)} {sink : Sink} {batchSize memory : Nat}

/-- The room for a batch can be asked for, and it is there. -/
def HasRoom (memory batchSize : Nat) : Prop :=
  batchBytes batchSize ≤ maxAllocation ∧ batchBytes batchSize ≤ memory

instance (memory batchSize : Nat) : Decidable (HasRoom memory batchSize) :=
  inferInstanceAs (Decidable (_ ∧ _))

theorem hasRoom_one : HasRoom maxAllocation 1 := by decide

theorem run_of_hasRoom (h : HasRoom memory batchSize) :
    run e lines sink batchSize memory =
      finish (feed e (max batchSize 1) lines 1 #[] (.start sink)) := by
  rw [run, if_neg (Nat.not_lt.mpr h.1), if_neg (Nat.not_lt.mpr h.2)]

/-- Without room the run ends before anything has been done. -/
theorem run_of_not_hasRoom (h : ¬ HasRoom memory batchSize) (e : Evaluator)
    (lines : List (Option String)) (sink : Sink) :
    ∃ ending, (ending = .crashed ∨ ending = .aborted) ∧
      run e lines sink batchSize memory = (ending, .start sink) := by
  rw [run]
  by_cases hask : maxAllocation < batchBytes batchSize
  · exact ⟨.crashed, .inl rfl, if_pos hask⟩
  · have hmemory : memory < batchBytes batchSize := by
      by_contra hthere
      exact h ⟨Nat.not_lt.mp hask, Nat.not_lt.mp hthere⟩
    rw [if_neg hask, if_pos hmemory]
    exact ⟨.aborted, .inr rfl, rfl⟩

theorem maxAllocation_lt_iff : maxAllocation < batchBytes batchSize ↔ 2 ^ 58 ≤ batchSize := by
  rw [batchBytes, maxAllocation, bytesPerLine]
  omega

/-- For large batches no room can be asked, whatever memory there is. -/
theorem run_of_large (h : 2 ^ 58 ≤ batchSize) :
    run e lines sink batchSize memory = (.crashed, .start sink) := by
  rw [run, if_pos (maxAllocation_lt_iff.mpr h)]

/-! ## Endings -/

/-- The ending is that of a run which had room for its batches. -/
def Ending.HadRoom (ending : Ending) : Prop := ending ≠ .crashed ∧ ending ≠ .aborted

theorem hadRoom_settleAll (ls : List (NumberedLine × Verdict)) (p : Progress) :
    (settleAll ls p).1.HadRoom := by
  induction ls generalizing p with
  | nil => exact ⟨nofun, nofun⟩
  | cons l ls ih =>
    obtain ⟨line, v⟩ := l
    rw [settleAll]
    cases p.settle line v with
    | ok q => exact ih q
    | error q => exact ⟨nofun, nofun⟩

theorem hadRoom_feed (lines : List (Option String)) (number : Nat) (batch : Array NumberedLine)
    (p : Progress) : (feed e batchSize lines number batch p).1.HadRoom := by
  induction lines generalizing number batch p with
  | nil => exact hadRoom_settleAll _ p
  | cons line lines ih =>
    cases line with
    | none => exact ⟨nofun, nofun⟩
    | some text =>
      rw [feed]
      split
      · exact ih ..
      dsimp only
      split
      · split
        · exact ih ..
        · exact hadRoom_settleAll _ p
      · exact ih ..

theorem hadRoom_finish {r : Ending × Progress} (h : r.1.HadRoom) : (finish r).1.HadRoom := by
  obtain ⟨ending, p⟩ := r
  cases ending with
  | complete =>
    rw [finish]
    split <;> exact ⟨nofun, nofun⟩
  | _ => exact h

/-- **A run with room does not end for want of it.** -/
theorem hadRoom_run (h : HasRoom memory batchSize) :
    (run e lines sink batchSize memory).1.HadRoom := by
  rw [run_of_hasRoom h]
  exact hadRoom_finish (hadRoom_feed ..)

theorem hasRoom_of_run {ending : Ending} {q : Progress}
    (h : run e lines sink batchSize memory = (ending, q)) (hending : ending.HadRoom) :
    HasRoom memory batchSize := by
  by_contra hnone
  obtain ⟨failure, hfailure, hrun⟩ := run_of_not_hasRoom hnone e lines sink
  obtain rfl : failure = ending := congrArg Prod.fst (hrun.symm.trans h)
  exact hfailure.elim hending.1 hending.2

/-- **The sizes of batches for which no room can be asked.** -/
theorem fst_run_eq_crashed_iff :
    (run e lines sink batchSize memory).1 = .crashed ↔ 2 ^ 58 ≤ batchSize := by
  refine ⟨fun h => ?_, fun h => congrArg Prod.fst (run_of_large h)⟩
  by_contra hsmall
  have hask : ¬ maxAllocation < batchBytes batchSize := mt maxAllocation_lt_iff.mp hsmall
  by_cases hmemory : memory < batchBytes batchSize
  · rw [run, if_neg hask, if_pos hmemory] at h
    cases h
  · exact (hadRoom_run ⟨Nat.not_lt.mp hask, Nat.not_lt.mp hmemory⟩).1 h

end RecordFilter.Pipeline

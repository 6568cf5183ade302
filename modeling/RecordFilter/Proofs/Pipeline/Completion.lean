import Mathlib
import RecordFilter.Proofs.Pipeline.BrokenLine
import RecordFilter.Proofs.Pipeline.Sequence

/-!
# When a run completes

A run comes to its end when all its lines are texts and its sink takes the lines that are kept. Then
the sink has taken just these lines. A sink that passes nothing on can be finished only when no line
has been kept.

* `filtered_of_flush`: what is settled to its end is filtered, whatever the sink;
* `complete_of_run`: what a run that has completed has read and taken;
* `exists_run_complete`: the runs that complete.
-/

namespace RecordFilter.Pipeline

variable {e : Evaluator}

/-! ## Settling -/

/-- **What is settled to its end is filtered**, whatever the sink. -/
theorem filtered_of_flush {ls : List NumberedLine} {p q : Progress}
    (h : flush e ls p = (.complete, q)) : Filtered e ls p q := by
  induction ls generalizing p with
  | nil =>
    cases h
    exact .nil e _
  | cons l ls ih =>
    rw [flush, List.map_cons, settleAll] at h
    split at h
    · next p' hp => exact (filtered_of_settle hp).append (ih h)
    · cases h

theorem exists_flush_of_accepted_nil {ls : List NumberedLine} (h : accepted e ls = [])
    (p : Progress) : ∃ q, flush e ls p = (.complete, q) := by
  induction ls generalizing p with
  | nil => exact ⟨p, rfl⟩
  | cons l ls ih =>
    obtain ⟨hl, hls⟩ := List.forall_mem_cons.mp (List.filter_eq_nil_iff.mp h)
    have hrest := List.filter_eq_nil_iff.mpr hls
    rw [flush, List.map_cons, settleAll]
    cases hrecord : Record.ofLine l.text with
    | none =>
      rw [verdict, hrecord]
      exact ih hrest _
    | some fields =>
      have hreject : e.accepts fields = false := by simpa [hrecord] using hl
      have hverdict : verdict e l.text = .reject := by simp [verdict, hrecord, hreject]
      rw [hverdict]
      exact ih hrest _

/-! ## Feeding -/

/-- Lines are all texts, or there is a first one that is not. -/
theorem texts_or_broken : ∀ lines : List (Option String),
    (∃ texts : List String, lines = texts.map some) ∨
      ∃ (texts : List String) (rest : List (Option String)), lines = texts.map some ++ none :: rest
  | [] => Or.inl ⟨[], rfl⟩
  | none :: rest => Or.inr ⟨[], rest, rfl⟩
  | some text :: lines => by
    rcases texts_or_broken lines with ⟨texts, rfl⟩ | ⟨texts, rest, rfl⟩
    · exact Or.inl ⟨text :: texts, rfl⟩
    · exact Or.inr ⟨text :: texts, rest, rfl⟩

/-- Only lines that are all texts are fed to their end. -/
theorem texts_of_feed {batchSize : Nat} (hpos : 0 < batchSize) {lines : List (Option String)}
    {number : Nat} {p q : Progress} (h : feed e batchSize lines number #[] p = (.complete, q)) :
    ∃ texts : List String, lines = texts.map some ∧
      flush e (nonblank number texts) p = (.complete, q) := by
  rcases texts_or_broken lines with ⟨texts, rfl⟩ | ⟨texts, rest, rfl⟩
  · rw [feed_texts] at h
    exact ⟨texts, rfl, h⟩
  · rw [feed_broken e texts rest number #[] hpos] at h
    split at h
    · cases h
    · next hfailed => exact absurd h (hfailed q)

/-! ## Runs -/

/-- **What a run that has completed has read and taken**: lines that are all texts, and of these the
ones that are kept. There was room for its batches. -/
theorem complete_of_run {lines : List (Option String)} {capacity : Capacity}
    {batchSize memory : Nat} {q : Progress}
    (h : run e lines (.empty capacity) batchSize memory = (.complete, q)) :
    HasRoom memory batchSize ∧ ∃ texts : List String, lines = texts.map some ∧
      q.sink.lines.toList = texts.filter (keeps e) ∧ q.sink.capacity = capacity ∧
      q.sink.canFinish = true := by
  have hpos : 0 < max batchSize 1 := by omega
  have hroom : HasRoom memory batchSize := hasRoom_of_run h ⟨nofun, nofun⟩
  refine ⟨hroom, ?_⟩
  rw [run_of_hasRoom hroom] at h
  cases hfeed : feed e (max batchSize 1) lines 1 #[] (.start (.empty capacity)) with
  | mk ending p =>
    rw [hfeed] at h
    cases ending with
    | complete =>
      rw [finish] at h
      obtain ⟨hending, rfl⟩ := Prod.mk.inj h
      have hfinish : p.sink.canFinish = true := by
        by_contra hunfinished
        rw [if_neg hunfinished] at hending
        cases hending
      obtain ⟨texts, rfl, hflush⟩ := texts_of_feed hpos hfeed
      have hfiltered := filtered_of_flush hflush
      exact ⟨texts, rfl, (lines_of_filtered hfiltered).1, hfiltered.capacity, hfinish⟩
    | _ => cases h

/-- **The runs that complete**: the lines are all texts, and the sink never fails or no line is
kept. What has been done by then does not depend on the size of batches. -/
theorem exists_run_complete {texts : List String} {capacity : Capacity}
    (h : capacity = .unlimited ∨ texts.filter (keeps e) = []) :
    ∃ q, q.sink.lines.toList = texts.filter (keeps e) ∧
      ∀ batchSize memory, HasRoom memory batchSize →
        run e (texts.map some) (.empty capacity) batchSize memory = (.complete, q) := by
  have hflush : ∃ q, flush e (nonblank 1 texts) (.start (.empty capacity)) = (.complete, q) := by
    rcases h with rfl | h
    · obtain ⟨q, hq, -⟩ := flush_filtered e (p := .start (.empty .unlimited)) rfl (nonblank 1 texts)
      exact ⟨q, hq⟩
    · rw [← map_text_accepted e 1, List.map_eq_nil_iff] at h
      exact exists_flush_of_accepted_nil h _
  obtain ⟨q, hq⟩ := hflush
  have hfiltered := filtered_of_flush hq
  have hlines := (lines_of_filtered hfiltered).1
  have hfinish : q.sink.canFinish = true := by
    have hcapacity : q.sink.capacity = capacity := hfiltered.capacity
    rw [Sink.canFinish, hcapacity]
    rcases h with rfl | h
    · rfl
    · have hempty : q.sink.lines.isEmpty = true := by
        rw [← Array.isEmpty_toList, hlines, h]
        rfl
      cases capacity with
      | unlimited => rfl
      | failsAt call => rfl
      | holds room => exact hempty
  exact ⟨q, hlines, fun batchSize memory hroom => run_of_flush hq hfinish hroom⟩

end RecordFilter.Pipeline

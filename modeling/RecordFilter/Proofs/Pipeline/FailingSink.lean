import Mathlib
import RecordFilter.Proofs.Pipeline.Completion

/-!
# A sink that fails

The sink is handed the accepted lines in their order, one with each call, and the first line that it
does not take ends the run. A sink that fails at its `k`-th call has therefore taken the `k - 1`
accepted lines before, and the run names the line of the `k`-th one; when there are fewer accepted
lines it is not called that often, and the run is the same as with a sink that never fails. How the
lines are collected into batches makes no difference to any of this.

* `flush_append`: flushing lines in parts;
* `exists_flush_of_lt`, `flush_of_full`: the calls that come before the failing one, and this one;
* `run_failing`: a run into a sink that fails at a call.
-/

namespace RecordFilter.Pipeline

variable {e : Evaluator}

/-! ## Calls that succeed -/

theorem flush_append (e : Evaluator) (ls ms : List NumberedLine) (p : Progress) :
    flush e (ls ++ ms) p =
      match flush e ls p with
      | (.complete, q) => flush e ms q
      | failed => failed := by
  rw [flush, List.map_append, settleAll_append]
  rfl

theorem accepted_cons (e : Evaluator) (l : NumberedLine) (ls : List NumberedLine) :
    accepted e (l :: ls) = accepted e [l] ++ accepted e ls := List.filter_append [l] ls

theorem accepted_singleton (e : Evaluator) (l : NumberedLine) :
    accepted e [l] = if verdict e l.text = .accept then [l] else [] := by
  cases hrecord : Record.ofLine l.text with
  | none => simp [accepted, verdict, hrecord]
  | some fields => cases haccepts : e.accepts fields <;> simp [accepted, verdict, hrecord, haccepts]

theorem Filtered.size_calls {ls : List NumberedLine} {p q : Progress} (h : Filtered e ls p q) :
    q.sink.calls.size = p.sink.calls.size + (accepted e ls).length := by
  rw [← Array.length_toList, h.calls, List.length_append, List.length_map, Array.length_toList]

/-- A line is settled when the sink does not fail at the call for it. -/
theorem exists_settle_of_lt {p : Progress} {k : Nat} (hsink : p.sink.capacity = .failsAt k)
    {l : NumberedLine} (h : p.sink.calls.size + (accepted e [l]).length < k) :
    ∃ q, p.settle l (verdict e l.text) = .ok q := by
  rw [accepted_singleton] at h
  cases hverdict : verdict e l.text with
  | reject => exact ⟨_, rfl⟩
  | skip => exact ⟨_, rfl⟩
  | accept =>
    rw [hverdict, if_pos rfl, List.length_singleton] at h
    have hrefuses : p.sink.refuses l.text = false := by
      simp only [Sink.refuses, hsink, decide_eq_false_iff_not]
      omega
    rw [Progress.settle, add_of_not_refuses hrefuses]
    exact ⟨_, rfl⟩

/-- **All verdicts are carried out when the failing call does not come.** -/
theorem exists_flush_of_lt {k : Nat} (ls : List NumberedLine) {p : Progress}
    (hsink : p.sink.capacity = .failsAt k)
    (h : p.sink.calls.size + (accepted e ls).length < k) :
    ∃ q, flush e ls p = (.complete, q) := by
  induction ls generalizing p with
  | nil => exact ⟨p, rfl⟩
  | cons l ls ih =>
    rw [accepted_cons, List.length_append] at h
    obtain ⟨q, hq⟩ := exists_settle_of_lt hsink (l := l) (e := e) (by omega)
    have hfiltered := filtered_of_settle hq
    have hsize := hfiltered.size_calls
    rw [flush, List.map_cons, settleAll, hq]
    exact ih (hfiltered.capacity.trans hsink) (by omega)

/-! ## The call that fails -/

/-- **The failing call ends the run**: the line is handed to the sink and is the last one. -/
theorem flush_of_full {p : Progress} (hsink : p.sink.capacity = .failsAt (p.sink.calls.size + 1))
    {l : NumberedLine} (hl : accepted e [l] = [l]) (ls : List NumberedLine) :
    ∃ q, flush e (l :: ls) p = (.unwritable l.number, q) ∧ q.sink.lines = p.sink.lines ∧
      q.sink.calls = p.sink.calls.push l.text := by
  have hverdict : verdict e l.text = .accept := by
    rw [accepted_singleton] at hl
    by_contra hother
    rw [if_neg hother] at hl
    cases hl
  have hrefuses : p.sink.refuses l.text = true := by simp [Sink.refuses, hsink]
  rw [flush, List.map_cons, settleAll, hverdict, Progress.settle, Sink.add, if_pos hrefuses]
  exact ⟨_, rfl, rfl, rfl⟩

/-- The lines up to an accepted one. -/
theorem exists_split_accepted {ls : List NumberedLine} {j : Nat}
    (h : j < (accepted e ls).length) :
    ∃ before after, ls = before ++ (accepted e ls)[j] :: after ∧
      accepted e before = (accepted e ls).take j ∧
      accepted e [(accepted e ls)[j]] = [(accepted e ls)[j]] := by
  have hparts : accepted e ls =
      (accepted e ls).take j ++ (accepted e ls)[j] :: (accepted e ls).drop (j + 1) := by
    rw [← List.drop_eq_getElem_cons h, List.take_append_drop]
  obtain ⟨first, last, hls, hfirst, hlast⟩ := List.filter_eq_append_iff.mp hparts
  obtain ⟨middle, after, hlast, hmiddle, hline, -⟩ := List.filter_eq_cons_iff.mp hlast
  refine ⟨first ++ middle, after, by rw [List.append_assoc, ← hlast, ← hls], ?_, ?_⟩
  · have hnone : accepted e middle = [] := List.filter_eq_nil_iff.mpr hmiddle
    rw [show accepted e (first ++ middle) = accepted e first ++ accepted e middle from
      List.filter_append .., hnone, List.append_nil]
    exact hfirst
  · exact List.filter_eq_self.mpr (by simpa using hline)

/-- **Up to the failing call** the accepted lines are handed to the sink in their order, and all of
them but the last are taken. -/
theorem flush_failing {ls : List NumberedLine} {j : Nat} (h : j < (accepted e ls).length) :
    ∃ q, flush e ls (.start (.empty (.failsAt (j + 1)))) =
        (.unwritable (accepted e ls)[j].number, q) ∧
      q.sink.output = written ((accepted e ls).take j) ∧
      q.sink.calls.toList = ((accepted e ls).take (j + 1)).map NumberedLine.text := by
  obtain ⟨before, after, hls, hbefore, hline⟩ := exists_split_accepted h
  have hlength : (accepted e before).length = j := by
    rw [hbefore, List.length_take_of_le (Nat.le_of_lt h)]
  have hroom : (Progress.start (.empty (.failsAt (j + 1)))).sink.calls.size +
      (accepted e before).length < j + 1 := by
    rw [hlength]
    show 0 + j < j + 1
    omega
  obtain ⟨q, hq⟩ := exists_flush_of_lt before rfl hroom
  have hfiltered := filtered_of_flush hq
  have hsize : q.sink.calls.size = j := by
    rw [hfiltered.size_calls, hlength]
    exact Nat.zero_add j
  have hcapacity : q.sink.capacity = .failsAt (q.sink.calls.size + 1) := by
    rw [hfiltered.capacity, hsize]
    rfl
  obtain ⟨r, hr, hlines, hcalls⟩ := flush_of_full hcapacity hline after
  refine ⟨r, ?_, ?_, ?_⟩
  · conv_lhs => rw [hls, flush_append, hq]
    exact hr
  · rw [Sink.output, hlines, ← Sink.output, output_of_filtered hfiltered, hbefore]
    rfl
  · rw [hcalls, Array.toList_push, hfiltered.calls, hbefore, ← List.take_append_getElem h,
      List.map_append]
    rfl

/-! ## Runs -/

/-- A run ends where the sink does not take a line, whatever the size of batches. -/
theorem run_of_flush_unwritable {texts : List String} {sink : Sink} {line : Nat} {q : Progress}
    (hflush : flush e (nonblank 1 texts) (.start sink) = (.unwritable line, q))
    {batchSize memory : Nat} (hroom : HasRoom memory batchSize) :
    run e (texts.map some) sink batchSize memory = (.unwritable line, q) := by
  rw [run_texts e texts sink hroom, hflush, finish]
  rintro p ⟨⟩

/-- What has been filtered does not depend on what the sink is able to do. -/
theorem Filtered.eq_of_start {ls : List NumberedLine} {c d : Capacity} {q r : Progress}
    (hq : Filtered e ls (.start (.empty c)) q) (hr : Filtered e ls (.start (.empty d)) r) :
    q.sink.output = r.sink.output ∧ q.tally = r.tally ∧ q.skipped = r.skipped := by
  refine ⟨(output_of_filtered hq).trans (output_of_filtered hr).symm, ?_, ?_⟩
  · obtain ⟨sink, ⟨read, matched, skipped⟩, numbers⟩ := q
    rw [Tally.mk.injEq]
    exact ⟨hq.read.trans hr.read.symm, hq.matched.trans hr.matched.symm,
      hq.skipped.trans hr.skipped.symm⟩
  · exact Array.toList_inj.mp (hq.numbers.trans hr.numbers.symm)

/-- **A failing sink stops the run at the right line**, whatever the size of batches, if there is
room for them. When the sink fails at its `k`-th call and at least `k` lines are accepted, it is
handed the first `k` of them and nothing else, has taken all but the last one, and the error names
the line of that one. When fewer are accepted, the run does the same as one into a sink that never
fails. -/
theorem run_failing (e : Evaluator) {input : Text.Bytes} {texts : List String}
    (hinput : Text.splitLines input = texts.map Text.encode) {k : Nat} (hk : 1 ≤ k) :
    (∀ h : k ≤ (accepted e (nonblank 1 texts)).length, ∃ ending q,
      ending = .unwritable (accepted e (nonblank 1 texts))[k - 1].number ∧
      ending.error? = some ("Pipeline: Failed writing line " ++
        ParseError.count (accepted e (nonblank 1 texts))[k - 1].number) ∧
      q.sink.output = written ((accepted e (nonblank 1 texts)).take (k - 1)) ∧
      q.sink.calls.toList =
        ((accepted e (nonblank 1 texts)).take k).map NumberedLine.text ∧
      ∀ batchSize memory, HasRoom memory batchSize →
        run e (textLines input) (.empty (.failsAt k)) batchSize memory = (ending, q)) ∧
    ((accepted e (nonblank 1 texts)).length < k → ∃ q r,
      q.sink.output = r.sink.output ∧ q.tally = r.tally ∧ q.skipped = r.skipped ∧
      q.sink.calls.toList = (accepted e (nonblank 1 texts)).map NumberedLine.text ∧
      ∀ batchSize memory, HasRoom memory batchSize →
        run e (textLines input) (.empty (.failsAt k)) batchSize memory = (.complete, q) ∧
        run e (textLines input) (.empty .unlimited) batchSize memory = (.complete, r)) := by
  obtain ⟨j, rfl⟩ : ∃ j, k = j + 1 := ⟨k - 1, by omega⟩
  constructor
  · intro h
    obtain ⟨q, hflush, houtput, hcalls⟩ := flush_failing h
    refine ⟨_, q, rfl, rfl, houtput, hcalls, fun batchSize memory hroom => ?_⟩
    rw [textLines_eq hinput]
    exact run_of_flush_unwritable hflush hroom
  · intro h
    have hcall : (Progress.start (.empty (.failsAt (j + 1)))).sink.calls.size +
        (accepted e (nonblank 1 texts)).length < j + 1 := by
      show 0 + _ < j + 1
      omega
    obtain ⟨q, hflush⟩ := exists_flush_of_lt (nonblank 1 texts) rfl hcall
    have hfiltered := filtered_of_flush hflush
    have hfinish : q.sink.canFinish = true := by
      rw [Sink.canFinish, hfiltered.capacity]
      rfl
    obtain ⟨r, hr, hunlimited⟩ := exists_completes e hinput
    obtain ⟨houtput, htally, hskipped⟩ := hfiltered.eq_of_start hunlimited
    refine ⟨q, r, houtput, htally, hskipped, hfiltered.calls,
      fun batchSize memory hroom => ⟨?_, hr batchSize memory hroom⟩⟩
    rw [textLines_eq hinput]
    exact run_of_flush hflush hfinish hroom

/-- Of five lines the first and the last are accepted. The second call fails at the fifth line, and
a third one does not come. -/
theorem run_failing_second :
    Text.splitLines sampleInput = sampleTexts.map Text.encode ∧ 1 ≤ 2 ∧ 1 ≤ 3 ∧
      (∃ q, q.sink.output = Text.encode "\x7b\"a\":1\x7d\n" ∧ q.sink.calls.size = 2 ∧
        ∀ batchSize memory, HasRoom memory batchSize →
          run sampleEvaluator (textLines sampleInput) (.empty (.failsAt 2)) batchSize memory =
            (.unwritable 5, q)) ∧
      ∃ q, q.sink.output = Text.encode "\x7b\"a\":1\x7d\n\x7b\"a\":1.0\x7d\n" ∧
        ∀ batchSize memory, HasRoom memory batchSize →
          run sampleEvaluator (textLines sampleInput) (.empty (.failsAt 3)) batchSize memory =
            (.complete, q) := by
  have hlength : (accepted sampleEvaluator (nonblank 1 sampleTexts)).length = 2 := by
    rw [accepted_sample]
    rfl
  refine ⟨splitLines_sampleInput, by decide, by decide, ?_, ?_⟩
  · obtain ⟨ending, q, rfl, -, houtput, hcalls, hrun⟩ :=
      (run_failing sampleEvaluator splitLines_sampleInput (k := 2) (by decide)).1
        (Nat.le_of_eq hlength.symm)
    simp only [accepted_sample] at houtput hcalls hrun
    refine ⟨q, houtput.trans (by decide), ?_, hrun⟩
    rw [← Array.length_toList, hcalls]
    rfl
  · obtain ⟨q, r, houtput, -, -, -, hrun⟩ :=
      (run_failing sampleEvaluator splitLines_sampleInput (k := 3) (by decide)).2 (by omega)
    obtain ⟨r', hr', hfiltered⟩ := exists_completes sampleEvaluator splitLines_sampleInput
    obtain ⟨-, hunlimited⟩ := hrun 1 maxAllocation hasRoom_one
    obtain rfl : r' = r :=
      congrArg Prod.snd ((hr' 1 maxAllocation hasRoom_one).symm.trans hunlimited)
    refine ⟨q, ?_, fun batchSize memory hroom => (hrun batchSize memory hroom).1⟩
    rw [houtput, output_of_filtered hfiltered, accepted_sample]
    decide

/-- In batches for which no room can be asked the sink is not called at all, whether two lines are
accepted or none is, and the run does not come to its end. -/
theorem run_failing_without_room :
    Text.splitLines sampleInput = sampleTexts.map Text.encode ∧
      (accepted sampleEvaluator (nonblank 1 sampleTexts)).map NumberedLine.number = [1, 5] ∧
      accepted sampleEvaluator (nonblank 1 ["x"]) = [] ∧
      ∀ input k memory, ∃ q,
        run sampleEvaluator (textLines input) (.empty (.failsAt k)) (2 ^ 58) memory =
          (.crashed, q) ∧
        Ending.crashed.error? = none ∧ q.sink.calls = #[] := by
  refine ⟨splitLines_sampleInput, ?_, ?_,
    fun input k memory => ⟨_, run_of_large (Nat.le_refl _), rfl, rfl⟩⟩
  · rw [accepted_sample]
    rfl
  · exact List.length_eq_zero_iff.mp (by decide)

end RecordFilter.Pipeline

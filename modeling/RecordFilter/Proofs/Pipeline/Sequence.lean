import Mathlib
import RecordFilter.Proofs.Grammar.Composition
import RecordFilter.Proofs.Json.TrailingSpace
import RecordFilter.Proofs.Pipeline.LineFilter
import RecordFilter.Proofs.Text.Encoded

/-!
# Runs one after the other

What a run has written can be the input of another run. Every line is read back with the record
that it holds, since all it may lose is a carriage return at its end, which is white space to the
reader of records; and no line that holds a record is blank. So the second run reads what the first
one has matched and skips none of it, and both together keep the lines that both conditions keep,
which is what one run with the join of the conditions does.

* `ofLine_withoutReturn`: a carriage return at the end of a line belongs to no record;
* `completes_after`: a run on what another run has written;
* `run_sequence`: two runs in sequence against one run with both expressions.
-/

namespace RecordFilter

/-! ## Records -/

namespace Record

theorem ofLine_withoutReturn (line : String) :
    ofLine (Text.withoutReturn line) = ofLine line := by
  rcases Text.eq_empty_or_concat line with rfl | ⟨cs, c, rfl⟩
  · rfl
  · rw [Text.withoutReturn_concat]
    split
    · next hc =>
      subst hc
      rw [ofLine, ofLine, String.toList_ofList, String.toList_ofList, Json.parse?_concat rfl]
    · rfl

theorem ofLine_blank {line : String} (h : Text.isBlankText line.toList = true) :
    ofLine line = none := by
  rw [ofLine, Json.parse?_blank h]

end Record

namespace Pipeline

/-! ## Lines -/

/-- The line holds a record which the evaluator accepts. -/
def keeps (e : Evaluator) (line : String) : Bool := (Record.ofLine line).any e.accepts

theorem keeps_withoutReturn (e : Evaluator) (line : String) :
    keeps e (Text.withoutReturn line) = keeps e line := by
  rw [keeps, Record.ofLine_withoutReturn, keeps]

theorem not_blank_of_keeps {e : Evaluator} {line : String} (h : keeps e line = true) :
    Text.isBlankText line.toList = false := by
  by_contra hblank
  rw [Bool.not_eq_false] at hblank
  rw [keeps, Record.ofLine_blank hblank] at h
  cases h

theorem isSome_of_keeps {e : Evaluator} {line : String} (h : keeps e line = true) :
    (Record.ofLine line).isNone = false := by
  rw [keeps] at h
  cases hrecord : Record.ofLine line with
  | none =>
    rw [hrecord] at h
    cases h
  | some fields => rfl

theorem map_text_numbered (first : Nat) (texts : List String) :
    (numbered first texts).map NumberedLine.text = texts := by
  rw [numbered, List.map_map]
  exact List.zipIdx_map_fst first texts

theorem map_text_accepted (e : Evaluator) (first : Nat) (texts : List String) :
    (accepted e (nonblank first texts)).map NumberedLine.text = texts.filter (keeps e) := by
  have haccepted : accepted e (nonblank first texts) =
      (numbered first texts).filter (keeps e ∘ NumberedLine.text) := by
    rw [accepted, nonblank, List.filter_filter]
    refine List.filter_congr fun l _ => ?_
    show (keeps e l.text && !Text.isBlankText l.text.toList) = keeps e l.text
    cases hkeeps : keeps e l.text with
    | false => rfl
    | true => rw [not_blank_of_keeps hkeeps, Bool.true_and, Bool.not_false]
  rw [haccepted, ← List.filter_map, map_text_numbered]

/-- All lines count that are kept by some evaluator. -/
theorem nonblank_of_keeps {e : Evaluator} {texts : List String}
    (h : ∀ line ∈ texts, keeps e line = true) (first : Nat) :
    nonblank first texts = numbered first texts ∧ recordless (nonblank first texts) = [] := by
  have hmem : ∀ l ∈ numbered first texts, keeps e l.text = true := by
    intro l hl
    refine h _ ?_
    rw [← map_text_numbered first texts]
    exact List.mem_map_of_mem hl
  have hnonblank : nonblank first texts = numbered first texts :=
    List.filter_eq_self.mpr fun l hl => by simp [not_blank_of_keeps (hmem l hl)]
  refine ⟨hnonblank, List.filter_eq_nil_iff.mpr fun l hl => ?_⟩
  rw [hnonblank] at hl
  simp [isSome_of_keeps (hmem l hl)]

/-! ## Runs -/

/-- The run over the file comes to its end, whatever the size of batches for which there is room. -/
def Completes (e : Evaluator) (input : Text.Bytes) (q : Progress) : Prop :=
  ∀ batchSize memory, HasRoom memory batchSize →
    run e (textLines input) (.empty .unlimited) batchSize memory = (.complete, q)

theorem Completes.progress_eq {e : Evaluator} {input : Text.Bytes} {q : Progress}
    (h : Completes e input q) : (run e (textLines input) (.empty .unlimited) 1).2 = q :=
  congrArg Prod.snd (h 1 maxAllocation hasRoom_one)

theorem exists_completes (e : Evaluator) {input : Text.Bytes} {texts : List String}
    (hinput : Text.splitLines input = texts.map Text.encode) :
    ∃ q, Completes e input q ∧ Filtered e (nonblank 1 texts) (.start (.empty .unlimited)) q :=
  exists_run_filtered e hinput rfl

theorem lines_of_filtered {e : Evaluator} {texts : List String} {capacity : Capacity} {q : Progress}
    (h : Filtered e (nonblank 1 texts) (.start (.empty capacity)) q) :
    q.sink.lines.toList = texts.filter (keeps e) ∧
      q.tally.matched = (texts.filter (keeps e)).length := by
  have hmatched : q.tally.matched = 0 + (accepted e (nonblank 1 texts)).length := h.matched
  constructor
  · rw [h.lines, map_text_accepted]
    rfl
  · rw [hmatched, ← map_text_accepted e 1, List.length_map, Nat.zero_add]

/-- **A run on what another run has written** reads all of it, skips nothing, and keeps the lines
that both evaluators keep, each without a carriage return at its end. -/
theorem completes_after (e₁ e₂ : Evaluator) {input : Text.Bytes} {texts : List String}
    (hinput : Text.splitLines input = texts.map Text.encode)
    (htexts : ∀ line ∈ texts, '\n' ∉ line.toList) :
    ∃ q₁ q₂, Completes e₁ input q₁ ∧ Completes e₂ q₁.sink.output q₂ ∧
      q₁.sink.lines.toList = texts.filter (keeps e₁) ∧
      q₁.tally.matched = (texts.filter (keeps e₁)).length ∧
      q₂.sink.lines.toList =
        (texts.filter fun line => keeps e₂ line && keeps e₁ line).map Text.withoutReturn ∧
      q₂.tally = ⟨q₁.tally.matched,
        (texts.filter fun line => keeps e₂ line && keeps e₁ line).length, 0⟩ := by
  obtain ⟨q₁, hq₁, hfiltered₁⟩ := exists_completes e₁ hinput
  obtain ⟨hlines₁, hmatched₁⟩ := lines_of_filtered hfiltered₁
  have hwritten : Text.splitLines q₁.sink.output =
      ((texts.filter (keeps e₁)).map Text.withoutReturn).map Text.encode := by
    rw [Sink.output, hlines₁]
    exact Text.splitLines_encodeLine fun line hline => htexts line (List.mem_of_mem_filter hline)
  have hkept : ∀ line ∈ (texts.filter (keeps e₁)).map Text.withoutReturn,
      keeps e₁ line = true := by
    refine List.forall_mem_map.mpr fun line hline => ?_
    rw [keeps_withoutReturn]
    exact (List.mem_filter.mp hline).2
  obtain ⟨hnonblank, hrecordless⟩ := nonblank_of_keeps hkept 1
  obtain ⟨q₂, hq₂, hfiltered₂⟩ := exists_completes e₂ hwritten
  obtain ⟨hlines₂, hmatched₂⟩ := lines_of_filtered hfiltered₂
  have hboth : ((texts.filter (keeps e₁)).map Text.withoutReturn).filter (keeps e₂) =
      (texts.filter fun line => keeps e₂ line && keeps e₁ line).map Text.withoutReturn := by
    rw [List.filter_map, List.filter_filter]
    refine congrArg (List.map Text.withoutReturn) (List.filter_congr fun line _ => ?_)
    rw [Function.comp_apply, keeps_withoutReturn]
  have hread : q₂.tally.read = q₁.tally.matched := by
    have hread : q₂.tally.read = 0 + (nonblank 1 _).length := hfiltered₂.read
    rw [hread, hnonblank, hmatched₁, Nat.zero_add, ← List.length_map NumberedLine.text,
      map_text_numbered, List.length_map]
  have hskipped : q₂.tally.skipped = 0 := by
    have hskipped : q₂.tally.skipped = 0 + (recordless (nonblank 1 _)).length :=
      hfiltered₂.skipped
    rw [hskipped, hrecordless]
    rfl
  rw [hboth, List.length_map] at hmatched₂
  refine ⟨q₁, q₂, hq₁, hq₂, hlines₁, hmatched₁, hlines₂.trans hboth, ?_⟩
  rw [← hread, ← hmatched₂, ← hskipped]

/-! ## Sequences of expressions -/

section Sequence

open Grammar (OpensAtMost connected parenthesised)

variable {ignoreCase : Bool} {e₁ e₂ : String} {c₁ c₂ : Condition}

theorem compile_of_parse {text : String} {c : Condition}
    (h : Condition.parse ignoreCase text = .ok (some c)) :
    Evaluator.compile ignoreCase text = .ok ⟨ignoreCase, some c, none⟩ := by
  rw [Evaluator.compile, h]

theorem keeps_join (line : String) :
    keeps ⟨ignoreCase, some (.join .and c₁ c₂), none⟩ line =
      (keeps ⟨ignoreCase, some c₂, none⟩ line && keeps ⟨ignoreCase, some c₁, none⟩ line) := by
  rw [keeps, keeps, keeps]
  cases Record.ofLine line with
  | none => rfl
  | some fields => exact Bool.and_comm _ _

/-- **Filtering in sequence is filtering by the conjunction.** The run of the second expression on
what the run of the first has written matches as many records as one run of both expressions in
parentheses with `and` between them, and takes the same lines, each without a carriage return at its
end. It reads just the records that the first run has matched and skips none. And a filter keeps
every record when it is run again on what it has written. All this goes for all sizes of batches for
which there is room. -/
theorem run_sequence (h₁ : Condition.parse ignoreCase e₁ = .ok (some c₁))
    (h₂ : Condition.parse ignoreCase e₂ = .ok (some c₂))
    (hrelations : c₁.relations + c₂.relations ≤ maxRelations)
    (hopen₁ : OpensAtMost (maxNesting - 1) (TokenList.ofText e₁.toList ignoreCase).tokens)
    (hopen₂ : OpensAtMost (maxNesting - 1) (TokenList.ofText e₂.toList ignoreCase).tokens)
    (text : String) :
    (∃ f₁ f₂ f q₁ q₂ q,
      Evaluator.compile ignoreCase e₁ = .ok f₁ ∧ Evaluator.compile ignoreCase e₂ = .ok f₂ ∧
      Evaluator.compile ignoreCase (connected .and (parenthesised e₁) (parenthesised e₂)) = .ok f ∧
      Completes f₁ (Text.encode text) q₁ ∧ Completes f₂ q₁.sink.output q₂ ∧
      Completes f (Text.encode text) q ∧
      q₂.tally = ⟨q₁.tally.matched, q.tally.matched, 0⟩ ∧
      q₂.sink.lines.toList = q.sink.lines.toList.map Text.withoutReturn) ∧
    ∀ f : Evaluator, ∃ q r, Completes f (Text.encode text) q ∧ Completes f q.sink.output r ∧
      r.tally = ⟨q.tally.matched, q.tally.matched, 0⟩ ∧
      r.sink.lines.toList = q.sink.lines.toList.map Text.withoutReturn := by
  obtain ⟨texts, hinput, htexts⟩ := Text.exists_lines text
  constructor
  · obtain ⟨q₁, q₂, hq₁, hq₂, -, -, hlines₂, htally₂⟩ := completes_after
      ⟨ignoreCase, some c₁, none⟩ ⟨ignoreCase, some c₂, none⟩ hinput htexts
    obtain ⟨q, hq, hfiltered⟩ :=
      exists_completes ⟨ignoreCase, some (.join .and c₁ c₂), none⟩ hinput
    obtain ⟨hlines, hmatched⟩ := lines_of_filtered hfiltered
    rw [List.filter_congr fun line _ => keeps_join line] at hlines hmatched
    rw [← hmatched] at htally₂
    rw [← hlines] at hlines₂
    have hjoin := Grammar.parse_grouped h₁ h₂ hrelations hopen₁ hopen₂ .and
    exact ⟨_, _, _, q₁, q₂, q, compile_of_parse h₁, compile_of_parse h₂, compile_of_parse hjoin,
      hq₁, hq₂, hq, htally₂, hlines₂⟩
  · intro f
    obtain ⟨q, r, hq, hr, hlines, hmatched, hlines', htally'⟩ := completes_after f f hinput htexts
    simp only [Bool.and_self] at hlines' htally'
    exact ⟨q, r, hq, hr, hmatched ▸ htally', hlines ▸ hlines'⟩

/-- A line that ends with a carriage return more than it needs, a blank one, one without a record,
and two more records. -/
def sequenceText : String :=
  "\x7b\"a\":1,\"c\":1\x7d\r\r\n \nx\n\x7b\"b\":2,\"c\":0\x7d\n\x7b\"b\":2,\"c\":5\x7d"

/-- The first run matches three of four lines and the second one two of these three; the carriage
return is left only in what one run has written. -/
theorem run_sequence_sample :
    let c₁ := Condition.join .or (.relation .eq "a" (.integer 1)) (.relation .eq "b" (.integer 2))
    let c₂ := Condition.relation .gt "c" (.integer 0)
    let e₁ := "a 1 or b 2"
    let e₂ := "c > 0"
    Condition.parse false e₁ = .ok (some c₁) ∧ Condition.parse false e₂ = .ok (some c₂) ∧
    ∃ f₁ f₂ f q₁ q₂ q,
      Evaluator.compile false e₁ = .ok f₁ ∧ Evaluator.compile false e₂ = .ok f₂ ∧
      Evaluator.compile false (connected .and (parenthesised e₁) (parenthesised e₂)) = .ok f ∧
      Completes f₁ (Text.encode sequenceText) q₁ ∧ Completes f₂ q₁.sink.output q₂ ∧
      Completes f (Text.encode sequenceText) q ∧
      q₁.tally = ⟨4, 3, 1⟩ ∧ q₂.tally = ⟨3, 2, 0⟩ ∧ q.tally = ⟨4, 2, 1⟩ ∧
      q.sink.lines.toList =
        ["\x7b\"a\":1,\"c\":1\x7d\r", "\x7b\"b\":2,\"c\":5\x7d"] ∧
      q₂.sink.lines.toList = ["\x7b\"a\":1,\"c\":1\x7d", "\x7b\"b\":2,\"c\":5\x7d"] := by
  intro c₁ c₂ e₁ e₂
  have h₁ : Condition.parse false e₁ = .ok (some c₁) := by decide
  have h₂ : Condition.parse false e₂ = .ok (some c₂) := by decide
  have hjoin : Condition.parse false (connected .and (parenthesised e₁) (parenthesised e₂)) =
      .ok (some (.join .and c₁ c₂)) := by decide +kernel
  have hopen₁ : OpensAtMost (maxNesting - 1) (TokenList.ofText e₁.toList false).tokens := by
    decide
  have hopen₂ : OpensAtMost (maxNesting - 1) (TokenList.ofText e₂.toList false).tokens := by
    decide
  obtain ⟨⟨f₁, f₂, f, q₁, q₂, q, hf₁, hf₂, hf, hq₁, hq₂, hq, htally, hlines⟩, -⟩ :=
    run_sequence h₁ h₂ (by decide) hopen₁ hopen₂ sequenceText
  refine ⟨h₁, h₂, f₁, f₂, f, q₁, q₂, q, hf₁, hf₂, hf, hq₁, hq₂, hq, ?_⟩
  obtain rfl := Except.ok.inj ((compile_of_parse h₁).symm.trans hf₁)
  obtain rfl := Except.ok.inj ((compile_of_parse hjoin).symm.trans hf)
  have htally₁ : q₁.tally = ⟨4, 3, 1⟩ := by
    rw [← hq₁.progress_eq]
    decide +kernel
  have hrun : q.tally = ⟨4, 2, 1⟩ ∧ q.sink.lines.toList =
      ["\x7b\"a\":1,\"c\":1\x7d\r", "\x7b\"b\":2,\"c\":5\x7d"] := by
    rw [← hq.progress_eq]
    decide +kernel
  refine ⟨htally₁, ?_, hrun.1, hrun.2, ?_⟩
  · rw [htally, htally₁, hrun.1]
  · rw [hlines, hrun.2]
    decide

/-- A record that is kept, and is all that is written, in batches of one line; the filter keeps
nothing of what it has written when it is run again in batches for which no room can be asked. -/
theorem run_sequence_without_room :
    let c := Condition.relation .eq "a" (.integer 1)
    let f : Evaluator := ⟨false, some c, none⟩
    let text := "\x7b\"a\":1\x7d\n"
    Condition.parse false "a 1" = .ok (some c) ∧ Evaluator.compile false "a 1" = .ok f ∧
      c.relations + c.relations ≤ maxRelations ∧
      OpensAtMost (maxNesting - 1) (TokenList.ofText "a 1".toList false).tokens ∧
      (∃ q, run f (textLines (Text.encode text)) (.empty .unlimited) 1 = (.complete, q) ∧
        q.sink.output = Text.encode text ∧ q.tally = ⟨1, 1, 0⟩) ∧
      ∀ memory, ∃ r,
        run f (textLines (Text.encode text)) (.empty .unlimited) (2 ^ 58) memory = (.crashed, r) ∧
        r.sink.output = [] ∧ r.tally = ⟨0, 0, 0⟩ := by
  intro c f text
  have hparse : Condition.parse false "a 1" = .ok (some c) := by decide
  have hopen : OpensAtMost (maxNesting - 1) (TokenList.ofText "a 1".toList false).tokens := by
    decide
  have hinput : Text.splitLines (Text.encode text) = ["\x7b\"a\":1\x7d"].map Text.encode := by
    decide
  obtain ⟨q, hq, -⟩ := exists_completes f hinput
  have hkept : q.sink.output = Text.encode text ∧ q.tally = ⟨1, 1, 0⟩ := by
    rw [← hq.progress_eq]
    decide +kernel
  exact ⟨hparse, compile_of_parse hparse, by decide, hopen,
    ⟨q, hq 1 maxAllocation hasRoom_one, hkept⟩,
    fun memory => ⟨_, run_of_large (Nat.le_refl _), rfl, rfl⟩⟩

end Sequence

end Pipeline

end RecordFilter

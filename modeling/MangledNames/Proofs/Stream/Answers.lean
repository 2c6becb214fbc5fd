import MangledNames.Proofs.Line.Answers
import MangledNames.Proofs.Stream.Reading

/-!
# What a filter sees of the answers

A filter asks about the candidates of the lines that it reads, in each line apart. Two demanglers
that find the same names for these lead it through the same states, whatever faults it meets on the
way: it writes the same bytes and counts the same lines and names. Only the records of candidates
without a name show which demangler it was, if they fail in different ways (`filter_of_same_names`).

What is read of a steady source are the lines of its bytes, and a newline is in no candidate. So the
candidates of its lines are the ones of all its bytes (`sameNames_content_iff`).
-/

namespace MangledNames

/-- The same record, or for the same candidate another failure. -/
inductive LogRecord.Alike : LogRecord → LogRecord → Prop where
  | same (record : LogRecord) : Alike record record
  | leftAsIs (candidate : String) (failure other : Failure) :
      Alike (.leftAsIs candidate failure) (.leftAsIs candidate other)

namespace Stream

variable {demangler other : Demangler}

theorem alike_leftAsIs {attempt found : Line.Attempt} (halike : attempt.Alike found) :
    Option.Rel LogRecord.Alike (leftAsIs attempt) (leftAsIs found) := by
  obtain ⟨candidate, answer⟩ := attempt
  obtain ⟨_, foundAnswer⟩ := found
  obtain ⟨rfl, hname⟩ := halike
  cases answer with
  | ok name =>
      cases foundAnswer with
      | ok foundName => exact .none
      | error failure => cases hname
  | error failure =>
      cases foundAnswer with
      | ok foundName => cases hname
      | error reason => exact .some (.leftAsIs _ failure reason)

theorem alike_loggedFor {bytes : List UInt8}
    (hnames : Line.SameNames demangler other (withoutNewline bytes)) :
    List.Forall₂ LogRecord.Alike (loggedFor demangler bytes) (loggedFor other bytes) := by
  have hrecords : Relator.LiftFun Line.Attempt.Alike (Option.Rel LogRecord.Alike)
      leftAsIs leftAsIs := fun _ _ => alike_leftAsIs
  exact List.rel_filterMap hrecords hnames.alike_attempts

theorem sameNames_content_iff (content : List UInt8) :
    Line.SameNames demangler other content ↔
      ∀ bytes ∈ lines content, Line.SameNames demangler other (withoutNewline bytes) := by
  rw [Line.sameNames_iff, ← flatMap_attempts_lines]
  simp only [List.mem_flatMap, Line.sameNames_iff]
  exact ⟨fun hall bytes hbytes attempt hattempt => hall attempt ⟨bytes, hbytes, hattempt⟩,
    fun hall attempt ⟨bytes, hbytes, hattempt⟩ => hall bytes hbytes attempt hattempt⟩

theorem filter_alike {σ : Type} [Output σ] (brackets : Bool) {source : Source}
    (hnames : ∀ bytes ∈ source.read.1, Line.SameNames demangler other (withoutNewline bytes))
    (output : σ) :
    (filter demangler brackets source output).Agree LogRecord.Alike
      (filter other brackets source output) := by
  rw [filter_eq_filterLines, filter_eq_filterLines]
  refine filterLines_agree .same brackets source.read.2 ?_ ⟨0, 0⟩ output .nil
  intro bytes hbytes
  have hsame := hnames bytes hbytes
  refine ⟨?_, ?_, alike_loggedFor hsame⟩
  · rw [writtenLine, writtenLine, hsame.rewritten_eq]
  · rw [namesIn, namesIn, hsame.translated_eq]

/-- **Only the names of the candidates matter.** Two demanglers that find the same names for the
candidates of a line lead to the same segments and count, to the same questions, and to the same
bytes behind any buffer. If they do so for every line that is read, a filter has the same result and
output with both, whether or not reading and writing go well, and its records differ in the failures
of candidates at most. The candidates of what is read of a steady source are those of its bytes. -/
theorem filter_of_same_names (demangler other : Demangler) :
    (∀ line, Line.SameNames demangler other line →
      (Line.scan other line).segments = (Line.scan demangler line).segments ∧
        (Line.scan other line).translated = (Line.scan demangler line).translated ∧
        List.Forall₂ Line.Attempt.Alike (Line.scan demangler line).attempts
          (Line.scan other line).attempts ∧
        ∀ brackets buffer, (Line.scan other line).appendTo line brackets buffer =
          (Line.scan demangler line).appendTo line brackets buffer) ∧
      (∀ {σ : Type} [Output σ] (brackets : Bool) (source : Source) (output : σ),
        (∀ bytes ∈ source.read.1, Line.SameNames demangler other (withoutNewline bytes)) →
        (filter demangler brackets source output).Agree LogRecord.Alike
          (filter other brackets source output)) ∧
      ∀ source : Source, source.Steady → Line.SameNames demangler other source.content →
        ∀ bytes ∈ source.read.1, Line.SameNames demangler other (withoutNewline bytes) := by
  refine ⟨?_, ?_, ?_⟩
  · intro line hnames
    refine ⟨hnames.segments_eq, hnames.translated_eq, hnames.alike_attempts, ?_⟩
    intro brackets buffer
    rw [Line.Scan.appendTo, Line.Scan.appendTo, hnames.segments_eq]
  · intro σ _ brackets source output hnames
    exact filter_alike brackets hnames output
  · intro source hsteady hnames
    rw [read_of_steady hsteady]
    exact (sameNames_content_iff source.content).mp hnames

/-- The demanglers disagree on `_Zx`, which stands in the first line behind another underscore and is
no candidate, and on why `_Zg` has no name. -/
theorem filter_of_same_names_behind_pair :
    let fussy : Demangler := fun symbol =>
      if symbol = "_Zx" then .ok "x" else
        if symbol = "_Zf" then .ok "f()" else .error .outOfMemory
    let source : Source := ⟨Text.utf8 "__Zx _Z", [.bytes (Text.utf8 "f\n_Zg")]⟩
    let run := filter (Line.knowing "_Zf" "f()") true source (Sink.new [.accept 3] none)
    let other := filter fussy true source (Sink.new [.accept 3] none)
    Line.SameNames (Line.knowing "_Zf" "f()") fussy source.content ∧ source.Steady ∧
      other.result = run.result ∧ other.output = run.output ∧
      run.log = #[.lineWritten 1 1, .leftAsIs "_Zg" .invalidName, .lineWritten 2 0] ∧
      other.log = #[.lineWritten 1 1, .leftAsIs "_Zg" .outOfMemory, .lineWritten 2 0] := by
  intro fussy source run other
  have hsteady : source.Steady := trivial
  have hnames : Line.SameNames (Line.knowing "_Zf" "f()") fussy source.content := by
    unfold Line.SameNames
    decide +kernel
  obtain ⟨-, hfilter, hlines⟩ := filter_of_same_names (Line.knowing "_Zf" "f()") fussy
  have hagree := hfilter true source (Sink.new [.accept 3] none) (hlines source hsteady hnames)
  exact ⟨hnames, hsteady, hagree.result_eq, hagree.output_eq, by decide +kernel, by decide +kernel⟩

end Stream

end MangledNames

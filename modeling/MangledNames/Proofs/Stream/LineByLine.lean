import Mathlib.Data.List.Infix
import MangledNames.Proofs.Stream.Accepted
import MangledNames.Proofs.Text.Ascii

/-!
# One line out for each line in

Scanning a line without a newline writes no newline either: bytes that are kept are those of the
line, brackets are none, and a name has one only if its text has (`newline_not_mem_rewritten`). So
the lines of what a filter writes are the texts that it writes, one for each line that it reads
(`lines_flatten_writtenTexts`), and each of them is what comes out for its line alone
(`filter_line_by_line`).

A filter may hold a line and its text in buffers that serve for all lines. They are empty when they
are filled, so what is left in them from the line before does not matter (`filterReusing_eq`).
-/

namespace MangledNames.Stream

open Text (utf8)

theorem newline_lt : newline < 128 := by decide

theorem newline_not_mem_withoutNewline {content bytes : List UInt8} (hmem : bytes ∈ lines content) :
    newline ∉ withoutNewline bytes := by
  induction content using lines_induction with
  | nil => cases hmem
  | last body hbody hnewline =>
      rw [lines_of_not_mem hbody hnewline, List.mem_singleton] at hmem
      rwa [hmem, withoutNewline_of_not_mem hnewline]
  | line body rest hnewline ih =>
      rw [lines_append_newline hnewline, List.mem_cons] at hmem
      rcases hmem with rfl | hmem
      · rwa [withoutNewline_append_newline]
      · exact ih hmem

/-- Texts with one newline each, at the end, are lines. -/
theorem lines_flatten_append_newline {bodies : List (List UInt8)}
    (hbodies : ∀ body ∈ bodies, newline ∉ body) :
    lines (bodies.map (· ++ [newline])).flatten = bodies.map (· ++ [newline]) := by
  induction bodies with
  | nil => rfl
  | cons body bodies ih =>
      rw [List.forall_mem_cons] at hbodies
      rw [List.map_cons, List.flatten_cons, List.append_assoc, List.singleton_append,
        lines_append_newline hbodies.1, ih hbodies.2]

theorem not_lacksNewline_iff {content : List UInt8} :
    ¬LacksNewline content ↔ content = [] ∨ content.getLast? = some newline := by
  rw [LacksNewline, Classical.not_and_iff_not_or_not, not_not, not_not]

theorem count_newline_of_not_lacks {content : List UInt8} (hends : ¬LacksNewline content) :
    content.count newline = (lines content).length := by
  rw [length_lines, if_neg hends, Nat.add_zero]

theorem not_lacksNewline_flatten (bodies : List (List UInt8)) :
    ¬LacksNewline (bodies.map (· ++ [newline])).flatten := by
  induction bodies with
  | nil => exact fun hlacks => hlacks.1 rfl
  | cons body bodies ih =>
      rwa [List.map_cons, List.flatten_cons, List.append_assoc, List.singleton_append,
        lacksNewline_append_newline]

section

variable {demangler : Demangler} (brackets : Bool)

theorem newline_not_mem_rewritten
    (hnames : ∀ symbol name, demangler symbol = .ok name → '\n' ∉ name.toList)
    {line : List UInt8} (hline : newline ∉ line) :
    newline ∉ Line.rewritten demangler brackets line := by
  rw [← Line.flatMap_bytes_pieces line] at hline
  rw [Line.rewritten_eq]
  intro hmem
  obtain ⟨piece, hpiece, hmem⟩ := List.mem_flatMap.mp hmem
  cases htranslated : piece.isTranslated demangler with
  | false =>
      rw [Line.Piece.written_of_not_translated htranslated] at hmem
      exact hline (List.mem_flatMap.mpr ⟨piece, hpiece, hmem⟩)
  | true =>
      obtain ⟨_, name, -, hname, hwritten⟩ := Line.Piece.written_of_translated htranslated
      have hopen : newline ≠ '['.toUInt8 := by decide
      have hclose : newline ≠ ']'.toUInt8 := by decide
      have hin : newline ∈ utf8 name := by
        rw [hwritten] at hmem
        cases brackets with
        | false => exact hmem
        | true => simpa [Line.bracketed, hopen, hclose] using hmem
      have hwithin := Text.map_isInfix_of_utf8 (List.cons_ne_nil _ _)
        (List.forall_mem_singleton.mpr newline_lt) ((List.singleton_infix_iff _ _).mpr hin)
      exact hnames _ _ hname ((List.singleton_infix_iff _ _).mp hwithin)

/-- The lines of a text without their newlines. -/
def bodies (content : List UInt8) : List (List UInt8) := (lines content).map withoutNewline

variable (demangler) in
theorem writtenTexts_of_steady {source : Source} (hsource : source.Steady) :
    writtenTexts demangler brackets source =
      ((bodies source.content).map (Line.rewritten demangler brackets)).map (· ++ [newline]) := by
  rw [writtenTexts, read_of_steady hsource, bodies, List.map_map, List.map_map]
  rfl

variable (demangler) in
theorem lines_flatten_writtenTexts
    (hnames : ∀ symbol name, demangler symbol = .ok name → '\n' ∉ name.toList)
    {source : Source} (hsource : source.Steady) :
    lines (writtenTexts demangler brackets source).flatten =
      writtenTexts demangler brackets source := by
  rw [writtenTexts_of_steady demangler brackets hsource]
  apply lines_flatten_append_newline
  intro text htext
  obtain ⟨body, hbody, rfl⟩ := List.mem_map.mp htext
  obtain ⟨bytes, hbytes, rfl⟩ := List.mem_map.mp hbody
  exact newline_not_mem_rewritten brackets hnames (newline_not_mem_withoutNewline hbytes)

variable (demangler) in
theorem filter_of_read {σ : Type} [Output σ] {good : σ → Prop} {taken : σ → List UInt8}
    (houtput : SteadyOutput good taken) {source : Source} (hread : source.read.2 = none) {output : σ}
    (hgood : good output) :
    (filter demangler brackets source output).result = .ok (readTotals demangler source) ∧
      taken (filter demangler brackets source output).output =
        taken output ++ (writtenTexts demangler brackets source).flatten := by
  have hlines := filterLines_of_steady houtput demangler brackets source.read.1 ⟨0, 0⟩ hgood #[]
  rw [Nat.zero_add, Nat.zero_add, List.flatMap_def] at hlines
  rw [filter_eq_filterLines, readTotals, writtenTexts, hread]
  exact hlines

variable (demangler) in
theorem filter_of_steady {σ : Type} [Output σ] {good : σ → Prop} {taken : σ → List UInt8}
    (houtput : SteadyOutput good taken) {source : Source} (hsource : source.Steady) {output : σ}
    (hgood : good output) :
    (filter demangler brackets source output).result = .ok (readTotals demangler source) ∧
      taken (filter demangler brackets source output).output =
        taken output ++ (writtenTexts demangler brackets source).flatten :=
  filter_of_read demangler brackets houtput (congrArg Prod.snd (read_of_steady hsource)) hgood

end

/-- What a filter has at hand when it comes to a line: the line before, and the text written for it. -/
structure LineBuffers where
  line : Array UInt8
  text : Array UInt8

section

variable {σ : Type} [Output σ] (demangler : Demangler) (brackets : Bool)

/-- Filters what is left of a stream with the same two buffers for every line. They are emptied
before they are filled, and what they are filled with is added to what they hold. -/
def filterReusing :
    Nat → Source → LineBuffers → Totals → σ → Array LogRecord → Filtering σ
  | 0, _, _, totals, output, log => finish totals output log
  | limit + 1, source, buffers, totals, output, log =>
    match source.readLine with
    | (.endOfInput, _) => finish totals output log
    | (.fault fault, _) => ⟨.error fault, output, log⟩
    | (.line bytes, source) =>
      let line := withoutNewline ((buffers.line.shrink 0).appendList bytes).toList
      let scan := Line.scan demangler line
      let log := log ++ scan.attempts.filterMap leftAsIs
      let text := (scan.appendTo line brackets (buffers.text.shrink 0)).push newline
      match Output.writeAll output text.toList with
      | (some fault, output) => ⟨.error fault, output, log⟩
      | (none, output) =>
        let totals := totals.add scan.translated
        filterReusing limit source ⟨line.toArray, text⟩ totals output
          (log.push (.lineWritten totals.lines scan.translated))

theorem filterReusing_eq (limit : Nat) (source : Source) (buffers : LineBuffers) (totals : Totals)
    (output : σ) (log : Array LogRecord) :
    filterReusing demangler brackets limit source buffers totals output log =
      filterFrom demangler brackets limit source totals output log := by
  induction limit generalizing source buffers totals output log with
  | zero => rfl
  | succ limit ih =>
      rw [filterReusing, filterFrom]
      cases source.readLine with
      | mk read next =>
          cases read with
          | endOfInput => rfl
          | fault fault => rfl
          | line bytes =>
              have hline : ((buffers.line.shrink 0).appendList bytes).toList = bytes := by simp
              have htext (scan : Line.Scan) (line : List UInt8) :
                  ((scan.appendTo line brackets (buffers.text.shrink 0)).push newline).toList =
                    scan.bytes line brackets ++ [newline] := by
                rw [Array.toList_push, Line.toList_appendTo]
                simp
              simp only [hline, htext]
              generalize Output.writeAll output _ = written
              obtain ⟨fault, after⟩ := written
              cases fault with
              | some fault => rfl
              | none => exact ih _ _ _ _ _

end

section

variable {σ : Type} [Output σ] {good : σ → Prop} {taken : σ → List UInt8}

/-- **One line out for each line in.** If no name has a newline and nothing fails, a filter writes as
many newlines as it counts lines, with one at the end if it writes anything. The line that comes out
for a line that is read is what scanning it alone adds to an empty buffer. The names that are counted
are those of the lines. And if the lines share two buffers, whatever these hold at first, the run is
the same. -/
theorem filter_line_by_line (houtput : SteadyOutput good taken) {demangler : Demangler}
    (hnames : ∀ symbol name, demangler symbol = .ok name → '\n' ∉ name.toList) (brackets : Bool)
    {source : Source} (hsource : source.Steady) {output : σ} (hgood : good output) :
    let run := filter demangler brackets source output
    let alone := fun line => ((Line.scan demangler line).appendTo line brackets #[]).toList
    let names := fun line => (Line.scan demangler line).translated
    ∃ totals written,
      run.result = .ok totals ∧ taken run.output = taken output ++ written ∧
        written.count newline = totals.lines ∧
        (written = [] ∨ written.getLast? = some newline) ∧
        totals.lines = (bodies source.content).length ∧
        lines written = (bodies source.content).map (alone · ++ [newline]) ∧
        totals.translated = ((bodies source.content).map names).sum ∧
        ∀ buffers, filterReusing demangler brackets (source.content.length + 1) source buffers
          ⟨0, 0⟩ output #[] = run := by
  intro run alone names
  obtain ⟨hresult, htaken⟩ := filter_of_steady demangler brackets houtput hsource hgood
  have hlines := lines_flatten_writtenTexts demangler brackets hnames hsource
  have hread := read_of_steady hsource
  have halone : Line.rewritten demangler brackets = alone := by
    funext line
    exact (Line.toList_appendTo (Line.scan demangler line) line brackets #[]).symm
  rw [writtenTexts_of_steady demangler brackets hsource, halone] at htaken hlines
  have hends := not_lacksNewline_flatten ((bodies source.content).map alone)
  have hcount : (readTotals demangler source).lines = (bodies source.content).length := by
    rw [readTotals, hread, bodies, List.length_map]
  refine ⟨readTotals demangler source, _, hresult, htaken, ?_, not_lacksNewline_iff.mp hends, hcount,
    ?_, ?_, ?_⟩
  · rw [count_newline_of_not_lacks hends, hlines, List.length_map, List.length_map, hcount]
  · rw [hlines, List.map_map]
    rfl
  · rw [readTotals, hread, bodies, List.map_map]
    rfl
  · intro buffers
    exact filterReusing_eq demangler brackets _ source buffers ⟨0, 0⟩ output #[]

/-- A long line leaves nothing behind for the shorter ones that follow, not even for an empty one. The
return before a newline stays, and the last line gets the newline that it lacks. -/
theorem filter_line_by_line_shrinking :
    let source : Source :=
      ⟨utf8 "_Zf _Zf", [.bytes (utf8 " long\n\n_"), .fault .interrupted, .bytes (utf8 "Zf\r\nb")]⟩
    let sink := Sink.new [.accept 2, .fault .interrupted, .accept 3] none
    let run := filter (Line.knowing "_Zf" "f()") true source sink
    run.result = .ok ⟨4, 3⟩ ∧
      lines run.output.taken = ["[f()] [f()] long\n", "\n", "[f()]\r\n", "b\n"].map utf8 ∧
      ∀ buffers, filterReusing (Line.knowing "_Zf" "f()") true (source.content.length + 1) source
        buffers ⟨0, 0⟩ sink #[] = run := by
  intro source sink run
  have hsource : source.Steady := ⟨rfl, trivial⟩
  have hsink : sink.Steady := by
    refine ⟨?_, rfl⟩
    simp [sink, Sink.new, Sink.Harmless]
  have hnames : ∀ symbol name, Line.knowing "_Zf" "f()" symbol = .ok name → '\n' ∉ name.toList := by
    intro symbol name hname
    rw [Line.eq_of_knowing hname]
    decide
  obtain ⟨⟨count, translated⟩, written, hresult, htaken, -, -, hcount, hlines, hnamed, hbuffers⟩ :=
    filter_line_by_line Sink.steadyOutput hnames true hsource hsink
  refine ⟨?_, ?_, hbuffers⟩
  · have hfour : count = 4 := hcount.trans (by decide +kernel)
    have hthree : translated = 3 := hnamed.trans (by decide +kernel)
    rw [hresult, hfour, hthree]
  · have hwritten : run.output.taken = written := htaken
    rw [hwritten, hlines]
    decide +kernel

end

end MangledNames.Stream

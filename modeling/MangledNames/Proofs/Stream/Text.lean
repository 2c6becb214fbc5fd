import MangledNames.Proofs.Line.Text
import MangledNames.Proofs.Stream.LineByLine

/-!
# Streams that are text

A newline is a character on its own, so the lines of a text are texts (`exists_texts_of_lines`), and
a text comes out for each of them (`exists_scanTexts?`). What a filter writes is therefore the text
of these texts, with a newline behind each (`filter_of_text`). If no name has a newline, these are
the lines of the output too.
-/

namespace MangledNames.Stream

open Text (utf8)

theorem utf8_newline : utf8 "\n" = [newline] := by decide +kernel

theorem exists_texts_of_lines (text : String) :
    ∃ parts : List String, parts.map utf8 = (lines (utf8 text)).map withoutNewline := by
  generalize hcontent : utf8 text = content
  induction content using lines_induction generalizing text with
  | nil => exact ⟨[], rfl⟩
  | last body hbody hnewline =>
      refine ⟨[text], ?_⟩
      rw [lines_of_not_mem hbody hnewline, List.map_singleton, List.map_singleton,
        withoutNewline_of_not_mem hnewline, hcontent]
  | line body rest hnewline ih =>
      obtain ⟨before, after, hbefore, hafter⟩ := Text.exists_parts_of_ascii newline_lt hcontent
      obtain ⟨parts, hparts⟩ := ih after hafter
      refine ⟨before :: parts, ?_⟩
      rw [lines_append_newline hnewline, List.map_cons, List.map_cons, hparts, hbefore,
        withoutNewline_append_newline]

section

variable (demangler : Demangler) (brackets : Bool)

theorem exists_scanTexts? (parts : List String) :
    ∃ outs : List String,
      parts.map (Line.scanText? demangler · brackets) = outs.map some ∧
        outs.map utf8 = (parts.map utf8).map (Line.rewritten demangler brackets) := by
  induction parts with
  | nil => exact ⟨[], rfl, rfl⟩
  | cons part parts ih =>
      obtain ⟨out, hout, hbytes⟩ := Line.exists_scanText? demangler part brackets
      obtain ⟨outs, houts, hothers⟩ := ih
      refine ⟨out :: outs, ?_, ?_⟩
      · rw [List.map_cons, List.map_cons, hout, houts]
      · rw [List.map_cons, List.map_cons, List.map_cons, hbytes, hothers]

end

theorem writes_writeEach {texts : List (List UInt8)} (htexts : ∀ text ∈ texts, text ≠ [])
    {sink : Sink} (hscript : sink.script = []) :
    (writeEach texts sink).2.writes.toList = sink.writes.toList ++ texts.map List.length := by
  induction texts generalizing sink with
  | nil => exact (List.append_nil _).symm
  | cons text texts ih =>
      rw [List.forall_mem_cons] at htexts
      have hwrite := Sink.writeAll_accepting hscript text
      rw [if_neg htexts.1] at hwrite
      have haccept : (sink.accept [] text).writes.toList = sink.writes.toList ++ [text.length] :=
        Array.toList_push
      simp only [writeEach, hwrite]
      rw [ih htexts.2 rfl, haccept, List.append_assoc, List.map_cons, List.singleton_append]

theorem writes_filter (demangler : Demangler) (brackets : Bool) (source : Source)
    (flushFault : Option Fault) :
    (filter demangler brackets source (Sink.new [] flushFault)).output.writes.toList =
      (writtenTexts demangler brackets source).map List.length := by
  have hfilter := congrArg Prod.snd
    (filter_eq_writeEach demangler brackets source (Sink.new [] flushFault))
  have htexts : ∀ text ∈ writtenTexts demangler brackets source, text ≠ [] := by
    intro text hmem
    obtain ⟨bytes, -, rfl⟩ := List.mem_map.mp hmem
    exact List.concat_ne_nil _ _
  have hnew : (Sink.new [] flushFault).script = [] := rfl
  have hwrites := writes_writeEach htexts hnew
  generalize writeEach (writtenTexts demangler brackets source) (Sink.new [] flushFault) = written
    at hfilter hwrites
  obtain ⟨fault, next⟩ := written
  rw [Sink.conclude_eq] at hfilter
  simp only at hfilter
  rw [hfilter]
  split <;> exact hwrites

section

variable (demangler : Demangler) (brackets : Bool)

theorem map_utf8_append_newline (outs : List String) :
    (outs.map (· ++ "\n")).map utf8 = (outs.map utf8).map (· ++ [newline]) := by
  rw [List.map_map, List.map_map]
  apply List.map_congr_left
  intro out _
  simp only [Function.comp_apply, Text.utf8_append, utf8_newline]

theorem exists_writtenTexts {input : String} {source : Source} (hsource : source.Steady)
    (hinput : source.content = utf8 input) :
    ∃ parts outs : List String,
      parts.map utf8 = (lines (utf8 input)).map withoutNewline ∧
        parts.map (Line.scanText? demangler · brackets) = outs.map some ∧
        writtenTexts demangler brackets source = (outs.map (· ++ "\n")).map utf8 := by
  obtain ⟨parts, hparts⟩ := exists_texts_of_lines input
  obtain ⟨outs, houts, hbytes⟩ := exists_scanTexts? demangler brackets parts
  refine ⟨parts, outs, hparts, houts, ?_⟩
  rw [map_utf8_append_newline, hbytes, hparts, writtenTexts_of_steady demangler brackets hsource,
    hinput, bodies]

/-- **Text comes out of text.** No segment of a line cuts a character, so the text of a line is found
and has the bytes that are appended for the line. If the bytes of a steady source are text, a filter
adds to an output that takes everything the texts of its lines, with a newline behind each, and
writes each of them with one write. They are the lines of the output if no name has a newline. -/
theorem filter_of_text :
    (∀ line : String,
      (∀ segment ∈ (Line.scan demangler (utf8 line)).segments, segment.span.Fits line) ∧
        ∃ out, Line.scanText? demangler line brackets = some out ∧
          ∀ buffer, ((Line.scan demangler (utf8 line)).appendTo (utf8 line) brackets buffer).toList =
            buffer.toList ++ utf8 out) ∧
      ∀ {σ : Type} [Output σ] {good : σ → Prop} {taken : σ → List UInt8},
        SteadyOutput good taken → ∀ {output : σ}, good output →
        ∀ {input : String} {source : Source}, source.Steady → source.content = utf8 input →
          ∃ parts outs : List String,
            parts.map utf8 = (lines (utf8 input)).map withoutNewline ∧
              parts.map (Line.scanText? demangler · brackets) = outs.map some ∧
              let written := outs.map (· ++ "\n")
              (filter demangler brackets source output).result =
                  .ok (readTotals demangler source) ∧
                taken (filter demangler brackets source output).output =
                  taken output ++ utf8 (String.join written) ∧
                (filter demangler brackets source (Sink.new [] none)).output.writes.toList =
                  written.map (List.length ∘ utf8) ∧
                ((∀ symbol name, demangler symbol = .ok name → '\n' ∉ name.toList) →
                  lines (utf8 (String.join written)) = written.map utf8) := by
  refine ⟨?_, ?_⟩
  · intro line
    obtain ⟨out, hout, hbytes⟩ := Line.exists_scanText? demangler line brackets
    refine ⟨Line.fits_of_mem_segments demangler line, out, hout, ?_⟩
    intro buffer
    rw [Line.toList_appendTo, hbytes]
    rfl
  · intro σ _ good taken houtput output hgood input source hsource hinput
    obtain ⟨parts, outs, hparts, houts, hwritten⟩ :=
      exists_writtenTexts demangler brackets hsource hinput
    obtain ⟨hresult, htaken⟩ := filter_of_steady demangler brackets houtput hsource hgood
    refine ⟨parts, outs, hparts, houts, hresult, ?_, ?_, ?_⟩
    · rw [htaken, hwritten, Text.utf8_join]
    · rw [writes_filter, hwritten, List.map_map]
    · intro hnames
      have hlines := lines_flatten_writtenTexts demangler brackets hnames hsource
      rwa [hwritten, ← Text.utf8_join] at hlines

/-- A character may come in two deliveries, and go out in two writes. -/
theorem filter_of_text_within_character :
    let source : Source := ⟨[], [.bytes [0xc3], .bytes (0xbc :: utf8 "_Zf\né")]⟩
    let sink := Sink.new [.accept 1, .fault .interrupted, .accept 3] none
    let run := filter (Line.knowing "_Zf" "f()") true source sink
    run.output.taken = utf8 "ü[f()]\né\n" ∧ lines run.output.taken = [utf8 "ü[f()]\n", utf8 "é\n"] := by
  intro source sink run
  have hsource : source.Steady := trivial
  have hinput : source.content = utf8 "ü_Zf\né" := by decide +kernel
  have hsink : sink.Steady := by
    refine ⟨?_, rfl⟩
    simp [sink, Sink.new, Sink.Harmless]
  obtain ⟨-, hfilter⟩ := filter_of_text (Line.knowing "_Zf" "f()") true
  obtain ⟨parts, outs, hparts, houts, -, htaken, -, hlines⟩ :=
    hfilter Sink.steadyOutput hsink hsource hinput
  have hutf8 : Function.Injective utf8 := fun _ _ => Text.utf8_inj
  have hexpected : (lines (utf8 "ü_Zf\né")).map withoutNewline = ["ü_Zf", "é"].map utf8 := by
    decide +kernel
  obtain rfl := hutf8.list_map (hparts.trans hexpected)
  have htexts : ["ü_Zf", "é"].map (Line.scanText? (Line.knowing "_Zf" "f()") · true) =
      ["ü[f()]", "é"].map some := by
    decide +kernel
  have hsome : Function.Injective (some : String → Option String) := fun _ _ => Option.some.inj
  obtain rfl := hsome.list_map (houts.symm.trans htexts)
  have hnames : ∀ symbol name, Line.knowing "_Zf" "f()" symbol = .ok name → '\n' ∉ name.toList := by
    intro symbol name hname
    rw [Line.eq_of_knowing hname]
    decide
  have hwritten : String.join (["ü[f()]", "é"].map (· ++ "\n")) = "ü[f()]\né\n" := by decide +kernel
  rw [hwritten] at htaken hlines
  refine ⟨htaken, ?_⟩
  exact (congrArg lines htaken).trans (hlines hnames)

end

end MangledNames.Stream

import MangledNames.Proofs.Stream.LineByLine
import MangledNames.Proofs.Stream.ReadFaults

/-!
# Brackets only add brackets

What is asked, counted and recorded is settled before a line is written, and whether names stand in
brackets is looked at only then. So a filter with brackets and one without differ in what they write,
piece by piece: a name stands in brackets or does not, and any other byte is one of the line in both
(`filter_brackets`).

A line or a name may have brackets of its own. Those cannot be told from the others, but they are
written by both filters in the same places.
-/

namespace MangledNames

def withoutBrackets (bytes : List UInt8) : List UInt8 :=
  bytes.filter fun byte => byte ≠ '['.toUInt8 ∧ byte ≠ ']'.toUInt8

theorem withoutBrackets_append (left right : List UInt8) :
    withoutBrackets (left ++ right) = withoutBrackets left ++ withoutBrackets right :=
  List.filter_append left right

namespace Line

theorem Piece.length_written (demangler : Demangler) (piece : Piece) :
    (piece.written demangler true).length =
      (piece.written demangler false).length + if piece.isTranslated demangler then 2 else 0 := by
  cases htranslated : piece.isTranslated demangler with
  | true =>
      obtain ⟨_, name, -, -, hwritten⟩ := written_of_translated htranslated
      simp [hwritten, bracketed]
  | false =>
      simp [written_of_not_translated htranslated]

theorem Piece.withoutBrackets_written (demangler : Demangler) (piece : Piece) :
    withoutBrackets (piece.written demangler true) =
      withoutBrackets (piece.written demangler false) := by
  cases htranslated : piece.isTranslated demangler with
  | true =>
      obtain ⟨_, name, -, -, hwritten⟩ := written_of_translated htranslated
      simp [hwritten, bracketed, withoutBrackets]
  | false =>
      rw [written_of_not_translated htranslated, written_of_not_translated htranslated]

theorem length_flatMap_written (demangler : Demangler) (parts : List Piece) :
    (parts.flatMap (Piece.written demangler true)).length =
      (parts.flatMap (Piece.written demangler false)).length +
        2 * parts.countP (Piece.isTranslated demangler) := by
  induction parts with
  | nil => rfl
  | cons part parts ih =>
      rw [List.flatMap_cons, List.flatMap_cons, List.length_append, List.length_append, ih,
        Piece.length_written, List.countP_cons]
      split <;> omega

theorem withoutBrackets_flatMap_written (demangler : Demangler) (parts : List Piece) :
    withoutBrackets (parts.flatMap (Piece.written demangler true)) =
      withoutBrackets (parts.flatMap (Piece.written demangler false)) := by
  induction parts with
  | nil => rfl
  | cons part parts ih =>
      rw [List.flatMap_cons, List.flatMap_cons, withoutBrackets_append, withoutBrackets_append, ih,
        Piece.withoutBrackets_written]

end Line

namespace Stream

/-- The pieces of lines that have been read, each with the newline that is written behind it. -/
def partsOf (rest : List (List UInt8)) : List Line.Piece :=
  rest.flatMap fun bytes => Line.pieces (withoutNewline bytes) ++ [.single newline]

theorem flatMap_bytes_partsOf (rest : List (List UInt8)) :
    (partsOf rest).flatMap Line.Piece.bytes =
      rest.flatMap fun bytes => withoutNewline bytes ++ [newline] := by
  rw [partsOf, List.flatMap_assoc]
  apply List.flatMap_congr
  intro bytes _
  rw [List.flatMap_append, Line.flatMap_bytes_pieces]
  rfl

theorem flatMap_written_partsOf (demangler : Demangler) (brackets : Bool)
    (rest : List (List UInt8)) :
    (partsOf rest).flatMap (Line.Piece.written demangler brackets) =
      (rest.map (writtenLine demangler brackets)).flatten := by
  rw [partsOf, List.flatMap_assoc, ← List.flatMap_def]
  apply List.flatMap_congr
  intro bytes _
  rw [List.flatMap_append, writtenLine, Line.rewritten_eq]
  rfl

theorem countP_partsOf (demangler : Demangler) (rest : List (List UInt8)) :
    (partsOf rest).countP (Line.Piece.isTranslated demangler) =
      (rest.map (namesIn demangler)).sum := by
  induction rest with
  | nil => rfl
  | cons bytes rest ih =>
      have hbytes : namesIn demangler bytes =
          (Line.pieces (withoutNewline bytes)).countP (Line.Piece.isTranslated demangler) :=
        Line.translated_scan demangler (withoutNewline bytes)
      rw [List.map_cons, List.sum_cons, ← ih, partsOf, List.flatMap_cons, List.countP_append,
        List.countP_append, hbytes]
      rfl

theorem read_ofDeliveries_of_calm {schedule : List Delivery} (hcalm : Calm schedule)
    (capacity : Nat) : (Source.ofDeliveries capacity schedule).read.2 = none := by
  have hthrough : Calm (schedule.flatMap (Delivery.through capacity)) := by
    rcases Nat.eq_zero_or_pos capacity with rfl | hcapacity
    · intro kind hmem
      obtain ⟨delivery, hdelivery, hmem⟩ := List.mem_flatMap.mp hmem
      cases delivery with
      | bytes content => simp [Delivery.through] at hmem
      | fault met =>
          obtain rfl := Delivery.fault.inj (List.mem_singleton.mp hmem)
          exact hcalm kind hdelivery
    · exact calm_through hcapacity hcalm
  exact congrArg Prod.snd (read_of_calm hthrough)

section

variable {σ : Type} [Output σ] {good : σ → Prop} {taken : σ → List UInt8}
  (houtput : SteadyOutput good taken)

include houtput

/-- No record shows whether there are brackets, not even if reading fails. -/
theorem log_filter_brackets (demangler : Demangler) (source : Source) {output : σ}
    (hgood : good output) :
    (filter demangler true source output).log = (filter demangler false source output).log := by
  have hwrite : ∀ {output}, good output → ∀ bytes, ∃ next,
      Output.writeAll output bytes = (none, next) ∧ good next := by
    intro output hgood bytes
    obtain ⟨next, hnext, hgoodNext, -⟩ := houtput.writeAll hgood bytes
    exact ⟨next, hnext, hgoodNext⟩
  apply Array.toList_inj.mp
  rw [log_filter hwrite demangler true source hgood, log_filter hwrite demangler false source hgood]

/-- **Brackets only add brackets.** If interruptions are the only faults of a schedule, filters with
brackets and without have the same totals and the same records. What they write is cut into the same
pieces, which are those of the lines that are read. A piece that has a name is written as the name
without brackets, and as the name between two of them with brackets, and as many pieces have a name
as names are counted. Any other piece, a candidate without a name among them, stays as it is in both.
So brackets add two bytes for each name. If all brackets are deleted, no matter where they come from,
nothing is left of the difference. -/
theorem filter_brackets (demangler : Demangler) {schedule : List Delivery} (hcalm : Calm schedule)
    (capacity : Nat) {output : σ} (hgood : good output) :
    let source := Source.ofDeliveries capacity schedule
    let run := fun brackets => filter demangler brackets source output
    let written := fun brackets => taken (run brackets).output
    ∃ (totals : Totals) (parts : List Line.Piece),
      (∀ brackets, (run brackets).result = .ok totals ∧
        written brackets = taken output ++ parts.flatMap (Line.Piece.written demangler brackets)) ∧
      (run true).log = (run false).log ∧
      parts.flatMap Line.Piece.bytes =
        source.read.1.flatMap (fun bytes => withoutNewline bytes ++ [newline]) ∧
      (∀ part ∈ parts, part.isTranslated demangler = false →
        ∀ brackets, part.written demangler brackets = part.bytes) ∧
      (∀ part ∈ parts, part.isTranslated demangler = true → ∃ bytes name,
        part = .candidate bytes ∧ demangler (Text.ofAscii bytes) = .ok name ∧
          part.written demangler false = Text.utf8 name ∧
          part.written demangler true =
            '['.toUInt8 :: (part.written demangler false ++ [']'.toUInt8])) ∧
      parts.countP (Line.Piece.isTranslated demangler) = totals.translated ∧
      (written true).length = (written false).length + 2 * totals.translated ∧
      withoutBrackets (written true) = withoutBrackets (written false) := by
  intro source run written
  have hread : source.read.2 = none := read_ofDeliveries_of_calm hcalm capacity
  have hrun : ∀ brackets, (run brackets).result = .ok (readTotals demangler source) ∧
      written brackets =
        taken output ++
          (partsOf source.read.1).flatMap (Line.Piece.written demangler brackets) := by
    intro brackets
    rw [flatMap_written_partsOf]
    exact filter_of_read demangler brackets houtput hread hgood
  have hcount : (partsOf source.read.1).countP (Line.Piece.isTranslated demangler) =
      (readTotals demangler source).translated := countP_partsOf demangler source.read.1
  refine ⟨readTotals demangler source, partsOf source.read.1, hrun,
    log_filter_brackets houtput demangler source hgood, flatMap_bytes_partsOf source.read.1, ?_, ?_,
    hcount, ?_, ?_⟩
  · intro part _ hkept
    exact Line.Piece.written_of_not_translated hkept
  · intro part _ htranslated
    obtain ⟨bytes, name, hpart, hanswer, hwritten⟩ :=
      Line.Piece.written_of_translated htranslated
    refine ⟨bytes, name, hpart, hanswer, hwritten false, ?_⟩
    rw [hwritten true, hwritten false]
    rfl
  · rw [(hrun true).2, (hrun false).2, List.length_append, List.length_append,
      Line.length_flatMap_written, hcount, Nat.add_assoc]
  · rw [(hrun true).2, (hrun false).2, withoutBrackets_append, withoutBrackets_append,
      Line.withoutBrackets_flatMap_written]

end

/-- The line and the name have brackets of their own, an interruption falls within a candidate, and
an end of input ends a line. -/
theorem filter_brackets_within_brackets :
    let schedule : List Delivery :=
      [.bytes (Text.utf8 "a[_Z"), .fault .interrupted, .bytes (Text.utf8 "f]\n_Zg"), .bytes [],
        .bytes (Text.utf8 "_Zf")]
    let filtered := fun brackets =>
      filter (Line.knowing "_Zf" "f[0]") brackets (Source.ofDeliveries 3 schedule)
        (Sink.new [.accept 2, .fault .interrupted, .accept 3] none)
    (filtered false).output.taken = Text.utf8 "a[f[0]]\n_Zg\nf[0]\n" ∧
      (filtered true).output.taken = Text.utf8 "a[[f[0]]]\n_Zg\n[f[0]]\n" ∧
      (filtered true).log = (filtered false).log ∧
      withoutBrackets (filtered true).output.taken =
        withoutBrackets (filtered false).output.taken := by
  intro schedule filtered
  have hcalm : Calm schedule := by simp [Calm, schedule]
  have hsink : (Sink.new [.accept 2, .fault .interrupted, .accept 3] none).Steady := by
    refine ⟨?_, rfl⟩
    simp [Sink.new, Sink.Harmless]
  obtain ⟨_, _, -, hlog, -, -, -, -, -, hbrackets⟩ :=
    filter_brackets Sink.steadyOutput (Line.knowing "_Zf" "f[0]") hcalm 3 hsink
  exact ⟨by decide +kernel, by decide +kernel, hlog, hbrackets⟩

end Stream

end MangledNames

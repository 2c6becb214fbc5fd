import MangledNames.Proofs.Line.Partition
import MangledNames.Proofs.Symbol.Options

/-!
# What stands around a symbol

A byte that no candidate can contain separates a line, and each side of it is scanned as if the
other were not there (`scan_separated`). It does not matter in which mode the scanner meets the
separator: an open candidate ends there, and a held underscore takes the separator along, which
would have been passed over anyway.

So a symbol between separators fares as it does alone. In its place stands the name that demangling
it gives, or the symbol itself if it has none, and nothing else can stand there: what a scan writes
are bytes of the line and names, and the words for a failure are never among them
(`scan_symbol_between`).
-/

namespace MangledNames.Line

/-- **A separator separates.** The demangler is asked about the candidates on the left and then
about those on the right, the text of the left is appended, then the separator, then the text of the
right, and the names add up. -/
theorem scan_separated (demangler : Demangler) (left right : List UInt8) {separator : UInt8}
    (hseparator : isTokenByte separator = false) :
    let whole := left ++ separator :: right
    (scan demangler whole).attempts =
        (scan demangler left).attempts ++ (scan demangler right).attempts ∧
      (scan demangler whole).translated =
        (scan demangler left).translated + (scan demangler right).translated ∧
      ∀ brackets buffer,
        ((scan demangler whole).appendTo whole brackets buffer).toList =
          buffer.toList ++ (rewritten demangler brackets left ++
            separator :: rewritten demangler brackets right) := by
  intro whole
  refine ⟨attempts_scan_separator demangler left right hseparator,
    translated_scan_separator demangler left right hseparator, ?_⟩
  intro brackets buffer
  rw [toList_appendTo, ← rewritten_separator demangler left right hseparator]
  rfl

/-- A candidate that is open at the separator does not go on behind it. -/
theorem scan_separated_within_high_byte :
    isTokenByte 0xff = false ∧
      let whole := Text.utf8 "__Z_Zf" ++ 0xff :: Text.utf8 "Zf_Zf"
      (scan (knowing "_Zf" "f()") whole).translated = 2 ∧
        ((scan (knowing "_Zf" "f()") whole).appendTo whole true #[]).toList =
          Text.utf8 "__Z[f()]" ++ 0xff :: Text.utf8 "Zf[f()]" := by
  have hseparator : isTokenByte 0xff = false := by decide
  obtain ⟨-, hcount, htext⟩ :=
    scan_separated (knowing "_Zf" "f()") (Text.utf8 "__Z_Zf") (Text.utf8 "Zf_Zf") hseparator
  refine ⟨hseparator, ?_, ?_⟩
  · rw [hcount]
    decide +kernel
  · rw [htext]
    decide +kernel

/-- The text is empty, or a token byte is not its last byte. -/
def EndsAtBoundary (left : List UInt8) : Prop :=
  ∀ byte, left.getLast? = some byte → isTokenByte byte = false

theorem pieces_append_of_endsAtBoundary {left : List UInt8} (hleft : EndsAtBoundary left)
    (right : List UInt8) : pieces (left ++ right) = pieces left ++ pieces right := by
  rcases List.eq_nil_or_concat left with rfl | ⟨front, last, rfl⟩
  · rw [pieces_nil]
    rfl
  · rw [List.concat_eq_append] at hleft ⊢
    have hlast : isTokenByte last = false := hleft last List.getLast?_concat
    calc
      pieces (front ++ [last] ++ right) = pieces (front ++ last :: right) := by
        rw [List.append_assoc, List.singleton_append]
      _ = pieces front ++ .single last :: pieces right := pieces_separator front right hlast
      _ = pieces (front ++ [last]) ++ pieces right := by
        rw [pieces_separator front [] hlast, pieces_nil, List.append_assoc, List.singleton_append]

section

variable {symbol : String} (hsymbol : IsCandidateText (Text.utf8 symbol))

include hsymbol

theorem written_of_ok {demangler : Demangler} {name : String} (hname : demangler symbol = .ok name)
    (brackets : Bool) :
    (Piece.candidate (Text.utf8 symbol)).written demangler brackets =
      bracketed brackets '['.toUInt8 ']'.toUInt8 (Text.utf8 name) := by
  simp only [Piece.written, Text.ofAscii_utf8 hsymbol.lt, hname]

theorem written_of_error {demangler : Demangler} {failure : Failure}
    (hfailure : demangler symbol = .error failure) (brackets : Bool) :
    (Piece.candidate (Text.utf8 symbol)).written demangler brackets = Text.utf8 symbol := by
  simp only [Piece.written, Text.ofAscii_utf8 hsymbol.lt, hfailure]

variable {left right : List UInt8} (hleft : EndsAtBoundary left) (hright : AtBoundary right)

include hleft hright

theorem pieces_between :
    pieces (left ++ (Text.utf8 symbol ++ right)) =
      pieces left ++ .candidate (Text.utf8 symbol) :: pieces right := by
  rw [pieces_append_of_endsAtBoundary hleft, pieces_append _ hright,
    pieces_of_isCandidateText hsymbol, List.singleton_append]

variable (demangler : Demangler)

theorem attempts_scan_between :
    (scan demangler (left ++ (Text.utf8 symbol ++ right))).attempts =
      (scan demangler left).attempts ++
        ⟨symbol, demangler symbol⟩ :: (scan demangler right).attempts := by
  rw [attempts_scan, attempts_scan, attempts_scan, pieces_between hsymbol hleft hright,
    attemptsOf_append, attemptsOf_candidate, attemptOn, Text.ofAscii_utf8 hsymbol.lt]

theorem translated_scan_between :
    (scan demangler (left ++ (Text.utf8 symbol ++ right))).translated =
      (scan demangler left).translated + (scan demangler right).translated +
        if (demangler symbol).toOption.isSome then 1 else 0 := by
  rw [translated_scan, translated_scan, translated_scan, pieces_between hsymbol hleft hright,
    List.countP_append, List.countP_cons, Piece.isTranslated, Text.ofAscii_utf8 hsymbol.lt,
    Nat.add_assoc]

theorem toList_appendTo_between (brackets : Bool) (buffer : Array UInt8) :
    let line := left ++ (Text.utf8 symbol ++ right)
    ((scan demangler line).appendTo line brackets buffer).toList =
      buffer.toList ++ (rewritten demangler brackets left ++
        ((Piece.candidate (Text.utf8 symbol)).written demangler brackets ++
          rewritten demangler brackets right)) := by
  intro line
  have htext : rewritten demangler brackets line = rewritten demangler brackets left ++
      ((Piece.candidate (Text.utf8 symbol)).written demangler brackets ++
        rewritten demangler brackets right) := by
    rw [rewritten_eq, rewritten_eq, rewritten_eq, pieces_between hsymbol hleft hright,
      List.flatMap_append, List.flatMap_cons]
  rw [toList_appendTo, ← htext]
  rfl

end

/-- A name in the segments is the answer on the candidate whose place it takes. -/
theorem exists_candidate_of_mem_segments {demangler : Demangler} {line : List UInt8} {span : Span}
    {name : String} (hmem : .translated span name ∈ (scan demangler line).segments) :
    ∃ candidate, Text.utf8 candidate = span.of line.toArray ∧ demangler candidate = .ok name := by
  have hname : (span, name) ∈ (scan demangler line).segments.filterMap Segment.name? :=
    List.mem_filterMap.mpr ⟨_, hmem, rfl⟩
  rw [scan_eq, filterMap_name?_segmentsOf (cutFrom_pieces line)] at hname
  obtain ⟨found, hcandidate, hfound⟩ := List.mem_filterMap.mp hname
  obtain ⟨other, hother, heq⟩ := Option.map_eq_some_iff.mp hfound
  obtain ⟨rfl, rfl⟩ := Prod.mk.inj heq
  have htext : IsCandidateText (found.of line.toArray) :=
    isCandidateText_of_mem_candidates hcandidate
  refine ⟨Text.ofAscii (found.of line.toArray), Text.utf8_ofAscii htext.lt, ?_⟩
  exact nameAt?_eq_some_iff.mp hother

/-- A segment writes its own bytes, or the name that the demangler gave for them. -/
theorem bytes_of_mem_segments {demangler : Demangler} {line : List UInt8} {segment : Segment}
    (hmem : segment ∈ (scan demangler line).segments) (brackets : Bool) :
    segment.bytes line.toArray brackets = segment.span.of line.toArray ∨
      ∃ candidate name, Text.utf8 candidate = segment.span.of line.toArray ∧
        demangler candidate = .ok name ∧
        segment.bytes line.toArray brackets =
          bracketed brackets '['.toUInt8 ']'.toUInt8 (Text.utf8 name) := by
  cases segment with
  | literal span => exact .inl rfl
  | translated span name =>
      obtain ⟨candidate, hcandidate, hanswer⟩ := exists_candidate_of_mem_segments hmem
      exact .inr ⟨candidate, name, hcandidate, hanswer, rfl⟩

/-- The words for a failure begin with a byte that no candidate has. -/
theorem not_placeholder_isInfix (failure : Failure) {bytes : List UInt8}
    (hbytes : IsCandidateText bytes) : ¬ Text.utf8 failure.placeholder <:+: bytes := by
  intro hwithin
  have hfirst : '<'.toUInt8 ∈ Text.utf8 failure.placeholder := by
    cases failure <;> decide +kernel
  have htoken := hbytes.isTokenByte _ (hwithin.subset hfirst)
  exact absurd htoken (by decide)

/-- **A symbol between separators is named as it is alone.** The demangler is asked about it in its
place. If it has a name, this is what is appended in its place and counted; if it has none, the
symbol itself is appended, without brackets. Words for a failure do not enter the text: they are not
in the symbol, and of any line a scan writes nothing but the bytes of its segments and names that
the demangler gave. -/
theorem scan_symbol_between (options : Options) {symbol : String}
    (hsymbol : IsCandidateText (Text.utf8 symbol)) {left right : List UInt8}
    (hleft : EndsAtBoundary left) (hright : AtBoundary right) :
    let scanned := scan (demangle options)
    let text := rewritten (demangle options)
    let line := left ++ (Text.utf8 symbol ++ right)
    (scanned line).attempts =
        (scanned left).attempts ++
          ⟨symbol, demangle options symbol⟩ :: (scanned right).attempts ∧
      (∀ name, demangle options symbol = .ok name →
        (scanned line).translated = (scanned left).translated + (scanned right).translated + 1 ∧
          ∀ brackets buffer,
            ((scanned line).appendTo line brackets buffer).toList =
              buffer.toList ++ (text brackets left ++
                (bracketed brackets '['.toUInt8 ']'.toUInt8 (Text.utf8 name) ++
                  text brackets right))) ∧
      (∀ failure, demangle options symbol = .error failure →
        (scanned line).translated = (scanned left).translated + (scanned right).translated ∧
          ∀ brackets buffer,
            ((scanned line).appendTo line brackets buffer).toList =
              buffer.toList ++ (text brackets left ++
                (Text.utf8 symbol ++ text brackets right))) ∧
      (∀ failure : Failure, ¬ Text.utf8 failure.placeholder <:+: Text.utf8 symbol) ∧
      ∀ other, ∀ segment ∈ (scanned other).segments, ∀ brackets,
        segment.bytes other.toArray brackets = segment.span.of other.toArray ∨
          ∃ candidate name, Text.utf8 candidate = segment.span.of other.toArray ∧
            demangle options candidate = .ok name ∧
            segment.bytes other.toArray brackets =
              bracketed brackets '['.toUInt8 ']'.toUInt8 (Text.utf8 name) := by
  intro scanned text line
  have hcount := translated_scan_between hsymbol hleft hright (demangle options)
  have htext := toList_appendTo_between hsymbol hleft hright (demangle options)
  refine ⟨attempts_scan_between hsymbol hleft hright (demangle options), ?_, ?_,
    fun failure => not_placeholder_isInfix failure hsymbol,
    fun other segment hmem brackets => bytes_of_mem_segments hmem brackets⟩
  · intro name hname
    rw [hname] at hcount
    refine ⟨hcount, ?_⟩
    intro brackets buffer
    rw [← written_of_ok hsymbol hname]
    exact htext brackets buffer
  · intro failure hfailure
    have hwritten := written_of_error hsymbol hfailure
    rw [hfailure] at hcount
    refine ⟨hcount, ?_⟩
    intro brackets buffer
    have hline := htext brackets buffer
    rwa [hwritten] at hline

/-- On the left stand a candidate without a name and an underscore that takes a separator along. A
mark within the symbol begins nothing. -/
theorem scan_symbol_between_held_separator :
    let left := Text.utf8 "_Zg _" ++ [0xff]
    let appended := fun symbol : String =>
      let line := left ++ (Text.utf8 symbol ++ Text.utf8 ",_")
      ((scan (demangle .complete) line).appendTo line true #[]).toList
    appended "_Z1fv" = left ++ Text.utf8 "[f()],_" ∧
      appended "_Z1f_Z1gv" = left ++ Text.utf8 "_Z1f_Z1gv,_" := by
  intro left appended
  have hleft : EndsAtBoundary left := by
    intro byte hbyte
    rw [List.getLast?_concat, Option.some.injEq] at hbyte
    rw [← hbyte]
    decide
  have hright : AtBoundary (Text.utf8 ",_") := by
    have hbytes : Text.utf8 ",_" = [','.toUInt8, underscore] := by decide +kernel
    rw [hbytes]
    exact atBoundary_cons.mpr (by decide)
  have hleftText : rewritten (demangle .complete) true left = left := by decide +kernel
  have hrightText : rewritten (demangle .complete) true (Text.utf8 ",_") = Text.utf8 ",_" := by
    decide +kernel
  refine ⟨?_, ?_⟩
  · have hsymbol : IsCandidateText (Text.utf8 "_Z1fv") :=
      ⟨Text.utf8 "1fv", by decide +kernel, by decide +kernel⟩
    have hname : demangle .complete "_Z1fv" = .ok "f()" := by decide +kernel
    obtain ⟨-, hnamed, -⟩ := scan_symbol_between .complete hsymbol hleft hright
    have htext := (hnamed "f()" hname).2 true #[]
    rw [hleftText, hrightText] at htext
    exact htext.trans (by decide +kernel)
  · have hsymbol : IsCandidateText (Text.utf8 "_Z1f_Z1gv") :=
      ⟨Text.utf8 "1f_Z1gv", by decide +kernel, by decide +kernel⟩
    have hfailure : demangle .complete "_Z1f_Z1gv" = .error .invalidName := by decide +kernel
    obtain ⟨-, -, hfailed, -⟩ := scan_symbol_between .complete hsymbol hleft hright
    have htext := (hfailed .invalidName hfailure).2 true #[]
    rw [hleftText, hrightText] at htext
    exact htext.trans (by decide +kernel)

end MangledNames.Line

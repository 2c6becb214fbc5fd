import MangledNames.Proofs.Line.Candidates
import MangledNames.Proofs.Stream.ReadFaults

/-!
# What a run records

For a line there are two kinds of records. The candidates that have no name are recorded before the
line is written, and that the line is written is recorded behind that. So the log of a run has both
for every line that has been written, and only the first for a line at which writing failed; which
lines these are can be told from the bytes that the sink has accepted (`CameTo`).

The number in the record of a line counts the lines that have been written. Nothing else is written
in between, so it is the place of the line among all lines that are read, and the last number and the
sum of all names are what a run returns (`filter_records`).

A candidate is quoted in its record. It has only letters, digits and underscores, which are not
escaped, so what stands between the quotation marks is the candidate as it is in the line.
-/

namespace MangledNames

/-- A record with its level in front. -/
def LogRecord.text (record : LogRecord) : String := record.level.name ++ " " ++ record.message

theorem LogRecord.text_leftAsIs (candidate : String) (failure : Failure) :
    (leftAsIs candidate failure).text =
      "DEBUG leaving " ++ Text.quoted candidate ++ " as is: " ++ failure.message := by
  have hfront : "DEBUG" ++ " " ++ "leaving " = "DEBUG leaving " := by decide +kernel
  change "DEBUG" ++ " " ++ ("leaving " ++ Text.quoted candidate ++ " as is: " ++ failure.message) = _
  rw [← String.append_assoc, ← String.append_assoc, ← String.append_assoc, hfront]

theorem LogRecord.text_lineWritten (line names : Nat) :
    (lineWritten line names).text =
      "TRACE line " ++ toString line ++ ": " ++ toString names ++ " name(s) demangled" := by
  have hfront : "TRACE" ++ " " ++ "line " = "TRACE line " := by decide +kernel
  change "TRACE" ++ " " ++
    ("line " ++ toString line ++ ": " ++ toString names ++ " name(s) demangled") = _
  rw [← String.append_assoc, ← String.append_assoc, ← String.append_assoc, ← String.append_assoc,
    hfront]

/-- The number of the line that has been written, and of the names in it. -/
def LogRecord.written? : LogRecord → Option (Nat × Nat)
  | .lineWritten line names => some (line, names)
  | _ => none

namespace Text

theorem isUnprintable_of_plain {c : Char} (hlow : 0x20 ≤ c.toNat) (hhigh : c.toNat < 0x7f) :
    isUnprintable c = false := by
  have hranges : unprintableRanges = (0x0, 0x1f) :: (0x7f, 0xa0) :: unprintableRanges.drop 2 := rfl
  have hfind : unprintableRanges.find? (fun range => c.toNat ≤ range.2) = some (0x7f, 0xa0) := by
    rw [hranges, List.find?_cons_of_neg (by simp; omega), List.find?_cons_of_pos (by simp; omega)]
  rw [isUnprintable, hfind]
  exact decide_eq_false (Nat.not_le.mpr hhigh)

/-- Between the space and the last character of ASCII, only two characters are escaped. -/
theorem quotedChar_of_plain {c : Char} (hlow : 0x20 ≤ c.toNat) (hhigh : c.toNat < 0x7f)
    (hmark : c ≠ '"') (hslash : c ≠ '\\') : quotedChar c = [c] := by
  have hcontrol : ∀ control : Char, control.toNat < 0x20 → c ≠ control := by
    rintro control hcontrol rfl
    omega
  rw [quotedChar, if_neg hmark, if_neg hslash, if_neg (hcontrol '\n' (by decide)),
    if_neg (hcontrol '\r' (by decide)), if_neg (hcontrol '\t' (by decide)),
    if_neg (hcontrol '\x00' (by decide)), isUnprintable_of_plain hlow hhigh]
  rfl

end Text

namespace Line

theorem quotedChar_of_isTokenByte {byte : UInt8} (hbyte : isTokenByte byte = true) :
    Text.quotedChar (Char.ofUInt8 byte) = [Char.ofUInt8 byte] := by
  have hnat : (Char.ofUInt8 byte).toNat = byte.toNat := Text.toNat_val_ofUInt8 byte
  have hranges := toNat_of_isTokenByte hbyte
  have hne : ∀ other : Char, other.toNat = 34 ∨ other.toNat = 92 → Char.ofUInt8 byte ≠ other := by
    rintro other hother rfl
    omega
  exact Text.quotedChar_of_plain (by omega) (by omega) (hne '"' (.inl rfl)) (hne '\\' (.inr rfl))

theorem IsCandidateText.quoted_eq {bytes : List UInt8} (htext : IsCandidateText bytes) :
    Text.quoted (Text.ofAscii bytes) = "\"" ++ Text.ofAscii bytes ++ "\"" := by
  have hplain : ∀ byte ∈ bytes, Text.quotedChar (Char.ofUInt8 byte) = [Char.ofUInt8 byte] :=
    fun byte hmem => quotedChar_of_isTokenByte (htext.isTokenByte byte hmem)
  have hbody : (bytes.map Char.ofUInt8).flatMap Text.quotedChar = bytes.map Char.ofUInt8 := by
    rw [List.flatMap_map, List.flatMap_congr hplain, List.map_eq_flatMap]
  rw [← String.toList_inj]
  simp only [Text.quoted, Text.ofAscii, String.toList_append, String.toList_ofList, hbody]
  rfl

/-- Nothing in a candidate is escaped. -/
theorem quoted_candidate {line : List UInt8} {span : Span} (hmem : span ∈ candidates line) :
    Text.quoted (Text.ofAscii (span.of line.toArray)) =
      "\"" ++ Text.ofAscii (span.of line.toArray) ++ "\"" :=
  (isCandidateText_of_mem_candidates hmem).quoted_eq

variable (demangler : Demangler) (line : List UInt8)

/-- What is recorded for a candidate, if it has no name. -/
def refusalAt? (span : Span) : Option LogRecord :=
  let candidate := Text.ofAscii (span.of line.toArray)
  match demangler candidate with
  | .ok _ => none
  | .error failure => some (.leftAsIs candidate failure)

/-- The records for the candidates of a line that have no name, from left to right. -/
def refusals : List LogRecord := (candidates line).filterMap (refusalAt? demangler line)

theorem leftAsIs_attempts :
    (scan demangler line).attempts.filterMap Stream.leftAsIs = refusals demangler line := by
  rw [attempts_eq_map_candidates, List.filterMap_map]
  rfl

theorem countP_candidates_of_names :
    (scan demangler line).translated =
      (candidates line).countP fun span => (refusalAt? demangler line span).isNone := by
  have hnames : ∀ bytes : List UInt8, (demangler (Text.ofAscii bytes)).toOption.isSome =
      (Stream.leftAsIs (attemptOn demangler bytes)).isNone := by
    intro bytes
    rw [Stream.leftAsIs, attemptOn]
    cases demangler (Text.ofAscii bytes) <;> rfl
  have hpiece : ∀ piece : Piece, piece.isTranslated demangler =
      (piece.candidate?.map fun bytes =>
        (Stream.leftAsIs (attemptOn demangler bytes)).isNone).getD false := by
    intro piece
    cases piece with
    | single byte => rfl
    | candidate bytes => exact hnames bytes
  calc (scan demangler line).translated
      = (pieces line).countP (Piece.isTranslated demangler) := translated_scan demangler line
    _ = ((pieces line).filterMap Piece.candidate?).countP fun bytes =>
          (Stream.leftAsIs (attemptOn demangler bytes)).isNone := by
        rw [List.countP_filterMap]
        exact List.countP_congr fun piece _ => by rw [hpiece]
    _ = (candidates line).countP fun span => (refusalAt? demangler line span).isNone := by
        rw [← map_of_candidates, List.countP_map]
        rfl

/-- **Every candidate has a name or a record.** -/
theorem translated_add_length_refusals :
    (scan demangler line).translated + (refusals demangler line).length =
      (candidates line).length := by
  rw [countP_candidates_of_names, refusals, List.length_filterMap_eq_countP,
    List.length_eq_countP_add_countP fun span => (refusalAt? demangler line span).isNone]
  congr 1
  apply List.countP_congr
  intro span _
  cases refusalAt? demangler line span <;> simp

end Line

namespace Stream

section

variable (written : List UInt8 → List UInt8)

/-- Lines of which all bytes have been accepted, and the line behind them of which not all have. -/
inductive CameTo (lines : List (List UInt8)) (accepted : List UInt8) :
    List (List UInt8) → Option (List UInt8) → Prop where
  | finish : accepted = (lines.map written).flatten → CameTo lines accepted lines none
  | within (finished : List (List UInt8)) (bytes : List UInt8) (rest : List (List UInt8))
      (begun : List UInt8) :
      lines = finished ++ bytes :: rest → accepted = (finished.map written).flatten ++ begun →
        begun <+: written bytes → begun ≠ written bytes →
        CameTo lines accepted finished (some bytes)

variable {written} {lines finished : List (List UInt8)} {accepted : List UInt8}
  {broken : Option (List UInt8)}

theorem CameTo.cons (hcame : CameTo written lines accepted finished broken) (bytes : List UInt8) :
    CameTo written (bytes :: lines) (written bytes ++ accepted) (bytes :: finished) broken := by
  cases hcame with
  | finish haccepted => exact .finish (by rw [haccepted, List.map_cons, List.flatten_cons])
  | within _ next rest begun hlines haccepted hbegins hne =>
      refine .within _ next rest begun (by rw [hlines, List.cons_append]) ?_ hbegins hne
      rw [haccepted, List.map_cons, List.flatten_cons, List.append_assoc]

theorem CameTo.breaksOff {bytes : List UInt8}
    (hcame : CameTo written lines accepted finished (some bytes)) :
    BreaksOff (lines.map written) accepted := by
  cases hcame with
  | within _ _ rest begun hlines haccepted hbegins hne =>
      refine ⟨finished.map written, written bytes, rest.map written, begun, ?_, haccepted, hbegins,
        hne⟩
      rw [hlines, List.map_append, List.map_cons]

/-- Only lines of which all have been written are accepted as a whole. -/
theorem CameTo.eq_of_whole (hcame : CameTo written lines accepted finished broken)
    (hwhole : accepted = (lines.map written).flatten) : broken = none ∧ finished = lines := by
  cases broken with
  | some bytes => exact absurd hwhole hcame.breaksOff.ne
  | none =>
      cases hcame with
      | finish _ => exact ⟨rfl, rfl⟩

end

variable (demangler : Demangler) (brackets : Bool)

def refusals (bytes : List UInt8) : List LogRecord := Line.refusals demangler (withoutNewline bytes)

/-- The records for a line that has been written. -/
def lineRecords (bytes : List UInt8) (number : Nat) : List LogRecord :=
  refusals demangler bytes ++ [.lineWritten number (namesIn demangler bytes)]

theorem loggedFor_eq (bytes : List UInt8) :
    loggedFor demangler bytes = refusals demangler bytes :=
  Line.leftAsIs_attempts demangler (withoutNewline bytes)

/-- The totals of the lines before give the numbers of the lines. -/
theorem recordsOf_eq (totals : Totals) (lines : List (List UInt8)) :
    recordsOf demangler totals lines =
      (lines.zipIdx (totals.lines + 1)).flatMap fun entry =>
        lineRecords demangler entry.1 entry.2 := by
  induction lines generalizing totals with
  | nil => rfl
  | cons bytes lines ih =>
      rw [recordsOf, ih, loggedFor_eq, List.zipIdx_cons, List.flatMap_cons, lineRecords,
        List.append_assoc]
      rfl

theorem log_finish {σ : Type} [Output σ] (totals : Totals) (output : σ) (log : Array LogRecord) :
    (finish totals output log).log = log := by
  unfold finish
  split <;> rfl

theorem log_filterLines_nil {σ : Type} [Output σ] (ending : Option Fault) (totals : Totals)
    (output : σ) (log : Array LogRecord) :
    (filterLines demangler brackets ending [] totals output log).log = log := by
  cases ending with
  | none => exact log_finish totals output log
  | some kind => rfl

theorem taken_finish (totals : Totals) (sink : Sink) (log : Array LogRecord) :
    (finish totals sink log).output.taken = sink.taken := by
  have hflush : Output.flush sink =
      (sink.flushFault, { sink with flushes := sink.flushes + 1 }) := rfl
  rw [finish, hflush]
  generalize sink.flushFault = flushFault
  cases flushFault <;> rfl

theorem taken_filterLines_nil (ending : Option Fault) (totals : Totals) (sink : Sink)
    (log : Array LogRecord) :
    (filterLines demangler brackets ending [] totals sink log).output.taken = sink.taken := by
  cases ending with
  | none => exact taken_finish totals sink log
  | some kind => rfl

/-- A line adds its records as it is written, or what it has recorded when writing fails. -/
theorem log_filterLines_sink (ending : Option Fault) (lines : List (List UInt8)) (totals : Totals)
    (sink : Sink) (log : Array LogRecord) :
    let run := filterLines demangler brackets ending lines totals sink log
    ∃ accepted finished broken, run.output.taken = sink.taken ++ accepted ∧
      CameTo (writtenLine demangler brackets) lines accepted finished broken ∧
      run.log.toList = log.toList ++ (recordsOf demangler totals finished ++
        broken.toList.flatMap (refusals demangler)) := by
  induction lines generalizing totals sink log with
  | nil =>
      refine ⟨[], [], none, ?_, .finish rfl, ?_⟩
      · rw [taken_filterLines_nil, List.append_nil]
      · rw [log_filterLines_nil]
        exact (List.append_nil _).symm
  | cons bytes lines ih =>
      obtain ⟨used, part, hprogress, -, hbegins, hwhole⟩ :=
        Sink.writeFrom_spec sink sink.script (writtenLine demangler brackets bytes)
      simp only [filterLines]
      cases hwrite : Output.writeAll sink (writtenLine demangler brackets bytes) with
      | mk fault next =>
          change sink.writeFrom sink.script _ = (fault, next) at hwrite
          rw [hwrite] at hprogress hwhole
          have htaken : next.taken = sink.taken ++ part := hprogress.taken
          cases fault with
          | some kind =>
              have hne : part ≠ writtenLine demangler brackets bytes := by simpa using hwhole
              refine ⟨part, [], some bytes, htaken, .within [] bytes lines part rfl rfl hbegins hne,
                ?_⟩
              rw [Array.toList_appendList, loggedFor_eq]
              simp [recordsOf]
          | none =>
              obtain rfl : part = writtenLine demangler brackets bytes := hwhole.mpr rfl
              obtain ⟨accepted, finished, broken, haccepted, hcame, hlog⟩ :=
                ih (totals.add (namesIn demangler bytes)) next
                  ((log ++ loggedFor demangler bytes).push (.lineWritten
                    (totals.add (namesIn demangler bytes)).lines (namesIn demangler bytes)))
              refine ⟨_, _, broken, ?_, hcame.cons bytes, ?_⟩
              · rw [haccepted, htaken, List.append_assoc]
              · rw [hlog, Array.toList_push, Array.toList_appendList, recordsOf]
                simp only [List.append_assoc, List.cons_append, List.nil_append]

theorem log_filter_sink (source : Source) (sink : Sink) :
    let run := filter demangler brackets source sink
    ∃ accepted finished broken, run.output.taken = sink.taken ++ accepted ∧
      CameTo (writtenLine demangler brackets) source.read.1 accepted finished broken ∧
      run.log.toList =
        ((finished.zipIdx 1).flatMap fun entry => lineRecords demangler entry.1 entry.2) ++
          broken.toList.flatMap (refusals demangler) := by
  intro run
  have hrun : run = filterLines demangler brackets source.read.2 source.read.1 ⟨0, 0⟩ sink #[] :=
    filter_eq_filterLines demangler brackets source sink
  obtain ⟨accepted, finished, broken, haccepted, hcame, hlog⟩ :=
    log_filterLines_sink demangler brackets source.read.2 source.read.1 ⟨0, 0⟩ sink #[]
  refine ⟨accepted, finished, broken, hrun ▸ haccepted, hcame, ?_⟩
  rw [hrun, hlog, recordsOf_eq]
  rfl

/-- The numbers of the lines that have been written, each with the number of names in the line. -/
def linesToldOf (log : List LogRecord) : List (Nat × Nat) := log.filterMap LogRecord.written?

theorem linesToldOf_append (log other : List LogRecord) :
    linesToldOf (log ++ other) = linesToldOf log ++ linesToldOf other :=
  List.filterMap_append

theorem linesToldOf_refusals (bytes : List UInt8) :
    linesToldOf (refusals demangler bytes) = [] := by
  rw [linesToldOf, refusals, Line.refusals, List.filterMap_filterMap]
  apply List.filterMap_eq_nil_iff.mpr
  intro span _
  rw [Line.refusalAt?]
  cases demangler (Text.ofAscii (span.of (withoutNewline bytes).toArray)) <;> rfl

theorem linesToldOf_lineRecords (bytes : List UInt8) (number : Nat) :
    linesToldOf (lineRecords demangler bytes number) = [(number, namesIn demangler bytes)] := by
  rw [lineRecords, linesToldOf_append, linesToldOf_refusals]
  rfl

theorem linesToldOf_records (finished : List (List UInt8)) (broken : Option (List UInt8))
    (number : Nat) :
    linesToldOf
        (((finished.zipIdx number).flatMap fun entry => lineRecords demangler entry.1 entry.2) ++
          broken.toList.flatMap (refusals demangler)) =
      (finished.zipIdx number).map fun entry => (entry.2, namesIn demangler entry.1) := by
  have hbroken : linesToldOf (broken.toList.flatMap (refusals demangler)) = [] := by
    cases broken with
    | none => rfl
    | some bytes =>
        rw [Option.toList_some, List.flatMap_singleton]
        exact linesToldOf_refusals demangler bytes
  rw [linesToldOf_append, hbroken, List.append_nil]
  induction finished generalizing number with
  | nil => rfl
  | cons bytes finished ih =>
      rw [List.zipIdx_cons, List.flatMap_cons, linesToldOf_append, ih, linesToldOf_lineRecords]
      rfl

theorem getLast?_range'_one (count : Nat) : (List.range' 1 count).getLast?.getD 0 = count := by
  rw [List.getLast?_range']
  split
  next hzero => exact hzero.symm
  next => exact Nat.add_sub_cancel_left 1 count

/-- A run that succeeds has written all that it has read. -/
theorem whole_of_ok (source : Source) {script : List WriteAnswer} {flushFault : Option Fault}
    {totals : Totals}
    (hok : (filter demangler brackets source (Sink.new script flushFault)).result = .ok totals) :
    (filter demangler brackets source (Sink.new script flushFault)).output.taken =
        ((source.read.1).map (writtenLine demangler brackets)).flatten ∧
      readTotals demangler source = totals := by
  obtain ⟨-, fault, -, -, hwhole, -, hresult⟩ :=
    filter_sink_spec demangler brackets source script flushFault
  rw [hok] at hresult
  generalize hending : (fault.or source.read.2).or flushFault = ending at hresult
  cases ending with
  | some kind => cases hresult
  | none =>
      obtain ⟨hfault, -⟩ := Option.or_eq_none_iff.mp (Option.or_eq_none_iff.mp hending).1
      rw [hfault] at hwhole
      exact ⟨hwhole, (Except.ok.inj hresult).symm⟩

/-- **The log tells exactly what has happened.** For every line that has been written it has the
records of the candidates without a name, from left to right, and then the record of the line; for a
line at which writing failed it has the former only. Lines are numbered from 1 without gaps. If the
run succeeds, all lines that are read have been written, and the last number and the sum of all names
are what it returns. On every line, the names and the records of candidates are as many as there are
candidates. The record of a candidate has it between quotation marks, as it is in the line. -/
theorem filter_records (source : Source) (script : List WriteAnswer) (flushFault : Option Fault) :
    let run := filter demangler brackets source (Sink.new script flushFault)
    let log := run.log.toList
    ∃ finished broken,
      CameTo (writtenLine demangler brackets) source.read.1 run.output.taken finished broken ∧
        log = ((finished.zipIdx 1).flatMap fun entry => lineRecords demangler entry.1 entry.2) ++
          broken.toList.flatMap (refusals demangler) ∧
        (linesToldOf log).map Prod.fst = List.range' 1 finished.length ∧
        (∀ totals, run.result = .ok totals →
          broken = none ∧ finished = source.read.1 ∧
            totals.lines = ((linesToldOf log).map Prod.fst).getLast?.getD 0 ∧
            totals.translated = ((linesToldOf log).map Prod.snd).sum) ∧
        (∀ bytes ∈ source.read.1, namesIn demangler bytes + (refusals demangler bytes).length =
          (Line.candidates (withoutNewline bytes)).length) ∧
        (∀ candidate failure, (LogRecord.leftAsIs candidate failure).text =
          "DEBUG leaving " ++ Text.quoted candidate ++ " as is: " ++ failure.message) ∧
        (∀ line, ∀ span ∈ Line.candidates line,
          let candidate := Text.ofAscii (span.of line.toArray)
          Text.quoted candidate = "\"" ++ candidate ++ "\"") ∧
        ∀ line names, (LogRecord.lineWritten line names).text =
          "TRACE line " ++ toString line ++ ": " ++ toString names ++ " name(s) demangled" := by
  intro run log
  obtain ⟨accepted, finished, broken, haccepted, hcame, hlog⟩ :=
    log_filter_sink demangler brackets source (Sink.new script flushFault)
  obtain rfl : run.output.taken = accepted := haccepted
  have htold : linesToldOf log =
      (finished.zipIdx 1).map fun entry => (entry.2, namesIn demangler entry.1) := by
    rw [← linesToldOf_records demangler finished broken 1, ← hlog]
  have hnumbers : (linesToldOf log).map Prod.fst = List.range' 1 finished.length := by
    rw [htold, List.map_map]
    exact List.zipIdx_map_snd 1 finished
  have hnames : (linesToldOf log).map Prod.snd = finished.map (namesIn demangler) := by
    rw [htold, List.map_map]
    change (finished.zipIdx 1).map (namesIn demangler ∘ Prod.fst) = _
    rw [← List.map_map, List.zipIdx_map_fst]
  refine ⟨finished, broken, hcame, hlog, hnumbers, ?_, ?_, ?_, ?_, ?_⟩
  · intro totals hok
    obtain ⟨hwhole, rfl⟩ := whole_of_ok demangler brackets source hok
    obtain ⟨rfl, rfl⟩ := hcame.eq_of_whole hwhole
    refine ⟨rfl, rfl, ?_, ?_⟩
    · rw [hnumbers, getLast?_range'_one]
      rfl
    · rw [hnames]
      rfl
  · exact fun bytes _ => Line.translated_add_length_refusals demangler (withoutNewline bytes)
  · exact LogRecord.text_leftAsIs
  · exact fun line span hmem => Line.quoted_candidate hmem
  · exact LogRecord.text_lineWritten

/-- The first line goes out in two parts, and a candidate of the second one has no name. -/
theorem filter_records_refused_candidate :
    let source : Source := ⟨[], [.bytes (Text.utf8 "a_Zf\n_Zg _Zf")]⟩
    let run := filter (Line.knowing "_Zf" "f()") true source (Sink.new [.accept 3] none)
    run.result = .ok ⟨2, 2⟩ ∧
      ((linesToldOf run.log.toList).map Prod.fst).getLast?.getD 0 = 2 ∧
      namesIn (Line.knowing "_Zf" "f()") (Text.utf8 "_Zg _Zf") +
        (refusals (Line.knowing "_Zf" "f()") (Text.utf8 "_Zg _Zf")).length = 2 ∧
      refusals (Line.knowing "_Zf" "f()") (Text.utf8 "_Zg _Zf") = [.leftAsIs "_Zg" .invalidName] ∧
      (LogRecord.leftAsIs "_Zg" .invalidName).text =
        "DEBUG leaving \"_Zg\" as is: invalid mangled name" := by
  intro source run
  have hok : run.result = .ok ⟨2, 2⟩ := by decide +kernel
  have hread : Text.utf8 "_Zg _Zf" ∈ source.read.1 := by decide +kernel
  obtain ⟨finished, broken, -, -, -, htotals, hcount, htext, hquoted, -⟩ :=
    filter_records (Line.knowing "_Zf" "f()") true source [.accept 3] none
  obtain ⟨-, -, hlast, -⟩ := htotals ⟨2, 2⟩ hok
  have hcandidates : (Line.candidates (withoutNewline (Text.utf8 "_Zg _Zf"))).length = 2 := by
    decide +kernel
  have hspan : ⟨0, 3⟩ ∈ Line.candidates (Text.utf8 "_Zg _Zf") := by decide +kernel
  have hcandidate : Text.ofAscii (Line.Span.of ⟨0, 3⟩ (Text.utf8 "_Zg _Zf").toArray) = "_Zg" := by
    decide +kernel
  have hmarks := hquoted (Text.utf8 "_Zg _Zf") ⟨0, 3⟩ hspan
  simp only [hcandidate] at hmarks
  have hrun : run = filter (Line.knowing "_Zf" "f()") true source (Sink.new [.accept 3] none) := rfl
  rw [hrun] at hok ⊢
  refine ⟨hok, hlast.symm, (hcount _ hread).trans hcandidates, by decide +kernel, ?_⟩
  rw [htext, hmarks]
  decide +kernel

end Stream

end MangledNames

import MangledNames.Proofs.Line.Invariant

/-!
# What comes of the pieces of a line

The demangler is asked about each candidate among the pieces. Its name is a segment of its own, and
all else joins the literal segment that is open (`segmentsOf`).

From every state of a scan it can be told what the scan will have found, out of the pieces of the
text that is not yet known to be literal. A turn changes the state and not what it foretells
(`foretold_turn`). A scan begins by foretelling what comes of the pieces of the line, and ends with
what it foretells, so the two are equal (`scan_eq`). All that is written or counted follows.
-/

namespace MangledNames.Line

def Piece.candidate? : Piece → Option (List UInt8)
  | single _ => none
  | candidate bytes => some bytes

section Pieces

variable (demangler : Demangler)

def attemptOn (bytes : List UInt8) : Attempt :=
  ⟨Text.ofAscii bytes, demangler (Text.ofAscii bytes)⟩

def attemptsOf (rest : List Piece) : List Attempt :=
  (rest.filterMap Piece.candidate?).map (attemptOn demangler)

/-- What is written for a piece. -/
def Piece.written (brackets : Bool) : Piece → List UInt8
  | single byte => [byte]
  | candidate bytes =>
    match demangler (Text.ofAscii bytes) with
    | .ok name => bracketed brackets '['.toUInt8 ']'.toUInt8 (Text.utf8 name)
    | .error _ => bytes

def Piece.isTranslated : Piece → Bool
  | single _ => false
  | candidate bytes => (demangler (Text.ofAscii bytes)).toOption.isSome

/-- A literal segment, unless it is empty. -/
def literalBetween (start stop : Nat) : List Segment :=
  if start < stop then [.literal ⟨start, stop⟩] else []

/-- The segments of pieces from a position, where a literal segment is open. -/
def segmentsOf : Nat → Nat → List Piece → List Segment
  | literalFrom, pos, [] => literalBetween literalFrom pos
  | literalFrom, pos, .single _ :: rest => segmentsOf literalFrom (pos + 1) rest
  | literalFrom, pos, .candidate bytes :: rest =>
    match demangler (Text.ofAscii bytes) with
    | .ok name =>
      literalBetween literalFrom pos ++
        .translated ⟨pos, pos + bytes.length⟩ name ::
          segmentsOf (pos + bytes.length) (pos + bytes.length) rest
    | .error _ => segmentsOf literalFrom (pos + bytes.length) rest

end Pieces

theorem attemptsOf_single (demangler : Demangler) (byte : UInt8) (rest : List Piece) :
    attemptsOf demangler (.single byte :: rest) = attemptsOf demangler rest := rfl

theorem attemptsOf_candidate (demangler : Demangler) (bytes : List UInt8) (rest : List Piece) :
    attemptsOf demangler (.candidate bytes :: rest) =
      attemptOn demangler bytes :: attemptsOf demangler rest := rfl

theorem attemptsOf_append (demangler : Demangler) (left right : List Piece) :
    attemptsOf demangler (left ++ right) =
      attemptsOf demangler left ++ attemptsOf demangler right := by
  rw [attemptsOf, List.filterMap_append, List.map_append]
  rfl

namespace Scanner

variable {demangler : Demangler} {line : List UInt8} {scanner : Scanner}

/-- The pieces of the text that is not known to be literal. -/
def remaining (line : List UInt8) (scanner : Scanner) : List Piece :=
  match scanner.mode with
  | .outside => pieces scanner.rest
  | .held => pieces (underscore :: scanner.rest)
  | .token start =>
    .candidate
        (Span.of ⟨start, scanner.pos⟩ line.toArray ++ scanner.rest.takeWhile isTokenByte) ::
      pieces (scanner.rest.dropWhile isTokenByte)

def foretold (demangler : Demangler) (line : List UInt8) (scanner : Scanner) : Scan :=
  ⟨scanner.segments.toList ++
      segmentsOf demangler scanner.literalFrom scanner.origin (scanner.remaining line),
    scanner.attempts.toList ++ attemptsOf demangler (scanner.remaining line)⟩

@[simp]
theorem literalFrom_pushName (span : Span) (name : String) :
    (scanner.pushName span name).literalFrom = span.stop := rfl

@[simp]
theorem attempts_pushName (span : Span) (name : String) :
    (scanner.pushName span name).attempts = scanner.attempts := rfl

@[simp]
theorem literalFrom_record (attempt : Attempt) :
    (scanner.record attempt).literalFrom = scanner.literalFrom := rfl

@[simp]
theorem segments_record (attempt : Attempt) :
    (scanner.record attempt).segments = scanner.segments := rfl

theorem toList_segments_endLiteral (stop : Nat) :
    (scanner.endLiteral stop).segments.toList =
      scanner.segments.toList ++ literalBetween scanner.literalFrom stop := by
  unfold endLiteral literalBetween
  by_cases hlt : scanner.literalFrom < stop
  · simp only [hlt, if_true, Array.toList_push]
  · simp only [hlt, if_false, List.append_nil]

theorem toList_segments_pushName (span : Span) (name : String) :
    (scanner.pushName span name).segments.toList =
      scanner.segments.toList ++
        (literalBetween scanner.literalFrom span.start ++ [.translated span name]) := by
  unfold pushName
  simp only [Array.toList_push, toList_segments_endLiteral, List.append_assoc]

theorem toList_attempts_record (attempt : Attempt) :
    (scanner.record attempt).attempts.toList = scanner.attempts.toList ++ [attempt] := by
  simp only [record, Array.toList_push]

/-- What the state after a candidate foretells, if these pieces follow. -/
theorem foretold_endCandidate (demangler : Demangler) {start : Nat} (hsound : Sound line scanner)
    (hmode : scanner.mode = .token start) (rest : List Piece) :
    (⟨(scanner.endCandidate demangler line.toArray start).segments.toList ++
          segmentsOf demangler (scanner.endCandidate demangler line.toArray start).literalFrom
            scanner.pos rest,
        (scanner.endCandidate demangler line.toArray start).attempts.toList ++
          attemptsOf demangler rest⟩ : Scan) =
      ⟨scanner.segments.toList ++
          segmentsOf demangler scanner.literalFrom start
            (.candidate (Span.of ⟨start, scanner.pos⟩ line.toArray) :: rest),
        scanner.attempts.toList ++
          attemptsOf demangler
            (.candidate (Span.of ⟨start, scanner.pos⟩ line.toArray) :: rest)⟩ := by
  have hstart := hsound.start_le hmode
  have hstop : start + (Span.of ⟨start, scanner.pos⟩ line.toArray).length = scanner.pos := by
    rw [Span.length_of hsound.pos_le]
    omega
  rw [hsound.endCandidate_eq hmode]
  simp only [segmentsOf, attemptsOf_candidate, attemptOn, hstop, candidateAt]
  split
  next name hanswer =>
      simp only [toList_segments_pushName, literalFrom_pushName, attempts_pushName,
        literalFrom_record, segments_record, toList_attempts_record, List.append_assoc,
        List.cons_append, List.nil_append, hanswer]
  next failure hanswer =>
      simp only [literalFrom_record, segments_record, toList_attempts_record, List.append_assoc,
        List.cons_append, List.nil_append, hanswer]

theorem foretold_step (hsound : Sound line scanner) {byte : UInt8} {rest : List UInt8}
    (hrest : scanner.rest = byte :: rest) {next : Scanner}
    (hstep : Step demangler line.toArray scanner byte rest next) :
    foretold demangler line next = foretold demangler line scanner := by
  have hdrop := hsound.drop_eq hrest
  cases hstep with
  | pass hmode hbyte =>
      simp only [foretold, origin, remaining, advance, hmode, hrest, pieces_cons_of_ne hbyte,
        segmentsOf, attemptsOf_single]
  | hold hmode hbyte =>
      subst hbyte
      simp only [foretold, origin, remaining, advance, hmode, hrest, Nat.add_sub_cancel]
  | release hmode hbyte =>
      have hpos := (hsound.underscore_before hmode).1
      have hnext : scanner.pos - 1 + 1 + 1 = scanner.pos + 1 := by omega
      simp only [foretold, origin, remaining, advance, hmode, hrest,
        pieces_underscore_of_ne hbyte, segmentsOf, attemptsOf_single, hnext]
  | mark hmode hbyte =>
      subst hbyte
      simp only [foretold, origin, remaining, advance, hmode, hrest, hsound.of_mark hmode hdrop,
        pieces_mark, List.cons_append, List.nil_append]
  | @collect start hmode hbyte =>
      have hgrow : Span.of ⟨start, scanner.pos + 1⟩ line.toArray =
          Span.of ⟨start, scanner.pos⟩ line.toArray ++ [byte] :=
        Span.of_succ (hsound.start_le hmode) hdrop
      simp only [foretold, origin, remaining, advance, hmode, hrest, hbyte, if_true, hgrow,
        List.takeWhile_cons, List.dropWhile_cons, List.append_assoc, List.cons_append,
        List.nil_append]
  | leave hmode hbyte =>
      -- the byte is not cut off yet, so the pieces ahead begin with it
      have hend := foretold_endCandidate demangler hsound hmode (pieces (byte :: rest))
      simp only [foretold, origin, remaining, hmode, hrest, hbyte, rest_endCandidate,
        pos_endCandidate, Bool.false_eq_true, if_false, List.takeWhile_cons, List.dropWhile_cons,
        List.append_nil]
      exact hend

/-- **A turn changes nothing that is foretold.** -/
theorem foretold_turn (hsound : Sound line scanner) :
    foretold demangler line (scanner.turn demangler line.toArray) =
      foretold demangler line scanner := by
  cases hrest : scanner.rest with
  | nil => rw [turn_of_rest_eq_nil line.toArray hrest]
  | cons byte rest => exact foretold_step hsound hrest (step_turn demangler line.toArray hrest)

/-- At the end of the line the scanner has found what it foretells. -/
theorem found_finish (hsound : Sound line scanner) (hrest : scanner.rest = []) :
    (⟨(scanner.finish demangler line.toArray).segments.toList,
        (scanner.finish demangler line.toArray).attempts.toList⟩ : Scan) =
      foretold demangler line scanner := by
  have hpos := hsound.rest_eq_nil_iff.mp hrest
  unfold finish
  cases hmode : scanner.mode with
  | outside =>
      simp only [foretold, origin, remaining, hmode, hrest, pieces_nil, segmentsOf,
        toList_segments_endLiteral, List.size_toArray, ← hpos]
      exact congrArg _ (List.append_nil _).symm
  | held =>
      have hback : scanner.pos - 1 + 1 = scanner.pos :=
        Nat.sub_add_cancel (hsound.underscore_before hmode).1
      simp only [foretold, origin, remaining, hmode, hrest, pieces_underscore, segmentsOf,
        attemptsOf_single, toList_segments_endLiteral, List.size_toArray, ← hpos, hback]
      exact congrArg _ (List.append_nil _).symm
  | token start =>
      have hend := foretold_endCandidate demangler hsound hmode []
      simp only [foretold, origin, remaining, hmode, hrest, List.takeWhile_nil,
        List.dropWhile_nil, List.append_nil, pieces_nil]
      rw [← hend]
      simp only [toList_segments_endLiteral, List.size_toArray, ← hpos, segmentsOf]
      exact congrArg _ (List.append_nil _).symm

end Scanner

/-- **A scan finds what comes of the pieces of the line.** -/
theorem scan_eq (demangler : Demangler) (line : List UInt8) :
    scan demangler line =
      ⟨segmentsOf demangler 0 0 (pieces line), attemptsOf demangler (pieces line)⟩ := by
  have hstart := Scanner.sound_start line
  have hsound : ((Scanner.start line).turns demangler line.toArray (2 * line.length)).Sound line :=
    hstart.turns (2 * line.length)
  have hwork : (Scanner.start line).work ≤ 2 * line.length := Nat.le_refl _
  have hrest : ((Scanner.start line).turns demangler line.toArray (2 * line.length)).rest = [] :=
    Scanner.rest_turns_eq_nil line.toArray hwork
  unfold scan
  simp only
  rw [Scanner.found_finish hsound hrest,
    hstart.turns_eq (Scanner.foretold demangler line) Scanner.foretold_turn]
  rfl

/-- The text from a position on is cut into these pieces. -/
structure CutFrom (line : List UInt8) (pos : Nat) (rest : List Piece) : Prop where
  drop_eq : line.drop pos = rest.flatMap Piece.bytes
  isCandidateText : ∀ bytes, .candidate bytes ∈ rest → IsCandidateText bytes

theorem cutFrom_pieces (line : List UInt8) : CutFrom line 0 (pieces line) where
  drop_eq := (flatMap_bytes_pieces line).symm
  isCandidateText := fun _ => isCandidateText_of_mem

section CutFrom

variable {line : List UInt8} {pos : Nat} {piece : Piece} {rest : List Piece}

theorem CutFrom.next (hcut : CutFrom line pos (piece :: rest)) :
    CutFrom line (pos + piece.bytes.length) rest where
  drop_eq := by
    rw [← List.drop_drop, hcut.drop_eq, List.flatMap_cons, List.drop_left]
  isCandidateText := fun bytes hmem =>
    hcut.isCandidateText bytes (List.mem_cons_of_mem _ hmem)

theorem CutFrom.of_next (hcut : CutFrom line pos (piece :: rest)) {start : Nat}
    (hstart : start ≤ pos) :
    Span.of ⟨start, pos + piece.bytes.length⟩ line.toArray =
      Span.of ⟨start, pos⟩ line.toArray ++ piece.bytes :=
  Span.of_append hstart hcut.drop_eq

theorem CutFrom.of_piece (hcut : CutFrom line pos (piece :: rest)) :
    Span.of ⟨pos, pos + piece.bytes.length⟩ line.toArray = piece.bytes := by
  rw [hcut.of_next (Nat.le_refl pos), Span.of_self, List.nil_append]

end CutFrom

/-! ### What is written and counted -/

theorem flatMap_bytes_literalBetween (line : List UInt8) (brackets : Bool) {start stop : Nat}
    (hle : start ≤ stop) :
    (literalBetween start stop).flatMap (Segment.bytes line.toArray brackets) =
      Span.of ⟨start, stop⟩ line.toArray := by
  unfold literalBetween
  by_cases hlt : start < stop
  · simp only [hlt, if_true, List.flatMap_cons, List.flatMap_nil, List.append_nil, Segment.bytes]
  · have heq : start = stop := by omega
    subst heq
    simp only [hlt, if_false, List.flatMap_nil, Span.of_self]

/-- The bytes of the open literal segment come before what is written for the pieces. -/
theorem flatMap_bytes_segmentsOf (demangler : Demangler) (brackets : Bool) {line : List UInt8}
    {rest : List Piece} {literalFrom pos : Nat} (hcut : CutFrom line pos rest)
    (hle : literalFrom ≤ pos) :
    (segmentsOf demangler literalFrom pos rest).flatMap (Segment.bytes line.toArray brackets) =
      Span.of ⟨literalFrom, pos⟩ line.toArray ++
        rest.flatMap (Piece.written demangler brackets) := by
  induction rest generalizing literalFrom pos with
  | nil =>
      rw [segmentsOf, flatMap_bytes_literalBetween line brackets hle, List.flatMap_nil,
        List.append_nil]
  | cons piece rest ih =>
      cases piece with
      | single byte =>
          have hnext : CutFrom line (pos + 1) rest := hcut.next
          have hgrow : Span.of ⟨literalFrom, pos + 1⟩ line.toArray = _ ++ [byte] :=
            hcut.of_next hle
          rw [segmentsOf, ih hnext (Nat.le_succ_of_le hle), hgrow, List.flatMap_cons,
            List.append_assoc]
          rfl
      | candidate bytes =>
          have hnext : CutFrom line (pos + bytes.length) rest := hcut.next
          have hgrow : Span.of ⟨literalFrom, pos + bytes.length⟩ line.toArray = _ ++ bytes :=
            hcut.of_next hle
          rw [segmentsOf, List.flatMap_cons, Piece.written]
          split
          next name _ =>
              rw [List.flatMap_append, flatMap_bytes_literalBetween line brackets hle,
                List.flatMap_cons, ih hnext (Nat.le_refl _), Span.of_self, List.nil_append]
              rfl
          next failure _ =>
              rw [ih hnext (Nat.le_trans hle (Nat.le_add_right _ _)), hgrow, List.append_assoc]

/-- The line with every name in place of its candidate. -/
def rewritten (demangler : Demangler) (brackets : Bool) (line : List UInt8) : List UInt8 :=
  (scan demangler line).bytes line brackets

theorem rewritten_eq (demangler : Demangler) (brackets : Bool) (line : List UInt8) :
    rewritten demangler brackets line =
      (pieces line).flatMap (Piece.written demangler brackets) := by
  have hbytes := flatMap_bytes_segmentsOf demangler brackets (cutFrom_pieces line)
    (Nat.le_refl 0)
  rw [Span.of_self, List.nil_append] at hbytes
  rw [rewritten, scan_eq]
  exact hbytes

theorem toList_appendTo (scan : Scan) (line : List UInt8) (brackets : Bool)
    (buffer : Array UInt8) :
    (scan.appendTo line brackets buffer).toList = buffer.toList ++ scan.bytes line brackets := by
  unfold Scan.appendTo Scan.bytes
  induction scan.segments generalizing buffer with
  | nil => simp
  | cons segment segments ih =>
      rw [List.foldl_cons, ih, List.flatMap_cons, ← List.append_assoc]
      congr 1
      exact Array.toList_appendList

theorem Piece.written_of_translated {demangler : Demangler} {piece : Piece}
    (htranslated : piece.isTranslated demangler = true) :
    ∃ bytes name, piece = .candidate bytes ∧ demangler (Text.ofAscii bytes) = .ok name ∧
      ∀ brackets, piece.written demangler brackets =
        bracketed brackets '['.toUInt8 ']'.toUInt8 (Text.utf8 name) := by
  cases piece with
  | single byte => cases htranslated
  | candidate bytes =>
      cases hanswer : demangler (Text.ofAscii bytes) with
      | error failure => simp [isTranslated, hanswer, Except.toOption] at htranslated
      | ok name =>
          refine ⟨bytes, name, rfl, hanswer, fun brackets => ?_⟩
          rw [written, hanswer]

theorem Piece.written_of_not_translated {demangler : Demangler} {piece : Piece}
    (hkept : piece.isTranslated demangler = false) (brackets : Bool) :
    piece.written demangler brackets = piece.bytes := by
  cases piece with
  | single byte => rfl
  | candidate bytes =>
      cases hanswer : demangler (Text.ofAscii bytes) with
      | ok name => simp [isTranslated, hanswer, Except.toOption] at hkept
      | error failure => rw [written, hanswer, Piece.bytes]

/-- If no candidate has a name, the line stays as it is. -/
theorem rewritten_of_failures {demangler : Demangler} {line : List UInt8}
    (hfailures : ∀ attempt ∈ (scan demangler line).attempts,
      ∃ failure, attempt.answer = .error failure) (brackets : Bool) :
    rewritten demangler brackets line = line := by
  have hwritten : ∀ piece ∈ pieces line, piece.written demangler brackets = piece.bytes := by
    intro piece hmem
    cases piece with
    | single byte => rfl
    | candidate bytes =>
        have hattempt : attemptOn demangler bytes ∈ (scan demangler line).attempts := by
          rw [scan_eq]
          apply List.mem_map_of_mem
          exact List.mem_filterMap.mpr ⟨.candidate bytes, hmem, rfl⟩
        obtain ⟨failure, hanswer⟩ := hfailures _ hattempt
        change demangler (Text.ofAscii bytes) = .error failure at hanswer
        rw [Piece.written, hanswer, Piece.bytes]
  calc
    rewritten demangler brackets line =
        (pieces line).flatMap (Piece.written demangler brackets) :=
      rewritten_eq demangler brackets line
    _ = (pieces line).flatMap Piece.bytes := List.flatMap_congr hwritten
    _ = line := flatMap_bytes_pieces line

theorem countP_segmentsOf (demangler : Demangler) (rest : List Piece) (literalFrom pos : Nat) :
    (segmentsOf demangler literalFrom pos rest).countP Segment.isTranslated =
      rest.countP (Piece.isTranslated demangler) := by
  have hliteral : ∀ start stop, (literalBetween start stop).countP Segment.isTranslated = 0 := by
    intro start stop
    unfold literalBetween
    split <;> rfl
  induction rest generalizing literalFrom pos with
  | nil => exact hliteral _ _
  | cons piece rest ih =>
      cases piece with
      | single byte =>
          rw [segmentsOf, ih]
          simp [Piece.isTranslated]
      | candidate bytes =>
          rw [segmentsOf]
          split
          next name hanswer =>
              rw [List.countP_append, hliteral, List.countP_cons, ih]
              simp [Piece.isTranslated, Segment.isTranslated, hanswer, Except.toOption]
          next failure hanswer =>
              rw [ih]
              simp [Piece.isTranslated, hanswer, Except.toOption]

theorem translated_scan (demangler : Demangler) (line : List UInt8) :
    (scan demangler line).translated = (pieces line).countP (Piece.isTranslated demangler) := by
  rw [scan_eq]
  exact countP_segmentsOf demangler (pieces line) 0 0

theorem attempts_scan (demangler : Demangler) (line : List UInt8) :
    (scan demangler line).attempts = attemptsOf demangler (pieces line) := by
  rw [scan_eq]

section Separator

variable (demangler : Demangler) (left right : List UInt8) {separator : UInt8}
  (hseparator : isTokenByte separator = false)

include hseparator

theorem rewritten_separator (brackets : Bool) :
    rewritten demangler brackets (left ++ separator :: right) =
      rewritten demangler brackets left ++ separator :: rewritten demangler brackets right := by
  rw [rewritten_eq, rewritten_eq, rewritten_eq, pieces_separator left right hseparator,
    List.flatMap_append, List.flatMap_cons]
  rfl

theorem translated_scan_separator :
    (scan demangler (left ++ separator :: right)).translated =
      (scan demangler left).translated + (scan demangler right).translated := by
  rw [translated_scan, translated_scan, translated_scan, pieces_separator left right hseparator,
    List.countP_append, List.countP_cons_of_neg]
  simp [Piece.isTranslated]

theorem attempts_scan_separator :
    (scan demangler (left ++ separator :: right)).attempts =
      (scan demangler left).attempts ++ (scan demangler right).attempts := by
  rw [attempts_scan, attempts_scan, attempts_scan, pieces_separator left right hseparator,
    attemptsOf_append, attemptsOf_single]

end Separator

/-- Of an answer, the segments show the name, or that there is none. -/
theorem segmentsOf_candidate (demangler : Demangler) (literalFrom pos : Nat) (bytes : List UInt8)
    (rest : List Piece) :
    segmentsOf demangler literalFrom pos (.candidate bytes :: rest) =
      (demangler (Text.ofAscii bytes)).toOption.elim
        (segmentsOf demangler literalFrom (pos + bytes.length) rest) fun name =>
          literalBetween literalFrom pos ++
            .translated ⟨pos, pos + bytes.length⟩ name ::
              segmentsOf demangler (pos + bytes.length) (pos + bytes.length) rest := by
  rw [segmentsOf]
  cases demangler (Text.ofAscii bytes) with
  | ok name => rfl
  | error failure => rfl

theorem segmentsOf_congr {demangler other : Demangler} {rest : List Piece}
    (hagree : ∀ attempt ∈ attemptsOf demangler rest,
      (other attempt.candidate).toOption = attempt.answer.toOption)
    (literalFrom pos : Nat) :
    segmentsOf other literalFrom pos rest = segmentsOf demangler literalFrom pos rest := by
  induction rest generalizing literalFrom pos with
  | nil => rfl
  | cons piece rest ih =>
      cases piece with
      | single byte => exact ih hagree literalFrom (pos + 1)
      | candidate bytes =>
          rw [attemptsOf_candidate, List.forall_mem_cons] at hagree
          have hname : (other (Text.ofAscii bytes)).toOption =
              (demangler (Text.ofAscii bytes)).toOption := hagree.1
          rw [segmentsOf_candidate, segmentsOf_candidate, hname]
          simp only [ih hagree.2]

theorem attemptsOf_congr {demangler other : Demangler} {rest : List Piece}
    (hagree : ∀ attempt ∈ attemptsOf demangler rest, other attempt.candidate = attempt.answer) :
    attemptsOf other rest = attemptsOf demangler rest := by
  apply List.map_congr_left
  intro bytes hmem
  have hanswer : other (Text.ofAscii bytes) = demangler (Text.ofAscii bytes) :=
    hagree _ (List.mem_map_of_mem hmem)
  rw [attemptOn, attemptOn, hanswer]

/-- A scan knows of a demangler only what it answers on the candidates. -/
theorem scan_congr {demangler other : Demangler} {line : List UInt8}
    (hagree : ∀ attempt ∈ (scan demangler line).attempts,
      other attempt.candidate = attempt.answer) :
    scan other line = scan demangler line := by
  rw [attempts_scan] at hagree
  have hnames := fun attempt hattempt => congrArg Except.toOption (hagree attempt hattempt)
  rw [scan_eq, scan_eq, segmentsOf_congr hnames, attemptsOf_congr hagree]

/-- Knows one symbol. -/
def knowing (symbol name : String) : Demangler :=
  fun candidate => if candidate = symbol then .ok name else .error .invalidName

theorem eq_of_knowing {symbol name candidate other : String}
    (hanswer : knowing symbol name candidate = .ok other) : other = name := by
  unfold knowing at hanswer
  split at hanswer
  next => exact (Except.ok.inj hanswer).symm
  next => cases hanswer

end MangledNames.Line

import MangledNames.Proofs.Line.Assembly

/-!
# Writing a line while it is read

An emitter reads a line byte by byte and writes at once what it can. It knows neither positions nor
segments. What it keeps back is one underscore, or the token that it is collecting: a token is
written when it is complete, as its name or as it is, and the byte that ends it is read as any other
byte outside of tokens.

A scanner writes nothing before it finds a name or the end of the line, but it stands for an emitter
(`Scanner.emitter`). What this emitter has written are the segments that are closed, and the open
one up to the bytes that are kept back. A turn either reads a byte as the emitter does, or settles
the token and reads nothing, so that the byte is left to the next turn. In both cases the emitter
that comes of reading the rest is the same before and after the turn (`emitted_turn`), hence the
same at the start of the line and at its end.
-/

namespace MangledNames.Line

/-- What has been read and is not written yet. -/
inductive Pending where
  | nothing
  | underscore
  | token (collected : List UInt8)
  deriving DecidableEq, Repr

@[ext]
structure Emitter where
  pending : Pending
  written : List UInt8
  /-- What the demangler has been asked about. -/
  asked : List String

namespace Emitter

def start : Emitter := ⟨.nothing, [], []⟩

def keep (emitter : Emitter) (pending : Pending) : Emitter := { emitter with pending }

/-- Writes bytes, after which nothing is pending. -/
def write (emitter : Emitter) (bytes : List UInt8) : Emitter :=
  { emitter with pending := .nothing, written := emitter.written ++ bytes }

def readOutside (emitter : Emitter) (byte : UInt8) : Emitter :=
  if byte = underscore then emitter.keep .underscore else emitter.write [byte]

section

variable (demangler : Demangler) (brackets : Bool)

/-- Writes a token that is complete: its name, between brackets if these are asked for, or the token
itself if it has none. -/
def settle (emitter : Emitter) (token : List UInt8) : Emitter :=
  let asked := { emitter with asked := emitter.asked ++ [Text.ofAscii token] }
  match demangler (Text.ofAscii token) with
  | .ok name =>
    if brackets then asked.write (['['.toUInt8] ++ Text.utf8 name ++ [']'.toUInt8])
    else asked.write (Text.utf8 name)
  | .error _ => asked.write token

def read (emitter : Emitter) (byte : UInt8) : Emitter :=
  match emitter.pending with
  | .nothing => emitter.readOutside byte
  | .underscore =>
    if byte = capitalZ then emitter.keep (.token [underscore, capitalZ])
    else emitter.write [underscore, byte]
  | .token collected =>
    if isTokenByte byte then emitter.keep (.token (collected ++ [byte]))
    else (emitter.settle demangler brackets collected).readOutside byte

/-- At the end of the line, what is pending is written. -/
def close (emitter : Emitter) : Emitter :=
  match emitter.pending with
  | .nothing => emitter
  | .underscore => emitter.write [underscore]
  | .token collected => emitter.settle demangler brackets collected

def readAll (emitter : Emitter) (bytes : List UInt8) : Emitter :=
  bytes.foldl (read demangler brackets) emitter

section

variable {demangler brackets} {emitter : Emitter} {token : List UInt8}

theorem settle_of_ok {name : String} (hanswer : demangler (Text.ofAscii token) = .ok name) :
    emitter.settle demangler brackets token =
      { pending := .nothing
        written := emitter.written ++
          bracketed brackets '['.toUInt8 ']'.toUInt8 (Text.utf8 name)
        asked := emitter.asked ++ [Text.ofAscii token] } := by
  simp only [settle, hanswer, write]
  cases brackets <;> rfl

theorem settle_of_error {failure : Failure}
    (hanswer : demangler (Text.ofAscii token) = .error failure) :
    emitter.settle demangler brackets token =
      { pending := .nothing
        written := emitter.written ++ token
        asked := emitter.asked ++ [Text.ofAscii token] } := by
  simp only [settle, hanswer, write]

end

theorem readAll_cons (emitter : Emitter) (byte : UInt8) (bytes : List UInt8) :
    emitter.readAll demangler brackets (byte :: bytes) =
      (emitter.read demangler brackets byte).readAll demangler brackets bytes := rfl

theorem pending_settle (emitter : Emitter) (token : List UInt8) :
    (emitter.settle demangler brackets token).pending = .nothing := by
  cases hanswer : demangler (Text.ofAscii token) with
  | ok name => rw [settle_of_ok hanswer]
  | error failure => rw [settle_of_error hanswer]

/-- A byte that is left over by a token is read outside of it. -/
theorem read_settle (emitter : Emitter) (token : List UInt8) (byte : UInt8) :
    (emitter.settle demangler brackets token).read demangler brackets byte =
      (emitter.settle demangler brackets token).readOutside byte := by
  rw [read, pending_settle]

end

end Emitter

/-- What an emitter makes of a whole line. -/
def emit (demangler : Demangler) (brackets : Bool) (line : List UInt8) : Emitter :=
  (Emitter.start.readAll demangler brackets line).close demangler brackets

namespace Scanner

variable {demangler : Demangler} {brackets : Bool} {line rest : List UInt8} {scanner : Scanner}

/-! ### The emitter that a scanner stands for -/

/-- What is written of the line up to a place, if the open literal segment is closed there. -/
def writtenTo (brackets : Bool) (line : List UInt8) (scanner : Scanner) (stop : Nat) :
    List UInt8 :=
  scanner.segments.toList.flatMap (Segment.bytes line.toArray brackets) ++
    Span.of ⟨scanner.literalFrom, stop⟩ line.toArray

def pending (line : List UInt8) (scanner : Scanner) : Pending :=
  match scanner.mode with
  | .outside => .nothing
  | .held => .underscore
  | .token start => .token (Span.of ⟨start, scanner.pos⟩ line.toArray)

def emitter (brackets : Bool) (line : List UInt8) (scanner : Scanner) : Emitter where
  pending := scanner.pending line
  written := scanner.writtenTo brackets line scanner.origin
  asked := scanner.attempts.toList.map Attempt.candidate

theorem pending_outside (hmode : scanner.mode = .outside) :
    (scanner.emitter brackets line).pending = .nothing := by
  rw [emitter, pending, hmode]

theorem pending_held (hmode : scanner.mode = .held) :
    (scanner.emitter brackets line).pending = .underscore := by
  rw [emitter, pending, hmode]

theorem pending_token {start : Nat} (hmode : scanner.mode = .token start) :
    (scanner.emitter brackets line).pending =
      .token (Span.of ⟨start, scanner.pos⟩ line.toArray) := by
  rw [emitter, pending, hmode]

theorem emitter_start : (start line).emitter brackets line = Emitter.start := by
  apply Emitter.ext
  · rfl
  · exact Span.of_self line 0
  · rfl

theorem writtenTo_of_drop (brackets : Bool) {start stop : Nat} {bytes : List UInt8}
    (hle : scanner.literalFrom ≤ start) (hbytes : line.drop start = bytes ++ rest)
    (hstop : start + bytes.length = stop) :
    scanner.writtenTo brackets line stop = scanner.writtenTo brackets line start ++ bytes := by
  have hgrow := Span.of_append hle hbytes
  rw [hstop] at hgrow
  rw [writtenTo, writtenTo, hgrow, List.append_assoc]

theorem writtenTo_split (brackets : Bool) {start stop : Nat}
    (hstart : scanner.literalFrom ≤ start) (hstop : start ≤ stop)
    (hlength : stop ≤ line.length) :
    scanner.writtenTo brackets line stop =
      scanner.writtenTo brackets line start ++ Span.of ⟨start, stop⟩ line.toArray := by
  rw [writtenTo, writtenTo, Span.of_split hstart hstop hlength, List.append_assoc]

/-- Closing the open literal segment writes what it covers. -/
theorem flatMap_bytes_endLiteral {stop : Nat} (hle : scanner.literalFrom ≤ stop) :
    (scanner.endLiteral stop).segments.toList.flatMap (Segment.bytes line.toArray brackets) =
      scanner.writtenTo brackets line stop := by
  rw [toList_segments_endLiteral, List.flatMap_append,
    flatMap_bytes_literalBetween line brackets hle]
  rfl

/-- A name is written behind what comes before its candidate, and nothing is open behind it. -/
theorem writtenTo_pushName {start stop : Nat} (hle : scanner.literalFrom ≤ start) (name : String) :
    (scanner.pushName ⟨start, stop⟩ name).writtenTo brackets line stop =
      scanner.writtenTo brackets line start ++
        bracketed brackets '['.toUInt8 ']'.toUInt8 (Text.utf8 name) := by
  have hclosed : (scanner.endLiteral start).segments.toList.flatMap
      (Segment.bytes line.toArray brackets) = scanner.writtenTo brackets line start :=
    flatMap_bytes_endLiteral hle
  rw [toList_segments_endLiteral] at hclosed
  rw [writtenTo, literalFrom_pushName, Span.of_self, List.append_nil, toList_segments_pushName,
    ← List.append_assoc, List.flatMap_append, hclosed, List.flatMap_singleton]
  rfl

/-- A byte is kept if nothing more becomes known to be literal. -/
theorem emitter_advance_of_origin {mode : Mode}
    (horigin : (scanner.advance rest mode).origin = scanner.origin) :
    (scanner.advance rest mode).emitter brackets line =
      (scanner.emitter brackets line).keep ((scanner.advance rest mode).pending line) := by
  rw [emitter, horigin]
  rfl

/-- Outside of tokens, everything up to the position is written. -/
theorem emitter_advance_outside {bytes : List UInt8} (hle : scanner.literalFrom ≤ scanner.origin)
    (hbytes : line.drop scanner.origin = bytes ++ rest)
    (hpos : scanner.origin + bytes.length = scanner.pos + 1) :
    (scanner.advance rest .outside).emitter brackets line =
      (scanner.emitter brackets line).write bytes := by
  have hwritten := writtenTo_of_drop brackets hle hbytes hpos
  exact Emitter.ext rfl hwritten rfl

section

variable {byte : UInt8} (hsound : Sound line scanner) (hrest : scanner.rest = byte :: rest)

include hsound hrest

theorem emitter_read_pass (hmode : scanner.mode = .outside) (hbyte : byte ≠ underscore) :
    (scanner.advance rest .outside).emitter brackets line =
      (scanner.emitter brackets line).read demangler brackets byte := by
  have horigin : scanner.origin = scanner.pos := by rw [origin, hmode]
  rw [Emitter.read, pending_outside hmode]
  simp only [Emitter.readOutside, if_neg hbyte]
  apply emitter_advance_outside hsound.literalFrom_le
  · rw [horigin]
    exact hsound.drop_eq hrest
  · rw [horigin]
    rfl

omit hsound hrest in
theorem emitter_read_hold (hmode : scanner.mode = .outside) (hbyte : byte = underscore) :
    (scanner.advance rest .held).emitter brackets line =
      (scanner.emitter brackets line).read demangler brackets byte := by
  have horigin : scanner.origin = scanner.pos := by rw [origin, hmode]
  rw [Emitter.read, pending_outside hmode]
  simp only [Emitter.readOutside, if_pos hbyte]
  exact emitter_advance_of_origin horigin.symm

theorem emitter_read_release (hmode : scanner.mode = .held) (hbyte : byte ≠ capitalZ) :
    (scanner.advance rest .outside).emitter brackets line =
      (scanner.emitter brackets line).read demangler brackets byte := by
  have horigin : scanner.origin = scanner.pos - 1 := by rw [origin, hmode]
  obtain ⟨hpos, hheld⟩ := hsound.underscore_before hmode
  have hpair : line.drop scanner.origin = [underscore, byte] ++ rest := by
    rw [horigin, ← Span.of_append_drop (Nat.sub_le _ _), hheld, hsound.drop_eq hrest]
    rfl
  rw [Emitter.read, pending_held hmode]
  simp only [if_neg hbyte]
  apply emitter_advance_outside hsound.literalFrom_le hpair
  rw [horigin]
  change scanner.pos - 1 + 2 = scanner.pos + 1
  omega

theorem emitter_read_mark (hmode : scanner.mode = .held) (hbyte : byte = capitalZ) :
    (scanner.advance rest (.token (scanner.pos - 1))).emitter brackets line =
      (scanner.emitter brackets line).read demangler brackets byte := by
  have horigin : scanner.origin = scanner.pos - 1 := by rw [origin, hmode]
  have hkeep : (scanner.advance rest (.token (scanner.pos - 1))).emitter brackets line = _ :=
    emitter_advance_of_origin horigin.symm
  have hmark := hsound.of_mark hmode (hbyte ▸ hsound.drop_eq hrest)
  rw [Emitter.read, pending_held hmode]
  simp only [if_pos hbyte]
  rw [hkeep, ← hmark]
  rfl

theorem emitter_read_collect {start : Nat} (hmode : scanner.mode = .token start)
    (hbyte : isTokenByte byte = true) :
    (scanner.advance rest (.token start)).emitter brackets line =
      (scanner.emitter brackets line).read demangler brackets byte := by
  have horigin : scanner.origin = start := by rw [origin, hmode]
  have hkeep : (scanner.advance rest (.token start)).emitter brackets line = _ :=
    emitter_advance_of_origin horigin.symm
  have hgrow : Span.of ⟨start, scanner.pos + 1⟩ line.toArray =
      Span.of ⟨start, scanner.pos⟩ line.toArray ++ [byte] :=
    Span.of_succ (hsound.start_le hmode) (hsound.drop_eq hrest)
  rw [Emitter.read, pending_token hmode, hkeep]
  simp only [if_pos hbyte, ← hgrow]
  rfl

end

section

variable {start : Nat} (hsound : Sound line scanner) (hmode : scanner.mode = .token start)

include hsound hmode

theorem emitter_endCandidate :
    emitter brackets line
        { scanner.endCandidate demangler line.toArray start with mode := .outside } =
      (scanner.emitter brackets line).settle demangler brackets
        (Span.of ⟨start, scanner.pos⟩ line.toArray) := by
  have horigin : scanner.origin = start := by rw [origin, hmode]
  have hliteral := hsound.literalFrom_le_start hmode
  have hasked : ∀ answer,
      (scanner.record ⟨scanner.candidateAt line start, answer⟩).attempts.toList.map
          Attempt.candidate =
        (scanner.emitter brackets line).asked ++
          [Text.ofAscii (Span.of ⟨start, scanner.pos⟩ line.toArray)] := by
    intro answer
    rw [toList_attempts_record, List.map_append]
    rfl
  rw [hsound.endCandidate_eq hmode]
  cases hanswer : demangler (scanner.candidateAt line start) with
  | ok name =>
      rw [Emitter.settle_of_ok hanswer]
      refine Emitter.ext rfl ?_ (hasked _)
      change writtenTo brackets line _ scanner.pos = writtenTo brackets line _ scanner.origin ++ _
      rw [horigin]
      exact writtenTo_pushName hliteral name
  | error failure =>
      -- the open segment takes in the token
      rw [Emitter.settle_of_error hanswer]
      refine Emitter.ext rfl ?_ (hasked _)
      change writtenTo brackets line _ scanner.pos = writtenTo brackets line _ scanner.origin ++ _
      rw [horigin]
      exact writtenTo_split brackets hliteral (hsound.start_le hmode) hsound.pos_le

/-- The byte that ends a token is read by the emitter for which the token is settled. -/
theorem read_emitter_of_not_token {byte : UInt8} (hbyte : isTokenByte byte = false) :
    (scanner.emitter brackets line).read demangler brackets byte =
      (emitter brackets line
        { scanner.endCandidate demangler line.toArray start with mode := .outside }).read
          demangler brackets byte := by
  have hnot : ¬ isTokenByte byte = true := by simp [hbyte]
  rw [emitter_endCandidate hsound hmode, Emitter.read_settle, Emitter.read, pending_token hmode]
  simp only [if_neg hnot]

end

/-- What comes of the emitter when it reads the rest of the line. -/
def emitted (demangler : Demangler) (brackets : Bool) (line : List UInt8) (scanner : Scanner) :
    Emitter :=
  (scanner.emitter brackets line).readAll demangler brackets scanner.rest

theorem emitted_advance {byte : UInt8} (hrest : scanner.rest = byte :: rest) {mode : Mode}
    (hread : (scanner.advance rest mode).emitter brackets line =
      (scanner.emitter brackets line).read demangler brackets byte) :
    (scanner.advance rest mode).emitted demangler brackets line =
      scanner.emitted demangler brackets line := by
  rw [emitted, emitted, hread, hrest, Emitter.readAll_cons]
  rfl

theorem emitted_step (hsound : Sound line scanner) {byte : UInt8}
    (hrest : scanner.rest = byte :: rest) {next : Scanner}
    (hstep : Step demangler line.toArray scanner byte rest next) :
    next.emitted demangler brackets line = scanner.emitted demangler brackets line := by
  cases hstep with
  | pass hmode hbyte => exact emitted_advance hrest (emitter_read_pass hsound hrest hmode hbyte)
  | hold hmode hbyte => exact emitted_advance hrest (emitter_read_hold hmode hbyte)
  | release hmode hbyte =>
      exact emitted_advance hrest (emitter_read_release hsound hrest hmode hbyte)
  | mark hmode hbyte => exact emitted_advance hrest (emitter_read_mark hsound hrest hmode hbyte)
  | collect hmode hbyte =>
      exact emitted_advance hrest (emitter_read_collect hsound hrest hmode hbyte)
  | @leave start hmode hbyte =>
      -- no byte is read in this turn, and the next one reads it
      have hnext : (scanner.endCandidate demangler line.toArray start).rest = byte :: rest :=
        (rest_endCandidate _ _).trans hrest
      rw [emitted, emitted, hrest, Emitter.readAll_cons,
        read_emitter_of_not_token hsound hmode hbyte, ← Emitter.readAll_cons, ← hnext]

/-- **A turn does not change what is emitted in the end.** -/
theorem emitted_turn (hsound : Sound line scanner) :
    (scanner.turn demangler line.toArray).emitted demangler brackets line =
      scanner.emitted demangler brackets line := by
  cases hrest : scanner.rest with
  | nil => rw [turn_of_rest_eq_nil line.toArray hrest]
  | cons byte rest => exact emitted_step hsound hrest (step_turn demangler line.toArray hrest)

theorem emitted_turns (demangler : Demangler) (brackets : Bool) (hsound : Sound line scanner)
    (count : Nat) :
    (scanner.turns demangler line.toArray count).emitted demangler brackets line =
      scanner.emitted demangler brackets line :=
  hsound.turns_eq (emitted demangler brackets line) emitted_turn count

/-- A scanner that finishes has written what its emitter has written when it is closed. -/
theorem finish_eq_close (demangler : Demangler) (brackets : Bool) (hsound : Sound line scanner)
    (hrest : scanner.rest = []) :
    (scanner.finish demangler line.toArray).segments.toList.flatMap
          (Segment.bytes line.toArray brackets) =
        ((scanner.emitter brackets line).close demangler brackets).written ∧
      (scanner.finish demangler line.toArray).attempts.toList.map Attempt.candidate =
        ((scanner.emitter brackets line).close demangler brackets).asked := by
  have hpos := hsound.rest_eq_nil_iff.mp hrest
  have hliteral := hsound.literalFrom_le
  unfold finish
  rw [Emitter.close, List.size_toArray, ← hpos]
  cases hmode : scanner.mode with
  | outside =>
      have horigin : scanner.origin = scanner.pos := by rw [origin, hmode]
      rw [horigin] at hliteral
      rw [pending_outside hmode, flatMap_bytes_endLiteral hliteral, ← horigin]
      exact ⟨rfl, rfl⟩
  | held =>
      have horigin : scanner.origin = scanner.pos - 1 := by rw [origin, hmode]
      have hheld := hsound.underscore_before hmode
      have hsplit := writtenTo_split brackets hliteral hsound.origin_le hsound.pos_le
      rw [horigin] at hliteral hsplit
      rw [pending_held hmode, flatMap_bytes_endLiteral (Nat.le_trans hliteral (Nat.sub_le _ _)),
        hsplit, hheld.2, ← horigin]
      exact ⟨rfl, rfl⟩
  | token start =>
      have hended : Sound line
          { scanner.endCandidate demangler line.toArray start with mode := .outside } :=
        hsound.endCandidate hmode
      have hle : (scanner.endCandidate demangler line.toArray start).literalFrom ≤
          (scanner.endCandidate demangler line.toArray start).pos := hended.literalFrom_le
      rw [pending_token hmode]
      simp only [← emitter_endCandidate hsound hmode]
      rw [← pos_endCandidate line.toArray start, flatMap_bytes_endLiteral hle]
      exact ⟨rfl, rfl⟩

end Scanner

/-- **A scan writes what an emitter writes.** What is appended for a line is what an emitter writes
that reads it byte by byte, and both ask the demangler about the same texts in the same order. -/
theorem scan_eq_emit (demangler : Demangler) (brackets : Bool) (line : List UInt8) :
    (∀ buffer,
        ((scan demangler line).appendTo line brackets buffer).toList =
          buffer.toList ++ (emit demangler brackets line).written) ∧
      (scan demangler line).attempts.map Attempt.candidate =
        (emit demangler brackets line).asked := by
  have hstart := Scanner.sound_start line
  have hsound : ((Scanner.start line).turns demangler line.toArray (2 * line.length)).Sound line :=
    hstart.turns (2 * line.length)
  have hrest : ((Scanner.start line).turns demangler line.toArray (2 * line.length)).rest = [] :=
    Scanner.rest_turns_eq_nil line.toArray (Nat.le_refl _)
  have hemitted := Scanner.emitted_turns demangler brackets hstart (2 * line.length)
  obtain ⟨hwritten, hasked⟩ := Scanner.finish_eq_close demangler brackets hsound hrest
  -- nothing is left to be read, so the emitter at the end is the one that was foretold
  rw [Scanner.emitted, hrest, Scanner.emitted, Scanner.emitter_start] at hemitted
  change Scanner.emitter brackets line _ = Emitter.start.readAll demangler brackets line at hemitted
  rw [hemitted] at hwritten hasked
  refine ⟨?_, hasked⟩
  intro buffer
  rw [toList_appendTo]
  exact congrArg (buffer.toList ++ ·) hwritten

/-- An underscore that ends the line is held until then. The first of two is let go with the second. -/
example : (emit (knowing "_Zf" "f()") true (Text.utf8 "__Zf _Zf,_")).written =
    Text.utf8 "__Zf [f()],_" := by
  decide +kernel

end MangledNames.Line

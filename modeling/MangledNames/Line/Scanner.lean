import MangledNames.Failure
import MangledNames.Text.Utf8

/-!
# Finding mangled names in a line

A candidate is a run of token bytes that begins with `_Z` and reaches as far as token bytes do. The
scanner looks for candidates from left to right and asks the demangler about each of them once. An
underscore is held until the byte after it is known; if that byte is no `Z`, both are passed over,
so that the byte is not looked at again, not even if it is an underscore. The byte that ends a
candidate is looked at again.

The text between two names is one literal segment. It is kept open while candidates fail, and it is
closed where a name begins and at the end of the line. So the segments cover the line.
-/

namespace MangledNames.Line

/-- The bytes of a line from `start` up to `stop`. -/
structure Span where
  start : Nat
  stop : Nat
  deriving DecidableEq, Repr

def Span.of (span : Span) (line : Array UInt8) : List UInt8 :=
  (line.extract span.start span.stop).toList

theorem Span.of_toArray (span : Span) (line : List UInt8) :
    span.of line.toArray = (line.drop span.start).take (span.stop - span.start) := by
  simp [Span.of, List.extract_eq_take_drop]

inductive Segment where
  | literal (span : Span)
  | translated (span : Span) (name : String)
  deriving DecidableEq, Repr

namespace Segment

def span : Segment → Span
  | literal span => span
  | translated span _ => span

def isTranslated : Segment → Bool
  | literal _ => false
  | translated _ _ => true

end Segment

/-- What the demangler answered on a candidate. -/
structure Attempt where
  candidate : String
  answer : Except Failure String
  deriving Repr

def underscore : UInt8 := '_'.toUInt8

def capitalZ : UInt8 := 'Z'.toUInt8

def isTokenByte (byte : UInt8) : Bool :=
  byte = underscore || ('0'.toUInt8 ≤ byte && byte ≤ '9'.toUInt8) ||
    ('A'.toUInt8 ≤ byte && byte ≤ 'Z'.toUInt8) || ('a'.toUInt8 ≤ byte && byte ≤ 'z'.toUInt8)

inductive Mode where
  | outside
  /-- The byte before the position is an underscore that may begin a candidate. -/
  | held
  | token (start : Nat)
  deriving DecidableEq, Repr

structure Scanner where
  rest : List UInt8
  pos : Nat
  mode : Mode
  /-- Where the literal segment begins that is open. -/
  literalFrom : Nat
  segments : Array Segment
  attempts : Array Attempt

namespace Scanner

def start (line : List UInt8) : Scanner := ⟨line, 0, .outside, 0, #[], #[]⟩

def endLiteral (scanner : Scanner) (stop : Nat) : Scanner :=
  { scanner with
    literalFrom := stop
    segments :=
      if scanner.literalFrom < stop then
        scanner.segments.push (.literal ⟨scanner.literalFrom, stop⟩)
      else scanner.segments }

def pushName (scanner : Scanner) (span : Span) (name : String) : Scanner :=
  let closed := scanner.endLiteral span.start
  { closed with
    literalFrom := span.stop
    segments := closed.segments.push (.translated span name) }

def record (scanner : Scanner) (attempt : Attempt) : Scanner :=
  { scanner with attempts := scanner.attempts.push attempt }

/-- Asks about the candidate that ends at the position. If it has no name, or is no text, it stays
in the open literal segment. -/
def endCandidate (demangler : Demangler) (line : Array UInt8) (start : Nat) (scanner : Scanner) :
    Scanner :=
  match Text.ofUtf8? (Span.of ⟨start, scanner.pos⟩ line) with
  | none => scanner
  | some candidate =>
    let answer := demangler candidate
    let asked := scanner.record ⟨candidate, answer⟩
    match answer with
    | .ok name => asked.pushName ⟨start, scanner.pos⟩ name
    | .error _ => asked

def advance (scanner : Scanner) (rest : List UInt8) (mode : Mode) : Scanner :=
  { scanner with rest, mode, pos := scanner.pos + 1 }

/-- One turn looks at one byte. The turn that ends a candidate does not advance. -/
def turn (demangler : Demangler) (line : Array UInt8) (scanner : Scanner) : Scanner :=
  match scanner.rest with
  | [] => scanner
  | byte :: rest =>
    match scanner.mode with
    | .outside => scanner.advance rest (if byte = underscore then .held else .outside)
    | .held =>
      scanner.advance rest (if byte = capitalZ then .token (scanner.pos - 1) else .outside)
    | .token start =>
      if isTokenByte byte then scanner.advance rest (.token start)
      else { scanner.endCandidate demangler line start with mode := .outside }

def turns (demangler : Demangler) (line : Array UInt8) : Nat → Scanner → Scanner
  | 0, scanner => scanner
  | count + 1, scanner =>
    if scanner.rest.isEmpty then scanner
    else turns demangler line count (scanner.turn demangler line)

/-- At the end of the line, an open candidate ends and the open literal segment is closed. -/
def finish (demangler : Demangler) (line : Array UInt8) (scanner : Scanner) : Scanner :=
  match scanner.mode with
  | .token start => (scanner.endCandidate demangler line start).endLiteral line.size
  | _ => scanner.endLiteral line.size

end Scanner

structure Scan where
  segments : List Segment
  attempts : List Attempt

/-- Every byte is looked at once, and a second time if it ends a candidate. -/
def scan (demangler : Demangler) (line : List UInt8) : Scan :=
  let bytes := line.toArray
  let last := ((Scanner.start line).turns demangler bytes (2 * line.length)).finish demangler bytes
  ⟨last.segments.toList, last.attempts.toList⟩

namespace Scan

def translated (scan : Scan) : Nat := scan.segments.countP Segment.isTranslated

end Scan

def bracketed {α : Type} (brackets : Bool) (left right : α) (name : List α) : List α :=
  if brackets then left :: (name ++ [right]) else name

def Segment.bytes (line : Array UInt8) (brackets : Bool) : Segment → List UInt8
  | literal span => span.of line
  | translated _ name => bracketed brackets '['.toUInt8 ']'.toUInt8 (Text.utf8 name)

/-- The bytes of the line with every name in place of its candidate. -/
def Scan.bytes (scan : Scan) (line : List UInt8) (brackets : Bool) : List UInt8 :=
  let line := line.toArray
  scan.segments.flatMap (Segment.bytes line brackets)

/-- Writes the line behind what the buffer holds. -/
def Scan.appendTo (scan : Scan) (line : List UInt8) (brackets : Bool) (buffer : Array UInt8) :
    Array UInt8 :=
  let line := line.toArray
  scan.segments.foldl (fun buffer segment => buffer.appendList (segment.bytes line brackets)) buffer

/-- The text of a span of the line with these bytes, if both its ends lie between characters. -/
def textAt? (line : String) (bytes : Array UInt8) (span : Span) : Option String :=
  if String.Pos.Raw.isValid line ⟨span.start⟩ && String.Pos.Raw.isValid line ⟨span.stop⟩ then
    Text.ofUtf8? (span.of bytes)
  else none

def Segment.text? (line : String) (bytes : Array UInt8) (brackets : Bool) :
    Segment → Option (List Char)
  | literal span => (textAt? line bytes span).map String.toList
  | translated _ name => some (bracketed brackets '[' ']' name.toList)

/-- The text of the line with every name in place of its candidate. -/
def scanText? (demangler : Demangler) (line : String) (brackets : Bool) : Option String :=
  let bytes := (Text.utf8 line).toArray
  let texts := (scan demangler (Text.utf8 line)).segments.mapM (Segment.text? line bytes brackets)
  texts.map fun texts => String.ofList texts.flatten

end MangledNames.Line

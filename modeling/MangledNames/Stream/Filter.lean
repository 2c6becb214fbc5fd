import MangledNames.Line.Scanner
import MangledNames.Log
import MangledNames.Stream.Output

/-!
# Filtering a stream

Lines are read, scanned and written one after the other, so that a line is written before the next
one is read. Every line is written with a newline, which the last line that is read may lack.
-/

namespace MangledNames.Stream

structure Totals where
  lines : Nat
  translated : Nat
  deriving DecidableEq, Repr

structure Filtering (σ : Type) where
  result : Except Fault Totals
  output : σ
  log : Array LogRecord

def leftAsIs (attempt : Line.Attempt) : Option LogRecord :=
  match attempt.answer with
  | .ok _ => none
  | .error failure => some (.leftAsIs attempt.candidate failure)

/-- A line without the newline that ends it. -/
def withoutNewline (bytes : List UInt8) : List UInt8 :=
  if bytes.getLast? = some newline then bytes.dropLast else bytes

def Totals.add (totals : Totals) (translated : Nat) : Totals :=
  ⟨totals.lines + 1, totals.translated + translated⟩

section

variable {σ : Type} [Output σ]

/-- Flushes the output after the last line. -/
def finish (totals : Totals) (output : σ) (log : Array LogRecord) : Filtering σ :=
  match Output.flush output with
  | (none, output) => ⟨.ok totals, output, log⟩
  | (some fault, output) => ⟨.error fault, output, log⟩

/-- Filters what is left of a stream. The limit exceeds the number of lines. -/
def filterFrom (demangler : Demangler) (brackets : Bool) :
    Nat → Source → Totals → σ → Array LogRecord → Filtering σ
  | 0, _, totals, output, log => finish totals output log
  | limit + 1, source, totals, output, log =>
    match source.readLine with
    | (.endOfInput, _) => finish totals output log
    | (.fault fault, _) => ⟨.error fault, output, log⟩
    | (.line bytes, source) =>
      let line := withoutNewline bytes
      let scan := Line.scan demangler line
      let log := log ++ scan.attempts.filterMap leftAsIs
      match Output.writeAll output (scan.bytes line brackets ++ [newline]) with
      | (some fault, output) => ⟨.error fault, output, log⟩
      | (none, output) =>
        let totals := totals.add scan.translated
        filterFrom demangler brackets limit source totals output
          (log.push (.lineWritten totals.lines scan.translated))

/-- Copies a source to an output line by line, with every name in place of its candidate. Every
line has a byte, so there are at most as many lines as bytes. -/
def filter (demangler : Demangler) (brackets : Bool) (source : Source) (output : σ) :
    Filtering σ :=
  filterFrom demangler brackets (source.content.length + 1) source ⟨0, 0⟩ output #[]

end

end MangledNames.Stream

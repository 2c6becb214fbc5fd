import MangledNames.Options
import MangledNames.Failure
import MangledNames.Text.Quoted

/-!
# Log records
-/

namespace MangledNames

inductive LogLevel where
  | error
  | warn
  | info
  | debug
  | trace
  deriving DecidableEq, Repr

def LogLevel.name : LogLevel → String
  | error => "ERROR"
  | warn => "WARN"
  | info => "INFO"
  | debug => "DEBUG"
  | trace => "TRACE"

/-- The place of a level in the order of detail. -/
def LogLevel.detail : LogLevel → Nat
  | error => 1
  | warn => 2
  | info => 3
  | debug => 4
  | trace => 5

inductive LogRecord where
  /-- The options with which a run starts. -/
  | started (options : Options)
  | symbolFailed (symbol : String) (failure : Failure)
  /-- A candidate in a line has no name. -/
  | leftAsIs (candidate : String) (failure : Failure)
  | lineWritten (line names : Nat)
  | fileWritten (lines names : Nat)
  deriving DecidableEq, Repr

namespace LogRecord

def level : LogRecord → LogLevel
  | started _ => .debug
  | symbolFailed _ _ => .debug
  | leftAsIs _ _ => .debug
  | lineWritten _ _ => .trace
  | fileWritten _ _ => .info

/-- The part of the program that speaks. -/
def target : LogRecord → String
  | started _ => "demangle"
  | symbolFailed _ _ => "demangle"
  | leftAsIs _ _ => "cxx_demangle_filter::scanner"
  | lineWritten _ _ => "cxx_demangle_filter::filter"
  | fileWritten _ _ => "demangle"

def message : LogRecord → String
  | started options => "demangle flags: " ++ options.text
  | symbolFailed symbol failure =>
    "failed to demangle " ++ Text.quoted symbol ++ ": " ++ failure.message
  | leftAsIs candidate failure =>
    "leaving " ++ Text.quoted candidate ++ " as is: " ++ failure.message
  | lineWritten line names =>
    "line " ++ toString line ++ ": " ++ toString names ++ " name(s) demangled"
  | fileWritten lines names =>
    toString lines ++ " line(s) processed, " ++ toString names ++ " name(s) demangled"

end LogRecord

end MangledNames

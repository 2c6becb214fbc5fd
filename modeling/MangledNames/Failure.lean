/-!
# Failures and exit statuses
-/

namespace MangledNames

/-- Why a symbol has no readable name. -/
inductive Failure where
  | outOfMemory
  | invalidName
  | invalidArgument
  | unknown
  deriving DecidableEq, Repr

/-- How a run of the program ends. -/
inductive ExitStatus where
  | success
  | help
  | outOfMemory
  | invalidName
  | invalidArgument
  | otherFailure
  | noInputFile
  | noOutputFile
  | ioFailure
  deriving DecidableEq, Repr

def ExitStatus.code : ExitStatus → Nat
  | success => 0
  | help => 1
  | outOfMemory => 2
  | invalidName => 3
  | invalidArgument => 4
  | otherFailure => 5
  | noInputFile => 6
  | noOutputFile => 7
  | ioFailure => 8

namespace Failure

def message : Failure → String
  | outOfMemory => "out of memory"
  | invalidName => "invalid mangled name"
  | invalidArgument => "invalid argument"
  | unknown => "unknown demangling failure"

/-- What is printed in place of a name. -/
def placeholder : Failure → String
  | outOfMemory => "<out of memory>"
  | invalidName => "<invalid name>"
  | invalidArgument => "<invalid arg>"
  | unknown => "<???>"

def exitStatus : Failure → ExitStatus
  | outOfMemory => .outOfMemory
  | invalidName => .invalidName
  | invalidArgument => .invalidArgument
  | unknown => .otherFailure

end Failure

/-- Finds the readable name of a symbol. -/
abbrev Demangler := String → Except Failure String

end MangledNames

import MangledNames.Log

/-!
# Which log records are shown

A specification lists directives, each a level, a target, or a target and its level. Of the
directives whose target begins the target of a record, the one with the longest target decides. A
text after a slash restricts the records to those whose message contains it. What cannot be read is
left out with a warning.
-/

namespace MangledNames.Command

/-- Levels in the order of their detail. No record has the first one. -/
def logLevelNames : List String := ["off", "error", "warn", "info", "debug", "trace"]

def mostDetail : Nat := 5

structure Directive where
  target : String
  detail : Nat
  deriving DecidableEq, Repr

structure LogFilter where
  directives : List Directive
  contained : String
  deriving DecidableEq, Repr

/-- The detail of a level, whose letters may be small or large. -/
def detail? (level : String) : Option Nat :=
  logLevelNames.findIdx? (· = level.toLower)

def spaceless (text : List Char) : List Char :=
  ((text.dropWhile Char.isWhitespace).reverse.dropWhile Char.isWhitespace).reverse

namespace Directive

/-- Reads a directive. What cannot be read is the level, or the whole if it has two levels. -/
def ofText (text : List Char) : Except String Directive :=
  match text.splitOn '=' with
  | [word] =>
    match detail? (String.ofList word) with
    | some detail => .ok ⟨"", detail⟩
    | none => .ok ⟨String.ofList word, mostDetail⟩
  | [target, level] =>
    let level := String.ofList (spaceless level)
    match detail? level with
    | some detail => .ok ⟨String.ofList target, detail⟩
    | none => if level = "" then .ok ⟨String.ofList target, mostDetail⟩ else .error level
  | _ => .error (String.ofList text)

/-- A directive replaces an earlier one for its target. -/
def insert (directive : Directive) (directives : List Directive) : List Directive :=
  directives.filter (·.target ≠ directive.target) ++ [directive]

def covers (target : String) (directive : Directive) : Bool :=
  directive.target.toList.isPrefixOf target.toList

end Directive

def occursIn (part : List Char) : List Char → Bool
  | [] => part.isEmpty
  | c :: text => part.isPrefixOf (c :: text) || occursIn part text

namespace LogFilter

/-- What is shown if nothing is specified. -/
def standard : LogFilter := ⟨[⟨"", LogLevel.detail .warn⟩], ""⟩

/-- The detail that is shown of a target. Without directives only errors are. -/
def detailOf (filter : LogFilter) (target : String) : Nat :=
  if filter.directives = [] then LogLevel.detail .error
  else
    let covering := filter.directives.filter (·.covers target)
    let longest := (covering.map (·.target.utf8ByteSize)).foldl max 0
    ((covering.find? (·.target.utf8ByteSize = longest)).map Directive.detail).getD 0

def shows (filter : LogFilter) (record : LogRecord) : Bool :=
  LogLevel.detail record.level ≤ filter.detailOf record.target ∧
    occursIn filter.contained.toList record.message.toList

end LogFilter

structure LogSpecification where
  filter : LogFilter
  warnings : List String
  deriving DecidableEq, Repr

namespace LogSpecification

def standard : LogSpecification := ⟨.standard, []⟩

def warning (reason : String) : String :=
  "warning: invalid logging spec " ++ reason ++ ", ignoring it"

def add (specification : LogSpecification) (directive : Except String Directive) :
    LogSpecification :=
  match directive with
  | .ok directive =>
    let filter := specification.filter
    { specification with
      filter := { filter with directives := directive.insert filter.directives } }
  | .error part =>
    { specification with warnings := specification.warnings ++ [warning ("'" ++ part ++ "'")] }

def ofDirectives (text contained : List Char) : LogSpecification :=
  let words := ((text.splitOn ',').map spaceless).filter (· ≠ [])
  words.foldl (fun specification word => specification.add (Directive.ofText word))
    ⟨⟨[], String.ofList contained⟩, []⟩

/-- Two slashes leave nothing that can be read. -/
def ofText (text : String) : LogSpecification :=
  match text.toList.splitOn '/' with
  | [directives] => ofDirectives directives []
  | [directives, contained] => ofDirectives directives contained
  | _ => ⟨⟨[], ""⟩, [warning ("'" ++ text ++ "' (too many '/'s)")]⟩

/-- Without a specification the standard one counts. -/
def ofText? (text : Option String) : LogSpecification := (text.map ofText).getD standard

end LogSpecification

end MangledNames.Command

import MangledNames.Options
import MangledNames.Text.Utf8

/-!
# The arguments of the command line

Arguments are bytes. They are read from left to right, and the first thing that is wrong decides,
as does a request for help; what is wrong only with the whole comes last. A word is an argument
that is no option: it does not begin with a hyphen, or it is a lone hyphen.
-/

namespace MangledNames.Command

abbrev Bytes := List UInt8

structure Arguments where
  brackets : Bool
  options : Options
  /-- The paths that follow `--file`, two each time. -/
  paths : List Bytes
  symbol : Option String
  deriving DecidableEq, Repr

inductive Request where
  | help (long : Bool)
  | usageError
  | arguments (arguments : Arguments)
  deriving DecidableEq, Repr

/-- The options that stand for themselves. -/
inductive Switch where
  | brackets
  | noParameters
  | noReturnType
  | hideLiteralTypes
  deriving DecidableEq, Repr

namespace Switch

def all : List Switch := [brackets, noParameters, noReturnType, hideLiteralTypes]

def spelling : Switch → String
  | brackets => "--brackets"
  | noParameters => "--no-params"
  | noReturnType => "--no-return-type"
  | hideLiteralTypes => "--hide-expression-literal-types"

def of? (argument : Bytes) : Option Switch :=
  all.find? fun switch => Text.utf8 switch.spelling = argument

end Switch

namespace Arguments

def none : Arguments := ⟨false, .complete, [], .none⟩

def isOn (arguments : Arguments) : Switch → Bool
  | .brackets => arguments.brackets
  | .noParameters => arguments.options.noParameters
  | .noReturnType => arguments.options.noReturnType
  | .hideLiteralTypes => arguments.options.hideLiteralTypes

def turnOn (arguments : Arguments) : Switch → Arguments
  | .brackets => { arguments with brackets := true }
  | .noParameters =>
    { arguments with options := { arguments.options with noParameters := true } }
  | .noReturnType =>
    { arguments with options := { arguments.options with noReturnType := true } }
  | .hideLiteralTypes =>
    { arguments with options := { arguments.options with hideLiteralTypes := true } }

/-- There is one symbol at most, and it is text. -/
def addSymbol? (arguments : Arguments) (argument : Bytes) : Option Arguments :=
  match arguments.symbol with
  | some _ => .none
  | .none => (Text.ofUtf8? argument).map fun symbol => { arguments with symbol }

def addPaths (arguments : Arguments) (source destination : Bytes) : Arguments :=
  { arguments with paths := arguments.paths ++ [source, destination] }

/-- A symbol and files exclude each other. -/
def request (arguments : Arguments) : Request :=
  if arguments.symbol.isSome ∧ arguments.paths ≠ [] then .usageError else .arguments arguments

end Arguments

def hyphen : UInt8 := '-'.toUInt8

def isWord (argument : Bytes) : Bool :=
  argument.head? ≠ some hyphen ∨ argument = [hyphen]

/-- A path is a word that is not empty. -/
def isPath (argument : Bytes) : Bool :=
  isWord argument ∧ argument ≠ []

namespace Request

/-- Reads the arguments after `--`, which cannot be options. -/
def ofWords (arguments : Arguments) : List Bytes → Request
  | [] => arguments.request
  | argument :: rest =>
    match arguments.addSymbol? argument with
    | none => usageError
    | some arguments => ofWords arguments rest

/-- Reads an option of single letters. The first letter decides, because the only one that means
something asks for help. -/
def ofLetters : Bytes → Request
  | _ :: letter :: _ => if letter = 'h'.toUInt8 then help false else usageError
  | _ => usageError

def ofArguments (arguments : Arguments) : List Bytes → Request
  | [] => arguments.request
  | argument :: rest =>
    if argument = Text.utf8 "--" then ofWords arguments rest
    else if argument = Text.utf8 "--help" then help true
    else if argument = Text.utf8 "--file" then
      match rest with
      | source :: destination :: rest =>
        if isPath source ∧ isPath destination then
          ofArguments (arguments.addPaths source destination) rest
        else usageError
      | _ => usageError
    else if isWord argument then
      match arguments.addSymbol? argument with
      | none => usageError
      | some arguments => ofArguments arguments rest
    else
      match Switch.of? argument with
      | some switch =>
        if arguments.isOn switch then usageError else ofArguments (arguments.turnOn switch) rest
      | none => if (Text.utf8 "--").isPrefixOf argument then usageError else ofLetters argument

end Request

end MangledNames.Command

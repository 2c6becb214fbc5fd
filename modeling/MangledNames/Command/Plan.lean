import MangledNames.Command.Arguments
import MangledNames.Command.Help
import MangledNames.Failure

/-!
# What a run is to do

The arguments decide on it before any file is touched.
-/

namespace MangledNames.Command

inductive Plan where
  /-- Prints a text, which is all. -/
  | print (text : String)
  | symbol (symbol : String) (options : Options)
  | file (source destination : Bytes) (brackets : Bool) (options : Options)
  deriving DecidableEq, Repr

namespace Plan

def ofArguments (arguments : Arguments) : Plan :=
  match arguments.paths, arguments.symbol with
  | [source, destination], _ => file source destination arguments.brackets arguments.options
  | [], some text => symbol text arguments.options
  | [], none => print "Nothing to do. Use --help for help.\n"
  | _, _ => print "Source and destination file names expected. Use --help for help.\n"

/-- The words of a usage error are not fixed, and it prints nothing here. -/
def ofRequest : Request → Plan
  | .help true => print longHelp
  | .help false => print shortHelp
  | .usageError => print ""
  | .arguments arguments => ofArguments arguments

end Plan

/-- The symbol that a single argument is. Only two hyphens in front make it an option. -/
def loneSymbol? : List Bytes → Option String
  | [argument] =>
    if (Text.utf8 "--").isPrefixOf argument then none else Text.ofUtf8? argument
  | _ => none

end MangledNames.Command

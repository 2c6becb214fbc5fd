/-!
# The help of the command line
-/

namespace MangledNames.Command

def lines (text : List String) : String := String.intercalate "\n" text ++ "\n"

def exitCodes : List String :=
  ["demangle will set the appropriate exit code:",
    "0 - success",
    "1 - this message printed",
    "2 - out of memory",
    "3 - invalid symbol name",
    "4 - invalid argument",
    "5 - unknown error",
    "6 - failed to open input file",
    "7 - failed to create output file",
    "8 - failed to read or write while processing a file"]

/-- What `--help` prints. -/
def longHelp : String := lines <|
  ["Demangle a single C++ symbol, or all symbols in a file.",
    "",
    "Examples:",
    "  demangle _ZN12SignalReader10onActivityEPN4maux6WaiterEi",
    "  demangle --brackets --file source.log destination.log",
    "",
    "Usage: demangle [OPTIONS] [SYMBOL]",
    "",
    "Arguments:",
    "  [SYMBOL]",
    "          The mangled symbol to demangle",
    "",
    "Options:",
    "      --brackets",
    "          Surround demangled names with square brackets",
    "",
    "      --file <SOURCE> <DESTINATION>",
    "          Process all mangled names in SOURCE and write the result to DESTINATION. " ++
      "Either may be `-` for stdin or stdout",
    "",
    "      --no-params",
    "          Leave out function parameter lists",
    "",
    "      --no-return-type",
    "          Leave out the return types of template functions",
    "",
    "      --hide-expression-literal-types",
    "          Print literals in template arguments without their type",
    "",
    "  -h, --help",
    "          Print help (see a summary with '-h')",
    ""] ++ exitCodes

/-- What `-h` prints. -/
def shortHelp : String := lines <|
  ["Demangle a single C++ symbol, or all symbols in a file.",
    "",
    "Usage: demangle [OPTIONS] [SYMBOL]",
    "",
    "Arguments:",
    "  [SYMBOL]  The mangled symbol to demangle",
    "",
    "Options:",
    "      --brackets                       Surround demangled names with square brackets",
    "      --file <SOURCE> <DESTINATION>    Process all mangled names in SOURCE and write the " ++
      "result to DESTINATION. Either may be `-` for stdin or stdout",
    "      --no-params                      Leave out function parameter lists",
    "      --no-return-type                 Leave out the return types of template functions",
    "      --hide-expression-literal-types  Print literals in template arguments without their " ++
      "type",
    "  -h, --help                           Print help (see more with '--help')",
    ""] ++ exitCodes

end MangledNames.Command

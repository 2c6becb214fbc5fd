import MangledNames.Failure
import MangledNames.Options
import MangledNames.Symbol.Parse
import MangledNames.Symbol.SpecialName
import MangledNames.Symbol.Write

/-!
# The readable name of a symbol
-/

namespace MangledNames

namespace Symbol

def Refusal.failure : Refusal → Failure
  | mismatch => .invalidName
  | nestedTooDeep => .outOfMemory

def surroundings (table : Table) (options : Options) : Surroundings :=
  { table
    returnTypes := !options.noReturnType
    literalTypes := !options.hideLiteralTypes
    parameters := !options.noParameters
    frames := [] }

/-- A symbol as the linker passes it: there is one, and no byte of it is zero. -/
def isLinkable (symbol : String) : Bool :=
  symbol.toList ≠ [] ∧ '\x00' ∉ symbol.toList

end Symbol

open MangledNames.Symbol in
/-- The name that the whole symbol stands for. -/
def demangle (options : Options) : Demangler := fun symbol =>
  if isLinkable symbol then
    match parse symbol.toList with
    | .error refusal => .error refusal.failure
    | .ok (name, table) =>
      match name.text? (surroundings table options) with
      | none => .error .unknown
      | some written => .ok (specialName symbol written)
  else .error .invalidArgument

end MangledNames

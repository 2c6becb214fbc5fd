/-!
# Rendering options

What may be left out of a readable name, as a set of three options. The bits number the options in
the order in which they are listed.
-/

namespace MangledNames

structure Options where
  noParameters : Bool
  noReturnType : Bool
  hideLiteralTypes : Bool
  deriving DecidableEq, Repr

namespace Options

/-- Nothing is left out. -/
def complete : Options := ⟨false, false, false⟩

def bits (options : Options) : Nat :=
  options.noParameters.toNat + 2 * options.noReturnType.toNat + 4 * options.hideLiteralTypes.toNat

/-- The options of the lowest three bits. -/
def truncate (bits : Nat) : Options :=
  ⟨bits.testBit 0, bits.testBit 1, bits.testBit 2⟩

def ofBits? (bits : Nat) : Option Options :=
  if bits < 8 then some (truncate bits) else none

def union (left right : Options) : Options :=
  ⟨left.noParameters || right.noParameters, left.noReturnType || right.noReturnType,
    left.hideLiteralTypes || right.hideLiteralTypes⟩

def diff (left right : Options) : Options :=
  ⟨left.noParameters && !right.noParameters, left.noReturnType && !right.noReturnType,
    left.hideLiteralTypes && !right.hideLiteralTypes⟩

/-- Inserts the options, or removes them. -/
def set (options changed : Options) (on : Bool) : Options :=
  if on then options.union changed else options.diff changed

/-- Whether all of the other options are in the set. -/
def contains (options other : Options) : Bool :=
  other.diff options = complete

def names (options : Options) : List String :=
  (if options.noParameters then ["NO_PARAMS"] else []) ++
    (if options.noReturnType then ["NO_RETURN_TYPE"] else []) ++
      if options.hideLiteralTypes then ["HIDE_EXPRESSION_LITERAL_TYPES"] else []

/-- The set as log records show it. -/
def text (options : Options) : String :=
  "DemangleFlags(" ++
    (if options = complete then "0x0" else String.intercalate " | " options.names) ++ ")"

end Options

end MangledNames

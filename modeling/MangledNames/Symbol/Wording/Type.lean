import MangledNames.Symbol.Wording

/-!
# The wording of types and template arguments
-/

namespace MangledNames.Symbol.Wording

open Writer

variable (w : Wording)

def writeFundamentalType (type : FundamentalType) : Writer Unit := write type.spelling

def writeBuiltinType : BuiltinType → Writer Unit
  | .fundamental type => w.fundamentalType type
  | .vendor name => w.sourceName name
  | .parametric type => w.parametricType type

def bitIntKeyword (signed : Bool) : String :=
  if signed then "signed _BitInt(" else "unsigned _BitInt("

def writeParametricType : ParametricType → Writer Unit
  | .float bits extended => do
    write "_Float"
    writeNat bits
    if extended then write "x"
  | .bitInt signed bits => do
    write (bitIntKeyword signed)
    writeNat bits
    write ")"
  | .bitIntOf signed width => do
    match (← table).widths[width]? with
    | none => fail
    | some expression =>
      write (bitIntKeyword signed)
      w.expression expression
      write ")"

def writeQualifiers (qualifiers : Qualifiers) : Writer Unit :=
  qualifiers.words.forM fun word => do
    space
    write word

def writeRefQualifier (ref : RefQualifier) : Writer Unit := do
  space
  write ref.spelling

def writeExceptionSpec : ExceptionSpec → Writer Unit
  | .noexcept => write "noexcept"
  | .computed condition => do
    write "noexcept("
    w.expression condition
    write ")"

def writeClassEnum (key : Option ClassKey) (name : Name) : Writer Unit := do
  if let some key := key then
    write key.spelling
    write " "
  w.name name

def writeCompoundType (index : Nat) (type : CompoundType) : Writer Unit := do
  match type with
  | .function function => w.functionType index function
  | .classEnum key name => w.classEnum key name
  | .array _ element => w.aroundType index type element
  | .vector _ element => w.aroundType index type element
  | .memberPointer _ member => w.aroundType index type member
  | .parameter parameter => w.templateParam parameter
  | .templateTemplate template args =>
    w.entityRef template
    w.templateArgs args
  | .decltype expression => w.decltype expression
  | .qualified _ inner => w.around (.type index type) (w.typeRef inner)
  | .pointer inner => w.around (.type index type) (w.typeRef inner)
  | .reference _ inner => w.around (.type index type) (w.typeRef inner)
  | .complex inner =>
    w.typeRef inner
    write " complex"
  | .imaginary inner =>
    w.typeRef inner
    write " imaginary"
  | .vendor name args inner =>
    w.typeRef inner
    write " "
    w.sourceName name
    if let some args := args then w.templateArgs args
  | .packExpansion inner =>
    w.typeRef inner
    unless (← get).inPack do write "..."

def writeAroundType (index : Nat) (type : CompoundType) (inner : TypeRef) : Writer Unit :=
  w.around (.type index type) (w.typeRef inner)

def writeFunctionType (index : Nat) (function : FunctionType) : Writer Unit := do
  w.around (.type index (.function function)) (w.bareFunctionType index function.types)
  if let some exceptions := function.exceptions then
    space
    w.exceptionSpec exceptions

/-- The return type, which the parameters go around. -/
def writeBareFunctionType (index : Nat) (types : List TypeRef) : Writer Unit := do
  wait (.parameters index types)
  (types.take 1).forM w.typeRef
  if ← takeBack (.parameters index types) then
    space
    w.writePart (.parameters index types)

def writeDecltype (expression : Expression) : Writer Unit := do
  write "decltype ("
  w.expression expression
  write ")"

/-- Writes the waiting parts that go between the return type and the parameters. Those that follow
the parameters are given back in the same order. -/
def writePartsBefore : List Part → Writer (List Part)
  | [] => return []
  | _ :: parts => do
    match ← takeWaiting with
    | none => return []
    | some part =>
      if part.followsParameters then
        return part :: (← writePartsBefore parts)
      w.writePart part
      writePartsBefore parts

def openParenthesis (part : Part) : Writer Unit := do
  if part.needsSpace ∨ (← lastChar) ∉ [some '(', some '*'] then space
  write "("

def writeParameters (types : List TypeRef) : Writer Unit := do
  let pending := (← get).pending
  let parenthesized := pending.find? Part.needsParentheses
  if let some part := parenthesized then openParenthesis part
  let later ← w.writePartsBefore pending
  modify fun page => { page with pending := later }
  if parenthesized.isSome then write ")"
  write "("
  if types.length = 1 ∧ types.all TypeRef.isVoid then
    write ")"
  else
    if (← get).explicitObject then
      write "this "
      modify fun page => { page with explicitObject := false }
    separated ", " (types.map w.typeRef)
    write ")"
    w.writeAllWaiting

/-- A reference to a reference is one reference, and an lvalue reference if any of them is. Whether
one is to be written. -/
def collapseReferences : List Part → Writer Bool
  | .type _ (.reference .rvalue _) :: parts => do
    let _ ← takeWaiting
    collapseReferences parts
  | .type _ (.reference .lvalue _) :: _ => return false
  | _ => return true

def isArrayPart (table : Table) : Part → Bool
  | .type _ (.array _ _) => true
  | .type _ (.qualified _ inner) => table.isArray inner
  | _ => false

def isPlainArrayPart : Part → Bool
  | .type _ (.array _ _) => true
  | _ => false

/-- Writes the waiting parts before the bounds of an array. Arrays join their bounds to those of
the array, other parts go between parentheses. Whether the bounds are set off by a space: they are
not if they join other bounds. -/
def writePartsOfArray : List Part → Bool → Writer Bool
  | [], setOff => return setOff
  | _ :: parts, setOff => do
    match ← takeWaiting with
    | none => return setOff
    | some part =>
      if isArrayPart (← table) part then
        w.writePart part
      else
        space
        if part.isQualified then
          w.writePart part
          space
          write "("
        else
          write "("
          w.writePart part
        w.writeAllWaiting
        write ")"
      writePartsOfArray parts (setOff && !isPlainArrayPart part)

def writeBound : Dimension → Writer Unit
  | .unknown => return ()
  | .number size => writeNat size
  | .computed size => w.expression size

def writeTypePart (part : Part) : Writer Unit := do
  match part with
  | .symbol name types => w.symbolParameters name types
  | .parameters _ types => w.parameters (types.drop 1)
  | .type _ (.function function) =>
    if function.qualifiers ≠ .none then w.qualifiers function.qualifiers
    if let some ref := function.ref then w.refQualifier ref
  | .type _ (.qualified qualifiers _) => w.qualifiers qualifiers
  | .type _ (.pointer _) => write "*"
  | .type _ (.reference ref _) =>
    if ← collapseReferences (← get).pending then write ref.spelling
  | .type _ (.array bound _) =>
    if ← w.writePartsOfArray (← get).pending true then space
    write "["
    w.writeBound bound
    write "]"
  | .type _ (.vector bound _) =>
    write " __vector("
    w.writeBound bound
    write ")"
  | .type _ (.memberPointer owner _) =>
    if (← lastChar) ≠ some '(' then space
    w.typeRef owner
    write "::*"
  | .type _ _ => return ()

def writeTemplateParam (index : Nat) : Writer Unit := do
  if (← get).inClosure then
    write "auto:"
    writeNat (index + 1)
  else
    match argumentOf? (← table) index (← read).frames with
    | none => fail
    | some argument => w.templateArg argument

/-- Two angle brackets are kept apart by a space. -/
def writeTemplateArgs (args : ArgsRef) : Writer Unit := enclosed do
  if (← lastChar) = some '<' then write " "
  write "<"
  separated ", " (((← table).args args).zipIdx.map fun (argument, index) =>
    atArgument index args (w.templateArg argument))
  if (← lastChar) = some '>' then write " "
  write ">"

def writeTemplateArg : TemplateArg → Writer Unit
  | .expression expression => w.expression expression
  | .primary expression => w.primary expression
  | .type type => w.typeRef type
  | .pack args => do
    modify fun page => { page with inPack := true }
    separated ", " (args.map w.templateArg)

end MangledNames.Symbol.Wording

import MangledNames.Symbol.Grammar

/-!
Productions of types and template arguments.

Every type but the builtin ones and those that are referred to gets a number after its parts.
-/

namespace MangledNames.Symbol.Production

open Symbol.Parser

variable (g : Grammar)

def fundamentalType : Parser FundamentalType := word FundamentalType.vocabulary

def parametricType : Parser ParametricType := do
  expect "D"
  if ← eat "F" then
    let bits ← Parser.number
    if ← eat "x" then return .float bits true
    expect "_"
    return .float bits false
  let signed ← eat "B"
  unless signed do expect "U"
  if (← peek).any Char.isDigit then
    let bits ← Parser.number
    expect "_"
    return .bitInt signed bits
  return .bitIntOf signed (← enterWidth (← g.expression))

def builtinType : Parser BuiltinType := do
  if let some type ← optional g.fundamentalType then
    return .fundamental type
  if ← eat "u" then
    return .vendor (← g.sourceName)
  return .parametric (← g.parametricType)

def qualifiers : Parser Qualifiers := do
  let restrict ← eat "r"
  let volatile ← eat "V"
  let const ← eat "K"
  return ⟨restrict, volatile, const⟩

def refQualifier : Parser RefQualifier := do
  if ← eat "R" then return .lvalue
  expect "O"
  return .rvalue

def exceptionSpec : Parser ExceptionSpec := do
  if ← eat "Do" then return .noexcept
  expect "DO"
  let condition ← g.expression
  expect "E"
  return .computed condition

def bareFunctionType : Parser (List TypeRef) := many1 g.type

def functionType : Parser FunctionType := do
  let qualifiers ← g.qualifiers
  let exceptions ← optional g.exceptionSpec
  let _ ← eat "Dx"
  expect "F"
  let _ ← eat "Y"
  let types ← g.bareFunctionType
  let ref ← optional g.refQualifier
  expect "E"
  return ⟨qualifiers, exceptions, types, ref⟩

def startsFunctionType : List Char → Bool
  | 'F' :: _ => true
  | 'D' :: c :: _ => c ∈ ['o', 'O', 'x', 'w']
  | _ => false

/-- The qualifiers of a function type belong to that type. -/
def typeQualifiers : Parser Qualifiers := do
  let qualifiers ← g.qualifiers
  if qualifiers = .none ∨ startsFunctionType (← rest) then fail
  return qualifiers

def classEnum : Parser CompoundType := do
  if let some name ← optional g.name then
    return .classEnum none name
  expect "T"
  if ← eat "s" then return .classEnum (some .struct) (← g.name)
  if ← eat "u" then return .classEnum (some .union) (← g.name)
  expect "e"
  return .classEnum (some .enum) (← g.name)

def arrayType : Parser CompoundType := do
  expect "A"
  if let some size ← optional Parser.number then
    expect "_"
    return .array (.number size) (← g.type)
  if let some size ← optional g.expression then
    expect "_"
    return .array (.computed size) (← g.type)
  expect "_"
  return .array .unknown (← g.type)

def vectorType : Parser CompoundType := do
  expect "Dv"
  if let some size ← optional Parser.number then
    expect "_"
    return .vector (.number size) (← g.type)
  let size ← g.expression
  expect "_"
  return .vector (.computed size) (← g.type)

def memberPointer : Parser CompoundType := do
  expect "M"
  let owner ← g.type
  return .memberPointer owner (← g.type)

def decltype : Parser Expression := do
  expect "D"
  unless ← eat "t" do expect "T"
  let expression ← g.expression
  expect "E"
  return expression

def templateParam : Parser Nat := do
  expect "T"
  let index := match ← optional Parser.number with
    | none => 0
    | some number => number + 1
  expect "_"
  return index

def templateTemplate : Parser EntityRef := do
  if let some entity ← optional g.substitution then
    return entity
  enterNumbered (.templateParameter (← g.templateParam))

def templateArgs : Parser ArgsRef := do
  expect "I"
  let args ← many1 g.templateArg
  expect "E"
  enterArgs args

def templateArg : Parser TemplateArg := do
  if ← eat "X" then
    let expression ← g.expression
    expect "E"
    return .expression expression
  if let some expression ← optional g.primary then
    return .primary expression
  if let some type ← optional g.type then
    return .type type
  unless ← eat "J" do expect "I"
  let args ← many g.templateArg
  expect "E"
  return .pack args

/-- Whether a template parameter that has just been read is a type by itself. Argument lists that
follow it make it a template, except the last one after a conversion operator: these are arguments
of the operator. -/
def parameterStandsAlone : Parser Bool := do
  if (← peek) ≠ some 'I' then return true
  if (← get).inConversion then
    match ← ahead g.templateArgs with
    | none => return false
    | some following => return following.head? ≠ some 'I'
  return false

def typeParameter : Parser Nat := do
  let index ← g.templateParam
  unless ← parameterStandsAlone g do fail
  return index

/-- A reference that argument lists follow is a template. -/
def typeSubstitution : Parser EntityRef := do
  let entity ← g.substitution
  if (← peek) = some 'I' then fail
  return entity

/-- Types whose first character tells them apart from all others. -/
def modifiedType : Parser CompoundType := do
  if ← eat "P" then return .pointer (← g.type)
  if ← eat "R" then return .reference .lvalue (← g.type)
  if ← eat "O" then return .reference .rvalue (← g.type)
  if ← eat "C" then return .complex (← g.type)
  if ← eat "G" then return .imaginary (← g.type)
  expect "Dp"
  return .packExpansion (← g.type)

def type : Parser TypeRef := do
  if let some type ← optional g.builtinType then
    return .builtin type
  if ← eat "U" then
    let name ← g.sourceName
    let args ← optional g.templateArgs
    return ← enterType (.vendor name args (← g.type))
  if let some qualifiers ← optional (typeQualifiers g) then
    return ← enterType (.qualified qualifiers (← g.type))
  if let some type ← optional g.classEnum then
    return ← enterType type
  if let some entity ← optional (typeSubstitution g) then
    return .ofEntity entity
  if let some type ← optional g.functionType then
    return ← enterType (.function type)
  if let some type ← optional g.arrayType then
    return ← enterType type
  if let some type ← optional g.vectorType then
    return ← enterType type
  if let some type ← optional g.memberPointer then
    return ← enterType type
  if let some index ← optional (typeParameter g) then
    return ← enterType (.parameter index)
  if let some template ← optional g.templateTemplate then
    return ← enterType (.templateTemplate template (← g.templateArgs))
  if let some expression ← optional g.decltype then
    return ← enterType (.decltype expression)
  enterType (← modifiedType g)

end MangledNames.Symbol.Production

import MangledNames.Symbol.Grammar

/-!
Productions of expressions, as they occur in template arguments, array bounds and `decltype`.
-/

namespace MangledNames.Symbol.Production

open Symbol.Parser

variable (g : Grammar)

def primary : Parser Primary := do
  expect "L"
  if let some type ← optional g.type then
    let rest ← rest
    let value := rest.takeWhile (· ≠ 'E')
    advanceTo (rest.drop value.length)
    expect "E"
    return .literal type value
  let name ← g.mangledName
  expect "E"
  return .external name

def initializer : Parser (List Expression) := do
  expect "pi"
  let expressions ← many g.expression
  expect "E"
  return expressions

def functionParam : Parser FunctionParam := do
  expect "f"
  if ← eat "L" then
    let _ ← Parser.number
  expect "p"
  let _ ← g.qualifiers
  if ← eat "T" then return .this
  let index := match ← optional Parser.number with
    | none => 0
    | some number => number + 1
  expect "_"
  return .place index

def memberName : Parser Name := do
  let name ← g.unqualifiedName
  if let some args ← optional g.templateArgs then
    return .instantiation (← enter (.template ⟨false, name⟩)) args
  return .unscoped ⟨false, name⟩

def subobject : Parser Expression := do
  let type ← g.type
  let object ← g.expression
  let offset ← optional signedNumber
  expect "E"
  return .subobject type object (offset.getD 0)

def simpleId : Parser SimpleId := do
  let name ← g.sourceName
  return ⟨name, ← optional g.templateArgs⟩

def qualifierLevel : Parser SimpleId := g.simpleId

def unresolvedType : Parser EntityRef := do
  if let some index ← optional g.templateParam then
    let args ← optional g.templateArgs
    return ← enterNumbered (.unresolvedType (.parameter index args))
  if let some expression ← optional g.decltype then
    return ← enterNumbered (.unresolvedType (.decltype expression))
  g.substitution

def destructorName : Parser DestructorName := do
  if let some type ← optional g.unresolvedType then
    return .type type
  return .simple (← g.simpleId)

def unresolvedBase : Parser UnresolvedBase := do
  if let some id ← optional g.simpleId then
    return .simple id
  if ← eat "on" then
    let operator ← g.operatorName false
    return .operator operator (← optional g.templateArgs)
  expect "dn"
  return .destructor (← g.destructorName)

/-- Levels of qualification up to the base name. -/
def levels (isGlobal : Bool) (type : Option EntityRef) : Parser UnresolvedName := do
  let levels ← many1 g.qualifierLevel
  expect "E"
  return ⟨isGlobal, type, levels, ← g.unresolvedBase⟩

def unresolvedName : Parser UnresolvedName := do
  let isGlobal ← eat "gs"
  if let some base ← optional g.unresolvedBase then
    return ⟨isGlobal, none, [], base⟩
  expect "sr"
  if isGlobal then
    return ← levels g true none
  if ← eat "N" then
    return ← levels g false (some (← g.unresolvedType))
  if let some type ← optional g.unresolvedType then
    return ⟨false, some type, [], ← g.unresolvedBase⟩
  levels g false none

/-- An expression list that ends here. -/
def expressionsToEnd : Parser (List Expression) := do
  let expressions ← many g.expression
  expect "E"
  return expressions

def allocation (isGlobal isArray : Bool) : Parser Expression := do
  let placement ← many g.expression
  expect "_"
  let type ← g.type
  if ← eat "E" then
    return .new isGlobal isArray placement type none
  return .new isGlobal isArray placement type (some (← g.initializer))

def allocationOrRelease (isGlobal : Bool) : Parser Expression := do
  if ← eat "nw" then return ← allocation g isGlobal false
  if ← eat "na" then return ← allocation g isGlobal true
  if ← eat "dl" then return .delete isGlobal false (← g.expression)
  expect "da"
  return .delete isGlobal true (← g.expression)

def conversion : Parser Expression := do
  let type ← g.type
  if ← eat "_" then
    return .convertMany type (← expressionsToEnd g)
  return .convert type (← g.expression)

def castTo (keyword : String) : Parser Expression := do
  let type ← g.type
  return .cast keyword type (← g.expression)

def sizeofPack : Parser Expression := do
  if let some index ← optional g.templateParam then
    return .sizeofTemplatePack index
  return .sizeofFunctionPack (← g.functionParam)

/-- The expressions that two letters decide on. What follows the letters has no alternative. -/
def keyword (code : List Char) : Option (Parser Expression) :=
  match code with
  | ['c', 'l'] => some do
    let function ← g.expression
    return .call function (← expressionsToEnd g)
  | ['c', 'v'] => some (conversion g)
  | ['t', 'l'] => some do
    let type ← g.type
    return .braced type (← expressionsToEnd g)
  | ['i', 'l'] => some do
    let element ← g.expression
    expect "E"
    return .bracedList element
  | ['d', 'c'] => some (castTo g "dynamic_cast")
  | ['s', 'c'] => some (castTo g "static_cast")
  | ['c', 'c'] => some (castTo g "const_cast")
  | ['r', 'c'] => some (castTo g "reinterpret_cast")
  | ['t', 'i'] => some (return .typeQuery "typeid" (← g.type))
  | ['s', 't'] => some (return .typeQuery "sizeof" (← g.type))
  | ['a', 't'] => some (return .typeQuery "alignof" (← g.type))
  | ['t', 'e'] => some (return .valueQuery "typeid" (← g.expression))
  | ['s', 'z'] => some (return .valueQuery "sizeof" (← g.expression))
  | ['a', 'z'] => some (return .valueQuery "alignof" (← g.expression))
  | ['n', 'x'] => some (return .valueQuery "noexcept" (← g.expression))
  | ['s', 'p'] => some (return .packExpansion (← g.expression))
  | ['t', 'w'] => some (return .throw (← g.expression))
  | ['t', 'r'] => some (return .rethrow)
  | ['s', 'o'] => some g.subobject
  | ['d', 't'] => some do
    let object ← g.expression
    return .dot object (← g.memberName)
  | ['p', 't'] => some do
    let object ← g.expression
    return .arrow object (← g.memberName)
  | ['d', 's'] => some do
    let object ← g.expression
    return .dotStar object (← g.expression)
  | ['s', 'Z'] => some (sizeofPack g)
  | ['s', 'P'] => some do
    let args ← many g.templateArg
    expect "E"
    return .sizeofArgs args
  | _ => none

/-- An operator and as many operands as it takes. -/
def operation : Parser Expression := do
  let operator ← g.operatorName true
  match operator.arity with
  | 1 => return .unary operator (← g.expression)
  | 2 =>
    let left ← g.expression
    return .binary operator left (← g.expression)
  | 3 =>
    let first ← g.expression
    let second ← g.expression
    return .ternary operator first second (← g.expression)
  | _ => fail

/-- The expressions that are found by trying one form after the other. -/
def openExpression : Parser Expression := do
  if let some expression ← optional (do expect "gs"; allocationOrRelease g true) then
    return expression
  if let some expression ← optional (allocationOrRelease g false) then
    return expression
  if let some index ← optional g.templateParam then
    return .templateParam index
  if let some param ← optional g.functionParam then
    return .functionParam param
  if let some name ← optional g.unresolvedName then
    return .unresolved name
  if let some expression ← optional g.primary then
    return .primary expression
  operation g

def expression : Parser Expression := do
  if ← eat "pp_" then return .stepBefore "++" (← g.expression)
  if ← eat "mm_" then return .stepBefore "--" (← g.expression)
  let rest ← rest
  match keyword g (rest.take 2) with
  | some parser =>
    advanceTo (rest.drop 2)
    parser
  | none => openExpression g

end MangledNames.Symbol.Production

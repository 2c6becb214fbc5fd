import MangledNames.Symbol.Grammar

/-!
Productions of names: nested, unscoped and local ones, what they are made of, and the numbers by
which they refer to earlier components.
-/

namespace MangledNames.Symbol.Production

open Symbol.Parser

variable (g : Grammar)

def name : Parser Name := do
  if let some nested ← optional g.nestedName then
    return .nested nested
  if let some unscoped ← optional g.unscopedName then
    if (← peek) = some 'I' then
      let template ← enterNumbered (.template unscoped)
      return .instantiation template (← g.templateArgs)
    return .unscoped unscoped
  if let some template ← optional g.unscopedTemplate then
    return .instantiation template (← g.templateArgs)
  return .inside (← g.localName)

def unscopedName : Parser UnscopedName := do
  let inStd ← eat "St"
  return ⟨inStd, ← g.unqualifiedName⟩

def unscopedTemplate : Parser EntityRef := do
  if let some unscoped ← optional g.unscopedName then
    return ← enterNumbered (.template unscoped)
  g.substitution

def explicitObject : Parser Unit := expect "H"

/-- A nested name is what its last scope is; only a name, plain or in a scope, and an instance of a
template will do. -/
def nestedPath (whole : EntityRef) : Parser NestedPath := do
  match whole with
  | .standard _ => fail
  | .entry index =>
    match (← table).entryAt? index with
    | some (.scope (.name last)) => return .member none last
    | some (.scope (.member outer last)) => return .member (some outer) last
    | some (.scope (.instantiation _ _)) => return .instantiation whole
    | _ => fail

def nestedName : Parser NestedName := do
  expect "N"
  if (← peek) = some 'H' then
    g.explicitObject
    let whole ← g.scope
    expect "E"
    return ⟨true, .none, none, ← nestedPath whole⟩
  let qualifiers ← optional g.qualifiers
  let ref ← optional g.refQualifier
  let whole ← g.scope
  expect "E"
  return ⟨false, qualifiers.getD .none, ref, ← nestedPath whole⟩

/-- The last scope of a nested name is the name itself, and gets no number. -/
def saveScope (scope : Scope) : Parser EntityRef := do
  if (← peek) = some 'E' then enter (.scope scope) else enterNumbered (.scope scope)

def extendScope (outer : Option EntityRef) (last : UnqualifiedName) : Parser EntityRef :=
  match outer with
  | none => saveScope (.name last)
  | some outer => saveScope (.member outer last)

/-- A data member stands for the scope of a closure that initialises it. -/
def dataMember (outer : EntityRef) (member : UnqualifiedName) : Parser EntityRef := do
  match member.base with
  | .source name =>
    let scope ← saveScope (.dataMember outer name)
    expect "M"
    return scope
  | _ => fail

def startsUnqualifiedName (c : Char) : Bool :=
  c.isDigit || c ∈ ['L', 'c', 'l', 'v', 'C', 'D', 'U'] || c ∈ Operator.initials

/-- Extends a scope by the component that begins with this character. Where none begins, the scope
ends. -/
def scopeStep (outer : Option EntityRef) (c : Char) : Parser (Option EntityRef) := do
  match c, outer with
  | 'S', _ => some <$> g.substitution
  | 'T', _ => some <$> (do saveScope (.parameter (← g.templateParam)))
  | 'D', _ =>
    match ← optional g.decltype with
    | some expression => some <$> saveScope (.decltype expression)
    | none => some <$> (do extendScope outer (← g.unqualifiedName))
  | 'I', some template => some <$> (do saveScope (.instantiation template (← g.templateArgs)))
  | c, _ =>
    if startsUnqualifiedName c then
      let last ← g.unqualifiedName
      match outer, ← peek with
      | some outer, some 'M' => some <$> dataMember outer last
      | _, _ => some <$> extendScope outer last
    else return none

def scopeFrom : Nat → Option EntityRef → Parser (Option EntityRef)
  | 0, outer => return outer
  | limit + 1, outer => do
    match ← peek with
    | none => return outer
    | some 'E' => return outer
    | some c =>
      match ← scopeStep g outer c with
      | none => return outer
      | some scope => scopeFrom limit (some scope)

def scope : Parser EntityRef := do
  match ← scopeFrom g (← rest).length none with
  | none => fail
  | some scope => return scope

def baseName : Parser BaseName := do
  if let some operator ← optional (g.operatorName false) then
    return .operator operator
  if let some member ← optional g.specialMember then
    return .special member
  if ← eat "L" then
    let name ← g.sourceName
    let _ ← optional g.discriminator
    return .internal name
  if let some name ← optional g.sourceName then
    return .source name
  if let some type ← optional g.closureType then
    return .closure type
  return .unnamed (← g.unnamedType)

def unqualifiedName : Parser UnqualifiedName := do
  let base ← baseName g
  return ⟨base, ← g.tags⟩

def isIdentifierChar (c : Char) : Bool :=
  c.isAlphanum || c ∈ ['$', '_', '.']

/-- Whether the text has so many bytes. -/
def hasBytes : Nat → List Char → Bool
  | 0, _ => true
  | _, [] => false
  | bytes, c :: text => hasBytes (bytes - c.utf8Size) text

def identifier (length : Nat) : Parser String := do
  let rest ← rest
  let identifier := rest.take length
  if identifier.length ≠ length ∨ ¬ identifier.all isIdentifierChar then fail
  advanceTo (rest.drop length)
  return String.ofList identifier

def sourceName : Parser String := do
  let length ← Parser.number
  if length = 0 ∨ ¬ hasBytes length (← rest) then fail
  g.identifier length

def tag : Parser String := do
  expect "B"
  g.sourceName

def tags : Parser (List String) := many g.tag

def simpleOperator : Parser Operator := word Operator.vocabulary

def operatorName (applied : Bool) : Parser OperatorName := do
  if let some operator ← optional g.simpleOperator then
    return .simple operator
  if ← eat "cv" then
    return .conversion (← converting (!applied) g.type)
  if ← eat "li" then
    return .literal (← g.sourceName)
  expect "v"
  match digit? 10 (← anyChar) with
  | none => fail
  | some arity => return .vendor arity (← g.sourceName)

def specialMember : Parser SpecialMember := do
  if ← eat "C" then
    let inheriting ← eat "I"
    unless (← anyChar) ∈ ['1', '2', '3', '4'] do fail
    if inheriting then
      return .constructor (some (← g.type))
    return .constructor none
  expect "D"
  unless (← anyChar) ∈ ['0', '1', '2', '4'] do fail
  return .destructor

def closureSignature : Parser (List TypeRef) := do
  if ← eat "v" then return []
  many1 g.type

def closureType : Parser ClosureType := do
  expect "Ul"
  let parameters ← g.closureSignature
  expect "E"
  let number ← optional Parser.number
  expect "_"
  return ⟨parameters, number⟩

def unnamedType : Parser (Option Nat) := do
  expect "Ut"
  let number ← optional Parser.number
  expect "_"
  return number

def localName : Parser LocalName := do
  expect "Z"
  let enclosing ← g.encoding
  expect "E"
  if ← eat "s" then
    let _ ← optional g.discriminator
    return .stringLiteral enclosing
  if ← eat "d" then
    let _ ← optional g.number
    expect "_"
    return .defaultArgument enclosing (← g.name)
  let name ← g.name
  let _ ← optional g.discriminator
  return .entity enclosing name

/-- Numbers from ten on stand between two underscores and one. -/
def discriminator : Parser Nat := do
  expect "_"
  if ← eat "_" then
    let number ← Parser.number
    if number < 10 then fail
    expect "_"
    return number
  match digit? 10 (← anyChar) with
  | none => fail
  | some digit => return digit

def standardEntity : Parser StandardEntity := word StandardEntity.vocabulary

def sequenceNumber : Parser Nat := numeral 36

/-- The first component has no digits, and the one after it the number zero. -/
def substitution : Parser EntityRef := do
  if let some entity ← optional g.standardEntity then
    return .standard entity
  expect "S"
  let number := match ← optional g.sequenceNumber with
    | none => 0
    | some number => number + 1
  match (← table).numbered? number with
  | none => fail
  | some entity =>
    expect "_"
    return entity

def number : Parser Int := signedNumber

end MangledNames.Symbol.Production

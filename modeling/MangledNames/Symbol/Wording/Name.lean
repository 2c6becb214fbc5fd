import MangledNames.Symbol.Wording

/-!
# The wording of names
-/

namespace MangledNames.Symbol.Wording

open Writer

variable (w : Wording)

def writeName : Name → Writer Unit
  | .nested name => w.nestedName name
  | .unscoped name => w.unscopedName name
  | .instantiation template args => do
    withBinding (.args args) (w.entityRef template)
    w.templateArgs args
  | .inside name => w.localName name

def writeUnscopedName (name : UnscopedName) : Writer Unit := do
  if name.inStd then write "std::"
  w.unqualifiedName name.name

def writeNestedPath : NestedPath → Writer Unit
  | .member none name => w.unqualifiedName name
  | .member (some outer) name => do
    w.entityRef outer
    write "::"
    w.unqualifiedName name
  | .instantiation whole => w.entityRef whole

/-- The part that waits on top, the parameters of the function that is named, goes before the
qualifiers of the function. -/
def writeNestedName (name : NestedName) : Writer Unit := do
  w.writeNestedPath name.path
  if name.explicitObject then
    modify fun page => { page with explicitObject := true }
  if let some part ← takeWaiting then
    w.writePart part
  if name.qualifiers ≠ .none ∧ (← read).parameters then
    w.qualifiers name.qualifiers
  if let some ref := name.ref then
    w.refQualifier ref

def writeScope : Scope → Writer Unit
  | .name name => w.unqualifiedName name
  | .member outer name => do
    w.entityRef outer
    write "::"
    w.unqualifiedName name
  | .instantiation template args => do
    w.entityRef template
    w.templateArgs args
  | .parameter index => w.templateParam index
  | .decltype expression => w.decltype expression
  | .dataMember outer name => do
    w.entityRef outer
    write "::"
    w.sourceName name

def writeBaseName : BaseName → Writer Unit
  | .operator operator => do
    write "operator"
    w.operatorName operator
  | .special member => w.specialMember member
  | .source name => w.sourceName name
  | .internal name => w.sourceName name
  | .closure type => w.closureType type
  | .unnamed number => w.unnamedType number

def writeUnqualifiedName (name : UnqualifiedName) : Writer Unit := do
  w.writeBaseName name.base
  w.tags name.tags

def writeTags (tags : List String) : Writer Unit := tags.forM w.tag

def writeTag (tag : String) : Writer Unit := do
  write "[abi:"
  w.sourceName tag
  write "]"

/-- The mark of a namespace without a name. -/
def isAnonymousNamespace (identifier : String) : Bool :=
  match identifier.toList with
  | '_' :: 'G' :: 'L' :: 'O' :: 'B' :: 'A' :: 'L' :: '_' :: c :: 'N' :: _ => c ∈ ['.', '_', '$']
  | _ => false

def writeIdentifier (identifier : String) : Writer Unit := do
  if isAnonymousNamespace identifier then
    write "(anonymous namespace)"
  else
    modify fun page => { page with sourceName := some identifier }
    write identifier

def writeSimpleOperator (operator : Operator) : Writer Unit := write operator.spelling

/-- A conversion is written with the template arguments of the type in force, which it may refer to
before they are written. -/
def writeOperatorName : OperatorName → Writer Unit
  | .simple operator => do
    if operator.form = .word then space
    w.simpleOperator operator
  | .conversion type => do
    space
    withArgs ((← table).argsOfType? type) (w.typeRef type)
  | .literal name => do
    w.sourceName name
    write "::operator \"\""
  | .vendor arity name => do
    w.sourceName name
    write "::operator "
    writeNat arity

def writeLeaf : Leaf → Writer Unit
  | .standard entity => write (entity.className?.getD "")
  | .source name => w.sourceName name
  | .closure type => withoutFrames (w.closureType type)
  | .unnamed number => w.unnamedLeaf number

def writeSpecialMember (member : SpecialMember) : Writer Unit := do
  match leafOf? (← read).frames, member with
  | none, _ => fail
  | some leaf, .destructor =>
    write "~"
    w.writeLeaf leaf
  | some leaf, .constructor none => w.writeLeaf leaf
  | some _, .constructor (some inherited) =>
    match (← table).leafOfType? inherited with
    | none => fail
    | some leaf => w.writeLeaf leaf

def writeClosureType (type : ClosureType) : Writer Unit := do
  write "\x7blambda("
  w.closureSignature type.parameters
  write ")#"
  writeNat (type.number.elim 1 (· + 2))
  write "\x7d"

/-- The parameters of a generic closure are written as `auto`. -/
def writeClosureSignature (parameters : List TypeRef) : Writer Unit := do
  modify fun page => { page with inClosure := true }
  separated ", " (parameters.map w.typeRef)
  modify fun page => { page with inClosure := false }

def writeUnnamedType (number : Option Nat) : Writer Unit := do
  write "\x7bunnamed type#"
  writeNat (number.elim 1 (· + 1))
  write "\x7d"

/-- A constructor of a type without a name is written with the name before it. -/
def writeUnnamedLeaf (number : Option Nat) : Writer Unit := do
  match (← get).sourceName with
  | some name => write name
  | none => writeUnnamedType number

def writeLocalName : LocalName → Writer Unit
  | .entity enclosing name => withParameters do
    w.encoding enclosing
    write "::"
    w.name name
  | .stringLiteral enclosing => withParameters do
    w.encoding enclosing
    write "::string literal"
  | .defaultArgument enclosing _ => withParameters (w.encoding enclosing)

def writeStandardEntity (entity : StandardEntity) : Writer Unit := write entity.spelling

end MangledNames.Symbol.Wording

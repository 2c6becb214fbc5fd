import MangledNames.Symbol.Page

/-!
# The wording of each category

As the productions are written over a grammar for their parts, the wording of a category is written
over a wording for its parts, and the depth of a name is limited by the number of steps from the
wording that can write nothing. To write a node, or what a node puts around its inner type, is one
step. To follow a reference into the table is none.
-/

namespace MangledNames.Symbol

structure Wording where
  -- Symbols
  mangledName : MangledName → Writer Unit
  cloneSuffix : CloneSuffix → Writer Unit
  cloneIdentifier : String → Writer Unit
  globals : GlobalRoutine → MangledName → Writer Unit
  encoding : Encoding → Writer Unit
  specialName : SpecialName → Writer Unit
  callOffset : CallOffset → Writer Unit
  offset : CallOffset → Writer Unit
  resourceName : List Char → Writer Unit
  -- Names
  name : Name → Writer Unit
  unscopedName : UnscopedName → Writer Unit
  unscopedTemplate : UnscopedName → Writer Unit
  nestedName : NestedName → Writer Unit
  scope : Scope → Writer Unit
  unqualifiedName : UnqualifiedName → Writer Unit
  sourceName : String → Writer Unit
  identifier : String → Writer Unit
  tags : List String → Writer Unit
  tag : String → Writer Unit
  operatorName : OperatorName → Writer Unit
  simpleOperator : Operator → Writer Unit
  specialMember : SpecialMember → Writer Unit
  closureType : ClosureType → Writer Unit
  closureSignature : List TypeRef → Writer Unit
  unnamedType : Option Nat → Writer Unit
  unnamedLeaf : Option Nat → Writer Unit
  localName : LocalName → Writer Unit
  standardEntity : StandardEntity → Writer Unit
  -- Types
  compoundType : Nat → CompoundType → Writer Unit
  builtinType : BuiltinType → Writer Unit
  fundamentalType : FundamentalType → Writer Unit
  parametricType : ParametricType → Writer Unit
  qualifiers : Qualifiers → Writer Unit
  refQualifier : RefQualifier → Writer Unit
  functionType : Nat → FunctionType → Writer Unit
  exceptionSpec : ExceptionSpec → Writer Unit
  bareFunctionType : Nat → List TypeRef → Writer Unit
  classEnum : Option ClassKey → Name → Writer Unit
  /-- An array, a vector or a member pointer, written around the inner type. -/
  aroundType : Nat → CompoundType → TypeRef → Writer Unit
  decltype : Expression → Writer Unit
  templateParam : Nat → Writer Unit
  templateTemplateParam : Nat → Writer Unit
  templateArgs : ArgsRef → Writer Unit
  templateArg : TemplateArg → Writer Unit
  /-- The parameters of a function, in parentheses. -/
  parameters : List TypeRef → Writer Unit
  /-- What a waiting part of a type puts around the text written since. -/
  part : Part → Writer Unit
  -- Expressions
  expression : Expression → Writer Unit
  subobject : TypeRef → Expression → Int → Writer Unit
  primary : Primary → Writer Unit
  initializer : List Expression → Writer Unit
  functionParam : FunctionParam → Writer Unit
  memberName : Name → Writer Unit
  unresolvedName : UnresolvedName → Writer Unit
  qualifierLevel : SimpleId → Writer Unit
  unresolvedType : UnresolvedType → Writer Unit
  unresolvedBase : UnresolvedBase → Writer Unit
  destructorName : DestructorName → Writer Unit
  simpleId : SimpleId → Writer Unit

namespace Wording

open Writer in
def exhausted : Wording where
  mangledName _ := fail
  cloneSuffix _ := fail
  cloneIdentifier _ := fail
  globals _ _ := fail
  encoding _ := fail
  specialName _ := fail
  callOffset _ := fail
  offset _ := fail
  resourceName _ := fail
  name _ := fail
  unscopedName _ := fail
  unscopedTemplate _ := fail
  nestedName _ := fail
  scope _ := fail
  unqualifiedName _ := fail
  sourceName _ := fail
  identifier _ := fail
  tags _ := fail
  tag _ := fail
  operatorName _ := fail
  simpleOperator _ := fail
  specialMember _ := fail
  closureType _ := fail
  closureSignature _ := fail
  unnamedType _ := fail
  unnamedLeaf _ := fail
  localName _ := fail
  standardEntity _ := fail
  compoundType _ _ := fail
  builtinType _ := fail
  fundamentalType _ := fail
  parametricType _ := fail
  qualifiers _ := fail
  refQualifier _ := fail
  functionType _ _ := fail
  exceptionSpec _ := fail
  bareFunctionType _ _ := fail
  classEnum _ _ := fail
  aroundType _ _ _ := fail
  decltype _ := fail
  templateParam _ := fail
  templateTemplateParam _ := fail
  templateArgs _ := fail
  templateArg _ := fail
  parameters _ := fail
  part _ := fail
  expression _ := fail
  subobject _ _ _ := fail
  primary _ := fail
  initializer _ := fail
  functionParam _ := fail
  memberName _ := fail
  unresolvedName _ := fail
  qualifierLevel _ := fail
  unresolvedType _ := fail
  unresolvedBase _ := fail
  destructorName _ := fail
  simpleId _ := fail

open Writer

variable (w : Wording)

def entry (index : Nat) : Writer Unit := do
  match (← table).entryAt? index with
  | none => fail
  | some (.template name) => w.unscopedTemplate name
  | some (.templateParameter parameter) => w.templateTemplateParam parameter
  | some (.type type) => w.compoundType index type
  | some (.scope scope) => w.scope scope
  | some (.unresolvedType type) => w.unresolvedType type

def entityRef : EntityRef → Writer Unit
  | .standard entity => w.standardEntity entity
  | .entry index => w.entry index

def typeRef : TypeRef → Writer Unit
  | .standard entity => w.standardEntity entity
  | .entry index => w.entry index
  | .builtin type => w.builtinType type

/-- The parameters of the function that a symbol names. Its template arguments, if it has any, are
in force, and its return type comes first among its types. -/
def symbolParameters (name : Name) (types : List TypeRef) : Writer Unit := do
  match name.args? (← table) with
  | none => w.parameters types
  | some args => withBinding (.args args) (w.parameters (types.drop 1))

def writePart : Part → Writer Unit
  | .symbol name types => w.symbolParameters name types
  | part => w.part part

/-- Writes what a node contains while the node's own part waits. -/
def around (part : Part) (inner : Writer Unit) : Writer Unit := do
  wait part
  inner
  if ← takeBack part then w.writePart part

/-- Writes as many of the waiting parts as the list has members. -/
def writeWaiting : List Part → Writer Unit
  | [] => return ()
  | _ :: parts => do
    match ← takeWaiting with
    | none => return ()
    | some part =>
      w.writePart part
      writeWaiting parts

/-- Writes all waiting parts. No part is added meanwhile, so there are at most as many as now. -/
def writeAllWaiting : Writer Unit := do
  w.writeWaiting (← get).pending

end Wording

end MangledNames.Symbol

import MangledNames.Symbol.Production.Name
import MangledNames.Symbol.Production.Type
import MangledNames.Symbol.Production.Expression
import MangledNames.Symbol.Production.Symbol

/-!
Reading a mangled name: the grammar of each nesting depth, and a text read to its end.
-/

namespace MangledNames.Symbol

namespace Grammar

/-- The grammar whose productions find their parts with the given one. -/
def above (g : Grammar) : Grammar where
  mangledName := Production.mangledName g
  cloneSuffix := Production.cloneSuffix g
  cloneIdentifier := Production.cloneIdentifier
  globals := Production.globals g
  encoding := Production.encoding g
  specialName := Production.specialName g
  callOffset := Production.callOffset g
  fixedOffset := Production.fixedOffset g
  virtualOffset := Production.virtualOffset g
  resourceName := Production.resourceName
  name := Production.name g
  unscopedName := Production.unscopedName g
  unscopedTemplate := Production.unscopedTemplate g
  nestedName := Production.nestedName g
  explicitObject := Production.explicitObject
  scope := Production.scope g
  unqualifiedName := Production.unqualifiedName g
  sourceName := Production.sourceName g
  identifier := Production.identifier
  tags := Production.tags g
  tag := Production.tag g
  operatorName := Production.operatorName g
  simpleOperator := Production.simpleOperator
  specialMember := Production.specialMember g
  closureType := Production.closureType g
  closureSignature := Production.closureSignature g
  unnamedType := Production.unnamedType
  localName := Production.localName g
  discriminator := Production.discriminator
  substitution := Production.substitution g
  standardEntity := Production.standardEntity
  sequenceNumber := Production.sequenceNumber
  number := Production.number
  type := Production.type g
  builtinType := Production.builtinType g
  fundamentalType := Production.fundamentalType
  parametricType := Production.parametricType g
  qualifiers := Production.qualifiers
  refQualifier := Production.refQualifier
  functionType := Production.functionType g
  exceptionSpec := Production.exceptionSpec g
  bareFunctionType := Production.bareFunctionType g
  classEnum := Production.classEnum g
  arrayType := Production.arrayType g
  vectorType := Production.vectorType g
  memberPointer := Production.memberPointer g
  decltype := Production.decltype g
  templateParam := Production.templateParam
  templateTemplate := Production.templateTemplate g
  templateArgs := Production.templateArgs g
  templateArg := Production.templateArg g
  expression := Production.expression g
  subobject := Production.subobject g
  primary := Production.primary g
  initializer := Production.initializer g
  functionParam := Production.functionParam g
  memberName := Production.memberName g
  unresolvedName := Production.unresolvedName g
  qualifierLevel := Production.qualifierLevel g
  unresolvedType := Production.unresolvedType g
  unresolvedBase := Production.unresolvedBase g
  destructorName := Production.destructorName g
  simpleId := Production.simpleId g

/-- The grammar whose productions may be nested to this depth. -/
def ofDepth : Nat → Grammar
  | 0 => exhausted
  | depth + 1 => above (ofDepth depth)

end Grammar

/-- Productions may be nested to this depth. -/
def parseDepth : Nat := 95

def parse (symbol : List Char) : Except Refusal (MangledName × Table) :=
  match (Grammar.ofDepth parseDepth).mangledName.run ⟨symbol, .empty, false⟩ with
  | .error refusal _ => .error refusal
  | .ok name reading => if reading.rest.isEmpty then .ok (name, reading.table) else .error .mismatch

end MangledNames.Symbol

import MangledNames.Symbol.Wording.Name
import MangledNames.Symbol.Wording.Type
import MangledNames.Symbol.Wording.Expression
import MangledNames.Symbol.Wording.Symbol

/-!
# Writing a mangled name out

The wording of each nesting depth, and the text of a name.
-/

namespace MangledNames.Symbol

namespace Wording

/-- The wording that writes the parts of a node with the given one. -/
def above (w : Wording) : Wording where
  mangledName := w.writeMangledName
  cloneSuffix := w.writeCloneSuffix
  cloneIdentifier := writeCloneIdentifier
  globals := w.writeGlobals
  encoding := w.writeEncoding
  specialName := w.writeSpecialName
  callOffset := w.writeCallOffset
  offset := writeOffset
  resourceName := writeResourceName
  name := w.writeName
  unscopedName := w.writeUnscopedName
  unscopedTemplate := w.unscopedName
  nestedName := w.writeNestedName
  scope := w.writeScope
  unqualifiedName := w.writeUnqualifiedName
  sourceName := w.identifier
  identifier := writeIdentifier
  tags := w.writeTags
  tag := w.writeTag
  operatorName := w.writeOperatorName
  simpleOperator := writeSimpleOperator
  specialMember := w.writeSpecialMember
  closureType := w.writeClosureType
  closureSignature := w.writeClosureSignature
  unnamedType := writeUnnamedType
  unnamedLeaf := writeUnnamedLeaf
  localName := w.writeLocalName
  standardEntity := writeStandardEntity
  compoundType := w.writeCompoundType
  builtinType := w.writeBuiltinType
  fundamentalType := writeFundamentalType
  parametricType := w.writeParametricType
  qualifiers := writeQualifiers
  refQualifier := writeRefQualifier
  functionType := w.writeFunctionType
  exceptionSpec := w.writeExceptionSpec
  bareFunctionType := w.writeBareFunctionType
  classEnum := w.writeClassEnum
  aroundType := w.writeAroundType
  decltype := w.writeDecltype
  templateParam := w.writeTemplateParam
  templateTemplateParam := w.templateParam
  templateArgs := w.writeTemplateArgs
  templateArg := w.writeTemplateArg
  parameters := w.writeParameters
  part := w.writeTypePart
  expression := w.writeExpression
  subobject := w.writeSubobject
  primary := w.writePrimary
  initializer := w.writeInitializer
  functionParam := writeFunctionParam
  memberName := w.writeMemberName
  unresolvedName := w.writeUnresolvedName
  qualifierLevel := w.simpleId
  unresolvedType := w.writeUnresolvedType
  unresolvedBase := w.writeUnresolvedBase
  destructorName := w.writeDestructorName
  simpleId := w.writeSimpleId

/-- The wording for names whose nodes are nested to this depth. -/
def ofDepth : Nat → Wording
  | 0 => exhausted
  | depth + 1 => above (ofDepth depth)

end Wording

/-- Nodes may be nested to this depth, counted through references. -/
def writeDepth : Nat := 127

/-- The characters of a name, if it can be written. -/
def MangledName.text? (name : MangledName) (around : Surroundings) : Option String :=
  match (Wording.ofDepth writeDepth).mangledName name around .blank with
  | none => none
  | some (_, page) => some (String.ofList page.written.reverse)

end MangledNames.Symbol

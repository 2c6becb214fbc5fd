import MangledNames.Symbol.Parser

/-!
The productions of the grammar, as a record of parsers.

The productions call each other, and how deep they may be nested is limited. So each of them is
written over a grammar that it uses for its parts, and nesting is the step from the grammar for the
parts to the grammar for the whole: to enter a production is to use up one step. The grammar that
has no step left refuses every text as nested too deep.
-/

namespace MangledNames.Symbol

structure Grammar where
  -- Symbols
  mangledName : Parser MangledName
  cloneSuffix : Parser CloneSuffix
  cloneIdentifier : Parser String
  globals : Parser MangledName
  encoding : Parser Encoding
  specialName : Parser SpecialName
  callOffset : Parser CallOffset
  fixedOffset : Parser CallOffset
  virtualOffset : Parser CallOffset
  resourceName : Parser (List Char)
  -- Names
  name : Parser Name
  unscopedName : Parser UnscopedName
  unscopedTemplate : Parser EntityRef
  nestedName : Parser NestedName
  explicitObject : Parser Unit
  scope : Parser EntityRef
  unqualifiedName : Parser UnqualifiedName
  sourceName : Parser String
  /-- An identifier of so many characters. -/
  identifier : Nat → Parser String
  tags : Parser (List String)
  tag : Parser String
  /-- The flag tells whether the operator is applied to operands. -/
  operatorName : Bool → Parser OperatorName
  simpleOperator : Parser Operator
  specialMember : Parser SpecialMember
  closureType : Parser ClosureType
  closureSignature : Parser (List TypeRef)
  unnamedType : Parser (Option Nat)
  localName : Parser LocalName
  discriminator : Parser Nat
  substitution : Parser EntityRef
  standardEntity : Parser StandardEntity
  sequenceNumber : Parser Nat
  number : Parser Int
  -- Types
  type : Parser TypeRef
  builtinType : Parser BuiltinType
  fundamentalType : Parser FundamentalType
  parametricType : Parser ParametricType
  qualifiers : Parser Qualifiers
  refQualifier : Parser RefQualifier
  functionType : Parser FunctionType
  exceptionSpec : Parser ExceptionSpec
  bareFunctionType : Parser (List TypeRef)
  classEnum : Parser CompoundType
  arrayType : Parser CompoundType
  vectorType : Parser CompoundType
  memberPointer : Parser CompoundType
  decltype : Parser Expression
  templateParam : Parser Nat
  templateTemplate : Parser EntityRef
  templateArgs : Parser ArgsRef
  templateArg : Parser TemplateArg
  -- Expressions
  expression : Parser Expression
  subobject : Parser Expression
  primary : Parser Primary
  initializer : Parser (List Expression)
  functionParam : Parser FunctionParam
  memberName : Parser Name
  unresolvedName : Parser UnresolvedName
  qualifierLevel : Parser SimpleId
  unresolvedType : Parser EntityRef
  unresolvedBase : Parser UnresolvedBase
  destructorName : Parser DestructorName
  simpleId : Parser SimpleId

open Symbol.Parser in
def Grammar.exhausted : Grammar where
  mangledName := nestedTooDeep
  cloneSuffix := nestedTooDeep
  cloneIdentifier := nestedTooDeep
  globals := nestedTooDeep
  encoding := nestedTooDeep
  specialName := nestedTooDeep
  callOffset := nestedTooDeep
  fixedOffset := nestedTooDeep
  virtualOffset := nestedTooDeep
  resourceName := nestedTooDeep
  name := nestedTooDeep
  unscopedName := nestedTooDeep
  unscopedTemplate := nestedTooDeep
  nestedName := nestedTooDeep
  explicitObject := nestedTooDeep
  scope := nestedTooDeep
  unqualifiedName := nestedTooDeep
  sourceName := nestedTooDeep
  identifier := fun _ => nestedTooDeep
  tags := nestedTooDeep
  tag := nestedTooDeep
  operatorName := fun _ => nestedTooDeep
  simpleOperator := nestedTooDeep
  specialMember := nestedTooDeep
  closureType := nestedTooDeep
  closureSignature := nestedTooDeep
  unnamedType := nestedTooDeep
  localName := nestedTooDeep
  discriminator := nestedTooDeep
  substitution := nestedTooDeep
  standardEntity := nestedTooDeep
  sequenceNumber := nestedTooDeep
  number := nestedTooDeep
  type := nestedTooDeep
  builtinType := nestedTooDeep
  fundamentalType := nestedTooDeep
  parametricType := nestedTooDeep
  qualifiers := nestedTooDeep
  refQualifier := nestedTooDeep
  functionType := nestedTooDeep
  exceptionSpec := nestedTooDeep
  bareFunctionType := nestedTooDeep
  classEnum := nestedTooDeep
  arrayType := nestedTooDeep
  vectorType := nestedTooDeep
  memberPointer := nestedTooDeep
  decltype := nestedTooDeep
  templateParam := nestedTooDeep
  templateTemplate := nestedTooDeep
  templateArgs := nestedTooDeep
  templateArg := nestedTooDeep
  expression := nestedTooDeep
  subobject := nestedTooDeep
  primary := nestedTooDeep
  initializer := nestedTooDeep
  functionParam := nestedTooDeep
  memberName := nestedTooDeep
  unresolvedName := nestedTooDeep
  qualifierLevel := nestedTooDeep
  unresolvedType := nestedTooDeep
  unresolvedBase := nestedTooDeep
  destructorName := nestedTooDeep
  simpleId := nestedTooDeep

end MangledNames.Symbol

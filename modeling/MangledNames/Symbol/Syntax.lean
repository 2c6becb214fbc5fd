import MangledNames.Symbol.Vocabulary

/-!
The abstract syntax of mangled names.

A mangled name abbreviates: a component that has been spelled once is later referred to by its
number. So names and types do not contain their components, they refer to entries of a table
(`EntityRef`, `TypeRef`), and a name that is written with few characters may stand for one that is
exponentially longer. Argument lists are referred to as well (`ArgsRef`): two lists that read the
same are different lists, because a parameter may be resolved in one of them and not in the other.

The categories are those of the grammar of the C++ ABI. What is parsed and never written, such as
the discriminator of a local name, is not kept.
-/

namespace MangledNames.Symbol

structure Qualifiers where
  restrict : Bool
  volatile : Bool
  const : Bool
  deriving DecidableEq, Repr

namespace Qualifiers

def none : Qualifiers := ⟨false, false, false⟩

/-- The words in the order in which they are written. -/
def words (q : Qualifiers) : List String :=
  (if q.const then ["const"] else []) ++ (if q.volatile then ["volatile"] else []) ++
    if q.restrict then ["restrict"] else []

end Qualifiers

inductive RefQualifier where
  | lvalue
  | rvalue
  deriving DecidableEq, Repr

def RefQualifier.spelling : RefQualifier → String
  | lvalue => "&"
  | rvalue => "&&"

inductive ClassKey where
  | struct
  | union
  | enum
  deriving DecidableEq, Repr

def ClassKey.spelling : ClassKey → String
  | struct => "class"
  | union => "union"
  | enum => "enum"

/-- The place of a function parameter that an expression mentions. -/
inductive FunctionParam where
  | this
  | place (index : Nat)
  deriving DecidableEq, Repr

/-- How a thunk adjusts the object pointer. -/
inductive CallOffset where
  | fixed (offset : Int)
  | virtual (offset vcallOffset : Int)
  deriving DecidableEq, Repr

structure CloneSuffix where
  identifier : String
  numbers : List Nat
  deriving DecidableEq, Repr

/-- The data that a compiler emits for a type. -/
inductive TypeData where
  | vtable
  | vtt
  | typeinfo
  | typeinfoName
  | typeinfoFunction
  deriving DecidableEq, Repr

/-- The helpers that a compiler emits for a variable. -/
inductive VariableHelper where
  | tlsInit
  | tlsWrapper
  | guard
  deriving DecidableEq, Repr

inductive GlobalRoutine where
  | constructors
  | destructors
  deriving DecidableEq, Repr

/-- A name of the standard library or an entry of the table. -/
inductive EntityRef where
  | standard (entity : StandardEntity)
  | entry (index : Nat)
  deriving DecidableEq, Repr

structure ArgsRef where
  index : Nat
  deriving DecidableEq, Repr

inductive ParametricType where
  | float (bits : Nat) (extended : Bool)
  | bitInt (signed : Bool) (bits : Nat)
  /-- The width is the expression of this index in the table. -/
  | bitIntOf (signed : Bool) (width : Nat)
  deriving DecidableEq, Repr

inductive BuiltinType where
  | fundamental (type : FundamentalType)
  | vendor (name : String)
  | parametric (type : ParametricType)
  deriving DecidableEq, Repr

inductive TypeRef where
  | standard (entity : StandardEntity)
  | entry (index : Nat)
  | builtin (type : BuiltinType)
  deriving DecidableEq, Repr

namespace TypeRef

def ofEntity : EntityRef → TypeRef
  | .standard entity => standard entity
  | .entry index => entry index

def isVoid (type : TypeRef) : Bool :=
  type = builtin (.fundamental .void)

end TypeRef

inductive OperatorName where
  | simple (operator : Operator)
  | conversion (type : TypeRef)
  | literal (name : String)
  | vendor (arity : Nat) (name : String)
  deriving DecidableEq, Repr

def OperatorName.arity : OperatorName → Nat
  | simple operator => operator.arity
  | conversion _ => 1
  | literal _ => 1
  | vendor arity _ => arity

inductive SpecialMember where
  | constructor (inherited : Option TypeRef)
  | destructor
  deriving DecidableEq, Repr

structure ClosureType where
  parameters : List TypeRef
  number : Option Nat
  deriving DecidableEq, Repr

inductive BaseName where
  | operator (operator : OperatorName)
  | special (member : SpecialMember)
  | source (name : String)
  /-- A name with internal linkage. -/
  | internal (name : String)
  | closure (type : ClosureType)
  | unnamed (number : Option Nat)
  deriving DecidableEq, Repr

structure UnqualifiedName where
  base : BaseName
  tags : List String
  deriving DecidableEq, Repr

structure UnscopedName where
  inStd : Bool
  name : UnqualifiedName
  deriving DecidableEq, Repr

inductive NestedPath where
  | member (outer : Option EntityRef) (name : UnqualifiedName)
  | instantiation (whole : EntityRef)
  deriving DecidableEq, Repr

structure NestedName where
  explicitObject : Bool
  qualifiers : Qualifiers
  ref : Option RefQualifier
  path : NestedPath
  deriving DecidableEq, Repr

mutual

inductive Name where
  | nested (name : NestedName)
  | unscoped (name : UnscopedName)
  | instantiation (template : EntityRef) (args : ArgsRef)
  | inside (name : LocalName)

inductive LocalName where
  | entity (enclosing : Encoding) (name : Name)
  | stringLiteral (enclosing : Encoding)
  | defaultArgument (enclosing : Encoding) (name : Name)

/-- The types of a function begin with its return type if the name has template arguments. -/
inductive Encoding where
  | function (name : Name) (types : List TypeRef)
  | data (name : Name)
  | special (name : SpecialName)

inductive SpecialName where
  | typeData (data : TypeData) (type : TypeRef)
  | variableHelper (helper : VariableHelper) (name : Name)
  | thunk (offset : CallOffset) (target : Encoding)
  | covariantThunk (object result : CallOffset) (target : Encoding)
  | constructionVtable (type base : TypeRef)
  | temporary (name : Name) (number : Nat)
  | resource (names : List (List Char))
  | transactionClone (transactional : Bool) (target : Encoding)

end

inductive MangledName where
  | encoding (encoding : Encoding) (suffixes : List CloneSuffix)
  | block (enclosing : Encoding)
  | globals (routine : GlobalRoutine) (name : MangledName)
  | type (type : TypeRef)

structure SimpleId where
  name : String
  args : Option ArgsRef
  deriving DecidableEq, Repr

inductive DestructorName where
  | type (type : EntityRef)
  | simple (id : SimpleId)
  deriving DecidableEq, Repr

inductive UnresolvedBase where
  | simple (id : SimpleId)
  | operator (operator : OperatorName) (args : Option ArgsRef)
  | destructor (name : DestructorName)
  deriving DecidableEq, Repr

structure UnresolvedName where
  isGlobal : Bool
  type : Option EntityRef
  levels : List SimpleId
  base : UnresolvedBase
  deriving DecidableEq, Repr

inductive Primary where
  | literal (type : TypeRef) (value : List Char)
  | external (name : MangledName)

mutual

inductive Expression where
  | unary (operator : OperatorName) (operand : Expression)
  | binary (operator : OperatorName) (left right : Expression)
  | ternary (operator : OperatorName) (first second third : Expression)
  /-- An increment or decrement that precedes its operand. -/
  | stepBefore (sign : String) (operand : Expression)
  | call (function : Expression) (args : List Expression)
  | convert (type : TypeRef) (operand : Expression)
  | convertMany (type : TypeRef) (operands : List Expression)
  | braced (type : TypeRef) (elements : List Expression)
  | bracedList (element : Expression)
  | new (isGlobal isArray : Bool) (placement : List Expression) (type : TypeRef)
      (initial : Option (List Expression))
  | delete (isGlobal isArray : Bool) (operand : Expression)
  | cast (keyword : String) (type : TypeRef) (operand : Expression)
  | typeQuery (keyword : String) (type : TypeRef)
  | valueQuery (keyword : String) (operand : Expression)
  | templateParam (index : Nat)
  | functionParam (param : FunctionParam)
  | dot (object : Expression) (member : Name)
  | arrow (object : Expression) (member : Name)
  | dotStar (object member : Expression)
  | sizeofTemplatePack (index : Nat)
  | sizeofFunctionPack (param : FunctionParam)
  | sizeofArgs (args : List TemplateArg)
  | subobject (type : TypeRef) (object : Expression) (offset : Int)
  | packExpansion (operand : Expression)
  | throw (operand : Expression)
  | rethrow
  | unresolved (name : UnresolvedName)
  | primary (expression : Primary)

inductive TemplateArg where
  | expression (expression : Expression)
  | primary (expression : Primary)
  | type (type : TypeRef)
  | pack (args : List TemplateArg)

end

inductive ExceptionSpec where
  | noexcept
  | computed (condition : Expression)

inductive Dimension where
  | unknown
  | number (size : Nat)
  | computed (size : Expression)

/-- The first of the types is the return type. -/
structure FunctionType where
  qualifiers : Qualifiers
  exceptions : Option ExceptionSpec
  types : List TypeRef
  ref : Option RefQualifier

inductive CompoundType where
  | function (type : FunctionType)
  | classEnum (key : Option ClassKey) (name : Name)
  | array (dimension : Dimension) (element : TypeRef)
  | vector (dimension : Dimension) (element : TypeRef)
  | memberPointer (owner member : TypeRef)
  | parameter (index : Nat)
  | templateTemplate (template : EntityRef) (args : ArgsRef)
  | decltype (expression : Expression)
  | qualified (qualifiers : Qualifiers) (type : TypeRef)
  | pointer (type : TypeRef)
  | reference (kind : RefQualifier) (type : TypeRef)
  | complex (type : TypeRef)
  | imaginary (type : TypeRef)
  | vendor (name : String) (args : Option ArgsRef) (type : TypeRef)
  | packExpansion (type : TypeRef)

/-- A scope around a nested name, or the whole of it. -/
inductive Scope where
  | name (name : UnqualifiedName)
  | member (outer : EntityRef) (name : UnqualifiedName)
  | instantiation (template : EntityRef) (args : ArgsRef)
  | parameter (index : Nat)
  | decltype (expression : Expression)
  | dataMember (outer : EntityRef) (name : String)

inductive UnresolvedType where
  | parameter (index : Nat) (args : Option ArgsRef)
  | decltype (expression : Expression)

inductive Entry where
  | template (name : UnscopedName)
  | templateParameter (index : Nat)
  | type (type : CompoundType)
  | scope (scope : Scope)
  | unresolvedType (type : UnresolvedType)

end MangledNames.Symbol

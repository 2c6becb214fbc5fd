import MangledNames.Symbol.Page

/-!
# Syntax without opening braces

A name keeps some texts as they are spelled in the symbol: identifiers, the values of literals and
the names of resources. If none of these texts has an opening brace, then an opening brace that is
written is one of the wording, which closes what it opens. What is said here of a name is said of
its texts only; what it refers to is in the table, and is said of the entries there.
-/

namespace MangledNames.Symbol

def Unbraced (text : List Char) : Prop := '\x7b' ∉ text

instance (text : List Char) : Decidable (Unbraced text) :=
  inferInstanceAs (Decidable ('\x7b' ∉ text))

theorem Unbraced.of_subset {text part : List Char} (htext : Unbraced text) (hpart : part ⊆ text) :
    Unbraced part :=
  fun hmem => htext (hpart hmem)

structure CloneSuffix.Braceless (suffix : CloneSuffix) : Prop where
  identifier : Unbraced suffix.identifier.toList

inductive BuiltinType.Braceless : BuiltinType → Prop where
  | fundamental {type : FundamentalType} : Unbraced type.spelling.toList →
      Braceless (.fundamental type)
  | vendor {name : String} : Unbraced name.toList → Braceless (.vendor name)
  | parametric {type : ParametricType} : Braceless (.parametric type)

inductive TypeRef.Braceless : TypeRef → Prop where
  | standard {entity : StandardEntity} : Braceless (.standard entity)
  | entry {index : Nat} : Braceless (.entry index)
  | builtin {type : BuiltinType} : type.Braceless → Braceless (.builtin type)

theorem TypeRef.braceless_ofEntity (entity : EntityRef) : (ofEntity entity).Braceless := by
  cases entity with
  | standard entity => exact .standard
  | entry index => exact .entry

inductive OperatorName.Braceless : OperatorName → Prop where
  | simple {operator : Operator} : Unbraced operator.spelling.toList → Braceless (.simple operator)
  | conversion {type : TypeRef} : type.Braceless → Braceless (.conversion type)
  | literal {name : String} : Unbraced name.toList → Braceless (.literal name)
  | vendor {arity : Nat} {name : String} : Unbraced name.toList → Braceless (.vendor arity name)

structure ClosureType.Braceless (type : ClosureType) : Prop where
  parameters : ∀ parameter ∈ type.parameters, parameter.Braceless

inductive BaseName.Braceless : BaseName → Prop where
  | operator {operator : OperatorName} : operator.Braceless → Braceless (.operator operator)
  | special {member : SpecialMember} : Braceless (.special member)
  | source {name : String} : Unbraced name.toList → Braceless (.source name)
  | internal {name : String} : Unbraced name.toList → Braceless (.internal name)
  | closure {type : ClosureType} : type.Braceless → Braceless (.closure type)
  | unnamed {number : Option Nat} : Braceless (.unnamed number)

structure UnqualifiedName.Braceless (name : UnqualifiedName) : Prop where
  base : name.base.Braceless
  tags : ∀ tag ∈ name.tags, Unbraced tag.toList

structure UnscopedName.Braceless (name : UnscopedName) : Prop where
  name : name.name.Braceless

inductive NestedPath.Braceless : NestedPath → Prop where
  | member {outer : Option EntityRef} {name : UnqualifiedName} : name.Braceless →
      Braceless (.member outer name)
  | instantiation {whole : EntityRef} : Braceless (.instantiation whole)

structure NestedName.Braceless (name : NestedName) : Prop where
  path : name.path.Braceless

mutual

inductive Name.Braceless : Name → Prop where
  | nested {name : NestedName} : name.Braceless → Name.Braceless (.nested name)
  | unscoped {name : UnscopedName} : name.Braceless → Name.Braceless (.unscoped name)
  | instantiation {template : EntityRef} {args : ArgsRef} :
      Name.Braceless (.instantiation template args)
  | inside {name : LocalName} : name.Braceless → Name.Braceless (.inside name)

inductive LocalName.Braceless : LocalName → Prop where
  | entity {enclosing : Encoding} {name : Name} : enclosing.Braceless → name.Braceless →
      LocalName.Braceless (.entity enclosing name)
  | stringLiteral {enclosing : Encoding} : enclosing.Braceless →
      LocalName.Braceless (.stringLiteral enclosing)
  | defaultArgument {enclosing : Encoding} {name : Name} : enclosing.Braceless → name.Braceless →
      LocalName.Braceless (.defaultArgument enclosing name)

inductive Encoding.Braceless : Encoding → Prop where
  | function {name : Name} {types : List TypeRef} : name.Braceless →
      (∀ type ∈ types, type.Braceless) → Encoding.Braceless (.function name types)
  | data {name : Name} : name.Braceless → Encoding.Braceless (.data name)
  | special {name : SpecialName} : name.Braceless → Encoding.Braceless (.special name)

inductive SpecialName.Braceless : SpecialName → Prop where
  | typeData {data : TypeData} {type : TypeRef} : type.Braceless →
      SpecialName.Braceless (.typeData data type)
  | variableHelper {helper : VariableHelper} {name : Name} : name.Braceless →
      SpecialName.Braceless (.variableHelper helper name)
  | thunk {offset : CallOffset} {target : Encoding} : target.Braceless →
      SpecialName.Braceless (.thunk offset target)
  | covariantThunk {object result : CallOffset} {target : Encoding} : target.Braceless →
      SpecialName.Braceless (.covariantThunk object result target)
  | constructionVtable {type base : TypeRef} : type.Braceless → base.Braceless →
      SpecialName.Braceless (.constructionVtable type base)
  | temporary {name : Name} {number : Nat} : name.Braceless →
      SpecialName.Braceless (.temporary name number)
  | resource {names : List (List Char)} : (∀ name ∈ names, Unbraced name) →
      SpecialName.Braceless (.resource names)
  | transactionClone {transactional : Bool} {target : Encoding} : target.Braceless →
      SpecialName.Braceless (.transactionClone transactional target)

end

inductive MangledName.Braceless : MangledName → Prop where
  | encoding {encoding : Encoding} {suffixes : List CloneSuffix} : encoding.Braceless →
      (∀ suffix ∈ suffixes, suffix.Braceless) → Braceless (.encoding encoding suffixes)
  | block {enclosing : Encoding} : enclosing.Braceless → Braceless (.block enclosing)
  | globals {routine : GlobalRoutine} {name : MangledName} : Braceless name →
      Braceless (.globals routine name)
  | type {type : TypeRef} : type.Braceless → Braceless (.type type)

structure SimpleId.Braceless (id : SimpleId) : Prop where
  name : Unbraced id.name.toList

inductive DestructorName.Braceless : DestructorName → Prop where
  | type {type : EntityRef} : Braceless (.type type)
  | simple {id : SimpleId} : id.Braceless → Braceless (.simple id)

inductive UnresolvedBase.Braceless : UnresolvedBase → Prop where
  | simple {id : SimpleId} : id.Braceless → Braceless (.simple id)
  | operator {operator : OperatorName} {args : Option ArgsRef} : operator.Braceless →
      Braceless (.operator operator args)
  | destructor {name : DestructorName} : name.Braceless → Braceless (.destructor name)

structure UnresolvedName.Braceless (name : UnresolvedName) : Prop where
  levels : ∀ level ∈ name.levels, level.Braceless
  base : name.base.Braceless

inductive Primary.Braceless : Primary → Prop where
  | literal {type : TypeRef} {value : List Char} : type.Braceless → Unbraced value →
      Braceless (.literal type value)
  | external {name : MangledName} : name.Braceless → Braceless (.external name)

mutual

inductive Expression.Braceless : Expression → Prop where
  | unary {operator : OperatorName} {operand : Expression} : operator.Braceless →
      operand.Braceless → Expression.Braceless (.unary operator operand)
  | binary {operator : OperatorName} {left right : Expression} : operator.Braceless →
      left.Braceless → right.Braceless → Expression.Braceless (.binary operator left right)
  | ternary {operator : OperatorName} {first second third : Expression} : operator.Braceless →
      first.Braceless → second.Braceless → third.Braceless →
      Expression.Braceless (.ternary operator first second third)
  | stepBefore {sign : String} {operand : Expression} : Unbraced sign.toList →
      operand.Braceless → Expression.Braceless (.stepBefore sign operand)
  | call {function : Expression} {args : List Expression} : function.Braceless →
      (∀ arg ∈ args, arg.Braceless) → Expression.Braceless (.call function args)
  | convert {type : TypeRef} {operand : Expression} : type.Braceless → operand.Braceless →
      Expression.Braceless (.convert type operand)
  | convertMany {type : TypeRef} {operands : List Expression} : type.Braceless →
      (∀ operand ∈ operands, operand.Braceless) → Expression.Braceless (.convertMany type operands)
  | braced {type : TypeRef} {elements : List Expression} : type.Braceless →
      (∀ element ∈ elements, element.Braceless) → Expression.Braceless (.braced type elements)
  | bracedList {element : Expression} : element.Braceless →
      Expression.Braceless (.bracedList element)
  | new {isGlobal isArray : Bool} {placement : List Expression} {type : TypeRef}
      {initial : Option (List Expression)} : (∀ item ∈ placement, item.Braceless) →
      type.Braceless → (∀ items, initial = some items → ∀ item ∈ items, item.Braceless) →
      Expression.Braceless (.new isGlobal isArray placement type initial)
  | delete {isGlobal isArray : Bool} {operand : Expression} : operand.Braceless →
      Expression.Braceless (.delete isGlobal isArray operand)
  | cast {keyword : String} {type : TypeRef} {operand : Expression} : Unbraced keyword.toList →
      type.Braceless → operand.Braceless → Expression.Braceless (.cast keyword type operand)
  | typeQuery {keyword : String} {type : TypeRef} : Unbraced keyword.toList → type.Braceless →
      Expression.Braceless (.typeQuery keyword type)
  | valueQuery {keyword : String} {operand : Expression} : Unbraced keyword.toList →
      operand.Braceless → Expression.Braceless (.valueQuery keyword operand)
  | templateParam {index : Nat} : Expression.Braceless (.templateParam index)
  | functionParam {param : FunctionParam} : Expression.Braceless (.functionParam param)
  | dot {object : Expression} {member : Name} : object.Braceless → member.Braceless →
      Expression.Braceless (.dot object member)
  | arrow {object : Expression} {member : Name} : object.Braceless → member.Braceless →
      Expression.Braceless (.arrow object member)
  | dotStar {object member : Expression} : object.Braceless → member.Braceless →
      Expression.Braceless (.dotStar object member)
  | sizeofTemplatePack {index : Nat} : Expression.Braceless (.sizeofTemplatePack index)
  | sizeofFunctionPack {param : FunctionParam} : Expression.Braceless (.sizeofFunctionPack param)
  | sizeofArgs {args : List TemplateArg} : (∀ arg ∈ args, arg.Braceless) →
      Expression.Braceless (.sizeofArgs args)
  | subobject {type : TypeRef} {object : Expression} {offset : Int} : type.Braceless →
      object.Braceless → Expression.Braceless (.subobject type object offset)
  | packExpansion {operand : Expression} : operand.Braceless →
      Expression.Braceless (.packExpansion operand)
  | throw {operand : Expression} : operand.Braceless → Expression.Braceless (.throw operand)
  | rethrow : Expression.Braceless .rethrow
  | unresolved {name : UnresolvedName} : name.Braceless → Expression.Braceless (.unresolved name)
  | primary {expression : Primary} : expression.Braceless →
      Expression.Braceless (.primary expression)

inductive TemplateArg.Braceless : TemplateArg → Prop where
  | expression {expression : Expression} : expression.Braceless →
      TemplateArg.Braceless (.expression expression)
  | primary {expression : Primary} : expression.Braceless →
      TemplateArg.Braceless (.primary expression)
  | type {type : TypeRef} : type.Braceless → TemplateArg.Braceless (.type type)
  | pack {args : List TemplateArg} : (∀ arg ∈ args, arg.Braceless) →
      TemplateArg.Braceless (.pack args)

end

inductive ExceptionSpec.Braceless : ExceptionSpec → Prop where
  | noexcept : Braceless .noexcept
  | computed {condition : Expression} : condition.Braceless → Braceless (.computed condition)

inductive Dimension.Braceless : Dimension → Prop where
  | unknown : Braceless .unknown
  | number {size : Nat} : Braceless (.number size)
  | computed {size : Expression} : size.Braceless → Braceless (.computed size)

structure FunctionType.Braceless (function : FunctionType) : Prop where
  exceptions : ∀ exceptions ∈ function.exceptions, exceptions.Braceless
  types : ∀ type ∈ function.types, type.Braceless

inductive CompoundType.Braceless : CompoundType → Prop where
  | function {type : FunctionType} : type.Braceless → Braceless (.function type)
  | classEnum {key : Option ClassKey} {name : Name} : name.Braceless →
      Braceless (.classEnum key name)
  | array {dimension : Dimension} {element : TypeRef} : dimension.Braceless → element.Braceless →
      Braceless (.array dimension element)
  | vector {dimension : Dimension} {element : TypeRef} : dimension.Braceless → element.Braceless →
      Braceless (.vector dimension element)
  | memberPointer {owner member : TypeRef} : owner.Braceless → member.Braceless →
      Braceless (.memberPointer owner member)
  | parameter {index : Nat} : Braceless (.parameter index)
  | templateTemplate {template : EntityRef} {args : ArgsRef} :
      Braceless (.templateTemplate template args)
  | decltype {expression : Expression} : expression.Braceless → Braceless (.decltype expression)
  | qualified {qualifiers : Qualifiers} {type : TypeRef} : type.Braceless →
      Braceless (.qualified qualifiers type)
  | pointer {type : TypeRef} : type.Braceless → Braceless (.pointer type)
  | reference {kind : RefQualifier} {type : TypeRef} : type.Braceless →
      Braceless (.reference kind type)
  | complex {type : TypeRef} : type.Braceless → Braceless (.complex type)
  | imaginary {type : TypeRef} : type.Braceless → Braceless (.imaginary type)
  | vendor {name : String} {args : Option ArgsRef} {type : TypeRef} : Unbraced name.toList →
      type.Braceless → Braceless (.vendor name args type)
  | packExpansion {type : TypeRef} : type.Braceless → Braceless (.packExpansion type)

inductive Scope.Braceless : Scope → Prop where
  | name {name : UnqualifiedName} : name.Braceless → Braceless (.name name)
  | member {outer : EntityRef} {name : UnqualifiedName} : name.Braceless →
      Braceless (.member outer name)
  | instantiation {template : EntityRef} {args : ArgsRef} : Braceless (.instantiation template args)
  | parameter {index : Nat} : Braceless (.parameter index)
  | decltype {expression : Expression} : expression.Braceless → Braceless (.decltype expression)
  | dataMember {outer : EntityRef} {name : String} : Unbraced name.toList →
      Braceless (.dataMember outer name)

inductive UnresolvedType.Braceless : UnresolvedType → Prop where
  | parameter {index : Nat} {args : Option ArgsRef} : Braceless (.parameter index args)
  | decltype {expression : Expression} : expression.Braceless → Braceless (.decltype expression)

inductive Entry.Braceless : Entry → Prop where
  | template {name : UnscopedName} : name.Braceless → Braceless (.template name)
  | templateParameter {index : Nat} : Braceless (.templateParameter index)
  | type {type : CompoundType} : type.Braceless → Braceless (.type type)
  | scope {scope : Scope} : scope.Braceless → Braceless (.scope scope)
  | unresolvedType {type : UnresolvedType} : type.Braceless → Braceless (.unresolvedType type)

structure Table.Braceless (table : Table) : Prop where
  entries : ∀ entry ∈ table.entries, entry.Braceless
  argLists : ∀ args ∈ table.argLists, ∀ arg ∈ args, arg.Braceless
  widths : ∀ width ∈ table.widths, width.Braceless

namespace Table

variable {table : Table}

theorem braceless_empty : empty.Braceless := by
  constructor <;> simp [empty]

namespace Braceless

variable (htable : table.Braceless)

include htable

theorem enter {entry : Entry} (hentry : entry.Braceless) : (table.enter entry).Braceless := by
  refine ⟨?_, htable.argLists, htable.widths⟩
  intro other hmem
  rcases Array.mem_push.mp hmem with hold | rfl
  · exact htable.entries other hold
  · exact hentry

theorem enterNumbered {entry : Entry} (hentry : entry.Braceless) :
    (table.enterNumbered entry).Braceless :=
  ⟨(htable.enter hentry).entries, htable.argLists, htable.widths⟩

theorem enterArgs {args : List TemplateArg} (hargs : ∀ arg ∈ args, arg.Braceless) :
    (table.enterArgs args).Braceless := by
  refine ⟨htable.entries, ?_, htable.widths⟩
  intro other hmem
  rcases Array.mem_push.mp hmem with hold | rfl
  · exact htable.argLists other hold
  · exact hargs

theorem enterWidth {width : Expression} (hwidth : width.Braceless) :
    (table.enterWidth width).Braceless := by
  refine ⟨htable.entries, htable.argLists, ?_⟩
  intro other hmem
  rcases Array.mem_push.mp hmem with hold | rfl
  · exact htable.widths other hold
  · exact hwidth

theorem entryAt? {index : Nat} {entry : Entry} (hentry : table.entryAt? index = some entry) :
    entry.Braceless :=
  htable.entries entry (Array.mem_of_getElem? hentry)

theorem args (args : ArgsRef) : ∀ arg ∈ table.args args, arg.Braceless := by
  rw [Table.args]
  cases hargs : table.argLists[args.index]? with
  | none => simp
  | some found => exact htable.argLists found (Array.mem_of_getElem? hargs)

end Braceless

end Table

end MangledNames.Symbol

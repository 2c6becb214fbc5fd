import MangledNames.Proofs.Symbol.Writing
import MangledNames.Proofs.Text.Ascii
import MangledNames.Symbol.Write

/-!
# What is written for each category

A name without opening braces is written as a closed text. This is shown for each category under the
assumption that it holds of the wording for its parts, and so holds of the wording of every depth.
-/

namespace MangledNames.Symbol

structure Wording.Closes (w : Wording) : Prop where
  -- Symbols
  mangledName : ∀ {name : MangledName}, name.Braceless → (w.mangledName name).Closes
  cloneSuffix : ∀ {suffix : CloneSuffix}, suffix.Braceless → (w.cloneSuffix suffix).Closes
  cloneIdentifier : ∀ {identifier : String}, Unbraced identifier.toList →
    (w.cloneIdentifier identifier).Closes
  globals : ∀ routine {name : MangledName}, name.Braceless → (w.globals routine name).Closes
  encoding : ∀ {encoding : Encoding}, encoding.Braceless → (w.encoding encoding).Closes
  specialName : ∀ {name : SpecialName}, name.Braceless → (w.specialName name).Closes
  callOffset : ∀ offset, (w.callOffset offset).Closes
  offset : ∀ offset, (w.offset offset).Closes
  resourceName : ∀ {name : List Char}, Unbraced name → (w.resourceName name).Closes
  -- Names
  name : ∀ {name : Name}, name.Braceless → (w.name name).Closes
  unscopedName : ∀ {name : UnscopedName}, name.Braceless → (w.unscopedName name).Closes
  unscopedTemplate : ∀ {name : UnscopedName}, name.Braceless → (w.unscopedTemplate name).Closes
  nestedName : ∀ {name : NestedName}, name.Braceless → (w.nestedName name).Closes
  scope : ∀ {scope : Scope}, scope.Braceless → (w.scope scope).Closes
  unqualifiedName : ∀ {name : UnqualifiedName}, name.Braceless → (w.unqualifiedName name).Closes
  sourceName : ∀ {name : String}, Unbraced name.toList → (w.sourceName name).Closes
  identifier : ∀ {identifier : String}, Unbraced identifier.toList →
    (w.identifier identifier).Closes
  tags : ∀ {tags : List String}, (∀ tag ∈ tags, Unbraced tag.toList) → (w.tags tags).Closes
  tag : ∀ {tag : String}, Unbraced tag.toList → (w.tag tag).Closes
  operatorName : ∀ {operator : OperatorName}, operator.Braceless → (w.operatorName operator).Closes
  simpleOperator : ∀ {operator : Operator}, Unbraced operator.spelling.toList →
    (w.simpleOperator operator).Closes
  specialMember : ∀ member, (w.specialMember member).Closes
  closureType : ∀ {type : ClosureType}, type.Braceless → (w.closureType type).Closes
  closureSignature : ∀ {types : List TypeRef}, (∀ type ∈ types, type.Braceless) →
    (w.closureSignature types).Closes
  unnamedType : ∀ number, (w.unnamedType number).Closes
  unnamedLeaf : ∀ number, (w.unnamedLeaf number).Closes
  localName : ∀ {name : LocalName}, name.Braceless → (w.localName name).Closes
  standardEntity : ∀ entity, (w.standardEntity entity).Closes
  -- Types
  compoundType : ∀ index {type : CompoundType}, type.Braceless → (w.compoundType index type).Closes
  builtinType : ∀ {type : BuiltinType}, type.Braceless → (w.builtinType type).Closes
  fundamentalType : ∀ {type : FundamentalType}, Unbraced type.spelling.toList →
    (w.fundamentalType type).Closes
  parametricType : ∀ type, (w.parametricType type).Closes
  qualifiers : ∀ qualifiers, (w.qualifiers qualifiers).Closes
  refQualifier : ∀ ref, (w.refQualifier ref).Closes
  functionType : ∀ index {type : FunctionType}, type.Braceless → (w.functionType index type).Closes
  exceptionSpec : ∀ {exceptions : ExceptionSpec}, exceptions.Braceless →
    (w.exceptionSpec exceptions).Closes
  bareFunctionType : ∀ index {types : List TypeRef}, (∀ type ∈ types, type.Braceless) →
    (w.bareFunctionType index types).Closes
  classEnum : ∀ key {name : Name}, name.Braceless → (w.classEnum key name).Closes
  aroundType : ∀ index {type : CompoundType} {inner : TypeRef}, type.Braceless → inner.Braceless →
    (w.aroundType index type inner).Closes
  decltype : ∀ {expression : Expression}, expression.Braceless → (w.decltype expression).Closes
  templateParam : ∀ index, (w.templateParam index).Closes
  templateTemplateParam : ∀ index, (w.templateTemplateParam index).Closes
  templateArgs : ∀ args, (w.templateArgs args).Closes
  templateArg : ∀ {arg : TemplateArg}, arg.Braceless → (w.templateArg arg).Closes
  parameters : ∀ {types : List TypeRef}, (∀ type ∈ types, type.Braceless) →
    (w.parameters types).Closes
  part : ∀ {part : Part}, part.Braceless → (w.part part).Closes
  -- Expressions
  expression : ∀ {expression : Expression}, expression.Braceless → (w.expression expression).Closes
  subobject : ∀ {type : TypeRef} {object : Expression} offset, type.Braceless → object.Braceless →
    (w.subobject type object offset).Closes
  primary : ∀ {expression : Primary}, expression.Braceless → (w.primary expression).Closes
  initializer : ∀ {items : List Expression}, (∀ item ∈ items, item.Braceless) →
    (w.initializer items).Closes
  functionParam : ∀ param, (w.functionParam param).Closes
  memberName : ∀ {name : Name}, name.Braceless → (w.memberName name).Closes
  unresolvedName : ∀ {name : UnresolvedName}, name.Braceless → (w.unresolvedName name).Closes
  qualifierLevel : ∀ {id : SimpleId}, id.Braceless → (w.qualifierLevel id).Closes
  unresolvedType : ∀ {type : UnresolvedType}, type.Braceless → (w.unresolvedType type).Closes
  unresolvedBase : ∀ {base : UnresolvedBase}, base.Braceless → (w.unresolvedBase base).Closes
  destructorName : ∀ {name : DestructorName}, name.Braceless → (w.destructorName name).Closes
  simpleId : ∀ {id : SimpleId}, id.Braceless → (w.simpleId id).Closes

namespace Wording

open Writer

theorem closes_exhausted : exhausted.Closes := by
  constructor <;> intros <;> exact adds_fail

variable {w : Wording}

section

variable (hw : w.Closes)

include hw

theorem closes_entry (index : Nat) : (w.entry index).Closes := by
  unfold entry
  refine adds_table.bind ?_
  intro table htable
  split
  · exact adds_fail
  next hentry =>
      cases htable.entryAt? hentry with | template hname => exact hw.unscopedTemplate hname
  · exact hw.templateTemplateParam _
  next hentry => cases htable.entryAt? hentry with | type htype => exact hw.compoundType index htype
  next hentry => cases htable.entryAt? hentry with | scope hscope => exact hw.scope hscope
  next hentry =>
      cases htable.entryAt? hentry with | unresolvedType htype => exact hw.unresolvedType htype

theorem closes_entityRef (entity : EntityRef) : (w.entityRef entity).Closes := by
  cases entity with
  | standard entity => exact hw.standardEntity entity
  | entry index => exact closes_entry hw index

theorem closes_typeRef {type : TypeRef} (htype : type.Braceless) : (w.typeRef type).Closes := by
  cases htype with
  | standard => exact hw.standardEntity _
  | entry => exact closes_entry hw _
  | builtin htype => exact hw.builtinType htype

theorem closes_typeRefs {types : List TypeRef} (htypes : ∀ type ∈ types, type.Braceless) :
    (separated ", " (types.map w.typeRef)).Closes :=
  closes_separated_map (by decide) fun type hmem => closes_typeRef hw (htypes type hmem)

theorem closes_symbolParameters (name : Name) {types : List TypeRef}
    (htypes : ∀ type ∈ types, type.Braceless) : (w.symbolParameters name types).Closes := by
  unfold symbolParameters
  refine adds_table.bind ?_
  intro table _
  split
  · exact hw.parameters htypes
  · refine closes_withBinding (hw.parameters ?_) .args
    exact fun type hmem => htypes type (List.mem_of_mem_drop hmem)

theorem closes_writePart {part : Part} (hpart : part.Braceless) : (w.writePart part).Closes := by
  unfold writePart
  split
  · cases hpart with | symbol htypes => exact closes_symbolParameters hw _ htypes
  · exact hw.part hpart

theorem closes_around {part : Part} (hpart : part.Braceless) {inner : Writer Unit}
    (hinner : inner.Closes) : (w.around part inner).Closes := by
  unfold around
  refine (closes_wait hpart).andThen ?_
  refine hinner.andThen ?_
  refine (adds_takeBack part).bind ?_
  intro taken _
  split
  · exact closes_writePart hw hpart
  · exact closes_pure

theorem closes_writeWaiting (parts : List Part) : (w.writeWaiting parts).Closes := by
  induction parts with
  | nil => exact closes_pure
  | cons part parts ih =>
      unfold writeWaiting
      refine adds_takeWaiting.bind ?_
      intro taken htaken
      cases taken with
      | none => exact closes_pure
      | some waiting => exact (closes_writePart hw (htaken waiting rfl)).andThen ih

theorem closes_writeAllWaiting : w.writeAllWaiting.Closes :=
  adds_get.bind fun page _ => closes_writeWaiting hw page.pending

theorem closes_writeMangledName {name : MangledName} (hname : name.Braceless) :
    (w.writeMangledName name).Closes := by
  cases hname with
  | encoding hencoding hsuffixes =>
      refine (hw.encoding hencoding).andThen ?_
      refine adds_read.bind ?_
      intro around _
      split
      · exact closes_forM fun suffix hmem => hw.cloneSuffix (hsuffixes suffix hmem)
      · exact closes_pure
  | block henclosing => exact (closes_write (by decide)).andThen (hw.encoding henclosing)
  | globals hname => exact hw.globals _ hname
  | type htype => exact closes_typeRef hw htype

theorem closes_writeCloneSuffix {suffix : CloneSuffix} (hsuffix : suffix.Braceless) :
    (w.writeCloneSuffix suffix).Closes := by
  unfold writeCloneSuffix
  refine (closes_write (by decide)).andThen ?_
  refine (hw.cloneIdentifier hsuffix.identifier).andThen ?_
  have hnumbers : (suffix.numbers.forM fun number => do write "."; writeNat number).Closes :=
    closes_forM fun number _ => (closes_write (by decide)).andThen (closes_writeNat number)
  exact hnumbers.andThen (closes_write (by decide))

theorem closes_writeGlobals (routine : GlobalRoutine) {name : MangledName}
    (hname : name.Braceless) : (w.writeGlobals routine name).Closes := by
  have hheading : Unbraced (routineHeading routine).toList := by cases routine <;> decide
  refine closes_enclosed (closes_withParameters ?_)
  exact (closes_write hheading).andThen (hw.mangledName hname)

theorem closes_writeFunction {name : Name} (hname : name.Braceless) {types : List TypeRef}
    (htypes : ∀ type ∈ types, type.Braceless) : (w.writeFunction name types).Closes := by
  unfold writeFunction
  refine adds_read.bind ?_
  intro around _
  have hnamed : (if around.parameters then w.around (.symbol name types) (w.name name)
      else w.name name).Closes := by
    split
    · exact closes_around hw (.symbol htypes) (hw.name hname)
    · exact hw.name hname
  have hreturn : ((types.take 1).forM w.typeRef).Closes :=
    closes_forM fun type hmem => closes_typeRef hw (htypes type (List.mem_of_mem_take hmem))
  simp only
  split
  · exact hreturn.andThen ((closes_write (by decide)).andThen hnamed)
  · exact hnamed

theorem closes_writeEncoding {encoding : Encoding} (hencoding : encoding.Braceless) :
    (w.writeEncoding encoding).Closes := by
  cases hencoding with
  | function hname htypes =>
      refine closes_enclosed ?_
      refine adds_table.bind ?_
      intro table htable
      refine closes_withLeaf ?_ fun leaf hleaf => htable.leafOfName? hname hleaf
      refine adds_table.bind ?_
      intro table _
      exact closes_withArgs (closes_writeFunction hw hname htypes) _
  | data hname => exact closes_enclosed (hw.name hname)
  | special hname => exact closes_enclosed (hw.specialName hname)

theorem closes_writeCallOffset (offset : CallOffset) : (w.writeCallOffset offset).Closes := by
  have hbrace : (write "\x7d").EndsWith '\x7d' := adds_write ⟨[], rfl⟩
  exact ((adds_any _).endsWith ((hw.offset offset).endsWith hbrace)).closes

theorem closes_writeThunk (offsets : List CallOffset) {target : Encoding}
    (htarget : target.Braceless) : (w.writeThunk offsets target).Closes := by
  have hbrace : (write ")\x7d").EndsWith '\x7d' := adds_write ⟨[')'], rfl⟩
  have hoffsets : (offsets.forM fun offset => do w.callOffset offset; write ", ").Closes :=
    closes_forM fun offset _ => (hw.callOffset offset).andThen (closes_write (by decide))
  refine ((adds_any _).endsWith ?_).closes
  exact hoffsets.endsWith ((hw.encoding htarget).endsWith hbrace)

theorem closes_writeSpecialName {name : SpecialName} (hname : name.Braceless) :
    (w.writeSpecialName name).Closes := by
  cases hname with
  | @typeData data type htype =>
      have htypeRef := closes_typeRef hw htype
      have hbraced : ∀ heading, (do write heading; w.typeRef type; write ")\x7d").Closes := by
        intro heading
        have hbrace : (write ")\x7d").EndsWith '\x7d' := adds_write ⟨[')'], rfl⟩
        exact ((adds_any heading).endsWith (htypeRef.endsWith hbrace)).closes
      have hplain : ∀ {heading : String}, Unbraced heading.toList →
          (do write heading; w.typeRef type; write "").Closes :=
        fun hheading =>
          (closes_write hheading).andThen (htypeRef.andThen (closes_write (by decide)))
      cases data with
      | vtable => exact hbraced _
      | vtt => exact hbraced _
      | typeinfo => exact hplain (by decide)
      | typeinfoName => exact hplain (by decide)
      | typeinfoFunction => exact hplain (by decide)
  | @variableHelper helper name hname =>
      have hheading : Unbraced (helperHeading helper).toList := by cases helper <;> decide
      exact (closes_write hheading).andThen (hw.name hname)
  | thunk htarget => exact closes_writeThunk hw _ htarget
  | covariantThunk htarget => exact closes_writeThunk hw _ htarget
  | constructionVtable htype hbase =>
      refine (closes_write (by decide)).andThen ?_
      refine (closes_typeRef hw htype).andThen ?_
      exact (closes_write (by decide)).andThen (closes_typeRef hw hbase)
  | temporary hname =>
      refine (closes_write (by decide)).andThen ?_
      refine (closes_writeNat _).andThen ?_
      exact (closes_write (by decide)).andThen (hw.name hname)
  | resource hnames =>
      refine (closes_write (by decide)).andThen ?_
      exact closes_forM fun name hmem => hw.resourceName (hnames name hmem)
  | @transactionClone transactional target htarget =>
      have hheading : Unbraced (cloneHeading transactional).toList := by
        cases transactional <;> decide
      exact (closes_write hheading).andThen (hw.encoding htarget)

theorem closes_writeName {name : Name} (hname : name.Braceless) : (w.writeName name).Closes := by
  cases hname with
  | nested hname => exact hw.nestedName hname
  | unscoped hname => exact hw.unscopedName hname
  | instantiation =>
      exact (closes_withBinding (closes_entityRef hw _) .args).andThen (hw.templateArgs _)
  | inside hname => exact hw.localName hname

theorem closes_writeUnscopedName {name : UnscopedName} (hname : name.Braceless) :
    (w.writeUnscopedName name).Closes := by
  unfold writeUnscopedName
  exact closes_when (closes_write (by decide)) (hw.unqualifiedName hname.name)

theorem closes_writeNestedPath {path : NestedPath} (hpath : path.Braceless) :
    (w.writeNestedPath path).Closes := by
  cases hpath with
  | @member outer name hname =>
      cases outer with
      | none => exact hw.unqualifiedName hname
      | some outer =>
          refine (closes_entityRef hw outer).andThen ?_
          exact (closes_write (by decide)).andThen (hw.unqualifiedName hname)
  | instantiation => exact closes_entityRef hw _

theorem closes_writeNestedName {name : NestedName} (hname : name.Braceless) :
    (w.writeNestedName name).Closes := by
  unfold writeNestedName
  refine (closes_writeNestedPath hw hname.path).andThen ?_
  refine closes_when (closes_mark fun _ => ⟨rfl, rfl, rfl⟩) ?_
  refine adds_takeWaiting.bind ?_
  intro taken htaken
  cases taken
  on_goal 2 => refine (closes_writePart hw (htaken _ rfl)).andThen ?_
  -- What follows is the same with and without a part.
  all_goals
    refine adds_read.bind ?_
    intro around _
    refine closes_when (hw.qualifiers _) ?_
    split
    · exact hw.refQualifier _
    · exact closes_pure

theorem closes_writeScope {scope : Scope} (hscope : scope.Braceless) :
    (w.writeScope scope).Closes := by
  cases hscope with
  | name hname => exact hw.unqualifiedName hname
  | member hname =>
      refine (closes_entityRef hw _).andThen ?_
      exact (closes_write (by decide)).andThen (hw.unqualifiedName hname)
  | instantiation => exact (closes_entityRef hw _).andThen (hw.templateArgs _)
  | parameter => exact hw.templateParam _
  | decltype hexpression => exact hw.decltype hexpression
  | dataMember hname =>
      refine (closes_entityRef hw _).andThen ?_
      exact (closes_write (by decide)).andThen (hw.sourceName hname)

theorem closes_writeBaseName {base : BaseName} (hbase : base.Braceless) :
    (w.writeBaseName base).Closes := by
  cases hbase with
  | operator hoperator => exact (closes_write (by decide)).andThen (hw.operatorName hoperator)
  | special => exact hw.specialMember _
  | source hname => exact hw.sourceName hname
  | internal hname => exact hw.sourceName hname
  | closure htype => exact hw.closureType htype
  | unnamed => exact hw.unnamedType _

theorem closes_writeUnqualifiedName {name : UnqualifiedName} (hname : name.Braceless) :
    (w.writeUnqualifiedName name).Closes :=
  (closes_writeBaseName hw hname.base).andThen (hw.tags hname.tags)

theorem closes_writeTags {tags : List String} (htags : ∀ tag ∈ tags, Unbraced tag.toList) :
    (w.writeTags tags).Closes :=
  closes_forM fun tag hmem => hw.tag (htags tag hmem)

theorem closes_writeTag {tag : String} (htag : Unbraced tag.toList) : (w.writeTag tag).Closes := by
  refine (closes_write (by decide)).andThen ?_
  exact (hw.sourceName htag).andThen (closes_write (by decide))

theorem closes_writeOperatorName {operator : OperatorName} (hoperator : operator.Braceless) :
    (w.writeOperatorName operator).Closes := by
  cases hoperator with
  | simple hspelling =>
      unfold writeOperatorName
      exact closes_when closes_space (hw.simpleOperator hspelling)
  | conversion htype =>
      refine closes_space.andThen ?_
      refine adds_table.bind ?_
      intro table _
      exact closes_withArgs (closes_typeRef hw htype) _
  | literal hname => exact (hw.sourceName hname).andThen (closes_write (by decide))
  | vendor hname =>
      refine (hw.sourceName hname).andThen ?_
      exact (closes_write (by decide)).andThen (closes_writeNat _)

theorem closes_writeLeaf {leaf : Leaf} (hleaf : leaf.Braceless) : (w.writeLeaf leaf).Closes := by
  cases hleaf with
  | @standard entity => exact closes_write (by cases entity <;> decide)
  | source hname => exact hw.sourceName hname
  | closure htype => exact closes_withoutFrames (hw.closureType htype)
  | unnamed => exact hw.unnamedLeaf _

theorem closes_writeSpecialMember (member : SpecialMember) :
    (w.writeSpecialMember member).Closes := by
  unfold writeSpecialMember
  refine adds_read.bind ?_
  intro around haround
  split
  · exact adds_fail
  next leaf hleaf =>
      refine (closes_write (by decide)).andThen ?_
      exact closes_writeLeaf hw (braceless_leafOf? haround.frames hleaf)
  next leaf hleaf => exact closes_writeLeaf hw (braceless_leafOf? haround.frames hleaf)
  next inherited hleaf =>
      refine adds_table.bind ?_
      intro table htable
      split
      · exact adds_fail
      next leaf hinherited => exact closes_writeLeaf hw (htable.leafOfType? hinherited)

theorem closes_writeClosureType {type : ClosureType} (htype : type.Braceless) :
    (w.writeClosureType type).Closes := by
  have hbrace : (write "\x7d").EndsWith '\x7d' := adds_write ⟨[], rfl⟩
  refine ((adds_any _).endsWith ?_).closes
  refine (hw.closureSignature htype.parameters).endsWith ?_
  exact (adds_any _).endsWith ((closes_writeNat _).endsWith hbrace)

theorem closes_writeClosureSignature {types : List TypeRef}
    (htypes : ∀ type ∈ types, type.Braceless) : (w.writeClosureSignature types).Closes := by
  unfold writeClosureSignature
  refine Adds.andThen (closes_mark fun _ => ⟨rfl, rfl, rfl⟩) ?_
  refine (closes_typeRefs hw htypes).andThen ?_
  exact closes_mark fun _ => ⟨rfl, rfl, rfl⟩

theorem closes_writeLocalName {name : LocalName} (hname : name.Braceless) :
    (w.writeLocalName name).Closes := by
  cases hname with
  | entity henclosing hname =>
      refine closes_withParameters ?_
      refine (hw.encoding henclosing).andThen ?_
      exact (closes_write (by decide)).andThen (hw.name hname)
  | stringLiteral henclosing =>
      exact closes_withParameters ((hw.encoding henclosing).andThen (closes_write (by decide)))
  | defaultArgument henclosing hname => exact closes_withParameters (hw.encoding henclosing)

/-! ### Types -/

theorem closes_writeBuiltinType {type : BuiltinType} (htype : type.Braceless) :
    (w.writeBuiltinType type).Closes := by
  cases htype with
  | fundamental hspelling => exact hw.fundamentalType hspelling
  | vendor hname => exact hw.sourceName hname
  | parametric => exact hw.parametricType _

theorem closes_writeParametricType (type : ParametricType) :
    (w.writeParametricType type).Closes := by
  have hkeyword : ∀ signed, Unbraced (bitIntKeyword signed).toList := by decide
  cases type with
  | float bits extended =>
      refine (closes_write (by decide)).andThen ?_
      refine (closes_writeNat bits).andThen ?_
      cases extended with
      | false => exact closes_pure
      | true => exact closes_write (by decide)
  | bitInt signed bits =>
      refine (closes_write (hkeyword signed)).andThen ?_
      exact (closes_writeNat bits).andThen (closes_write (by decide))
  | bitIntOf signed width =>
      refine adds_table.bind ?_
      intro table htable
      split
      · exact adds_fail
      next expression hexpression =>
          have hexpression := htable.widths expression (Array.mem_of_getElem? hexpression)
          refine (closes_write (hkeyword signed)).andThen ?_
          exact (hw.expression hexpression).andThen (closes_write (by decide))

theorem closes_writeExceptionSpec {exceptions : ExceptionSpec}
    (hexceptions : exceptions.Braceless) : (w.writeExceptionSpec exceptions).Closes := by
  cases hexceptions with
  | noexcept => exact closes_write (by decide)
  | computed hcondition =>
      refine (closes_write (by decide)).andThen ?_
      exact (hw.expression hcondition).andThen (closes_write (by decide))

theorem closes_writeClassEnum (key : Option ClassKey) {name : Name} (hname : name.Braceless) :
    (w.writeClassEnum key name).Closes := by
  cases key with
  | none => exact hw.name hname
  | some key =>
      refine (closes_write (by cases key <;> decide)).andThen ?_
      exact (closes_write (by decide)).andThen (hw.name hname)

theorem closes_writeAroundType (index : Nat) {type : CompoundType} {inner : TypeRef}
    (htype : type.Braceless) (hinner : inner.Braceless) :
    (w.writeAroundType index type inner).Closes :=
  closes_around hw (.type htype) (closes_typeRef hw hinner)

theorem closes_writeCompoundType (index : Nat) {type : CompoundType} (htype : type.Braceless) :
    (w.writeCompoundType index type).Closes := by
  have hown := htype
  cases htype with
  | function hfunction => exact hw.functionType index hfunction
  | classEnum hname => exact hw.classEnum _ hname
  | array _ helement => exact hw.aroundType index hown helement
  | vector _ helement => exact hw.aroundType index hown helement
  | memberPointer _ hmember => exact hw.aroundType index hown hmember
  | parameter => exact hw.templateParam _
  | templateTemplate => exact (closes_entityRef hw _).andThen (hw.templateArgs _)
  | decltype hexpression => exact hw.decltype hexpression
  | qualified hinner => exact closes_around hw (.type hown) (closes_typeRef hw hinner)
  | pointer hinner => exact closes_around hw (.type hown) (closes_typeRef hw hinner)
  | reference hinner => exact closes_around hw (.type hown) (closes_typeRef hw hinner)
  | complex hinner => exact (closes_typeRef hw hinner).andThen (closes_write (by decide))
  | imaginary hinner => exact (closes_typeRef hw hinner).andThen (closes_write (by decide))
  | @vendor name args inner hname hinner =>
      refine (closes_typeRef hw hinner).andThen ?_
      refine (closes_write (by decide)).andThen ?_
      refine (hw.sourceName hname).andThen ?_
      cases args with
      | none => exact closes_pure
      | some args => exact hw.templateArgs args
  | packExpansion hinner =>
      refine (closes_typeRef hw hinner).andThen ?_
      refine adds_get.bind ?_
      intro page _
      split
      · exact closes_pure
      · exact closes_write (by decide)

theorem closes_writeFunctionType (index : Nat) {function : FunctionType}
    (hfunction : function.Braceless) : (w.writeFunctionType index function).Closes := by
  have htypes := hw.bareFunctionType index hfunction.types
  refine (closes_around hw (.type (.function hfunction)) htypes).andThen ?_
  split
  next exceptions hexceptions =>
      exact closes_space.andThen (hw.exceptionSpec (hfunction.exceptions exceptions hexceptions))
  · exact closes_pure

theorem closes_writeBareFunctionType (index : Nat) {types : List TypeRef}
    (htypes : ∀ type ∈ types, type.Braceless) : (w.writeBareFunctionType index types).Closes := by
  have hreturn : ((types.take 1).forM w.typeRef).Closes :=
    closes_forM fun type hmem => closes_typeRef hw (htypes type (List.mem_of_mem_take hmem))
  refine (closes_wait (.parameters htypes)).andThen ?_
  refine hreturn.andThen ?_
  refine (adds_takeBack _).bind ?_
  intro taken _
  split
  · exact closes_space.andThen (closes_writePart hw (.parameters htypes))
  · exact closes_pure

theorem closes_writeDecltype {expression : Expression} (hexpression : expression.Braceless) :
    (w.writeDecltype expression).Closes := by
  refine (closes_write (by decide)).andThen ?_
  exact (hw.expression hexpression).andThen (closes_write (by decide))

theorem adds_writePartsBefore (parts : List Part) :
    (w.writePartsBefore parts).Adds Closed fun later => ∀ part ∈ later, part.Braceless := by
  induction parts with
  | nil => exact .pure (List.forall_mem_nil _)
  | cons part parts ih =>
      unfold writePartsBefore
      refine adds_takeWaiting.bind ?_
      intro taken htaken
      cases taken with
      | none => exact .pure (List.forall_mem_nil _)
      | some waiting =>
          have hwaiting := htaken waiting rfl
          simp only
          split
          · exact ih.bind fun later hlater => .pure (List.forall_mem_cons.mpr ⟨hwaiting, hlater⟩)
          · exact (closes_writePart hw hwaiting).andThen ih

omit hw in
theorem closes_openParenthesis (part : Part) : (openParenthesis part).Closes := by
  unfold openParenthesis
  refine adds_lastChar.bind ?_
  intro last _
  exact closes_when closes_space (closes_write (by decide))

theorem closes_writeParameters {types : List TypeRef} (htypes : ∀ type ∈ types, type.Braceless) :
    (w.writeParameters types).Closes := by
  have hlist : (do
      write "("
      if types.length = 1 ∧ types.all TypeRef.isVoid then
        write ")"
      else
        if (← get).explicitObject then
          write "this "
          modify fun page => { page with explicitObject := false }
        separated ", " (types.map w.typeRef)
        write ")"
        w.writeAllWaiting : Writer Unit).Closes := by
    refine (closes_write (by decide)).andThen ?_
    split
    · exact closes_write (by decide)
    · have hclosing : (write ")").Closes := closes_write (by decide)
      have hrest := (closes_typeRefs hw htypes).andThen
        (hclosing.andThen (closes_writeAllWaiting hw))
      refine adds_get.bind ?_
      intro page _
      simp only
      split
      · refine (closes_write (by decide)).andThen ?_
        exact Adds.andThen (closes_mark fun _ => ⟨rfl, rfl, rfl⟩) hrest
      · exact hrest
  have hbefore : ∀ (pending : List Part) {rest : Writer Unit}, rest.Closes → (do
      let later ← w.writePartsBefore pending
      modify fun page => { page with pending := later }
      if (pending.find? Part.needsParentheses).isSome then write ")"
      rest : Writer Unit).Closes := by
    intro pending rest hrest
    refine (adds_writePartsBefore hw pending).bind ?_
    intro later hlater
    refine Adds.andThen (closes_setPending fun _ _ => hlater) ?_
    exact closes_when (closes_write (by decide)) hrest
  unfold writeParameters
  refine adds_get.bind ?_
  intro page _
  simp only
  split
  · exact (closes_openParenthesis _).andThen (hbefore page.pending hlist)
  · exact hbefore page.pending hlist

omit hw in
theorem adds_collapseReferences (parts : List Part) :
    (collapseReferences parts).Adds Closed fun _ => True := by
  fun_induction collapseReferences parts with
  | case1 index inner parts ih => exact adds_takeWaiting.bind fun _ _ => ih
  | case2 => exact .pure trivial
  | case3 => exact .pure trivial

theorem adds_writePartsOfArray (parts : List Part) (setOff : Bool) :
    (w.writePartsOfArray parts setOff).Adds Closed fun _ => True := by
  induction parts generalizing setOff with
  | nil => exact .pure trivial
  | cons part parts ih =>
      unfold writePartsOfArray
      refine adds_takeWaiting.bind ?_
      intro taken htaken
      cases taken with
      | none => exact .pure trivial
      | some waiting =>
          have hwaiting := closes_writePart hw (htaken waiting rfl)
          refine adds_table.bind ?_
          intro table _
          simp only
          split
          · exact hwaiting.andThen (ih _)
          · have hopening : (write "(").Closes := closes_write (by decide)
            have hclosing : (write ")").Closes := closes_write (by decide)
            have hrest := (closes_writeAllWaiting hw).andThen
              (hclosing.andThen (ih (setOff && !isPlainArrayPart waiting)))
            refine closes_space.andThen ?_
            split
            · exact hwaiting.andThen (closes_space.andThen (hopening.andThen hrest))
            · exact hopening.andThen (hwaiting.andThen hrest)

theorem closes_writeBound {bound : Dimension} (hbound : bound.Braceless) :
    (w.writeBound bound).Closes := by
  cases hbound with
  | unknown => exact closes_pure
  | number => exact closes_writeNat _
  | computed hsize => exact hw.expression hsize

theorem closes_writeTypePart {part : Part} (hpart : part.Braceless) :
    (w.writeTypePart part).Closes := by
  cases hpart with
  | symbol htypes => exact closes_symbolParameters hw _ htypes
  | parameters htypes =>
      exact hw.parameters fun type hmem => htypes type (List.mem_of_mem_drop hmem)
  | type htype =>
      cases htype with
      | function =>
          refine closes_when (hw.qualifiers _) ?_
          split
          · exact hw.refQualifier _
          · exact closes_pure
      | qualified => exact hw.qualifiers _
      | pointer => exact closes_write (by decide)
      | @reference ref =>
          refine adds_get.bind ?_
          intro page _
          refine (adds_collapseReferences _).bind ?_
          intro written _
          split
          · exact closes_write (by cases ref <;> decide)
          · exact closes_pure
      | array hbound =>
          refine adds_get.bind ?_
          intro page _
          refine (adds_writePartsOfArray hw _ _).bind ?_
          intro setOff _
          refine closes_when closes_space ?_
          refine (closes_write (by decide)).andThen ?_
          exact (closes_writeBound hw hbound).andThen (closes_write (by decide))
      | vector hbound =>
          refine (closes_write (by decide)).andThen ?_
          exact (closes_writeBound hw hbound).andThen (closes_write (by decide))
      | memberPointer howner =>
          refine adds_lastChar.bind ?_
          intro last _
          refine closes_when closes_space ?_
          exact (closes_typeRef hw howner).andThen (closes_write (by decide))
      | _ => exact closes_pure

theorem closes_writeTemplateParam (index : Nat) : (w.writeTemplateParam index).Closes := by
  unfold writeTemplateParam
  refine adds_get.bind ?_
  intro page _
  split
  · exact (closes_write (by decide)).andThen (closes_writeNat _)
  · refine adds_table.bind ?_
    intro table htable
    refine adds_read.bind ?_
    intro around _
    split
    · exact adds_fail
    next argument hargument => exact hw.templateArg (braceless_argumentOf? htable hargument)

theorem closes_writeTemplateArgs (args : ArgsRef) : (w.writeTemplateArgs args).Closes := by
  refine closes_enclosed ?_
  refine adds_lastChar.bind ?_
  intro last _
  refine closes_when (closes_write (by decide)) ?_
  refine (closes_write (by decide)).andThen ?_
  refine adds_table.bind ?_
  intro table htable
  refine Adds.andThen (closes_separated_map (by decide) ?_) ?_
  · rintro ⟨argument, index⟩ hmem
    have hargument := htable.args args argument (List.fst_mem_of_mem_zipIdx hmem)
    exact closes_atArgument (hw.templateArg hargument) index args
  · refine adds_lastChar.bind ?_
    intro last _
    exact closes_when (closes_write (by decide)) (closes_write (by decide))

theorem closes_writeTemplateArg {arg : TemplateArg} (harg : arg.Braceless) :
    (w.writeTemplateArg arg).Closes := by
  cases harg with
  | expression hexpression => exact hw.expression hexpression
  | primary hexpression => exact hw.primary hexpression
  | type htype => exact closes_typeRef hw htype
  | pack hargs =>
      refine Adds.andThen (closes_mark fun _ => ⟨rfl, rfl, rfl⟩) ?_
      exact closes_separated_map (by decide) fun arg hmem => hw.templateArg (hargs arg hmem)

/-! ### Expressions -/

theorem closes_operand {expression : Expression} (hexpression : expression.Braceless) :
    (w.operand expression).Closes := by
  have hinner := hw.expression hexpression
  unfold operand
  split
  · exact hinner
  · exact hinner
  · exact (closes_write (by decide)).andThen (hinner.andThen (closes_write (by decide)))

theorem closes_expressions {items : List Expression} (hitems : ∀ item ∈ items, item.Braceless) :
    (w.expressions items).Closes :=
  closes_separated_map (by decide) fun item hmem => hw.expression (hitems item hmem)

theorem closes_writeInitializer {items : List Expression}
    (hitems : ∀ item ∈ items, item.Braceless) : (w.writeInitializer items).Closes := by
  refine (closes_write (by decide)).andThen ?_
  exact (closes_expressions hw hitems).andThen (closes_write (by decide))

theorem closes_writeUnary {operator : OperatorName} (hoperator : operator.Braceless)
    {inner : Expression} (hinner : inner.Braceless) : (w.writeUnary operator inner).Closes := by
  have hsign := hw.operatorName hoperator
  have hoperand := closes_operand hw hinner
  unfold writeUnary
  split
  · exact hoperand.andThen hsign
  · exact hsign.andThen hoperand

theorem closes_writeBinary {operator : OperatorName} (hoperator : operator.Braceless)
    {left right : Expression} (hleft : left.Braceless) (hright : right.Braceless) :
    (w.writeBinary operator left right).Closes := by
  unfold writeBinary
  split
  · refine (closes_write (by decide)).andThen ?_
    refine (hw.expression hleft).andThen ?_
    refine (closes_write (by decide)).andThen ?_
    exact (hw.expression hright).andThen (closes_write (by decide))
  · refine (closes_operand hw hleft).andThen ?_
    exact (hw.operatorName hoperator).andThen (closes_operand hw hright)

theorem closes_writeTernary {operator : OperatorName} (hoperator : operator.Braceless)
    {first second third : Expression} (hfirst : first.Braceless) (hsecond : second.Braceless)
    (hthird : third.Braceless) : (w.writeTernary operator first second third).Closes := by
  unfold writeTernary
  split
  · refine (closes_operand hw hfirst).andThen ?_
    refine (closes_write (by decide)).andThen ?_
    refine (closes_operand hw hsecond).andThen ?_
    exact (closes_write (by decide)).andThen (closes_operand hw hthird)
  · have hall : ∀ item ∈ [first, second, third], item.Braceless := by
      simp [hfirst, hsecond, hthird]
    exact (hw.operatorName hoperator).andThen (closes_writeInitializer hw hall)

omit hw in
theorem unbraced_allocationKeyword {keyword : String} (hkeyword : Unbraced keyword.toList)
    (isGlobal isArray : Bool) : Unbraced (allocationKeyword keyword isGlobal isArray).toList := by
  have hfront : Unbraced (if isGlobal then "::" else "").toList := by cases isGlobal <;> decide
  have hback : Unbraced (if isArray then "[] " else " ").toList := by cases isArray <;> decide
  rw [allocationKeyword, String.toList_append, String.toList_append]
  exact fun hmem => (List.mem_append.mp hmem).elim
    (fun hmem => (List.mem_append.mp hmem).elim hfront hkeyword) hback

theorem closes_writeNew (isGlobal isArray : Bool) {placement : List Expression}
    (hplacement : ∀ item ∈ placement, item.Braceless) {type : TypeRef} (htype : type.Braceless)
    {initial : Option (List Expression)}
    (hinitial : ∀ items, initial = some items → ∀ item ∈ items, item.Braceless) :
    (w.writeNew isGlobal isArray placement type initial).Closes := by
  refine (closes_write (unbraced_allocationKeyword (by decide) _ _)).andThen ?_
  refine (closes_write (by decide)).andThen ?_
  refine (closes_expressions hw hplacement).andThen ?_
  refine (closes_write (by decide)).andThen ?_
  refine (closes_typeRef hw htype).andThen ?_
  cases initial with
  | none => exact closes_pure
  | some items => exact hw.initializer (hinitial items rfl)

theorem closes_writeMemberName {name : Name} (hname : name.Braceless) :
    (w.writeMemberName name).Closes := by
  have hinner := hw.name hname
  refine adds_table.bind ?_
  intro table _
  split
  · exact (closes_write (by decide)).andThen (hinner.andThen (closes_write (by decide)))
  · exact hinner

omit hw in
theorem closes_writeSizeofPack {pack : Writer Unit} (hpack : pack.Closes) :
    (writeSizeofPack pack).Closes :=
  (closes_write (by decide)).andThen (hpack.andThen (closes_write (by decide)))

theorem closes_writeSubobject {type : TypeRef} {object : Expression} (offset : Int)
    (htype : type.Braceless) (hobject : object.Braceless) :
    (w.writeSubobject type object offset).Closes := by
  refine (hw.expression hobject).andThen ?_
  refine (closes_write (by decide)).andThen ?_
  refine (closes_typeRef hw htype).andThen ?_
  refine (closes_write (by decide)).andThen ?_
  exact (closes_writeInt offset).andThen (closes_write (by decide))

theorem closes_writeExpression {expression : Expression} (hexpression : expression.Braceless) :
    (w.writeExpression expression).Closes := by
  have hbrace : (write "\x7d").EndsWith '\x7d' := adds_write ⟨[], rfl⟩
  have hopening : (write "(").Closes := closes_write (by decide)
  have hclosing : (write ")").Closes := closes_write (by decide)
  cases hexpression with
  | unary hoperator hinner => exact closes_writeUnary hw hoperator hinner
  | binary hoperator hleft hright => exact closes_writeBinary hw hoperator hleft hright
  | ternary hoperator hfirst hsecond hthird =>
      exact closes_writeTernary hw hoperator hfirst hsecond hthird
  | stepBefore hsign hinner => exact (closes_write hsign).andThen (hw.expression hinner)
  | call hfunction hargs =>
      exact (closes_operand hw hfunction).andThen (closes_writeInitializer hw hargs)
  | convert htype hinner =>
      refine hopening.andThen ?_
      refine (closes_typeRef hw htype).andThen ?_
      refine (closes_write (by decide)).andThen ?_
      exact (hw.expression hinner).andThen hclosing
  | convertMany htype hitems =>
      exact (closes_typeRef hw htype).andThen (closes_writeInitializer hw hitems)
  | braced htype helements =>
      refine (closes_typeRef hw htype).andThen ?_
      exact ((adds_any _).endsWith ((closes_expressions hw helements).endsWith hbrace)).closes
  | bracedList helement =>
      exact ((adds_any _).endsWith ((hw.expression helement).endsWith hbrace)).closes
  | new hplacement htype hinitial => exact closes_writeNew hw _ _ hplacement htype hinitial
  | delete hinner =>
      refine (closes_write (unbraced_allocationKeyword (by decide) _ _)).andThen ?_
      exact hw.expression hinner
  | cast hkeyword htype hinner =>
      refine (closes_write hkeyword).andThen ?_
      refine (closes_write (by decide)).andThen ?_
      refine (closes_typeRef hw htype).andThen ?_
      exact (closes_write (by decide)).andThen ((hw.expression hinner).andThen hclosing)
  | typeQuery hkeyword htype =>
      refine (closes_write hkeyword).andThen ?_
      exact (closes_write (by decide)).andThen ((closes_typeRef hw htype).andThen hclosing)
  | valueQuery hkeyword hinner =>
      refine (closes_write hkeyword).andThen ?_
      exact (closes_write (by decide)).andThen ((hw.expression hinner).andThen hclosing)
  | templateParam => exact hw.templateParam _
  | functionParam => exact hw.functionParam _
  | dot hobject hmember =>
      refine (closes_operand hw hobject).andThen ?_
      exact (closes_write (by decide)).andThen (hw.memberName hmember)
  | arrow hobject hmember =>
      refine (hw.expression hobject).andThen ?_
      exact (closes_write (by decide)).andThen (hw.memberName hmember)
  | dotStar hobject hmember =>
      refine (hw.expression hobject).andThen ?_
      exact (closes_write (by decide)).andThen (hw.expression hmember)
  | sizeofTemplatePack => exact closes_writeSizeofPack (hw.templateParam _)
  | sizeofFunctionPack => exact closes_writeSizeofPack (hw.functionParam _)
  | sizeofArgs hargs =>
      refine closes_writeSizeofPack ?_
      exact closes_separated_map (by decide) fun arg hmem => hw.templateArg (hargs arg hmem)
  | subobject htype hobject => exact hw.subobject _ htype hobject
  | packExpansion hinner => exact (closes_operand hw hinner).andThen (closes_write (by decide))
  | throw hinner => exact (closes_write (by decide)).andThen (hw.expression hinner)
  | rethrow => exact closes_write (by decide)
  | unresolved hname => exact hw.unresolvedName hname
  | primary hinner => exact hw.primary hinner

theorem closes_writeLiteralType {type : TypeRef} (htype : type.Braceless) :
    (w.writeLiteralType type).Closes := by
  refine adds_read.bind ?_
  intro around _
  split
  · refine (closes_write (by decide)).andThen ?_
    exact (closes_typeRef hw htype).andThen (closes_write (by decide))
  · exact closes_pure

omit hw in
theorem unbraced_signed {value : List Char} (hvalue : Unbraced value) :
    Unbraced (signed value).1.toList ∧ Unbraced (signed value).2.toList := by
  have hdigits : ∀ {digits : List Char}, Unbraced digits →
      Unbraced (String.ofList digits).toList := by
    intro digits hdigits
    rw [String.toList_ofList]
    exact hdigits
  unfold signed
  split
  · have hsign : Unbraced "-".toList := by decide
    exact ⟨hsign, hdigits fun hmem => hvalue (List.mem_cons_of_mem _ hmem)⟩
  · have hsign : Unbraced "".toList := by decide
    exact ⟨hsign, hdigits hvalue⟩

omit hw in
theorem closes_writeNumber {value : List Char} (hvalue : Unbraced value) :
    (writeNumber value).Closes :=
  (closes_write (unbraced_signed hvalue).1).andThen (closes_write (unbraced_signed hvalue).2)

omit hw in
theorem closes_writeBoolean {value : List Char} (hvalue : Unbraced value) :
    (writeBoolean value).Closes := by
  unfold writeBoolean
  split
  · exact closes_write (by decide)
  · exact closes_write (by decide)
  · exact (closes_write (by decide)).andThen (closes_writeNumber hvalue)

theorem closes_writeLiteral {type : TypeRef} (htype : type.Braceless) {value : List Char}
    (hvalue : Unbraced value) : (w.writeLiteral type value).Closes := by
  have hprefix := closes_writeLiteralType hw htype
  have hnumber := closes_writeNumber hvalue
  unfold writeLiteral
  split
  · split
    · exact closes_writeBoolean hvalue
    · exact closes_write (by decide)
    · exact hnumber
    · refine hprefix.andThen ?_
      refine (closes_write (unbraced_signed hvalue).1).andThen ?_
      refine (closes_write (by decide)).andThen ?_
      exact (closes_write (unbraced_signed hvalue).2).andThen (closes_write (by decide))
    · exact hprefix.andThen hnumber
  · exact hprefix.andThen hnumber

theorem closes_writePrimary {expression : Primary} (hexpression : expression.Braceless) :
    (w.writePrimary expression).Closes := by
  cases hexpression with
  | literal htype hvalue => exact closes_writeLiteral hw htype hvalue
  | external hname => exact closes_withParameters (hw.mangledName hname)

theorem closes_writeUnresolvedName {name : UnresolvedName} (hname : name.Braceless) :
    (w.writeUnresolvedName name).Closes := by
  refine closes_when (closes_write (by decide)) (closes_separated (by decide) ?_)
  intro item hmem
  rcases List.mem_append.mp hmem with hmem | hbase
  · rcases List.mem_append.mp hmem with htype | hlevel
    · obtain ⟨type, -, rfl⟩ := List.mem_map.mp htype
      exact closes_entityRef hw type
    · obtain ⟨level, hin, rfl⟩ := List.mem_map.mp hlevel
      exact hw.qualifierLevel (hname.levels level hin)
  · rw [List.mem_singleton.mp hbase]
    exact hw.unresolvedBase hname.base

theorem closes_writeSimpleId {id : SimpleId} (hid : id.Braceless) :
    (w.writeSimpleId id).Closes := by
  refine (hw.sourceName hid.name).andThen ?_
  split
  · exact hw.templateArgs _
  · exact closes_pure

theorem closes_writeUnresolvedBase {base : UnresolvedBase} (hbase : base.Braceless) :
    (w.writeUnresolvedBase base).Closes := by
  cases hbase with
  | simple hid => exact hw.simpleId hid
  | operator hoperator =>
      refine (hw.operatorName hoperator).andThen ?_
      split
      · exact hw.templateArgs _
      · exact closes_pure
  | destructor hname => exact (closes_write (by decide)).andThen (hw.destructorName hname)

theorem closes_writeDestructorName {name : DestructorName} (hname : name.Braceless) :
    (w.writeDestructorName name).Closes := by
  cases hname with
  | type => exact closes_entityRef hw _
  | simple hid => exact hw.simpleId hid

theorem closes_writeUnresolvedType {type : UnresolvedType} (htype : type.Braceless) :
    (w.writeUnresolvedType type).Closes := by
  cases htype with
  | @parameter index args =>
      cases args with
      | none => exact hw.templateParam index
      | some args =>
          exact closes_withBinding ((hw.templateParam index).andThen (hw.templateArgs args)) .args
  | decltype hexpression => exact hw.decltype hexpression

end

theorem closes_writeSourceName {identifier : String} (hidentifier : Unbraced identifier.toList) :
    (do
      modify fun page => { page with sourceName := some identifier }
      write identifier : Writer Unit).Closes := by
  have hmodify : (modify fun page => { page with sourceName := some identifier } :
      Writer Unit).Closes := by
    refine closes_modify ?_ fun _ => rfl
    refine fun page hpage => ⟨hpage.pending, ?_⟩
    rintro _ ⟨⟩
    exact hidentifier
  exact hmodify.andThen (closes_write hidentifier)

theorem closes_writeIdentifier {identifier : String} (hidentifier : Unbraced identifier.toList) :
    (writeIdentifier identifier).Closes := by
  unfold writeIdentifier
  split
  · exact closes_write (by decide)
  · exact closes_writeSourceName hidentifier

theorem closes_writeOffset (offset : CallOffset) : (writeOffset offset).Closes := by
  cases offset with
  | fixed offset =>
      refine (closes_write (by decide)).andThen ?_
      exact (closes_writeInt offset).andThen (closes_write (by decide))
  | virtual offset vcallOffset =>
      refine (closes_write (by decide)).andThen ?_
      refine (closes_writeInt offset).andThen ?_
      refine (closes_write (by decide)).andThen ?_
      exact (closes_writeInt vcallOffset).andThen (closes_write (by decide))

theorem closes_writeUnnamedType (number : Option Nat) : (writeUnnamedType number).Closes := by
  have hbrace : (write "\x7d").EndsWith '\x7d' := adds_write ⟨[], rfl⟩
  exact ((adds_any _).endsWith ((closes_writeNat _).endsWith hbrace)).closes

theorem closes_writeUnnamedLeaf (number : Option Nat) : (writeUnnamedLeaf number).Closes := by
  refine adds_get.bind ?_
  intro page hpage
  split
  next name hname => exact closes_write (hpage.sourceName name hname)
  · exact closes_writeUnnamedType number

theorem closes_writeQualifiers (qualifiers : Qualifiers) : (writeQualifiers qualifiers).Closes := by
  have hwords : ∀ word ∈ qualifiers.words, Unbraced word.toList := by
    obtain ⟨restrict, volatile, const⟩ := qualifiers
    cases restrict <;> cases volatile <;> cases const <;> decide
  exact closes_forM fun word hmem => closes_space.andThen (closes_write (hwords word hmem))

theorem closes_writeRefQualifier (ref : RefQualifier) : (writeRefQualifier ref).Closes :=
  closes_space.andThen (closes_write (by cases ref <;> decide))

theorem closes_writeFunctionParam (param : FunctionParam) : (writeFunctionParam param).Closes := by
  have hbrace : (write "\x7d").EndsWith '\x7d' := adds_write ⟨[], rfl⟩
  cases param with
  | this => exact closes_write (by decide)
  | place index => exact ((adds_any _).endsWith ((closes_writeNat _).endsWith hbrace)).closes

theorem toNat_byteText (byte : UInt8) : (byteText byte).toNat = byte.toNat := by
  have hvalid : byte.toNat.isValidChar := .inl (Nat.lt_trans byte.toNat_lt (by decide))
  rw [byteText, Char.ofNat, dif_pos hvalid]
  rfl

/-- No byte of another character is that of an opening brace. -/
theorem eq_of_mem_byteText {c : Char}
    (hmem : '\x7b' ∈ (String.utf8EncodeChar c).map byteText) : c = '\x7b' := by
  obtain ⟨byte, hbyte, heq⟩ := List.mem_map.mp hmem
  have hvalue : byte.toNat = 0x7b := by
    rw [← toNat_byteText, heq]
    rfl
  rcases Text.utf8EncodeChar_ascii_or_high c with ⟨own, hown, rfl⟩ | hhigh
  · rw [Text.utf8EncodeChar_ofUInt8 hown, List.mem_singleton] at hbyte
    have hbrace : own = 0x7b := UInt8.toNat_inj.mp (hbyte ▸ hvalue)
    rw [hbrace]
    rfl
  · have hle := UInt8.le_iff_toNat_le.mp (hhigh byte hbyte)
    rw [hvalue] at hle
    exact absurd hle (by decide)

theorem unbraced_resourceText {name : List Char} (hname : Unbraced name) :
    Unbraced (resourceText name) := by
  have hescape : ∀ {c : Char} {text : List Char}, c ≠ '\x7b' → Unbraced text →
      Unbraced (c :: text) :=
    fun hc htext hmem => (List.mem_cons.mp hmem).elim (fun heq => hc heq.symm) htext
  have hbehind : ∀ {front text : List Char}, Unbraced (front ++ text) → Unbraced text :=
    fun hall hmem => hall (List.mem_append_right _ hmem)
  fun_induction resourceText name with
  | case1 text ih => exact hescape (by decide) (ih (@hbehind ['$', 'S'] _ hname))
  | case2 text ih => exact hescape (by decide) (ih (@hbehind ['$', '_'] _ hname))
  | case3 text ih => exact hescape (by decide) (ih (@hbehind ['$', '$'] _ hname))
  | case4 c text _ _ _ ih =>
      intro hmem
      rcases List.mem_append.mp hmem with hbyte | hrest
      · exact hname (eq_of_mem_byteText hbyte ▸ List.mem_cons_self)
      · exact ih (fun hin => hname (List.mem_cons_of_mem c hin)) hrest
  | case5 => exact hname

theorem closes_writeResourceName {name : List Char} (hname : Unbraced name) :
    (writeResourceName name).Closes := by
  refine closes_write ?_
  rw [String.toList_ofList]
  exact unbraced_resourceText hname

theorem Closes.above (hw : w.Closes) : (above w).Closes where
  mangledName := closes_writeMangledName hw
  cloneSuffix := closes_writeCloneSuffix hw
  cloneIdentifier := closes_writeSourceName
  globals := closes_writeGlobals hw
  encoding := closes_writeEncoding hw
  specialName := closes_writeSpecialName hw
  callOffset := closes_writeCallOffset hw
  offset := closes_writeOffset
  resourceName := closes_writeResourceName
  name := closes_writeName hw
  unscopedName := closes_writeUnscopedName hw
  unscopedTemplate := hw.unscopedName
  nestedName := closes_writeNestedName hw
  scope := closes_writeScope hw
  unqualifiedName := closes_writeUnqualifiedName hw
  sourceName := hw.identifier
  identifier := closes_writeIdentifier
  tags := closes_writeTags hw
  tag := closes_writeTag hw
  operatorName := closes_writeOperatorName hw
  simpleOperator := closes_write
  specialMember := closes_writeSpecialMember hw
  closureType := closes_writeClosureType hw
  closureSignature := closes_writeClosureSignature hw
  unnamedType := closes_writeUnnamedType
  unnamedLeaf := closes_writeUnnamedLeaf
  localName := closes_writeLocalName hw
  standardEntity entity := closes_write (by cases entity <;> decide)
  compoundType := closes_writeCompoundType hw
  builtinType := closes_writeBuiltinType hw
  fundamentalType := closes_write
  parametricType := closes_writeParametricType hw
  qualifiers := closes_writeQualifiers
  refQualifier := closes_writeRefQualifier
  functionType := closes_writeFunctionType hw
  exceptionSpec := closes_writeExceptionSpec hw
  bareFunctionType := closes_writeBareFunctionType hw
  classEnum := closes_writeClassEnum hw
  aroundType := closes_writeAroundType hw
  decltype := closes_writeDecltype hw
  templateParam := closes_writeTemplateParam hw
  templateTemplateParam := hw.templateParam
  templateArgs := closes_writeTemplateArgs hw
  templateArg := closes_writeTemplateArg hw
  parameters := closes_writeParameters hw
  part := closes_writeTypePart hw
  expression := closes_writeExpression hw
  subobject := closes_writeSubobject hw
  primary := closes_writePrimary hw
  initializer := closes_writeInitializer hw
  functionParam := closes_writeFunctionParam
  memberName := closes_writeMemberName hw
  unresolvedName := closes_writeUnresolvedName hw
  qualifierLevel := hw.simpleId
  unresolvedType := closes_writeUnresolvedType hw
  unresolvedBase := closes_writeUnresolvedBase hw
  destructorName := closes_writeDestructorName hw
  simpleId := closes_writeSimpleId hw

theorem closes_ofDepth (depth : Nat) : (ofDepth depth).Closes := by
  induction depth with
  | zero => exact closes_exhausted
  | succ depth ih => exact ih.above

end Wording

end MangledNames.Symbol

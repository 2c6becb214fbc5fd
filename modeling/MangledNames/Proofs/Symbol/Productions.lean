import MangledNames.Proofs.Symbol.Parsing
import MangledNames.Symbol.Parse

/-!
# What the productions read

If the symbol has no opening brace, then no production reads a text that has one, and none is
entered into the table. This is shown for each production under the assumption that it holds of the
grammar for its parts, and so holds of the grammar of every depth.
-/

namespace MangledNames.Symbol

structure Grammar.Keeps (text : List Char) (g : Grammar) : Prop where
  -- Symbols
  mangledName : g.mangledName.Gives text MangledName.Braceless
  cloneSuffix : g.cloneSuffix.Gives text CloneSuffix.Braceless
  cloneIdentifier : g.cloneIdentifier.Gives text fun name => Unbraced name.toList
  globals : g.globals.Gives text MangledName.Braceless
  encoding : g.encoding.Gives text Encoding.Braceless
  specialName : g.specialName.Gives text SpecialName.Braceless
  callOffset : g.callOffset.Keeps text
  fixedOffset : g.fixedOffset.Keeps text
  virtualOffset : g.virtualOffset.Keeps text
  resourceName : g.resourceName.Gives text Unbraced
  -- Names
  name : g.name.Gives text Name.Braceless
  unscopedName : g.unscopedName.Gives text UnscopedName.Braceless
  unscopedTemplate : g.unscopedTemplate.Keeps text
  nestedName : g.nestedName.Gives text NestedName.Braceless
  explicitObject : g.explicitObject.Keeps text
  scope : g.scope.Keeps text
  unqualifiedName : g.unqualifiedName.Gives text UnqualifiedName.Braceless
  sourceName : g.sourceName.Gives text fun name => Unbraced name.toList
  identifier : ∀ length, (g.identifier length).Gives text fun name => Unbraced name.toList
  tags : g.tags.Gives text fun tags => ∀ tag ∈ tags, Unbraced tag.toList
  tag : g.tag.Gives text fun tag => Unbraced tag.toList
  operatorName : ∀ applied, (g.operatorName applied).Gives text OperatorName.Braceless
  simpleOperator : g.simpleOperator.Gives text fun operator => Unbraced operator.spelling.toList
  specialMember : g.specialMember.Keeps text
  closureType : g.closureType.Gives text ClosureType.Braceless
  closureSignature : g.closureSignature.Gives text fun types => ∀ type ∈ types, type.Braceless
  unnamedType : g.unnamedType.Keeps text
  localName : g.localName.Gives text LocalName.Braceless
  discriminator : g.discriminator.Keeps text
  substitution : g.substitution.Keeps text
  standardEntity : g.standardEntity.Keeps text
  sequenceNumber : g.sequenceNumber.Keeps text
  number : g.number.Keeps text
  -- Types
  type : g.type.Gives text TypeRef.Braceless
  builtinType : g.builtinType.Gives text BuiltinType.Braceless
  fundamentalType : g.fundamentalType.Gives text fun type => Unbraced type.spelling.toList
  parametricType : g.parametricType.Keeps text
  qualifiers : g.qualifiers.Keeps text
  refQualifier : g.refQualifier.Keeps text
  functionType : g.functionType.Gives text FunctionType.Braceless
  exceptionSpec : g.exceptionSpec.Gives text ExceptionSpec.Braceless
  bareFunctionType : g.bareFunctionType.Gives text fun types => ∀ type ∈ types, type.Braceless
  classEnum : g.classEnum.Gives text CompoundType.Braceless
  arrayType : g.arrayType.Gives text CompoundType.Braceless
  vectorType : g.vectorType.Gives text CompoundType.Braceless
  memberPointer : g.memberPointer.Gives text CompoundType.Braceless
  decltype : g.decltype.Gives text Expression.Braceless
  templateParam : g.templateParam.Keeps text
  templateTemplate : g.templateTemplate.Keeps text
  templateArgs : g.templateArgs.Keeps text
  templateArg : g.templateArg.Gives text TemplateArg.Braceless
  -- Expressions
  expression : g.expression.Gives text Expression.Braceless
  subobject : g.subobject.Gives text Expression.Braceless
  primary : g.primary.Gives text Primary.Braceless
  initializer : g.initializer.Gives text fun items => ∀ item ∈ items, item.Braceless
  functionParam : g.functionParam.Keeps text
  memberName : g.memberName.Gives text Name.Braceless
  unresolvedName : g.unresolvedName.Gives text UnresolvedName.Braceless
  qualifierLevel : g.qualifierLevel.Gives text SimpleId.Braceless
  unresolvedType : g.unresolvedType.Keeps text
  unresolvedBase : g.unresolvedBase.Gives text UnresolvedBase.Braceless
  destructorName : g.destructorName.Gives text DestructorName.Braceless
  simpleId : g.simpleId.Gives text SimpleId.Braceless

theorem Grammar.keeps_exhausted (text : List Char) : exhausted.Keeps text := by
  constructor <;> intros <;> exact Parser.gives_nestedTooDeep

namespace Production

open Symbol.Parser

variable {text : List Char} {g : Grammar}

theorem append_of_splitBytes? {bytes : Nat} {text part rest : List Char}
    (hsplit : splitBytes? bytes text = some (part, rest)) : text = part ++ rest := by
  induction text generalizing bytes part with
  | nil =>
      cases bytes <;> cases hsplit
      rfl
  | cons c text ih =>
      by_cases hzero : bytes = 0
      · subst hzero
        cases hsplit
        rfl
      · rw [splitBytes?] at hsplit
        · split at hsplit
          · cases hsplit
          · obtain ⟨⟨front, behind⟩, hfound, heq⟩ := Option.map_eq_some_iff.mp hsplit
            cases heq
            rw [ih hfound, List.cons_append]
        · exact hzero

section

variable (htext : Unbraced text)

include htext

theorem gives_cloneIdentifier : cloneIdentifier.Gives text fun name => Unbraced name.toList := by
  unfold cloneIdentifier
  refine gives_rest.bind ?_
  intro rest hrest
  simp only
  split
  · exact gives_fail_bind
  · refine (keeps_skip hrest _).andThen (.pure ?_)
    rw [String.toList_ofList]
    exact htext.of_subset (List.Subset.trans (List.takeWhile_subset _) hrest)

theorem gives_resourceName : resourceName.Gives text Unbraced := by
  unfold resourceName
  refine gives_rest.bind ?_
  intro rest hrest
  simp only
  have hplain : rest.takeWhile (· ≠ '$') ⊆ text := List.Subset.trans (List.takeWhile_subset _) hrest
  have hbehind : rest.drop (rest.takeWhile (· ≠ '$')).length ⊆ text :=
    List.Subset.trans (List.drop_subset _ rest) hrest
  split
  · exact gives_fail_bind
  · split
    next c behind heq =>
        rw [heq, List.cons_subset, List.cons_subset] at hbehind
        obtain ⟨hdollar, hc, hbehind⟩ := hbehind
        have hname : rest.takeWhile (· ≠ '$') ++ ['$', c] ⊆ text :=
          List.append_subset.mpr ⟨hplain, by simp [hdollar, hc]⟩
        split
        · exact (keeps_advanceTo hbehind).andThen (.pure (htext.of_subset hname))
        · exact gives_fail_bind
    next => exact gives_fail
    next => exact (keeps_advanceTo hbehind).andThen (.pure (htext.of_subset hplain))

theorem gives_identifier (length : Nat) :
    (identifier length).Gives text fun name => Unbraced name.toList := by
  unfold identifier
  refine gives_rest.bind ?_
  intro rest hrest
  simp only
  split
  · exact gives_fail_bind
  · refine (keeps_skip hrest _).andThen (.pure ?_)
    rw [String.toList_ofList]
    exact htext.of_subset (List.Subset.trans (List.take_subset _ _) hrest)

end

section

variable (hg : g.Keeps text)

include hg

theorem gives_mangledName : (mangledName g).Gives text MangledName.Braceless := by
  unfold mangledName
  refine ((keeps_eat _).or (keeps_eat _)).whether ?_ ?_
  · refine hg.encoding.bind ?_
    intro encoding hencoding
    exact (gives_many hg.cloneSuffix).bind fun suffixes hsuffixes =>
      .pure (.encoding hencoding hsuffixes)
  refine ((keeps_eat _).or (keeps_eat _)).whether ?_ ?_
  · refine hg.encoding.bind ?_
    intro enclosing henclosing
    refine (keeps_expect _).andThen ?_
    have hblock : (pure (.block enclosing) : Parser MangledName).Gives text MangledName.Braceless :=
      .pure (.block henclosing)
    exact ((keeps_eat _).or (keeps_eat _)).whether (keeps_number.andThen hblock)
      (keeps_number.optional.andThen hblock)
  refine (keeps_eat _).whether hg.globals ?_
  exact hg.type.bind fun type htype => .pure (.type htype)

theorem gives_cloneSuffix : (cloneSuffix g).Gives text CloneSuffix.Braceless := by
  unfold cloneSuffix
  refine (keeps_expect _).andThen ?_
  refine hg.cloneIdentifier.bind ?_
  intro identifier hidentifier
  exact (gives_many ((keeps_expect _).andThen keeps_number)).bind fun _ _ => .pure ⟨hidentifier⟩

theorem gives_globals : (globals g).Gives text MangledName.Braceless := by
  unfold globals
  refine keeps_anyChar.bind ?_
  intro c _
  simp only
  split
  · refine (keeps_eat _).whether ?_ ?_
    · exact hg.mangledName.bind fun name hname => .pure (.globals hname)
    · refine (keeps_expect _).andThen ?_
      exact hg.mangledName.bind fun name hname => .pure (.globals hname)
  · exact gives_fail_bind

theorem gives_encoding : (encoding g).Gives text Encoding.Braceless := by
  unfold encoding
  refine hg.name.alternative ?_ ?_
  · intro name hname
    refine hg.bareFunctionType.alternative ?_ (.pure (.data hname))
    exact fun types htypes => .pure (.function hname htypes)
  · exact hg.specialName.bind fun name hname => .pure (.special hname)

theorem keeps_fixedOffset : (fixedOffset g).Keeps text :=
  hg.number.bind fun _ _ => .pure trivial

theorem keeps_virtualOffset : (virtualOffset g).Keeps text := by
  unfold virtualOffset
  refine hg.number.bind ?_
  intro offset _
  refine (keeps_expect _).andThen ?_
  exact hg.number.bind fun _ _ => .pure trivial

theorem keeps_callOffset : (callOffset g).Keeps text := by
  unfold callOffset
  refine (keeps_eat _).whether ?_ ?_
  · exact hg.fixedOffset.bind fun _ _ => (keeps_expect _).andThen (.pure trivial)
  · refine (keeps_expect _).andThen ?_
    exact hg.virtualOffset.bind fun _ _ => (keeps_expect _).andThen (.pure trivial)

theorem gives_temporary : (temporary g).Gives text SpecialName.Braceless := by
  unfold temporary
  refine hg.name.bind ?_
  intro name hname
  refine (keeps_eat _).whether (.pure (.temporary hname)) ?_
  refine hg.sequenceNumber.bind ?_
  intro number _
  exact (keeps_expect _).andThen (.pure (.temporary hname))

theorem gives_constructionVtable : (constructionVtable g).Gives text SpecialName.Braceless := by
  unfold constructionVtable
  refine hg.type.bind ?_
  intro type htype
  refine keeps_number.andThen ?_
  refine (keeps_expect _).andThen ?_
  exact hg.type.bind fun base hbase => .pure (.constructionVtable htype hbase)

theorem gives_resource : (resource g).Gives text SpecialName.Braceless := by
  unfold resource
  refine keeps_number.bind ?_
  intro length _
  simp only
  split
  · exact gives_fail_bind
  · refine gives_rest.bind ?_
    intro rest hrest
    split
    · exact gives_fail
    next part behind hsplit =>
        rw [append_of_splitBytes? hsplit, List.append_subset] at hrest
        have hnames : (do expect "_"; many g.resourceName : Parser (List (List Char))).Gives text
            fun names => ∀ name ∈ names, Unbraced name :=
          (keeps_expect _).andThen (gives_many hg.resourceName)
        refine (gives_within hrest.1 hnames).bind ?_
        intro names hnames
        exact (keeps_advanceTo hrest.2).andThen (.pure (.resource hnames))

theorem gives_transactionClone : (transactionClone g).Gives text SpecialName.Braceless := by
  unfold transactionClone
  refine keeps_anyChar.bind ?_
  intro letter _
  simp only
  split
  · exact gives_fail_bind
  · exact hg.encoding.bind fun target htarget => .pure (.transactionClone htarget)

theorem gives_specialKind {code : List Char} {parser : Parser SpecialName}
    (hkind : specialKind g code = some parser) : parser.Gives text SpecialName.Braceless := by
  unfold specialKind at hkind
  split at hkind
  all_goals cases hkind
  any_goals exact hg.type.bind fun type htype => .pure (.typeData htype)
  any_goals exact hg.name.bind fun name hname => .pure (.variableHelper hname)
  · refine hg.callOffset.bind ?_
    intro object _
    refine hg.callOffset.bind ?_
    intro result _
    exact hg.encoding.bind fun target htarget => .pure (.covariantThunk htarget)
  · exact gives_constructionVtable hg
  · exact gives_temporary hg
  · exact gives_resource hg
  · exact gives_transactionClone hg

theorem gives_specialName : (specialName g).Gives text SpecialName.Braceless := by
  unfold specialName
  refine gives_rest.bind ?_
  intro rest hrest
  have hthunk : (do
      advanceTo (rest.drop 1)
      let offset ← g.callOffset
      return .thunk offset (← g.encoding) :
        Parser SpecialName).Gives text SpecialName.Braceless := by
    refine (keeps_skip hrest 1).andThen ?_
    refine hg.callOffset.bind ?_
    intro offset _
    exact hg.encoding.bind fun target htarget => .pure (.thunk htarget)
  split
  · exact hthunk
  · exact hthunk
  · split
    · exact gives_fail
    next parser hkind => exact (keeps_skip hrest 2).andThen (gives_specialKind hg hkind)

theorem gives_name : (name g).Gives text Name.Braceless := by
  unfold name
  refine hg.nestedName.alternative (fun nested hnested => .pure (.nested hnested)) ?_
  refine hg.unscopedName.alternative ?_ ?_
  · intro unscoped hunscoped
    refine keeps_peek.bind ?_
    intro c _
    split
    · refine (keeps_enterNumbered (.template hunscoped)).bind ?_
      intro template _
      exact hg.templateArgs.bind fun args _ => .pure .instantiation
    · exact .pure (.unscoped hunscoped)
  refine hg.unscopedTemplate.alternative ?_ ?_
  · intro template _
    exact hg.templateArgs.bind fun args _ => .pure .instantiation
  exact hg.localName.bind fun name hname => .pure (.inside hname)

theorem gives_unscopedName : (unscopedName g).Gives text UnscopedName.Braceless :=
  (keeps_eat _).bind fun _ _ => hg.unqualifiedName.bind fun _ hname => .pure ⟨hname⟩

theorem keeps_unscopedTemplate : (unscopedTemplate g).Keeps text := by
  unfold unscopedTemplate
  refine hg.unscopedName.alternative ?_ hg.substitution
  exact fun unscoped hunscoped =>
    (keeps_enterNumbered (.template hunscoped)).bind fun _ _ => .pure trivial

end

theorem gives_nestedPath (whole : EntityRef) :
    (nestedPath whole).Gives text NestedPath.Braceless := by
  unfold nestedPath
  cases whole with
  | standard entity => exact gives_fail
  | entry index =>
      refine gives_table.bind ?_
      intro table htable
      split
      next last hentry =>
          cases htable.entryAt? hentry with
          | scope hscope => cases hscope with | name hlast => exact .pure (.member hlast)
      next outer last hentry =>
          cases htable.entryAt? hentry with
          | scope hscope => cases hscope with | member hlast => exact .pure (.member hlast)
      next => exact .pure .instantiation
      next => exact gives_fail

section

variable (hg : g.Keeps text)

include hg

theorem gives_nestedName : (nestedName g).Gives text NestedName.Braceless := by
  unfold nestedName
  refine (keeps_expect _).andThen ?_
  refine keeps_peek.bind ?_
  intro c _
  split
  · refine hg.explicitObject.andThen ?_
    refine hg.scope.bind ?_
    intro whole _
    refine (keeps_expect _).andThen ?_
    exact (gives_nestedPath whole).bind fun path hpath => .pure ⟨hpath⟩
  · refine hg.qualifiers.optional.bind ?_
    intro qualifiers _
    refine hg.refQualifier.optional.bind ?_
    intro ref _
    refine hg.scope.bind ?_
    intro whole _
    refine (keeps_expect _).andThen ?_
    exact (gives_nestedPath whole).bind fun path hpath => .pure ⟨hpath⟩

end

theorem keeps_saveScope {scope : Scope} (hscope : scope.Braceless) :
    (saveScope scope).Keeps text := by
  unfold saveScope
  refine keeps_peek.bind ?_
  intro c _
  split
  · exact keeps_enter (.scope hscope)
  · exact keeps_enterNumbered (.scope hscope)

theorem keeps_extendScope (outer : Option EntityRef) {last : UnqualifiedName}
    (hlast : last.Braceless) : (extendScope outer last).Keeps text := by
  cases outer with
  | none => exact keeps_saveScope (.name hlast)
  | some outer => exact keeps_saveScope (.member hlast)

theorem keeps_dataMember (outer : EntityRef) {member : UnqualifiedName}
    (hmember : member.Braceless) : (dataMember outer member).Keeps text := by
  unfold dataMember
  have hbase := hmember.base
  split
  next name hsource =>
      rw [hsource] at hbase
      cases hbase with
      | source hname =>
          refine (keeps_saveScope (.dataMember hname)).bind ?_
          intro scope _
          exact (keeps_expect _).andThen (.pure trivial)
  next => exact gives_fail

section

variable (hg : g.Keeps text)

include hg

theorem keeps_scopeStep (outer : Option EntityRef) (c : Char) :
    (scopeStep g outer c).Keeps text := by
  have hextend : ∀ {last : UnqualifiedName}, last.Braceless →
      (some <$> extendScope outer last).Keeps text :=
    fun hlast => (keeps_extendScope outer hlast).keeps_map
  unfold scopeStep
  split
  · exact hg.substitution.keeps_map
  · exact (hg.templateParam.bind fun index _ => keeps_saveScope .parameter).keeps_map
  · refine hg.decltype.alternative ?_ ?_
    · exact fun expression hexpression => (keeps_saveScope (.decltype hexpression)).keeps_map
    · exact (hg.unqualifiedName.bind fun last hlast => keeps_extendScope outer hlast).keeps_map
  · exact (hg.templateArgs.bind fun args _ => keeps_saveScope .instantiation).keeps_map
  · split
    · refine hg.unqualifiedName.bind ?_
      intro last hlast
      refine keeps_peek.bind ?_
      intro next _
      split
      · exact (keeps_dataMember _ hlast).keeps_map
      · exact hextend hlast
    · exact .pure trivial

theorem keeps_scopeFrom (limit : Nat) (outer : Option EntityRef) :
    (scopeFrom g limit outer).Keeps text := by
  induction limit generalizing outer with
  | zero => exact .pure trivial
  | succ limit ih =>
      unfold scopeFrom
      refine keeps_peek.bind ?_
      intro c? _
      split
      · exact .pure trivial
      · exact .pure trivial
      next c _ =>
          refine (keeps_scopeStep hg outer c).bind ?_
          intro scope? _
          cases scope? with
          | none => exact .pure trivial
          | some scope => exact ih (some scope)

theorem keeps_scope : (scope g).Keeps text := by
  unfold scope
  refine gives_rest.bind ?_
  intro rest _
  refine (keeps_scopeFrom hg _ _).bind ?_
  intro scope? _
  cases scope? with
  | none => exact gives_fail
  | some scope => exact .pure trivial

theorem gives_baseName : (baseName g).Gives text BaseName.Braceless := by
  unfold baseName
  refine (hg.operatorName false).alternative ?_ ?_
  · exact fun operator hoperator => .pure (.operator hoperator)
  refine hg.specialMember.alternative (fun member _ => .pure .special) ?_
  refine (keeps_eat _).whether ?_ ?_
  · refine hg.sourceName.bind ?_
    intro name hname
    exact hg.discriminator.optional.andThen (.pure (.internal hname))
  refine hg.sourceName.alternative (fun name hname => .pure (.source hname)) ?_
  refine hg.closureType.alternative (fun type htype => .pure (.closure htype)) ?_
  exact hg.unnamedType.bind fun number _ => .pure .unnamed

theorem gives_unqualifiedName : (unqualifiedName g).Gives text UnqualifiedName.Braceless :=
  (gives_baseName hg).bind fun _ hbase => hg.tags.bind fun _ htags => .pure ⟨hbase, htags⟩

theorem gives_sourceName : (sourceName g).Gives text fun name => Unbraced name.toList := by
  unfold sourceName
  refine keeps_number.bind ?_
  intro length _
  refine gives_rest.bind ?_
  intro rest _
  simp only
  split
  · exact gives_fail_bind
  · exact hg.identifier length

theorem gives_tag : (tag g).Gives text fun tag => Unbraced tag.toList :=
  (keeps_expect _).andThen hg.sourceName

theorem gives_tags : (tags g).Gives text fun tags => ∀ tag ∈ tags, Unbraced tag.toList :=
  gives_many hg.tag

theorem gives_operatorName (applied : Bool) :
    (operatorName g applied).Gives text OperatorName.Braceless := by
  unfold operatorName
  refine hg.simpleOperator.alternative (fun operator hoperator => .pure (.simple hoperator)) ?_
  refine (keeps_eat _).whether ?_ ?_
  · exact (gives_converting hg.type _).bind fun type htype => .pure (.conversion htype)
  refine (keeps_eat _).whether ?_ ?_
  · exact hg.sourceName.bind fun name hname => .pure (.literal hname)
  refine (keeps_expect _).andThen ?_
  refine keeps_anyChar.bind ?_
  intro c _
  cases digit? 10 c with
  | none => exact gives_fail
  | some arity => exact hg.sourceName.bind fun name hname => .pure (.vendor hname)

theorem keeps_specialMember : (specialMember g).Keeps text := by
  unfold specialMember
  refine (keeps_eat _).whether ?_ ?_
  · refine (keeps_eat _).bind ?_
    intro inheriting _
    refine keeps_anyChar.bind ?_
    intro c _
    simp only
    split
    · split
      · exact hg.type.bind fun _ _ => .pure trivial
      · exact .pure trivial
    · exact gives_fail_bind
  · refine (keeps_expect _).andThen ?_
    refine keeps_anyChar.bind ?_
    intro c _
    simp only
    split
    · exact .pure trivial
    · exact gives_fail_bind

theorem gives_closureSignature :
    (closureSignature g).Gives text fun types => ∀ type ∈ types, type.Braceless := by
  unfold closureSignature
  exact (keeps_eat _).whether (.pure (List.forall_mem_nil _)) (gives_many1 hg.type)

theorem gives_closureType : (closureType g).Gives text ClosureType.Braceless := by
  unfold closureType
  refine (keeps_expect _).andThen ?_
  refine hg.closureSignature.bind ?_
  intro parameters hparameters
  refine (keeps_expect _).andThen ?_
  refine keeps_number.optional.bind ?_
  intro number _
  exact (keeps_expect _).andThen (.pure ⟨hparameters⟩)

end

theorem keeps_unnamedType : unnamedType.Keeps text := by
  unfold unnamedType
  refine (keeps_expect _).andThen ?_
  refine keeps_number.optional.bind ?_
  intro number _
  exact (keeps_expect _).andThen (.pure trivial)

theorem gives_simpleOperator :
    simpleOperator.Gives text fun operator => Unbraced operator.spelling.toList := by
  have hvocabulary : ∀ operator ∈ Operator.vocabulary.map Prod.snd,
      Unbraced operator.spelling.toList := by
    decide +kernel
  exact (gives_word Operator.vocabulary).mono hvocabulary

theorem keeps_discriminator : discriminator.Keeps text := by
  unfold discriminator
  refine (keeps_expect _).andThen ?_
  refine (keeps_eat _).whether ?_ ?_
  · refine keeps_number.bind ?_
    intro number _
    simp only
    split
    · exact gives_fail_bind
    · exact (keeps_expect _).andThen (.pure trivial)
  · refine keeps_anyChar.bind ?_
    intro c _
    cases digit? 10 c with
    | none => exact gives_fail
    | some digit => exact .pure trivial

section

variable (hg : g.Keeps text)

include hg

theorem gives_localName : (localName g).Gives text LocalName.Braceless := by
  unfold localName
  refine (keeps_expect _).andThen ?_
  refine hg.encoding.bind ?_
  intro enclosing henclosing
  refine (keeps_expect _).andThen ?_
  refine (keeps_eat _).whether ?_ ?_
  · exact hg.discriminator.optional.andThen (.pure (.stringLiteral henclosing))
  refine (keeps_eat _).whether ?_ ?_
  · refine hg.number.optional.andThen ?_
    refine (keeps_expect _).andThen ?_
    exact hg.name.bind fun name hname => .pure (.defaultArgument henclosing hname)
  refine hg.name.bind ?_
  intro name hname
  exact hg.discriminator.optional.andThen (.pure (.entity henclosing hname))

theorem keeps_substitution : (substitution g).Keeps text := by
  unfold substitution
  refine hg.standardEntity.alternative (fun entity _ => .pure trivial) ?_
  refine (keeps_expect _).andThen ?_
  refine hg.sequenceNumber.optional.bind ?_
  intro number? _
  refine gives_table.bind ?_
  intro table _
  split
  · exact gives_fail
  · exact (keeps_expect _).andThen (.pure trivial)

/-! ### Types -/

theorem gives_builtinType : (builtinType g).Gives text BuiltinType.Braceless := by
  unfold builtinType
  refine hg.fundamentalType.alternative (fun type htype => .pure (.fundamental htype)) ?_
  refine (keeps_eat _).whether ?_ ?_
  · exact hg.sourceName.bind fun name hname => .pure (.vendor hname)
  · exact hg.parametricType.bind fun type _ => .pure .parametric

theorem keeps_parametricType : (parametricType g).Keeps text := by
  unfold parametricType
  refine (keeps_expect _).andThen ?_
  refine (keeps_eat _).whether ?_ ?_
  · refine keeps_number.bind ?_
    intro bits _
    exact (keeps_eat _).whether (.pure trivial) ((keeps_expect _).andThen (.pure trivial))
  have hwidth : ∀ signed : Bool, (do
      if (← peek).any Char.isDigit then
        let bits ← Parser.number
        expect "_"
        return .bitInt signed bits
      return .bitIntOf signed (← enterWidth (← g.expression)) :
        Parser ParametricType).Keeps text := by
    intro signed
    refine keeps_peek.bind ?_
    intro c _
    split
    · exact keeps_number.bind fun bits _ => (keeps_expect _).andThen (.pure trivial)
    · refine hg.expression.bind ?_
      intro width hwidth
      exact (keeps_enterWidth hwidth).bind fun index _ => .pure trivial
  refine (keeps_eat _).whether (hwidth true) ?_
  exact (keeps_expect _).andThen (hwidth false)

theorem gives_exceptionSpec : (exceptionSpec g).Gives text ExceptionSpec.Braceless := by
  unfold exceptionSpec
  refine (keeps_eat _).whether (.pure .noexcept) ?_
  refine (keeps_expect _).andThen ?_
  refine hg.expression.bind ?_
  intro condition hcondition
  exact (keeps_expect _).andThen (.pure (.computed hcondition))

theorem gives_bareFunctionType :
    (bareFunctionType g).Gives text fun types => ∀ type ∈ types, type.Braceless :=
  gives_many1 hg.type

theorem gives_functionType : (functionType g).Gives text FunctionType.Braceless := by
  unfold functionType
  refine hg.qualifiers.bind ?_
  intro qualifiers _
  refine hg.exceptionSpec.optional.bind ?_
  intro exceptions hexceptions
  refine (keeps_eat _).andThen ?_
  refine (keeps_expect _).andThen ?_
  refine (keeps_eat _).andThen ?_
  refine hg.bareFunctionType.bind ?_
  intro types htypes
  refine hg.refQualifier.optional.bind ?_
  intro ref _
  exact (keeps_expect _).andThen (.pure ⟨hexceptions, htypes⟩)

theorem keeps_typeQualifiers : (typeQualifiers g).Keeps text := by
  unfold typeQualifiers
  refine hg.qualifiers.bind ?_
  intro qualifiers _
  refine gives_rest.bind ?_
  intro rest _
  simp only
  split
  · exact gives_fail_bind
  · exact .pure trivial

theorem gives_classEnum : (classEnum g).Gives text CompoundType.Braceless := by
  unfold classEnum
  have hkeyed : ∀ key : ClassKey,
      (do return .classEnum (some key) (← g.name) : Parser CompoundType).Gives text
        CompoundType.Braceless :=
    fun key => hg.name.bind fun name hname => .pure (.classEnum hname)
  refine hg.name.alternative (fun name hname => .pure (.classEnum hname)) ?_
  refine (keeps_expect _).andThen ?_
  refine (keeps_eat _).whether (hkeyed .struct) ?_
  refine (keeps_eat _).whether (hkeyed .union) ?_
  exact (keeps_expect _).andThen (hkeyed .enum)

theorem gives_arrayType : (arrayType g).Gives text CompoundType.Braceless := by
  unfold arrayType
  have hofSize : ∀ {size : Dimension}, size.Braceless →
      (do expect "_"; return .array size (← g.type) : Parser CompoundType).Gives text
        CompoundType.Braceless :=
    fun hsize =>
      (keeps_expect _).andThen (hg.type.bind fun type htype => .pure (.array hsize htype))
  refine (keeps_expect _).andThen ?_
  refine keeps_number.alternative (fun size _ => hofSize .number) ?_
  exact hg.expression.alternative (fun size hsize => hofSize (.computed hsize)) (hofSize .unknown)

theorem gives_vectorType : (vectorType g).Gives text CompoundType.Braceless := by
  unfold vectorType
  have hofSize : ∀ {size : Dimension}, size.Braceless →
      (do expect "_"; return .vector size (← g.type) : Parser CompoundType).Gives text
        CompoundType.Braceless :=
    fun hsize =>
      (keeps_expect _).andThen (hg.type.bind fun type htype => .pure (.vector hsize htype))
  refine (keeps_expect _).andThen ?_
  refine keeps_number.alternative (fun size _ => hofSize .number) ?_
  exact hg.expression.bind fun size hsize => hofSize (.computed hsize)

theorem gives_memberPointer : (memberPointer g).Gives text CompoundType.Braceless := by
  unfold memberPointer
  refine (keeps_expect _).andThen ?_
  refine hg.type.bind ?_
  intro owner howner
  exact hg.type.bind fun member hmember => .pure (.memberPointer howner hmember)

theorem gives_decltype : (decltype g).Gives text Expression.Braceless := by
  unfold decltype
  have hinner : (do
      let expression ← g.expression
      expect "E"
      return expression : Parser Expression).Gives text Expression.Braceless :=
    hg.expression.bind fun expression hexpression =>
      (keeps_expect _).andThen (.pure hexpression)
  refine (keeps_expect _).andThen ?_
  exact (keeps_eat _).whether hinner ((keeps_expect _).andThen hinner)

theorem keeps_templateTemplate : (templateTemplate g).Keeps text := by
  unfold templateTemplate
  refine hg.substitution.alternative (fun entity _ => .pure trivial) ?_
  exact hg.templateParam.bind fun index _ => keeps_enterNumbered .templateParameter

theorem keeps_templateArgs : (templateArgs g).Keeps text := by
  unfold templateArgs
  refine (keeps_expect _).andThen ?_
  refine (gives_many1 hg.templateArg).bind ?_
  intro args hargs
  exact (keeps_expect _).andThen (keeps_enterArgs hargs)

theorem gives_templateArg : (templateArg g).Gives text TemplateArg.Braceless := by
  unfold templateArg
  have hpack : (do
      let args ← many g.templateArg
      expect "E"
      return .pack args : Parser TemplateArg).Gives text TemplateArg.Braceless :=
    (gives_many hg.templateArg).bind fun args hargs =>
      (keeps_expect _).andThen (.pure (.pack hargs))
  refine (keeps_eat _).whether ?_ ?_
  · refine hg.expression.bind ?_
    intro expression hexpression
    exact (keeps_expect _).andThen (.pure (.expression hexpression))
  refine hg.primary.alternative (fun expression hexpression => .pure (.primary hexpression)) ?_
  refine hg.type.alternative (fun type htype => .pure (.type htype)) ?_
  exact (keeps_eat _).whether hpack ((keeps_expect _).andThen hpack)

omit hg in
theorem keeps_parameterStandsAlone : (parameterStandsAlone g).Keeps text := by
  unfold parameterStandsAlone
  refine keeps_peek.bind ?_
  intro c _
  split
  · exact .pure trivial
  · refine keeps_get.bind ?_
    intro reading _
    split
    · refine (keeps_ahead _).bind ?_
      intro following? _
      cases following? with
      | none => exact .pure trivial
      | some following => exact .pure trivial
    · exact .pure trivial

theorem keeps_typeParameter : (typeParameter g).Keeps text := by
  unfold typeParameter
  refine hg.templateParam.bind ?_
  intro index _
  exact keeps_parameterStandsAlone.whether (.pure trivial) gives_fail_bind

theorem keeps_typeSubstitution : (typeSubstitution g).Keeps text := by
  unfold typeSubstitution
  refine hg.substitution.bind ?_
  intro entity _
  refine keeps_peek.bind ?_
  intro c _
  simp only
  split
  · exact gives_fail_bind
  · exact .pure trivial

theorem gives_modifiedType : (modifiedType g).Gives text CompoundType.Braceless := by
  unfold modifiedType
  refine (keeps_eat _).whether (hg.type.bind fun type htype => .pure (.pointer htype)) ?_
  refine (keeps_eat _).whether (hg.type.bind fun type htype => .pure (.reference htype)) ?_
  refine (keeps_eat _).whether (hg.type.bind fun type htype => .pure (.reference htype)) ?_
  refine (keeps_eat _).whether (hg.type.bind fun type htype => .pure (.complex htype)) ?_
  refine (keeps_eat _).whether (hg.type.bind fun type htype => .pure (.imaginary htype)) ?_
  refine (keeps_expect _).andThen ?_
  exact hg.type.bind fun type htype => .pure (.packExpansion htype)

theorem gives_type : (type g).Gives text TypeRef.Braceless := by
  unfold type
  refine hg.builtinType.alternative (fun type htype => .pure (.builtin htype)) ?_
  refine (keeps_eat _).whether ?_ ?_
  · refine hg.sourceName.bind ?_
    intro name hname
    refine hg.templateArgs.optional.bind ?_
    intro args _
    exact hg.type.bind fun type htype => gives_enterType (.vendor hname htype)
  refine (keeps_typeQualifiers hg).alternative ?_ ?_
  · exact fun qualifiers _ => hg.type.bind fun type htype => gives_enterType (.qualified htype)
  refine hg.classEnum.alternative (fun type htype => gives_enterType htype) ?_
  refine (keeps_typeSubstitution hg).alternative ?_ ?_
  · exact fun entity _ => .pure (TypeRef.braceless_ofEntity entity)
  refine hg.functionType.alternative (fun type htype => gives_enterType (.function htype)) ?_
  refine hg.arrayType.alternative (fun type htype => gives_enterType htype) ?_
  refine hg.vectorType.alternative (fun type htype => gives_enterType htype) ?_
  refine hg.memberPointer.alternative (fun type htype => gives_enterType htype) ?_
  refine (keeps_typeParameter hg).alternative (fun index _ => gives_enterType .parameter) ?_
  refine hg.templateTemplate.alternative ?_ ?_
  · exact fun template _ => hg.templateArgs.bind fun args _ => gives_enterType .templateTemplate
  refine hg.decltype.alternative ?_ ?_
  · exact fun expression hexpression => gives_enterType (.decltype hexpression)
  exact (gives_modifiedType hg).bind fun type htype => gives_enterType htype

end

theorem gives_fundamentalType :
    fundamentalType.Gives text fun type => Unbraced type.spelling.toList := by
  have hvocabulary : ∀ type ∈ FundamentalType.vocabulary.map Prod.snd,
      Unbraced type.spelling.toList := by
    decide +kernel
  exact (gives_word FundamentalType.vocabulary).mono hvocabulary

theorem keeps_qualifiers : qualifiers.Keeps text := by
  unfold qualifiers
  refine (keeps_eat _).bind ?_
  intro restrict _
  refine (keeps_eat _).bind ?_
  intro volatile _
  exact (keeps_eat _).bind fun const _ => .pure trivial

theorem keeps_refQualifier : refQualifier.Keeps text :=
  (keeps_eat _).whether (.pure trivial) ((keeps_expect _).andThen (.pure trivial))

theorem keeps_templateParam : templateParam.Keeps text := by
  unfold templateParam
  refine (keeps_expect _).andThen ?_
  refine keeps_number.optional.bind ?_
  intro number? _
  exact (keeps_expect _).andThen (.pure trivial)

/-! ### Expressions -/

theorem gives_primary (htext : Unbraced text) (hg : g.Keeps text) :
    (primary g).Gives text Primary.Braceless := by
  unfold primary
  refine (keeps_expect _).andThen ?_
  refine hg.type.alternative ?_ ?_
  · intro type htype
    refine gives_rest.bind ?_
    intro rest hrest
    refine (keeps_skip hrest _).andThen ?_
    refine (keeps_expect _).andThen (.pure (.literal htype ?_))
    exact htext.of_subset (List.Subset.trans (List.takeWhile_subset _) hrest)
  · refine hg.mangledName.bind ?_
    intro name hname
    exact (keeps_expect _).andThen (.pure (.external hname))

section

variable (hg : g.Keeps text)

include hg

theorem gives_expressionsToEnd :
    (expressionsToEnd g).Gives text fun items => ∀ item ∈ items, item.Braceless := by
  unfold expressionsToEnd
  refine (gives_many hg.expression).bind ?_
  intro expressions hexpressions
  exact (keeps_expect _).andThen (.pure hexpressions)

theorem gives_initializer :
    (initializer g).Gives text fun items => ∀ item ∈ items, item.Braceless :=
  (keeps_expect _).andThen (gives_expressionsToEnd hg)

theorem keeps_functionParam : (functionParam g).Keeps text := by
  unfold functionParam
  refine (keeps_expect _).andThen ?_
  refine (keeps_eat _).detour keeps_number ?_
  refine (keeps_expect _).andThen ?_
  refine hg.qualifiers.andThen ?_
  refine (keeps_eat _).whether (.pure trivial) ?_
  refine keeps_number.optional.bind ?_
  intro number? _
  exact (keeps_expect _).andThen (.pure trivial)

theorem gives_memberName : (memberName g).Gives text Name.Braceless := by
  unfold memberName
  refine hg.unqualifiedName.bind ?_
  intro name hname
  refine hg.templateArgs.alternative ?_ (.pure (.unscoped ⟨hname⟩))
  intro args _
  exact (keeps_enter (.template ⟨hname⟩)).bind fun template _ => .pure .instantiation

theorem gives_subobject : (subobject g).Gives text Expression.Braceless := by
  unfold subobject
  refine hg.type.bind ?_
  intro type htype
  refine hg.expression.bind ?_
  intro object hobject
  refine keeps_signedNumber.optional.bind ?_
  intro offset _
  exact (keeps_expect _).andThen (.pure (.subobject htype hobject))

theorem gives_simpleId : (simpleId g).Gives text SimpleId.Braceless :=
  hg.sourceName.bind fun _ hname => hg.templateArgs.optional.bind fun _ _ => .pure ⟨hname⟩

theorem keeps_unresolvedType : (unresolvedType g).Keeps text := by
  unfold unresolvedType
  refine hg.templateParam.alternative ?_ ?_
  · intro index _
    exact hg.templateArgs.optional.bind fun args _ =>
      keeps_enterNumbered (.unresolvedType .parameter)
  refine hg.decltype.alternative ?_ hg.substitution
  exact fun expression hexpression => keeps_enterNumbered (.unresolvedType (.decltype hexpression))

theorem gives_destructorName : (destructorName g).Gives text DestructorName.Braceless := by
  unfold destructorName
  refine hg.unresolvedType.alternative (fun type _ => .pure .type) ?_
  exact hg.simpleId.bind fun id hid => .pure (.simple hid)

theorem gives_unresolvedBase : (unresolvedBase g).Gives text UnresolvedBase.Braceless := by
  unfold unresolvedBase
  refine hg.simpleId.alternative (fun id hid => .pure (.simple hid)) ?_
  refine (keeps_eat _).whether ?_ ?_
  · refine (hg.operatorName false).bind ?_
    intro operator hoperator
    exact hg.templateArgs.optional.bind fun args _ => .pure (.operator hoperator)
  · refine (keeps_expect _).andThen ?_
    exact hg.destructorName.bind fun name hname => .pure (.destructor hname)

theorem gives_levels (isGlobal : Bool) (type : Option EntityRef) :
    (levels g isGlobal type).Gives text UnresolvedName.Braceless := by
  unfold levels
  refine (gives_many1 hg.qualifierLevel).bind ?_
  intro levels hlevels
  refine (keeps_expect _).andThen ?_
  exact hg.unresolvedBase.bind fun base hbase => .pure ⟨hlevels, hbase⟩

theorem gives_unresolvedName : (unresolvedName g).Gives text UnresolvedName.Braceless := by
  unfold unresolvedName
  refine (keeps_eat _).bind ?_
  intro isGlobal _
  refine hg.unresolvedBase.alternative ?_ ?_
  · exact fun base hbase => .pure ⟨List.forall_mem_nil _, hbase⟩
  refine (keeps_expect _).andThen ?_
  split
  · exact gives_levels hg true none
  · refine (keeps_eat _).whether ?_ ?_
    · exact hg.unresolvedType.bind fun type _ => gives_levels hg false (some type)
    · refine hg.unresolvedType.alternative ?_ (gives_levels hg false none)
      intro type _
      exact hg.unresolvedBase.bind fun base hbase => .pure ⟨List.forall_mem_nil _, hbase⟩

theorem gives_allocation (isGlobal isArray : Bool) :
    (allocation g isGlobal isArray).Gives text Expression.Braceless := by
  unfold allocation
  refine (gives_many hg.expression).bind ?_
  intro placement hplacement
  refine (keeps_expect _).andThen ?_
  refine hg.type.bind ?_
  intro type htype
  refine (keeps_eat _).whether (.pure (.new hplacement htype ?_)) ?_
  · rintro _ ⟨⟩
  · refine hg.initializer.bind ?_
    intro items hitems
    refine .pure (.new hplacement htype ?_)
    rintro _ ⟨⟩
    exact hitems

theorem gives_allocationOrRelease (isGlobal : Bool) :
    (allocationOrRelease g isGlobal).Gives text Expression.Braceless := by
  unfold allocationOrRelease
  refine (keeps_eat _).whether (gives_allocation hg isGlobal false) ?_
  refine (keeps_eat _).whether (gives_allocation hg isGlobal true) ?_
  refine (keeps_eat _).whether ?_ ?_
  · exact hg.expression.bind fun operand hoperand => .pure (.delete hoperand)
  · refine (keeps_expect _).andThen ?_
    exact hg.expression.bind fun operand hoperand => .pure (.delete hoperand)

theorem gives_conversion : (conversion g).Gives text Expression.Braceless := by
  unfold conversion
  refine hg.type.bind ?_
  intro type htype
  refine (keeps_eat _).whether ?_ ?_
  · exact (gives_expressionsToEnd hg).bind fun operands hoperands =>
      .pure (.convertMany htype hoperands)
  · exact hg.expression.bind fun operand hoperand => .pure (.convert htype hoperand)

theorem gives_castTo {keyword : String} (hkeyword : Unbraced keyword.toList) :
    (castTo g keyword).Gives text Expression.Braceless := by
  unfold castTo
  refine hg.type.bind ?_
  intro type htype
  exact hg.expression.bind fun operand hoperand => .pure (.cast hkeyword htype hoperand)

theorem gives_sizeofPack : (sizeofPack g).Gives text Expression.Braceless := by
  unfold sizeofPack
  refine hg.templateParam.alternative (fun index _ => .pure .sizeofTemplatePack) ?_
  exact hg.functionParam.bind fun param _ => .pure .sizeofFunctionPack

theorem gives_keyword {code : List Char} {parser : Parser Expression}
    (hkeyword : keyword g code = some parser) : parser.Gives text Expression.Braceless := by
  have htypeQuery : ∀ {keyword : String}, Unbraced keyword.toList →
      (do return .typeQuery keyword (← g.type) : Parser Expression).Gives text
        Expression.Braceless :=
    fun hkeyword => hg.type.bind fun type htype => .pure (.typeQuery hkeyword htype)
  have hvalueQuery : ∀ {keyword : String}, Unbraced keyword.toList →
      (do return .valueQuery keyword (← g.expression) : Parser Expression).Gives text
        Expression.Braceless :=
    fun hkeyword => hg.expression.bind fun operand hoperand => .pure (.valueQuery hkeyword hoperand)
  unfold keyword at hkeyword
  split at hkeyword
  all_goals cases hkeyword
  any_goals exact gives_castTo hg (by decide)
  any_goals exact htypeQuery (by decide)
  any_goals exact hvalueQuery (by decide)
  · refine hg.expression.bind ?_
    intro function hfunction
    exact (gives_expressionsToEnd hg).bind fun args hargs => .pure (.call hfunction hargs)
  · exact gives_conversion hg
  · refine hg.type.bind ?_
    intro type htype
    exact (gives_expressionsToEnd hg).bind fun elements helements => .pure (.braced htype helements)
  · refine hg.expression.bind ?_
    intro element helement
    exact (keeps_expect _).andThen (.pure (.bracedList helement))
  · exact hg.expression.bind fun operand hoperand => .pure (.packExpansion hoperand)
  · exact hg.expression.bind fun operand hoperand => .pure (.throw hoperand)
  · exact .pure .rethrow
  · exact hg.subobject
  · refine hg.expression.bind ?_
    intro object hobject
    exact hg.memberName.bind fun member hmember => .pure (.dot hobject hmember)
  · refine hg.expression.bind ?_
    intro object hobject
    exact hg.memberName.bind fun member hmember => .pure (.arrow hobject hmember)
  · refine hg.expression.bind ?_
    intro object hobject
    exact hg.expression.bind fun member hmember => .pure (.dotStar hobject hmember)
  · exact gives_sizeofPack hg
  · refine (gives_many hg.templateArg).bind ?_
    intro args hargs
    exact (keeps_expect _).andThen (.pure (.sizeofArgs hargs))

theorem gives_operation : (operation g).Gives text Expression.Braceless := by
  unfold operation
  refine (hg.operatorName true).bind ?_
  intro operator hoperator
  split
  · exact hg.expression.bind fun operand hoperand => .pure (.unary hoperator hoperand)
  · refine hg.expression.bind ?_
    intro left hleft
    exact hg.expression.bind fun right hright => .pure (.binary hoperator hleft hright)
  · refine hg.expression.bind ?_
    intro first hfirst
    refine hg.expression.bind ?_
    intro second hsecond
    exact hg.expression.bind fun third hthird => .pure (.ternary hoperator hfirst hsecond hthird)
  · exact gives_fail

theorem gives_openExpression : (openExpression g).Gives text Expression.Braceless := by
  unfold openExpression
  have hglobal := (keeps_expect "gs").andThen (gives_allocationOrRelease hg true)
  refine hglobal.alternative (fun expression hexpression => .pure hexpression) ?_
  refine (gives_allocationOrRelease hg false).alternative
    (fun expression hexpression => .pure hexpression) ?_
  refine hg.templateParam.alternative (fun index _ => .pure .templateParam) ?_
  refine hg.functionParam.alternative (fun param _ => .pure .functionParam) ?_
  refine hg.unresolvedName.alternative (fun name hname => .pure (.unresolved hname)) ?_
  refine hg.primary.alternative (fun expression hexpression => .pure (.primary hexpression)) ?_
  exact gives_operation hg

theorem gives_expression : (expression g).Gives text Expression.Braceless := by
  unfold expression
  have hstep : ∀ {sign : String}, Unbraced sign.toList →
      (do return .stepBefore sign (← g.expression) : Parser Expression).Gives text
        Expression.Braceless :=
    fun hsign => hg.expression.bind fun operand hoperand => .pure (.stepBefore hsign hoperand)
  refine (keeps_eat _).whether (hstep (by decide)) ?_
  refine (keeps_eat _).whether (hstep (by decide)) ?_
  refine gives_rest.bind ?_
  intro rest hrest
  split
  next parser hkeyword => exact (keeps_skip hrest 2).andThen (gives_keyword hg hkeyword)
  next => exact gives_openExpression hg

end

end Production

namespace Grammar

open Production

theorem Keeps.above {text : List Char} (htext : Unbraced text) {g : Grammar} (hg : g.Keeps text) :
    (above g).Keeps text where
  mangledName := gives_mangledName hg
  cloneSuffix := gives_cloneSuffix hg
  cloneIdentifier := gives_cloneIdentifier htext
  globals := gives_globals hg
  encoding := gives_encoding hg
  specialName := gives_specialName hg
  callOffset := keeps_callOffset hg
  fixedOffset := keeps_fixedOffset hg
  virtualOffset := keeps_virtualOffset hg
  resourceName := gives_resourceName htext
  name := gives_name hg
  unscopedName := gives_unscopedName hg
  unscopedTemplate := keeps_unscopedTemplate hg
  nestedName := gives_nestedName hg
  explicitObject := Parser.keeps_expect "H"
  scope := keeps_scope hg
  unqualifiedName := gives_unqualifiedName hg
  sourceName := gives_sourceName hg
  identifier := gives_identifier htext
  tags := gives_tags hg
  tag := gives_tag hg
  operatorName := gives_operatorName hg
  simpleOperator := gives_simpleOperator
  specialMember := keeps_specialMember hg
  closureType := gives_closureType hg
  closureSignature := gives_closureSignature hg
  unnamedType := keeps_unnamedType
  localName := gives_localName hg
  discriminator := keeps_discriminator
  substitution := keeps_substitution hg
  standardEntity := (Parser.gives_word _).keeps
  sequenceNumber := Parser.keeps_numeral 36
  number := Parser.keeps_signedNumber
  type := gives_type hg
  builtinType := gives_builtinType hg
  fundamentalType := gives_fundamentalType
  parametricType := keeps_parametricType hg
  qualifiers := keeps_qualifiers
  refQualifier := keeps_refQualifier
  functionType := gives_functionType hg
  exceptionSpec := gives_exceptionSpec hg
  bareFunctionType := gives_bareFunctionType hg
  classEnum := gives_classEnum hg
  arrayType := gives_arrayType hg
  vectorType := gives_vectorType hg
  memberPointer := gives_memberPointer hg
  decltype := gives_decltype hg
  templateParam := keeps_templateParam
  templateTemplate := keeps_templateTemplate hg
  templateArgs := keeps_templateArgs hg
  templateArg := gives_templateArg hg
  expression := gives_expression hg
  subobject := gives_subobject hg
  primary := gives_primary htext hg
  initializer := gives_initializer hg
  functionParam := keeps_functionParam hg
  memberName := gives_memberName hg
  unresolvedName := gives_unresolvedName hg
  qualifierLevel := hg.simpleId
  unresolvedType := keeps_unresolvedType hg
  unresolvedBase := gives_unresolvedBase hg
  destructorName := gives_destructorName hg
  simpleId := gives_simpleId hg

theorem keeps_ofDepth {text : List Char} (htext : Unbraced text) (depth : Nat) :
    (ofDepth depth).Keeps text := by
  induction depth with
  | zero => exact keeps_exhausted text
  | succ depth ih => exact ih.above htext

end Grammar

end MangledNames.Symbol

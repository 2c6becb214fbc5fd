import MangledNames.Proofs.Symbol.Braceless
import MangledNames.Symbol.Parser

/-!
# What parsers keep

Whatever a parser does, what is left to be read comes from the text, and the table stays without
opening braces, also if the parser fails: an alternative goes on with the table that it is left. So
this is stated of both outcomes (`Gives`), with what is known of the value in addition. There is one
rule for each way in which parsers are put together.
-/

namespace MangledNames.Symbol

structure Reading.From (text : List Char) (reading : Reading) : Prop where
  rest : reading.rest ⊆ text
  table : reading.table.Braceless

namespace Parser

variable {α β : Type} {text : List Char}

def Gives (text : List Char) (parser : Parser α) (holds : α → Prop) : Prop :=
  ∀ reading, reading.From text →
    match parser.run reading with
    | .ok value after => after.From text ∧ holds value
    | .error _ after => after.From text

/-- Nothing is known of the value. -/
abbrev Keeps (text : List Char) (parser : Parser α) : Prop := parser.Gives text fun _ => True

theorem Gives.pure {holds : α → Prop} {value : α} (hvalue : holds value) :
    (pure value : Parser α).Gives text holds :=
  fun _ hreading => ⟨hreading, hvalue⟩

theorem gives_fail {holds : α → Prop} : (fail : Parser α).Gives text holds :=
  fun _ hreading => hreading

theorem gives_nestedTooDeep {holds : α → Prop} : (nestedTooDeep : Parser α).Gives text holds :=
  fun _ hreading => hreading

namespace Gives

variable {parser : Parser α} {next : α → Parser β} {holds known : α → Prop} {held : β → Prop}

theorem mono (hparser : parser.Gives text known) (himp : ∀ value, known value → holds value) :
    parser.Gives text holds := by
  intro reading hreading
  have hrun := hparser reading hreading
  revert hrun
  cases parser.run reading with
  | ok value after => exact fun ⟨hafter, hvalue⟩ => ⟨hafter, himp value hvalue⟩
  | error refusal after => exact id

theorem keeps (hparser : parser.Gives text known) : parser.Keeps text :=
  hparser.mono fun _ _ => trivial

theorem bind (hparser : parser.Gives text known)
    (hnext : ∀ value, known value → (next value).Gives text held) :
    (parser >>= next).Gives text held := by
  intro reading hreading
  have hrun := hparser reading hreading
  change match EStateM.bind parser next reading with
    | .ok value after => after.From text ∧ held value
    | .error _ after => after.From text
  rw [run] at hrun
  unfold EStateM.bind
  cases hfirst : parser reading with
  | ok value after =>
      rw [hfirst] at hrun
      exact hnext value hrun.2 after hrun.1
  | error refusal after =>
      rw [hfirst] at hrun
      exact hrun

theorem andThen {next : Parser β} (hparser : parser.Gives text known)
    (hnext : next.Gives text held) : (parser >>= fun _ => next).Gives text held :=
  hparser.bind fun _ _ => hnext

theorem map {f : α → β} (hparser : parser.Gives text known)
    (hvalue : ∀ value, known value → held (f value)) : (f <$> parser).Gives text held :=
  hparser.bind fun value hknown => .pure (hvalue value hknown)

theorem keeps_map {f : α → β} (hparser : parser.Gives text known) : (f <$> parser).Keeps text :=
  hparser.map fun _ _ => trivial

theorem orElse {second : Unit → Parser α} (hparser : parser.Gives text holds)
    (hsecond : (second ()).Gives text holds) : (parser.orElse second).Gives text holds := by
  intro reading hreading
  have hrun := hparser reading hreading
  rw [run] at hrun ⊢
  rw [Parser.orElse]
  cases hfirst : parser reading with
  | ok value after =>
      rw [hfirst] at hrun
      exact hrun
  | error refusal after =>
      rw [hfirst] at hrun
      cases refusal with
      | mismatch => exact hsecond _ ⟨hreading.rest, hrun.table⟩
      | nestedTooDeep => exact hrun

theorem optional (hparser : parser.Gives text holds) :
    (Parser.optional parser).Gives text fun value? => ∀ value ∈ value?, holds value := by
  have hsome : (some <$> parser).Gives text fun value? => ∀ value ∈ value?, holds value := by
    refine hparser.map ?_
    rintro value hvalue _ ⟨⟩
    exact hvalue
  change (Parser.orElse (some <$> parser) fun _ => Pure.pure none).Gives text _
  refine hsome.orElse (pure ?_)
  rintro _ ⟨⟩

/-- An alternative that is taken if it can be read. -/
theorem alternative {next : Option α → Parser β} (hparser : parser.Gives text holds)
    (hsome : ∀ value, holds value → (next (some value)).Gives text held)
    (hnone : (next none).Gives text held) : (Parser.optional parser >>= next).Gives text held := by
  refine hparser.optional.bind ?_
  intro value? hvalue?
  cases value? with
  | none => exact hnone
  | some value => exact hsome value (hvalue? value rfl)

/-- What follows may depend on an answer. -/
theorem whether {question : Parser Bool} {next : Bool → Parser β} (hquestion : question.Keeps text)
    (htrue : (next true).Gives text held) (hfalse : (next false).Gives text held) :
    (question >>= next).Gives text held := by
  refine hquestion.bind ?_
  rintro (_ | _) -
  · exact hfalse
  · exact htrue

/-- An answer may decide only on whether something else is read in between. -/
theorem detour {question : Parser Bool} {between : Parser α} {next : Parser β}
    (hquestion : question.Keeps text) (hbetween : between.Gives text known)
    (hnext : next.Gives text held) :
    (question >>= fun answer =>
      if answer then between >>= fun _ => next else next).Gives text held :=
  hquestion.whether (hbetween.andThen hnext) hnext

theorem or {first second : Parser Bool} (hfirst : first.Keeps text) (hsecond : second.Keeps text) :
    (first <||> second).Keeps text :=
  hfirst.whether (pure trivial) hsecond

end Gives

theorem gives_fail_bind {next : α → Parser β} {held : β → Prop} :
    (fail >>= next).Gives text held :=
  have hfail : fail.Gives text fun _ => False := gives_fail
  hfail.bind fun _ => False.elim

theorem keeps_get : (get : Parser Reading).Keeps text :=
  fun _ hreading => ⟨hreading, trivial⟩

theorem gives_rest : rest.Gives text (· ⊆ text) :=
  fun _ hreading => ⟨hreading, hreading.rest⟩

theorem keeps_peek : peek.Keeps text :=
  gives_rest.bind fun _ _ => .pure trivial

theorem keeps_advanceTo {rest : List Char} (hrest : rest ⊆ text) : (advanceTo rest).Keeps text :=
  fun _ hreading => ⟨⟨hrest, hreading.table⟩, trivial⟩

theorem keeps_skip {rest : List Char} (hrest : rest ⊆ text) (count : Nat) :
    (advanceTo (rest.drop count)).Keeps text :=
  keeps_advanceTo (List.Subset.trans (List.drop_subset count rest) hrest)

theorem keeps_eat (word : String) : (eat word).Keeps text := by
  refine gives_rest.bind ?_
  intro rest hrest
  split
  · exact (keeps_skip hrest _).andThen (.pure trivial)
  · exact .pure trivial

theorem keeps_expect (word : String) : (expect word).Keeps text :=
  (keeps_eat word).whether (.pure trivial) gives_fail

theorem keeps_anyChar : anyChar.Keeps text := by
  refine gives_rest.bind ?_
  intro rest hrest
  cases rest with
  | nil => exact gives_fail
  | cons c rest =>
      have hrest : rest ⊆ text := List.Subset.trans (List.subset_cons_self c rest) hrest
      exact (keeps_advanceTo hrest).andThen (.pure trivial)

theorem gives_word (words : Vocabulary α) :
    (word words).Gives text fun value => value ∈ words.map Prod.snd := by
  refine gives_rest.bind ?_
  intro rest hrest
  cases hword : words.wordOf? rest with
  | none => exact gives_fail
  | some found =>
      have hmem : found ∈ words := List.mem_of_find?_eq_some hword
      exact (keeps_skip hrest _).andThen (.pure (List.mem_map_of_mem hmem))

section

variable {parser : Parser α} {holds : α → Prop}

theorem gives_manyUpTo (hparser : parser.Gives text holds) (limit : Nat) :
    (manyUpTo parser limit).Gives text fun values => ∀ value ∈ values, holds value := by
  induction limit with
  | zero => exact .pure (List.forall_mem_nil _)
  | succ limit ih =>
      refine hparser.alternative ?_ (.pure (List.forall_mem_nil _))
      intro value hvalue
      exact ih.bind fun values hvalues => .pure (List.forall_mem_cons.mpr ⟨hvalue, hvalues⟩)

theorem gives_many (hparser : parser.Gives text holds) :
    (many parser).Gives text fun values => ∀ value ∈ values, holds value :=
  gives_rest.bind fun _ _ => gives_manyUpTo hparser _

theorem gives_many1 (hparser : parser.Gives text holds) :
    (many1 parser).Gives text fun values => ∀ value ∈ values, holds value := by
  refine hparser.bind ?_
  intro value hvalue
  exact (gives_many hparser).bind fun values hvalues =>
    .pure (List.forall_mem_cons.mpr ⟨hvalue, hvalues⟩)

end

theorem keeps_numeral (base : Nat) : (numeral base).Keeps text := by
  refine gives_rest.bind ?_
  intro rest hrest
  simp only
  split
  · exact gives_fail_bind
  · split
    · exact gives_fail_bind
    · exact (keeps_skip hrest _).andThen (.pure trivial)

theorem keeps_number : Parser.number.Keeps text := keeps_numeral 10

theorem keeps_signedNumber : signedNumber.Keeps text :=
  (keeps_eat "n").whether (keeps_number.bind fun _ _ => .pure trivial)
    (keeps_number.bind fun _ _ => .pure trivial)

theorem gives_table : table.Gives text (·.Braceless) :=
  fun _ hreading => ⟨hreading, hreading.table⟩

theorem keeps_modifyTable {change : Table → Table}
    (hchange : ∀ table, table.Braceless → (change table).Braceless) :
    (modifyTable change).Keeps text :=
  fun reading hreading => ⟨⟨hreading.rest, hchange reading.table hreading.table⟩, trivial⟩

theorem keeps_enter {entry : Entry} (hentry : entry.Braceless) : (enter entry).Keeps text :=
  gives_table.bind fun _ _ =>
    (keeps_modifyTable fun _ htable => htable.enter hentry).andThen (.pure trivial)

theorem keeps_enterNumbered {entry : Entry} (hentry : entry.Braceless) :
    (enterNumbered entry).Keeps text :=
  gives_table.bind fun _ _ =>
    (keeps_modifyTable fun _ htable => htable.enterNumbered hentry).andThen (.pure trivial)

theorem gives_enterType {type : CompoundType} (htype : type.Braceless) :
    (enterType type).Gives text TypeRef.Braceless :=
  (keeps_enterNumbered (.type htype)).map fun entity _ => TypeRef.braceless_ofEntity entity

theorem keeps_enterArgs {args : List TemplateArg} (hargs : ∀ arg ∈ args, arg.Braceless) :
    (enterArgs args).Keeps text :=
  gives_table.bind fun _ _ =>
    (keeps_modifyTable fun _ htable => htable.enterArgs hargs).andThen (.pure trivial)

theorem keeps_enterWidth {width : Expression} (hwidth : width.Braceless) :
    (enterWidth width).Keeps text :=
  gives_table.bind fun _ _ =>
    (keeps_modifyTable fun _ htable => htable.enterWidth hwidth).andThen (.pure trivial)

theorem gives_converting {parser : Parser α} {holds : α → Prop} (hparser : parser.Gives text holds)
    (inConversion : Bool) : (converting inConversion parser).Gives text holds := by
  intro reading hreading
  have hrun := hparser { reading with inConversion } ⟨hreading.rest, hreading.table⟩
  rw [run] at hrun ⊢
  rw [converting]
  revert hrun
  cases parser { reading with inConversion } with
  | ok value after => exact fun ⟨hafter, hvalue⟩ => ⟨⟨hafter.rest, hafter.table⟩, hvalue⟩
  | error refusal after => exact fun hafter => ⟨hafter.rest, hafter.table⟩

theorem keeps_ahead (parser : Parser α) : (ahead parser).Keeps text := by
  intro reading hreading
  rw [run, ahead]
  cases parser reading with
  | ok value after => exact ⟨hreading, trivial⟩
  | error refusal after =>
      cases refusal with
      | mismatch => exact ⟨hreading, trivial⟩
      | nestedTooDeep => exact hreading

theorem gives_within {part : List Char} (hpart : part ⊆ text) {parser : Parser α}
    {holds : α → Prop} (hparser : parser.Gives text holds) :
    (within part parser).Gives text holds := by
  refine gives_rest.bind ?_
  intro outside houtside
  refine (keeps_advanceTo hpart).andThen ?_
  refine hparser.bind ?_
  intro value hvalue
  refine gives_rest.bind ?_
  intro rest _
  simp only
  split
  · exact (keeps_advanceTo houtside).andThen (.pure hvalue)
  · exact gives_fail_bind

end Parser

end MangledNames.Symbol

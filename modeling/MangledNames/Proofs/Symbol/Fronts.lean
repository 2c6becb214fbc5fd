import MangledNames.Symbol.Parse
import Mathlib.Data.List.Infix

/-!
# What the front of a text decides

If it is known how a text begins, then a parser that expects something else there gives no value
(`Refuses`), and the alternative after it is what is read. For the others it is stated what is known
of the values they give (`Reads`). In particular no name begins with the letter `T`.
-/

namespace MangledNames.Symbol

namespace Parser

variable {α β : Type} {front : List Char}

/-- What is known of the values that the parser gives for texts with this front. -/
def Reads (front : List Char) (parser : Parser α) (known : α → Prop) : Prop :=
  ∀ reading value after, front <+: reading.rest → parser.run reading = .ok value after → known value

/-- Texts with this front give no value. -/
abbrev Refuses (front : List Char) (parser : Parser α) : Prop := parser.Reads front fun _ => False

/-- Neither begins with the other, so no text begins with both. -/
abbrev Apart (word front : List Char) : Prop := ¬ word <+: front ∧ ¬ front <+: word

theorem exists_of_bind {parser : Parser α} {next : α → Parser β} {reading after : Reading}
    {value : β} (hrun : (parser >>= next).run reading = .ok value after) :
    ∃ first between, parser.run reading = .ok first between ∧
      (next first).run between = .ok value after := by
  change EStateM.bind parser next reading = .ok value after at hrun
  unfold EStateM.bind at hrun
  split at hrun
  next first between hfirst => exact ⟨first, between, hfirst, hrun⟩
  next => cases hrun

theorem run_eat (word : String) (reading : Reading) :
    (eat word).run reading =
      if word.toList.isPrefixOf reading.rest then
        .ok true { reading with rest := reading.rest.drop word.toList.length }
      else .ok false reading := by
  change (if word.toList.isPrefixOf reading.rest then _ else _ : Parser Bool) reading = _
  split
  · rfl
  · rfl

theorem Apart.not_isPrefixOf {word text : List Char} (hapart : Apart word front)
    (hfront : front <+: text) : ¬ word.isPrefixOf text := by
  intro hword
  have hword := List.isPrefixOf_iff_prefix.mp hword
  exact (List.prefix_or_prefix_of_prefix hword hfront).elim hapart.1 hapart.2

theorem refuses_fail : (fail : Parser α).Refuses front :=
  fun _ _ _ _ hrun => by cases hrun

theorem refuses_nestedTooDeep : (nestedTooDeep : Parser α).Refuses front :=
  fun _ _ _ _ hrun => by cases hrun

namespace Reads

variable {parser : Parser α} {next : α → Parser β} {known : α → Prop} {held : β → Prop}

theorem pure {value : α} (hvalue : known value) : (pure value : Parser α).Reads front known := by
  intro reading value after _ hrun
  cases hrun
  exact hvalue

theorem any (parser : Parser α) : parser.Reads front fun _ => True :=
  fun _ _ _ _ _ => trivial

theorem of_prefix {longer : List Char} (hfront : front <+: longer)
    (hparser : parser.Reads front known) : parser.Reads longer known :=
  fun reading value after hlonger hrun =>
    hparser reading value after (hfront.trans hlonger) hrun

/-- How the text goes on after a parser is not known. -/
theorem bind (hparser : parser.Reads front known)
    (hnext : ∀ value, known value → (next value).Reads [] held) :
    (parser >>= next).Reads front held := by
  intro reading value after hfront hrun
  obtain ⟨first, between, hfirst, hrest⟩ := exists_of_bind hrun
  have hknown := hparser reading first between hfront hfirst
  exact hnext first hknown between value after (List.nil_prefix) hrest

end Reads

/-- A parser that gives no value leaves the whole text to its alternative. -/
theorem Refuses.run_optional {parser : Parser α} (hparser : parser.Refuses front)
    {reading : Reading} (hfront : front <+: reading.rest) {value? : Option α} {after : Reading}
    (hrun : (optional parser).run reading = .ok value? after) :
    value? = none ∧ after.rest = reading.rest := by
  have hsome : (some <$> parser).Refuses front := by
    intro reading value after hfront hrun
    obtain ⟨first, between, hfirst, -⟩ := exists_of_bind hrun
    exact hparser reading first between hfront hfirst
  change (Parser.orElse (some <$> parser) fun _ => pure none) reading = .ok value? after at hrun
  unfold Parser.orElse at hrun
  split at hrun
  next =>
      cases hrun
      exact ⟨rfl, rfl⟩
  next => exact (hsome reading value? after hfront hrun).elim

namespace Refuses

variable {parser : Parser α} {known : β → Prop}

theorem bind {next : α → Parser β} (hparser : parser.Refuses front) :
    (parser >>= next).Reads front known := by
  intro reading value after hfront hrun
  obtain ⟨first, between, hfirst, -⟩ := exists_of_bind hrun
  exact (hparser reading first between hfront hfirst).elim

theorem alternative {next : Option α → Parser β} (hparser : parser.Refuses front)
    (hnone : (next none).Reads front known) : (optional parser >>= next).Reads front known := by
  intro reading value after hfront hrun
  obtain ⟨first, between, hfirst, hnext⟩ := exists_of_bind hrun
  obtain ⟨rfl, hrest⟩ := hparser.run_optional hfront hfirst
  exact hnone between value after (hrest ▸ hfront) hnext

end Refuses

theorem reads_eat {word : String} {next : Bool → Parser β} {known : β → Prop}
    (hword : Apart word.toList front) (hfalse : (next false).Reads front known) :
    (eat word >>= next).Reads front known := by
  intro reading value after hfront hrun
  obtain ⟨first, between, hfirst, hnext⟩ := exists_of_bind hrun
  rw [run_eat, if_neg (hword.not_isPrefixOf hfront)] at hfirst
  cases hfirst
  exact hfalse reading value after hfront hnext

theorem refuses_expect {word : String} (hword : Apart word.toList front) :
    (expect word).Refuses front :=
  reads_eat hword refuses_fail

theorem refuses_word {words : Vocabulary α} (hwords : ∀ entry ∈ words, Apart entry.1 front) :
    (word words).Refuses front := by
  intro reading value after hfront hrun
  obtain ⟨rest, between, hrest, hnext⟩ := exists_of_bind hrun
  cases hrest
  have hnone : words.wordOf? reading.rest = none :=
    List.find?_eq_none.mpr fun entry hmem => (hwords entry hmem).not_isPrefixOf hfront
  rw [hnone] at hnext
  cases hnext

theorem refuses_numeral {base : Nat} {c : Char} (hdigit : digit? base c = none) :
    (numeral base).Refuses [c] := by
  intro reading value after hfront hrun
  obtain ⟨rest, between, hrest, hnext⟩ := exists_of_bind hrun
  cases hrest
  obtain ⟨tail, htail⟩ := hfront
  have hdigits : (reading.rest.takeWhile fun c => (digit? base c).isSome) = [] := by
    rw [← htail, List.singleton_append, List.takeWhile_cons_of_neg]
    simp [hdigit]
  rw [if_pos (.inl hdigits)] at hnext
  obtain ⟨_, _, hfail, -⟩ := exists_of_bind hnext
  cases hfail

theorem reads_rest {next : List Char → Parser β} {known : β → Prop}
    (hnext : ∀ tail, (next (front ++ tail)).Reads front known) :
    (rest >>= next).Reads front known := by
  intro reading value after hfront hrun
  obtain ⟨tail, htail⟩ := hfront
  obtain ⟨_, _, hrest, hnext'⟩ := exists_of_bind hrun
  cases hrest
  rw [← htail] at hnext'
  exact hnext tail reading value after ⟨tail, htail⟩ hnext'

end Parser

namespace Grammar

open Symbol.Parser

/-- Texts with this front give no name, nor anything that a name begins with. -/
structure NoName (front : List Char) (g : Grammar) : Prop where
  name : g.name.Refuses front
  unscopedName : g.unscopedName.Refuses front
  unscopedTemplate : g.unscopedTemplate.Refuses front
  nestedName : g.nestedName.Refuses front
  unqualifiedName : g.unqualifiedName.Refuses front
  sourceName : g.sourceName.Refuses front
  operatorName : ∀ applied, (g.operatorName applied).Refuses front
  simpleOperator : g.simpleOperator.Refuses front
  specialMember : g.specialMember.Refuses front
  closureType : g.closureType.Refuses front
  unnamedType : g.unnamedType.Refuses front
  localName : g.localName.Refuses front
  substitution : g.substitution.Refuses front
  standardEntity : g.standardEntity.Refuses front

theorem noName_exhausted (front : List Char) : exhausted.NoName front := by
  constructor <;> intros <;> exact refuses_nestedTooDeep

theorem NoName.above {g : Grammar} (hg : g.NoName ['T']) : (above g).NoName ['T'] where
  name := by
    refine hg.nestedName.alternative ?_
    refine hg.unscopedName.alternative ?_
    refine hg.unscopedTemplate.alternative ?_
    exact hg.localName.bind
  unscopedName := reads_eat (by decide) hg.unqualifiedName.bind
  unscopedTemplate := hg.unscopedName.alternative hg.substitution
  nestedName := (refuses_expect (by decide)).bind
  unqualifiedName := by
    refine Refuses.bind ?_
    refine (hg.operatorName false).alternative ?_
    refine hg.specialMember.alternative ?_
    refine reads_eat (by decide) ?_
    refine hg.sourceName.alternative ?_
    refine hg.closureType.alternative ?_
    exact hg.unnamedType.bind
  sourceName := (refuses_numeral (by decide)).bind
  operatorName applied := by
    refine hg.simpleOperator.alternative ?_
    refine reads_eat (by decide) ?_
    refine reads_eat (by decide) ?_
    exact (refuses_expect (by decide)).bind
  simpleOperator := refuses_word (by decide +kernel)
  specialMember := reads_eat (by decide) (refuses_expect (by decide)).bind
  closureType := (refuses_expect (by decide)).bind
  unnamedType := (refuses_expect (by decide)).bind
  localName := (refuses_expect (by decide)).bind
  substitution := hg.standardEntity.alternative (refuses_expect (by decide)).bind
  standardEntity := refuses_word (by decide +kernel)

/-- **No name begins with the letter `T`.** -/
theorem noName_ofDepth (depth : Nat) : (ofDepth depth).NoName ['T'] := by
  induction depth with
  | zero => exact noName_exhausted ['T']
  | succ depth ih => exact ih.above

end Grammar

end MangledNames.Symbol

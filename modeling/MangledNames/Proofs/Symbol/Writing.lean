import MangledNames.Proofs.Symbol.Braceless
import MangledNames.Proofs.Symbol.Groups
import Mathlib.Data.Nat.Digits.Lemmas

/-!
# What writers add

A writer only adds to the page. If nothing that it can meet has an opening brace of its own, not in
the table, not among the waiting parts, then what it adds is closed: it has no opening brace, or it
is put together from closed texts, or it stands between braces of the wording. So there is a rule
for each way in which writers are put together, and one for what ends with a brace, which is closed
whatever stands before.
-/

namespace MangledNames.Symbol

inductive Part.Braceless : Part → Prop where
  | symbol {name : Name} {types : List TypeRef} : (∀ type ∈ types, type.Braceless) →
      Braceless (.symbol name types)
  | type {index : Nat} {type : CompoundType} : type.Braceless → Braceless (.type index type)
  | parameters {index : Nat} {types : List TypeRef} : (∀ type ∈ types, type.Braceless) →
      Braceless (.parameters index types)

inductive Leaf.Braceless : Leaf → Prop where
  | standard {entity : StandardEntity} : Braceless (.standard entity)
  | source {name : String} : Unbraced name.toList → Braceless (.source name)
  | closure {type : ClosureType} : type.Braceless → Braceless (.closure type)
  | unnamed {number : Option Nat} : Braceless (.unnamed number)

inductive Binding.Braceless : Binding → Prop where
  | leaf {leaf : Leaf} : leaf.Braceless → Braceless (.leaf leaf)
  | args {args : ArgsRef} : Braceless (.args args)

structure Surroundings.Braceless (around : Surroundings) : Prop where
  table : around.table.Braceless
  frames : ∀ frame ∈ around.frames, frame.binding.Braceless

structure Page.Braceless (page : Page) : Prop where
  pending : ∀ part ∈ page.pending, part.Braceless
  sourceName : ∀ name, page.sourceName = some name → Unbraced name.toList

theorem Page.braceless_blank : blank.Braceless where
  pending := List.forall_mem_nil _
  sourceName _ hname := by cases hname

theorem UnqualifiedName.Braceless.leaf? {name : UnqualifiedName} (hname : name.Braceless)
    {leaf : Leaf} (hleaf : name.leaf? = some leaf) : leaf.Braceless := by
  have hbase := hname.base
  unfold UnqualifiedName.leaf? at hleaf
  split at hleaf
  all_goals
    rename_i heq
    rw [heq] at hbase
    cases hleaf
  · cases hbase with | source hname => exact .source hname
  · cases hbase with | internal hname => exact .source hname
  · cases hbase with | closure htype => exact .closure htype
  · exact .unnamed

/-- What is known of the leaves to which references lead. -/
abbrev BracelessLeaves (leafOf : EntityRef → Option Leaf) : Prop :=
  ∀ entity leaf, leafOf entity = some leaf → leaf.Braceless

section

variable {leafOf : EntityRef → Option Leaf} {leaf : Leaf}

theorem UnqualifiedName.Braceless.leafOr? {name : UnqualifiedName} (hname : name.Braceless)
    {other : Option Leaf} (hother : ∀ leaf, other = some leaf → leaf.Braceless)
    (hleaf : (name.leaf? <|> other) = some leaf) : leaf.Braceless := by
  cases hown : name.leaf? with
  | none =>
      rw [hown] at hleaf
      exact hother leaf hleaf
  | some own =>
      rw [hown] at hleaf
      cases hleaf
      exact hname.leaf? hown

theorem NestedName.Braceless.leafFrom? (hleafOf : BracelessLeaves leafOf) {name : NestedName}
    (hname : name.Braceless) (hleaf : name.leafFrom? leafOf = some leaf) : leaf.Braceless := by
  have hpath := hname.path
  unfold NestedName.leafFrom? at hleaf
  split at hleaf
  next outer last heq =>
      rw [heq] at hpath
      cases hpath with
      | member hlast =>
          refine hlast.leafOr? ?_ hleaf
          intro found hfound
          obtain ⟨entity, -, hentity⟩ := Option.bind_eq_some_iff.mp hfound
          exact hleafOf entity found hentity
  next whole heq => exact hleafOf whole leaf hleaf

mutual

theorem Name.Braceless.leafFrom? (hleafOf : BracelessLeaves leafOf) : ∀ {name : Name},
    name.Braceless → name.leafFrom? leafOf = some leaf → leaf.Braceless
  | .nested _, .nested hname, hleaf => NestedName.Braceless.leafFrom? hleafOf hname hleaf
  | .unscoped _, .unscoped hname, hleaf => hname.name.leaf? hleaf
  | .instantiation _ _, _, hleaf => hleafOf _ _ hleaf
  | .inside _, .inside hname, hleaf => LocalName.Braceless.leafFrom? hleafOf hname hleaf

theorem LocalName.Braceless.leafFrom? (hleafOf : BracelessLeaves leafOf) : ∀ {name : LocalName},
    name.Braceless → name.leafFrom? leafOf = some leaf → leaf.Braceless
  | .entity _ _, .entity _ hname, hleaf => Name.Braceless.leafFrom? hleafOf hname hleaf
  | .defaultArgument _ _, .defaultArgument _ hname, hleaf =>
    Name.Braceless.leafFrom? hleafOf hname hleaf

end

theorem Scope.Braceless.leafFrom? (hleafOf : BracelessLeaves leafOf) {scope : Scope}
    (hscope : scope.Braceless) (hleaf : scope.leafFrom? leafOf = some leaf) : leaf.Braceless := by
  cases hscope with
  | name hname => exact hname.leaf? hleaf
  | member hname => exact hname.leafOr? (hleafOf _) hleaf
  | instantiation => exact hleafOf _ leaf hleaf
  | parameter => cases hleaf
  | decltype hexpression => cases hleaf
  | dataMember hname =>
      cases hleaf
      exact .source hname

theorem Entry.Braceless.leafFrom? (hleafOf : BracelessLeaves leafOf) {entry : Entry}
    (hentry : entry.Braceless) (hleaf : entry.leafFrom? leafOf = some leaf) : leaf.Braceless := by
  cases hentry with
  | template hname => exact hname.name.leaf? hleaf
  | templateParameter => cases hleaf
  | type htype =>
      cases htype with
      | classEnum hname => exact hname.leafFrom? hleafOf hleaf
      | _ => cases hleaf
  | scope hscope => exact hscope.leafFrom? hleafOf hleaf
  | unresolvedType htype => cases hleaf

end

namespace Table.Braceless

variable {table : Table} (htable : table.Braceless)

include htable

theorem leafWithin? (steps : Nat) : BracelessLeaves (table.leafWithin? steps) := by
  induction steps with
  | zero =>
      rintro (entity | index) leaf hleaf
      · obtain ⟨name, -, rfl⟩ := Option.map_eq_some_iff.mp hleaf
        exact .standard
      · cases hleaf
  | succ steps ih =>
      rintro (entity | index) leaf hleaf
      · obtain ⟨name, -, rfl⟩ := Option.map_eq_some_iff.mp hleaf
        exact .standard
      · obtain ⟨entry, hentry, hleaf⟩ := Option.bind_eq_some_iff.mp hleaf
        exact (htable.entryAt? hentry).leafFrom? ih hleaf

theorem leafOfName? {name : Name} (hname : name.Braceless) {leaf : Leaf}
    (hleaf : table.leafOfName? name = some leaf) : leaf.Braceless :=
  hname.leafFrom? (htable.leafWithin? _) hleaf

theorem leafOfType? {type : TypeRef} {leaf : Leaf} (hleaf : table.leafOfType? type = some leaf) :
    leaf.Braceless := by
  cases type with
  | standard entity => exact htable.leafWithin? _ _ leaf hleaf
  | entry index => exact htable.leafWithin? _ _ leaf hleaf
  | builtin type => cases hleaf

end Table.Braceless

namespace Writer

theorem braceless_leafOf? {frames : List Frame}
    (hframes : ∀ frame ∈ frames, frame.binding.Braceless) {leaf : Leaf}
    (hleaf : leafOf? frames = some leaf) : leaf.Braceless := by
  induction frames with
  | nil => cases hleaf
  | cons frame frames ih =>
      obtain ⟨hframe, hothers⟩ := List.forall_mem_cons.mp hframes
      obtain ⟨binding, position⟩ := frame
      cases hframe with
      | leaf hinner =>
          cases hleaf
          exact hinner
      | args => exact ih hothers hleaf

theorem braceless_argumentOf? {table : Table} (htable : table.Braceless) {parameter : Nat}
    {frames : List Frame} {argument : TemplateArg}
    (hargument : argumentOf? table parameter frames = some argument) : argument.Braceless := by
  induction frames with
  | nil => cases hargument
  | cons frame frames ih =>
      obtain ⟨binding | args, position⟩ := frame
      · exact ih hargument
      · unfold argumentOf? at hargument
        split at hargument
        · exact ih hargument
        next found hfound =>
            split at hargument
            · cases hargument
            · cases hargument
              exact htable.args args argument (List.mem_of_getElem? hfound)

/-! ### Adding to a page -/

variable {α β : Type} {form : List Char → Prop}

/-- What is added is of a form, the page stays without opening braces of its own, and something is
known of the value. -/
def Adds (form : List Char → Prop) (writer : Writer α) (known : α → Prop) : Prop :=
  ∀ around page value after, around.Braceless → page.Braceless →
    writer around page = some (value, after) →
      after.Braceless ∧ known value ∧
        ∃ text, form text ∧ after.written = text.reverse ++ page.written

abbrev Closes (writer : Writer Unit) : Prop := writer.Adds Closed fun _ => True

/-- What is added ends with this character. -/
abbrev EndsWith (last : Char) (writer : Writer Unit) : Prop :=
  writer.Adds (fun text => ∃ front, text = front ++ [last]) fun _ => True

theorem adds_fail {known : α → Prop} : (fail : Writer α).Adds form known := by
  intro around page value after _ _ hrun
  cases hrun

theorem Adds.pure {value : α} {known : α → Prop} (hvalue : known value) :
    (Pure.pure value : Writer α).Adds Closed known := by
  intro around page value after _ hpage hrun
  cases hrun
  exact ⟨hpage, hvalue, [], trivial, rfl⟩

theorem closes_pure : (Pure.pure () : Writer Unit).Closes := .pure trivial

namespace Adds

variable {writer : Writer α} {next : α → Writer β} {known : α → Prop} {held : β → Prop}
  {first second : List Char → Prop}

theorem imp (hwriter : writer.Adds first known) (himp : ∀ text, first text → form text) :
    writer.Adds form known := by
  intro around page value after haround hpage hrun
  obtain ⟨hafter, hvalue, text, htext, hwritten⟩ :=
    hwriter around page value after haround hpage hrun
  exact ⟨hafter, hvalue, text, himp text htext, hwritten⟩

theorem closes {writer : Writer Unit} (hwriter : writer.EndsWith '\x7d') : writer.Closes := by
  refine hwriter.imp ?_
  rintro _ ⟨front, rfl⟩
  exact Closed.append_brace front

theorem bindWith (happend : ∀ text other, first text → second other → form (text ++ other))
    (hwriter : writer.Adds first known)
    (hnext : ∀ value, known value → (next value).Adds second held) :
    (writer >>= next).Adds form held := by
  intro around page value after haround hpage hrun
  obtain ⟨⟨middle, between⟩, hfirst, hsecond⟩ := Option.bind_eq_some_iff.mp hrun
  obtain ⟨hbetween, hmiddle, text, htext, hwritten⟩ :=
    hwriter around page middle between haround hpage hfirst
  obtain ⟨hafter, hvalue, other, hother, hadded⟩ :=
    hnext middle hmiddle around between value after haround hbetween hsecond
  refine ⟨hafter, hvalue, text ++ other, happend text other htext hother, ?_⟩
  rw [hadded, hwritten, List.reverse_append, List.append_assoc]

theorem bind (hwriter : writer.Adds Closed known)
    (hnext : ∀ value, known value → (next value).Adds Closed held) :
    (writer >>= next).Adds Closed held :=
  bindWith (fun _ _ => Closed.append) hwriter hnext

theorem andThen {next : Writer β} (hwriter : writer.Adds Closed known)
    (hnext : next.Adds Closed held) : (writer >>= fun _ => next).Adds Closed held :=
  hwriter.bind fun _ _ => hnext

theorem endsWith {last : Char} {next : Writer Unit} (hwriter : writer.Adds first known)
    (hnext : next.EndsWith last) : (writer >>= fun _ => next).EndsWith last := by
  refine bindWith ?_ hwriter fun _ _ => hnext
  rintro text _ - ⟨front, rfl⟩
  exact ⟨text ++ front, (List.append_assoc _ _ _).symm⟩

end Adds

/-- What is written first may depend on a condition. -/
theorem closes_when {condition : Prop} [Decidable condition] {writer : Writer α} {known : α → Prop}
    {next : Writer Unit} (hwriter : writer.Adds Closed known) (hnext : next.Closes) :
    (if condition then writer >>= fun _ => next else next).Closes := by
  split
  · exact hwriter.andThen hnext
  · exact hnext

theorem adds_write {text : String} (htext : form text.toList) :
    (write text).Adds form fun _ => True := by
  intro around page value after _ hpage hrun
  cases hrun
  exact ⟨⟨hpage.pending, hpage.sourceName⟩, trivial, text.toList, htext, List.reverseAux_eq⟩

theorem closes_write {text : String} (htext : Unbraced text.toList) : (write text).Closes :=
  adds_write (.of_not_mem htext)

theorem adds_any (text : String) : (write text).Adds (fun _ => True) fun _ => True :=
  adds_write trivial

theorem unbraced_toDigits (number : Nat) : Unbraced (Nat.toDigits 10 number) := by
  intro hmem
  exact absurd (Nat.isDigit_of_mem_toDigits (by decide) (by decide) hmem) (by decide)

theorem closes_writeNat (number : Nat) : (writeNat number).Closes := by
  refine closes_write ?_
  rw [Nat.toString_eq_repr, Nat.toList_repr]
  exact unbraced_toDigits number

theorem closes_writeInt (number : Int) : (writeInt number).Closes := by
  refine closes_write ?_
  cases number with
  | ofNat number =>
      change Unbraced number.repr.toList
      rw [Nat.toList_repr]
      exact unbraced_toDigits number
  | negSucc number =>
      change Unbraced ("-" ++ (number + 1).repr).toList
      rw [String.toList_append, Nat.toList_repr]
      exact fun hmem => (List.mem_append.mp hmem).elim (by decide) (unbraced_toDigits _)

theorem adds_get : (get : Writer Page).Adds Closed Page.Braceless := by
  intro around page value after _ hpage hrun
  cases hrun
  exact ⟨hpage, hpage, [], trivial, rfl⟩

theorem adds_read : (read : Writer Surroundings).Adds Closed Surroundings.Braceless := by
  intro around page value after haround hpage hrun
  cases hrun
  exact ⟨hpage, haround, [], trivial, rfl⟩

theorem adds_table : table.Adds Closed Table.Braceless :=
  adds_read.bind fun _ haround => .pure haround.table

/-- A change of the page that writes nothing. -/
theorem closes_modify {change : Page → Page}
    (hchange : ∀ page, page.Braceless → (change page).Braceless)
    (hwritten : ∀ page, (change page).written = page.written) :
    (modify change : Writer Unit).Closes := by
  intro around page value after _ hpage hrun
  cases hrun
  exact ⟨hchange page hpage, trivial, [], trivial, hwritten page⟩

/-- A change of a mark on the page. -/
theorem closes_mark {change : Page → Page} (hchange : ∀ page, (change page).written = page.written ∧
    (change page).pending = page.pending ∧ (change page).sourceName = page.sourceName) :
    (modify change : Writer Unit).Closes := by
  refine closes_modify ?_ fun page => (hchange page).1
  intro page hpage
  obtain ⟨-, hpending, hsourceName⟩ := hchange page
  exact ⟨hpending ▸ hpage.pending, hsourceName ▸ hpage.sourceName⟩

theorem adds_lastChar : lastChar.Adds Closed fun _ => True :=
  adds_get.bind fun _ _ => .pure trivial

theorem closes_space : space.Closes := by
  refine adds_lastChar.bind ?_
  intro last _
  split
  · exact closes_write (by decide)
  · exact closes_pure

theorem closes_separated {separator : String} (hseparator : Unbraced separator.toList)
    {items : List (Writer Unit)} (hitems : ∀ item ∈ items, item.Closes) :
    (separated separator items).Closes := by
  induction items with
  | nil => exact closes_pure
  | cons item items ih =>
      obtain ⟨hitem, hothers⟩ := List.forall_mem_cons.mp hitems
      cases items with
      | nil => exact hitem
      | cons second items => exact hitem.andThen ((closes_write hseparator).andThen (ih hothers))

theorem closes_separated_map {separator : String} (hseparator : Unbraced separator.toList)
    {writer : α → Writer Unit} {items : List α} (hitems : ∀ item ∈ items, (writer item).Closes) :
    (separated separator (items.map writer)).Closes := by
  refine closes_separated hseparator ?_
  intro item hmem
  obtain ⟨value, hvalue, rfl⟩ := List.mem_map.mp hmem
  exact hitems value hvalue

theorem closes_forM {writer : α → Writer Unit} {items : List α}
    (hitems : ∀ item ∈ items, (writer item).Closes) : (items.forM writer).Closes := by
  induction items with
  | nil => exact closes_pure
  | cons item items ih =>
      obtain ⟨hitem, hothers⟩ := List.forall_mem_cons.mp hitems
      exact hitem.andThen (ih hothers)

theorem closes_withReader {change : Surroundings → Surroundings} {writer : Writer Unit}
    (hchange : ∀ around, around.Braceless → (change around).Braceless) (hwriter : writer.Closes) :
    (withReader change writer : Writer Unit).Closes := by
  intro around page value after haround hpage hrun
  exact hwriter (change around) page value after (hchange around haround) hpage hrun

section

variable {writer : Writer Unit} (hwriter : writer.Closes)

include hwriter

theorem closes_withParameters : (withParameters writer).Closes := by
  refine closes_withReader ?_ hwriter
  exact fun around haround => ⟨haround.table, haround.frames⟩

theorem closes_withBinding {binding : Binding} (hbinding : binding.Braceless) :
    (withBinding binding writer).Closes := by
  refine closes_withReader ?_ hwriter
  intro around haround
  refine ⟨haround.table, ?_⟩
  intro frame hmem
  rcases List.mem_cons.mp hmem with rfl | hmem
  · exact hbinding
  · exact haround.frames frame hmem

theorem closes_withArgs (args : Option ArgsRef) : (withArgs args writer).Closes := by
  cases args with
  | none => exact hwriter
  | some args => exact closes_withBinding hwriter .args

theorem closes_withLeaf {leaf : Option Leaf}
    (hleaf : ∀ inner, leaf = some inner → inner.Braceless) : (withLeaf leaf writer).Closes := by
  cases leaf with
  | none => exact hwriter
  | some leaf => exact closes_withBinding hwriter (.leaf (hleaf leaf rfl))

theorem closes_withoutFrames : (withoutFrames writer).Closes := by
  refine closes_withReader ?_ hwriter
  exact fun around haround => ⟨haround.table, List.forall_mem_nil _⟩

theorem closes_atArgument (index : Nat) (args : ArgsRef) :
    (atArgument index args writer).Closes := by
  refine closes_withReader ?_ hwriter
  intro around haround
  refine ⟨haround.table, ?_⟩
  change ∀ frame ∈ Frame.markTop index args around.frames, frame.binding.Braceless
  cases hframes : around.frames with
  | nil => exact List.forall_mem_nil _
  | cons top frames =>
      have hall := haround.frames
      rw [hframes] at hall
      obtain ⟨htop, hothers⟩ := List.forall_mem_cons.mp hall
      exact List.forall_mem_cons.mpr ⟨htop, hothers⟩

end

theorem closes_setPending {pending : Page → List Part}
    (hpending : ∀ page, page.Braceless → ∀ part ∈ pending page, part.Braceless) :
    (modify fun page => { page with pending := pending page } : Writer Unit).Closes := by
  refine closes_modify ?_ fun _ => rfl
  exact fun page hpage => ⟨hpending page hpage, hpage.sourceName⟩

theorem closes_wait {part : Part} (hpart : part.Braceless) : (wait part).Closes :=
  closes_setPending fun _ hpage => List.forall_mem_cons.mpr ⟨hpart, hpage.pending⟩

theorem adds_takeWaiting :
    takeWaiting.Adds Closed fun part? => ∀ part, part? = some part → part.Braceless := by
  unfold takeWaiting
  refine adds_get.bind ?_
  intro page hpage
  have hpending := hpage.pending
  split
  · exact .pure fun _ hpart => by cases hpart
  next part parts heq =>
      rw [heq] at hpending
      obtain ⟨hpart, hparts⟩ := List.forall_mem_cons.mp hpending
      refine (closes_setPending fun _ _ => hparts).andThen (.pure ?_)
      rintro _ ⟨⟩
      exact hpart

theorem adds_takeBack (part : Part) : (takeBack part).Adds Closed fun _ => True := by
  unfold takeBack
  refine adds_get.bind ?_
  intro page hpage
  have hpending := hpage.pending
  split
  · exact .pure trivial
  next top parts heq =>
      rw [heq] at hpending
      split
      · exact (closes_setPending fun _ _ => (List.forall_mem_cons.mp hpending).2).andThen
          (.pure trivial)
      · exact .pure trivial

/-- Setting the waiting parts apart adds nothing. -/
theorem Adds.enclosed {writer : Writer Unit} (hwriter : writer.Adds form fun _ => True) :
    (Writer.enclosed writer).Adds form fun _ => True := by
  intro around page value after haround hpage hrun
  change Option.bind (writer around { page with pending := [] })
    (fun result => some ((), { result.2 with pending := page.pending })) =
      some (value, after) at hrun
  obtain ⟨⟨_, middle⟩, hinner, hafter⟩ := Option.bind_eq_some_iff.mp hrun
  have hinside : ({ page with pending := [] } : Page).Braceless :=
    ⟨List.forall_mem_nil _, hpage.sourceName⟩
  obtain ⟨hmiddle, -, text, htext, hwritten⟩ := hwriter _ _ _ _ haround hinside hinner
  cases hafter
  exact ⟨⟨hpage.pending, hmiddle.sourceName⟩, trivial, text, htext, hwritten⟩

theorem closes_enclosed {writer : Writer Unit} (hwriter : writer.Closes) :
    (enclosed writer).Closes :=
  hwriter.enclosed

end Writer

end MangledNames.Symbol

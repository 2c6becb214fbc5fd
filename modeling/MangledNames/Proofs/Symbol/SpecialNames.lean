import MangledNames.Proofs.Symbol.Fronts
import MangledNames.Proofs.Symbol.Options
import MangledNames.Proofs.Symbol.Productions
import MangledNames.Proofs.Symbol.Wordings

/-!
# Which special names are worded

A symbol for a table or a thunk goes on with the letter `T` after its mark, so it is not read as the
name of anything else, and it is written in the braces of its wording. If the symbol has no opening
brace, what stands between these is closed, so it is worded, unless a clone suffix follows.

The wording is selected by how the symbol is spelled, and not by what it is read as. A mark may have
two underscores; the same name is read and written then, but no code of a wording begins like this,
so the text stays in braces (`demangle_table_or_thunk`).
-/

namespace MangledNames.Symbol

/-- What stands in front of a special name that is written in braces. -/
def SpecialName.opening? : SpecialName → Option String
  | .typeData .vtable _ => some "\x7bvtable("
  | .typeData .vtt _ => some "\x7bvtt("
  | .thunk _ _ => some "\x7bvirtual override thunk("
  | .covariantThunk _ _ _ => some "\x7bvirtual override thunk("
  | _ => none

/-- The two letters behind the mark that select a wording. -/
def SpecialWording.letters (wording : SpecialWording) : List Char := wording.code.toList.drop 2

theorem SpecialWording.letters_eq {wording : SpecialWording} (hmem : wording ∈ SpecialWording.all) :
    wording.code.toList = "_Z".toList ++ wording.letters ∧ ['T'] <+: wording.letters := by
  revert wording
  decide

namespace Production

open Symbol.Parser

variable {g : Grammar}

theorem opening_of_specialName {wording : SpecialWording} (hmem : wording ∈ SpecialWording.all) :
    (specialName g).Reads wording.letters fun name => name.opening? = some wording.opening := by
  have hthunk : ∀ {rest : List Char} {front : List Char}, (do
      advanceTo (rest.drop 1)
      let offset ← g.callOffset
      return .thunk offset (← g.encoding) : Parser SpecialName).Reads front fun name =>
        name.opening? = some "\x7bvirtual override thunk(" := by
    intro rest front
    refine (Reads.any _).bind fun _ _ => ?_
    refine (Reads.any _).bind fun _ _ => ?_
    exact (Reads.any _).bind fun _ _ => .pure rfl
  have hkind : ∀ {letters rest : List Char} {opening : String} {parser : Parser SpecialName},
      parser.Reads [] (fun name => name.opening? = some opening) →
      (do advanceTo rest; parser : Parser SpecialName).Reads letters fun name =>
        name.opening? = some opening :=
    fun hparser => (Reads.any _).bind fun _ _ => hparser
  simp only [SpecialWording.all, List.mem_cons, List.not_mem_nil, or_false] at hmem
  rcases hmem with rfl | rfl | rfl | rfl | rfl
  · refine reads_rest fun tail => hkind ?_
    exact (Reads.any _).bind fun _ _ => .pure rfl
  · refine reads_rest fun tail => hkind ?_
    exact (Reads.any _).bind fun _ _ => .pure rfl
  · exact reads_rest fun tail => hthunk
  · exact reads_rest fun tail => hthunk
  · refine reads_rest fun tail => hkind ?_
    refine (Reads.any _).bind fun _ _ => ?_
    refine (Reads.any _).bind fun _ _ => ?_
    exact (Reads.any _).bind fun _ _ => .pure rfl

theorem special_of_encoding {wording : SpecialWording} (hmem : wording ∈ SpecialWording.all)
    (hname : g.name.Refuses ['T'])
    (hspecial : g.specialName.Reads wording.letters fun name =>
      name.opening? = some wording.opening) :
    (encoding g).Reads wording.letters fun encoding =>
      ∃ name, encoding = .special name ∧ name.opening? = some wording.opening := by
  have hname : g.name.Refuses wording.letters :=
    hname.of_prefix (SpecialWording.letters_eq hmem).2
  refine hname.alternative ?_
  exact hspecial.bind fun name hopening => .pure ⟨name, rfl, hopening⟩

/-- Both spellings of the mark of an encoding are left behind. -/
theorem run_mangledName {mark : String} (hmark : mark = "_Z" ∨ mark = "__Z") (rest : List Char)
    (table : Table) (inConversion : Bool) :
    (mangledName g).run ⟨mark.toList ++ rest, table, inConversion⟩ =
      (do let encoding ← g.encoding; return .encoding encoding (← many g.cloneSuffix) :
        Parser MangledName).run ⟨rest, table, inConversion⟩ := by
  rcases hmark with rfl | rfl
  · rfl
  · rfl

theorem gives_eat_of_not_mem {text : List Char} {c : Char} (htext : c ∉ text) {word : String}
    (hword : c ∈ word.toList) : (eat word).Gives text (· = false) := by
  refine gives_rest.bind ?_
  intro rest hrest
  rw [if_neg]
  · exact .pure rfl
  · intro hprefix
    exact htext (hrest ((List.isPrefixOf_iff_prefix.mp hprefix).subset hword))

/-- Without a point there is no clone suffix. -/
theorem gives_cloneSuffix_of_no_point {text : List Char} (htext : '.' ∉ text) :
    (cloneSuffix g).Gives text fun _ => False := by
  have hpoint : (expect ".").Gives text fun _ => False := by
    refine (gives_eat_of_not_mem htext (by decide)).bind ?_
    rintro _ rfl
    exact gives_fail
  exact hpoint.bind fun _ => False.elim

end Production

theorem opening_ofDepth {wording : SpecialWording} (hmem : wording ∈ SpecialWording.all)
    (depth : Nat) :
    (Grammar.ofDepth depth).specialName.Reads wording.letters fun name =>
      name.opening? = some wording.opening := by
  cases depth with
  | zero =>
      intro reading name after hfront hrun
      exact (Parser.refuses_nestedTooDeep reading name after hfront hrun).elim
  | succ depth => exact Production.opening_of_specialName hmem

/-- The depth has room for a symbol and the encoding in it. -/
theorem exists_parseDepth : ∃ depth, parseDepth = depth + 2 := ⟨_, rfl⟩

theorem run_ofDepth (depth : Nat) {mark : String} (hmark : mark = "_Z" ∨ mark = "__Z")
    (rest : List Char) :
    (Grammar.ofDepth (depth + 1)).mangledName.run ⟨mark.toList ++ rest, .empty, false⟩ =
      (do
        let encoding ← (Grammar.ofDepth depth).encoding
        return .encoding encoding (← Parser.many (Grammar.ofDepth depth).cloneSuffix) :
          Parser MangledName).run ⟨rest, .empty, false⟩ :=
  Production.run_mangledName hmark rest .empty false

theorem parse_append_of_mark {mark : String} (hmark : mark = "_Z" ∨ mark = "__Z")
    (rest : List Char) : parse (mark.toList ++ rest) = parse ("_Z".toList ++ rest) := by
  obtain ⟨depth, hdepth⟩ := exists_parseDepth
  rw [parse, parse, hdepth, run_ofDepth _ hmark, run_ofDepth _ (.inl rfl)]

theorem exists_run_of_parse {symbol : List Char} {name : MangledName} {table : Table}
    (hparse : parse symbol = .ok (name, table)) :
    ∃ after, (Grammar.ofDepth parseDepth).mangledName.run ⟨symbol, .empty, false⟩ = .ok name after ∧
      after.table = table := by
  unfold parse at hparse
  split at hparse
  next => cases hparse
  next after hrun =>
      split at hparse
      · cases hparse
        exact ⟨after, hrun, rfl⟩
      · cases hparse

/-- Nothing that is read from a text without opening braces has one. -/
theorem braceless_of_parse {symbol : List Char} (hsymbol : Unbraced symbol) {name : MangledName}
    {table : Table} (hparse : parse symbol = .ok (name, table)) :
    name.Braceless ∧ table.Braceless := by
  obtain ⟨after, hrun, rfl⟩ := exists_run_of_parse hparse
  have hgives := (Grammar.keeps_ofDepth hsymbol parseDepth).mangledName
    ⟨symbol, .empty, false⟩ ⟨List.Subset.refl symbol, Table.braceless_empty⟩
  rw [hrun] at hgives
  exact ⟨hgives.2, hgives.1.table⟩

theorem exists_special_of_parse {symbol : List Char} (hsymbol : Unbraced symbol)
    {wording : SpecialWording} (hmem : wording ∈ SpecialWording.all)
    (hcode : wording.code.toList <+: symbol) {name : MangledName} {table : Table}
    (hparse : parse symbol = .ok (name, table)) :
    ∃ special suffixes, name = .encoding (.special special) suffixes ∧
      special.opening? = some wording.opening ∧ ('.' ∉ symbol → suffixes = []) := by
  obtain ⟨tail, rfl⟩ := hcode
  rw [(SpecialWording.letters_eq hmem).1, List.append_assoc] at hsymbol hparse ⊢
  obtain ⟨after, hrun, -⟩ := exists_run_of_parse hparse
  obtain ⟨depth, hdepth⟩ := exists_parseDepth
  rw [hdepth, run_ofDepth _ (.inl rfl)] at hrun
  obtain ⟨encoding, between, hencoding, hrun⟩ := Parser.exists_of_bind hrun
  obtain ⟨suffixes, _, hsuffixes, hrun⟩ := Parser.exists_of_bind hrun
  cases hrun
  have hspecial : (Grammar.ofDepth (depth + 1)).encoding.Reads wording.letters _ :=
    Production.special_of_encoding hmem (Grammar.noName_ofDepth depth).name
      (opening_ofDepth hmem depth)
  obtain ⟨special, rfl, hopening⟩ := hspecial _ _ _ (List.prefix_append _ tail) hencoding
  refine ⟨special, suffixes, rfl, hopening, ?_⟩
  intro hpoint
  -- Only what the symbol has left is looked at for suffixes.
  have hbetween := (Grammar.keeps_ofDepth hsymbol (depth + 1)).encoding
    ⟨wording.letters ++ tail, .empty, false⟩
    ⟨List.subset_append_right _ _, Table.braceless_empty⟩
  rw [hencoding] at hbetween
  have hcloneSuffix : (Grammar.ofDepth (depth + 1)).cloneSuffix.Gives _ fun _ => False :=
    Production.gives_cloneSuffix_of_no_point hpoint
  have hnone := Parser.gives_many hcloneSuffix between hbetween.1
  rw [hsuffixes] at hnone
  exact List.eq_nil_iff_forall_not_mem.mpr hnone.2

/-! ### How they are written -/

namespace SpecialWording

/-- The text is closed up to the end of what the wording encloses. -/
def Finishes (text : List Char) : Prop := ∃ body, Closed body ∧ text = body ++ closing

/-- The text stands in the braces of the wording, and between these it is closed. -/
def Encloses (wording : SpecialWording) (text : List Char) : Prop :=
  ∃ body, Closed body ∧ text = wording.enclose body

end SpecialWording

/-- The text of clone suffixes. -/
def IsCloned (text : List Char) : Prop := ∃ rest, text = " [clone .".toList ++ (rest ++ [']'])

theorem IsCloned.append {text other : List Char} (htext : IsCloned text) (hother : IsCloned other) :
    IsCloned (text ++ other) := by
  obtain ⟨front, rfl⟩ := htext
  obtain ⟨rest, rfl⟩ := hother
  refine ⟨front ++ (']' :: " [clone .".toList ++ rest), ?_⟩
  simp only [List.append_assoc, List.cons_append, List.nil_append]

theorem IsCloned.not_closing_isSuffix {text front : List Char} (htext : IsCloned text) :
    ¬ SpecialWording.closing <:+ front ++ text := by
  obtain ⟨rest, rfl⟩ := htext
  rw [← List.append_assoc, ← List.append_assoc]
  intro hsuffix
  have hlast := hsuffix.getLast (by decide)
  rw [List.getLast_append_singleton] at hlast
  exact absurd hlast (by decide)

namespace Writer

open SpecialWording

theorem finishes_write : (write ")\x7d").Adds Finishes fun _ => True :=
  adds_write ⟨[], trivial, rfl⟩

theorem Closes.finishes {writer next : Writer Unit} (hwriter : writer.Closes)
    (hnext : next.Adds Finishes fun _ => True) :
    (writer >>= fun _ => next).Adds Finishes fun _ => True := by
  refine .bindWith ?_ hwriter fun _ _ => hnext
  rintro text _ htext ⟨body, hbody, rfl⟩
  exact ⟨text ++ body, htext.append hbody, (List.append_assoc _ _ _).symm⟩

theorem encloses_write (wording : SpecialWording) {next : Writer Unit}
    (hnext : next.Adds Finishes fun _ => True) :
    (write wording.opening >>= fun _ => next).Adds wording.Encloses fun _ => True := by
  have hopening : (write wording.opening).Adds (· = wording.opening.toList) fun _ => True :=
    adds_write rfl
  refine .bindWith ?_ hopening fun _ _ => hnext
  rintro _ _ rfl ⟨body, hbody, rfl⟩
  exact ⟨body, hbody, rfl⟩

end Writer

namespace Wording

open Writer

variable {w : Wording} (hw : w.Closes)

include hw

theorem encloses_writeThunk {wording : SpecialWording}
    (hopening : "\x7bvirtual override thunk(" = wording.opening) (offsets : List CallOffset)
    {target : Encoding} (htarget : target.Braceless) :
    (w.writeThunk offsets target).Adds wording.Encloses fun _ => True := by
  have hoffsets : (offsets.forM fun offset => do w.callOffset offset; write ", ").Closes :=
    closes_forM fun offset _ => (hw.callOffset offset).andThen (closes_write (by decide))
  unfold writeThunk
  rw [hopening]
  refine encloses_write wording ?_
  exact hoffsets.finishes ((hw.encoding htarget).finishes finishes_write)

theorem encloses_writeSpecialName {special : SpecialName} (hspecial : special.Braceless)
    {wording : SpecialWording} (hopening : special.opening? = some wording.opening) :
    (w.writeSpecialName special).Adds wording.Encloses fun _ => True := by
  have htable : ∀ {opening : String} {type : TypeRef}, type.Braceless →
      opening = wording.opening →
      (do write opening; w.typeRef type; write ")\x7d").Adds wording.Encloses fun _ => True := by
    rintro _ type htype rfl
    exact encloses_write wording ((closes_typeRef hw htype).finishes finishes_write)
  cases hspecial with
  | @typeData data type htype =>
      cases data with
      | vtable => exact htable htype (Option.some.inj hopening)
      | vtt => exact htable htype (Option.some.inj hopening)
      | _ => cases hopening
  | thunk htarget => exact encloses_writeThunk hw (Option.some.inj hopening) _ htarget
  | covariantThunk htarget => exact encloses_writeThunk hw (Option.some.inj hopening) _ htarget
  | _ => cases hopening

theorem isCloned_writeCloneSuffix {suffix : CloneSuffix} (hsuffix : suffix.Braceless) :
    (w.writeCloneSuffix suffix).Adds IsCloned fun _ => True := by
  have hopening : (write " [clone .").Adds (· = " [clone .".toList) fun _ => True := adds_write rfl
  have hnumbers : (suffix.numbers.forM fun number => do write "."; writeNat number).Closes :=
    closes_forM fun number _ => (closes_write (by decide)).andThen (closes_writeNat number)
  have hbracket : (do
      w.cloneIdentifier suffix.identifier
      suffix.numbers.forM fun number => do write "."; writeNat number
      write "]" : Writer Unit).EndsWith ']' :=
    (hw.cloneIdentifier hsuffix.identifier).endsWith (hnumbers.endsWith (adds_write ⟨[], rfl⟩))
  refine .bindWith ?_ hopening fun _ _ => hbracket
  rintro _ _ rfl ⟨rest, rfl⟩
  exact ⟨rest, rfl⟩

end Wording

theorem Writer.isCloned_forM {α : Type} {writer : α → Writer Unit} {items : List α}
    (hsome : items ≠ []) (hitems : ∀ item ∈ items, (writer item).Adds IsCloned fun _ => True) :
    (items.forM writer).Adds IsCloned fun _ => True := by
  induction items with
  | nil => exact absurd rfl hsome
  | cons item items ih =>
      obtain ⟨hitem, hothers⟩ := List.forall_mem_cons.mp hitems
      by_cases hnone : items = []
      · subst hnone
        have hnothing : (pure () : Writer Unit).Adds (· = []) fun _ => True := by
          intro around page value after _ hpage hrun
          cases hrun
          exact ⟨hpage, trivial, [], rfl, rfl⟩
        refine .bindWith ?_ hitem fun _ _ => hnothing
        rintro text _ htext rfl
        rwa [List.append_nil]
      · exact .bindWith (fun _ _ => IsCloned.append) hitem fun _ _ => ih hnone hothers

theorem Wording.written_cloneSuffixes {w : Wording} {suffixes : List CloneSuffix}
    (hsuffixes : ∀ suffix ∈ suffixes, (w.cloneSuffix suffix).Adds IsCloned fun _ => True)
    {around : Surroundings} (haround : around.Braceless) {page after : Page}
    (hpage : page.Braceless)
    (hrun : (do if (← read).parameters then suffixes.forM w.cloneSuffix : Writer Unit) around page =
      some ((), after)) :
    after.written = page.written ∨ suffixes ≠ [] ∧ around.parameters = true ∧
      ∃ rest, IsCloned rest ∧ after.written = rest.reverse ++ page.written := by
  change (if around.parameters then suffixes.forM w.cloneSuffix else pure () : Writer Unit)
    around page = some ((), after) at hrun
  by_cases hparameters : around.parameters = true
  · rw [if_pos hparameters] at hrun
    by_cases hnone : suffixes = []
    · subst hnone
      cases hrun
      exact .inl rfl
    · obtain ⟨-, -, rest, hrest, hwritten⟩ :=
        Writer.isCloned_forM hnone hsuffixes around page () after haround hpage hrun
      exact .inr ⟨hnone, hparameters, rest, hrest, hwritten⟩
  · rw [if_neg hparameters] at hrun
    cases hrun
    exact .inl rfl

/-- The depth has room for a symbol, the encoding in it and the special name in that. -/
theorem exists_writeDepth : ∃ depth, writeDepth = depth + 3 := ⟨_, rfl⟩

/-- A special name in braces is all that is written of it, but for clone suffixes. -/
theorem MangledName.exists_text {special : SpecialName} {suffixes : List CloneSuffix}
    (hname : (encoding (.special special) suffixes).Braceless) {wording : SpecialWording}
    (hopening : special.opening? = some wording.opening) {around : Surroundings}
    (haround : around.Braceless) {written : String}
    (htext : (encoding (.special special) suffixes).text? around = some written) :
    ∃ body, Closed body ∧ (written.toList = wording.enclose body ∨
      suffixes ≠ [] ∧ around.parameters = true ∧
        ∃ rest, IsCloned rest ∧ written.toList = wording.enclose body ++ rest) := by
  obtain ⟨hencoding, hsuffixes⟩ : (Encoding.special special).Braceless ∧
      ∀ suffix ∈ suffixes, suffix.Braceless := by
    cases hname with | encoding hencoding hsuffixes => exact ⟨hencoding, hsuffixes⟩
  have hspecial : special.Braceless := by cases hencoding with | special hspecial => exact hspecial
  unfold text? at htext
  split at htext
  next => cases htext
  next page hrun =>
      cases htext
      obtain ⟨depth, hdepth⟩ := exists_writeDepth
      rw [hdepth] at hrun
      obtain ⟨⟨⟨⟩, middle⟩, hfirst, hsecond⟩ := Option.bind_eq_some_iff.mp hrun
      have hencloses : ((Wording.ofDepth (depth + 1)).writeEncoding (.special special)).Adds
          wording.Encloses fun _ => True :=
        (Wording.encloses_writeSpecialName (Wording.closes_ofDepth depth) hspecial
          hopening).enclosed
      obtain ⟨hmiddle, -, _, ⟨body, hbody, rfl⟩, hwritten⟩ :=
        hencloses around .blank () middle haround Page.braceless_blank hfirst
      have hwritten : middle.written = (wording.enclose body).reverse :=
        hwritten.trans (List.append_nil _)
      have hcloned : ∀ suffix ∈ suffixes,
          ((Wording.ofDepth (depth + 2)).cloneSuffix suffix).Adds IsCloned fun _ => True :=
        fun suffix hmem => Wording.isCloned_writeCloneSuffix (Wording.closes_ofDepth (depth + 1))
          (hsuffixes suffix hmem)
      have hpage := Wording.written_cloneSuffixes hcloned haround hmiddle hsecond
      refine ⟨body, hbody, ?_⟩
      rw [String.toList_ofList]
      rcases hpage with hpage | ⟨hsome, hparameters, rest, hrest, hpage⟩
      · left
        rw [hpage, hwritten, List.reverse_reverse]
      · refine .inr ⟨hsome, hparameters, rest, hrest, ?_⟩
        calc page.written.reverse
            = (rest.reverse ++ (wording.enclose body).reverse).reverse := by rw [hpage, hwritten]
          _ = wording.enclose body ++ rest := by
              rw [← List.reverse_append, List.reverse_reverse]

/-- A text that does not end as the wordings close stays as it is. -/
theorem specialName_of_not_closing {symbol written : String}
    (hwritten : ¬ SpecialWording.closing <:+ written.toList) :
    specialName symbol written = written := by
  apply specialName_eq_self
  intro wording _ body hbody
  apply hwritten
  rw [hbody, SpecialWording.enclose, ← List.append_assoc]
  exact List.suffix_append _ _

theorem braceless_surroundings {table : Table} (htable : table.Braceless) (options : Options) :
    (surroundings table options).Braceless :=
  ⟨htable, List.forall_mem_nil _⟩

section

variable {symbol : String} (hmark : "_Z".toList <+: symbol.toList)

include hmark

theorem exists_toList_underscore : ∃ rest, symbol.toList = "_Z".toList ++ rest ∧
    ("_" ++ symbol).toList = "__Z".toList ++ rest := by
  obtain ⟨rest, hrest⟩ := hmark
  refine ⟨rest, hrest.symm, ?_⟩
  rw [String.toList_append, ← hrest]
  rfl

theorem isLinkable_underscore : isLinkable ("_" ++ symbol) = isLinkable symbol := by
  obtain ⟨rest, hsymbol, hother⟩ := exists_toList_underscore hmark
  rw [isLinkable, isLinkable, hsymbol, hother]
  simp

theorem parse_underscore : parse ("_" ++ symbol).toList = parse symbol.toList := by
  obtain ⟨rest, hsymbol, hother⟩ := exists_toList_underscore hmark
  rw [hsymbol, hother, parse_append_of_mark (.inr rfl)]

/-- No code of a wording begins like this. -/
theorem specialName_underscore (written : String) :
    specialName ("_" ++ symbol) written = written := by
  obtain ⟨rest, -, hother⟩ := exists_toList_underscore hmark
  rw [specialName, hother]
  rfl

/-- With another underscore in front of the mark the same name is read and written, and it is not
worded. -/
theorem demangle_eq_map_underscore (options : Options) :
    demangle options symbol =
      (demangle options ("_" ++ symbol)).map (specialName symbol) := by
  unfold demangle
  simp only [isLinkable_underscore hmark, parse_underscore hmark, specialName_underscore hmark]
  by_cases hlinkable : isLinkable symbol
  · rw [if_pos hlinkable, if_pos hlinkable]
    cases parse symbol.toList with
    | error refusal => rfl
    | ok found =>
        obtain ⟨name, table⟩ := found
        cases htext : name.text? (surroundings table options) <;> simp only [htext, Except.map]
  · rw [if_neg hlinkable, if_neg hlinkable]
    rfl

end

end MangledNames.Symbol

namespace MangledNames

open MangledNames.Symbol

/-- The code with which a symbol for a table or a thunk begins, what stands in front of its text in
braces, and the words that the runtime library has for it. -/
inductive RuntimeWords : (code opening label : String) → Prop where
  | vtable : RuntimeWords "_ZTV" "\x7bvtable(" "vtable for "
  | vtt : RuntimeWords "_ZTT" "\x7bvtt(" "VTT for "
  | thunk : RuntimeWords "_ZTh" "\x7bvirtual override thunk(" "non-virtual thunk to "
  | virtualThunk : RuntimeWords "_ZTv" "\x7bvirtual override thunk(" "virtual thunk to "
  | covariantThunk : RuntimeWords "_ZTc" "\x7bvirtual override thunk(" "covariant return thunk to "

/-- The name of a symbol for a table or a thunk, and its name with another underscore in front. -/
inductive NamedInBraces (opening label : String) (options : Options) (symbol : String) :
    (name underscored : String) → Prop where
  | worded {name body : String} : label.toList <+: name.toList →
      NamedInBraces opening label options symbol name (opening ++ body ++ ")\x7d")
  | cloned {body clones : String} : options.noParameters = false → '.' ∈ symbol.toList →
      NamedInBraces opening label options symbol
        (opening ++ body ++ ")\x7d [clone ." ++ clones ++ "]")
        (opening ++ body ++ ")\x7d [clone ." ++ clones ++ "]")

theorem RuntimeWords.mem_all {code opening label : String}
    (hwords : RuntimeWords code opening label) :
    ⟨code, opening, label⟩ ∈ SpecialWording.all := by
  cases hwords <;> decide

section

variable {symbol : String}

theorem isPrefix_mark {wording : SpecialWording} (hmem : wording ∈ SpecialWording.all)
    (hcode : wording.code.toList <+: symbol.toList) : "_Z".toList <+: symbol.toList := by
  rw [(SpecialWording.letters_eq hmem).1] at hcode
  exact (List.prefix_append _ _).trans hcode

variable (hsymbol : Unbraced symbol.toList)

include hsymbol

/-- What is written for a symbol for a table or a thunk, if another underscore in front of it keeps
this from being worded. -/
theorem exists_body_of_underscore {wording : SpecialWording} (hmem : wording ∈ SpecialWording.all)
    (hcode : wording.code.toList <+: symbol.toList) {options : Options} {written : String}
    (hwritten : demangle options ("_" ++ symbol) = .ok written) :
    ∃ body, Closed body ∧ (written.toList = wording.enclose body ∨
      options.noParameters = false ∧ '.' ∈ symbol.toList ∧
        ∃ rest, IsCloned rest ∧ written.toList = wording.enclose body ++ rest) := by
  have hmark := isPrefix_mark hmem hcode
  obtain ⟨-, read, table, text, hparse, htext, rfl⟩ := exists_of_demangle hwritten
  rw [parse_underscore hmark] at hparse
  rw [specialName_underscore hmark]
  obtain ⟨hread, htable⟩ := braceless_of_parse hsymbol hparse
  obtain ⟨special, suffixes, rfl, hopening, hpoint⟩ :=
    exists_special_of_parse hsymbol hmem hcode hparse
  obtain ⟨body, hbody, hbraces⟩ :=
    MangledName.exists_text hread hopening (braceless_surroundings htable options) htext
  refine ⟨body, hbody, hbraces.imp id ?_⟩
  rintro ⟨hsome, hparameters, hcloned⟩
  have hparameters : options.noParameters = false := Bool.not_eq_true' _ ▸ hparameters
  exact ⟨hparameters, not_not.mp (mt hpoint hsome), hcloned⟩

/-- Without the underscore, what stands in braces is worded. -/
theorem namedInBraces_of_underscore {wording : SpecialWording} (hmem : wording ∈ SpecialWording.all)
    (hcode : wording.code.toList <+: symbol.toList) {options : Options} {written : String}
    (hwritten : demangle options ("_" ++ symbol) = .ok written) :
    NamedInBraces wording.opening wording.label options symbol (specialName symbol written)
      written := by
  obtain ⟨body, hbody, hbraces⟩ := exists_body_of_underscore hsymbol hmem hcode hwritten
  rcases hbraces with hbraces | ⟨hparameters, hpoint, _, ⟨clones, rfl⟩, hbraces⟩
  · have hwording := SpecialWording.of?_eq_some_iff.mpr ⟨hmem, hcode⟩
    obtain ⟨rest, hworded⟩ := exists_specialName hwording hbody
    rw [← hbraces, String.ofList_toList] at hworded
    have hlabel : wording.label.toList <+: (specialName symbol written).toList := by
      rw [hworded, String.toList_ofList]
      exact List.prefix_append _ rest
    have htext : written = wording.opening ++ String.ofList body ++ ")\x7d" := by
      rw [← String.toList_inj, hbraces]
      simp [SpecialWording.enclose, SpecialWording.closing]
    rw [htext] at hlabel ⊢
    exact .worded hlabel
  · have hclosing : ¬ SpecialWording.closing <:+ written.toList :=
      hbraces ▸ IsCloned.not_closing_isSuffix ⟨clones, rfl⟩
    have htext : written = wording.opening ++ String.ofList body ++
        ")\x7d [clone ." ++ String.ofList clones ++ "]" := by
      rw [← String.toList_inj, hbraces]
      simp [SpecialWording.enclose, SpecialWording.closing]
    rw [specialName_of_not_closing hclosing, htext]
    exact .cloned hparameters hpoint

/-- **The mark decides whether tables and thunks are worded.** Whatever the options are, a symbol
without an opening brace that begins with the code of a table or a thunk, and the same symbol with
another underscore in front, are both refused for the same reason, or both have names. Without the
underscore the name is worded, unless clone suffixes are written behind it, and with the underscore
it stays in braces. -/
theorem demangle_table_or_thunk {code opening label : String}
    (hwords : RuntimeWords code opening label) (hcode : code.toList <+: symbol.toList)
    (options : Options) :
    (∃ failure, demangle options symbol = .error failure ∧
        demangle options ("_" ++ symbol) = .error failure) ∨
      ∃ name underscored, demangle options symbol = .ok name ∧
        demangle options ("_" ++ symbol) = .ok underscored ∧
        NamedInBraces opening label options symbol name underscored := by
  have hname := demangle_eq_map_underscore (isPrefix_mark hwords.mem_all hcode) options
  cases hunderscored : demangle options ("_" ++ symbol) with
  | error failure =>
      rw [hunderscored] at hname
      exact .inl ⟨failure, hname, rfl⟩
  | ok written =>
      rw [hunderscored] at hname
      exact .inr ⟨specialName symbol written, written, hname, rfl,
        namedInBraces_of_underscore hsymbol hwords.mem_all hcode hunderscored⟩

end

theorem demangle_covariant_thunk :
    Unbraced "_ZTch0_h16_N1A1fEv".toList ∧ "_ZTc".toList <+: "_ZTch0_h16_N1A1fEv".toList ∧
      ∃ name body, demangle .complete "_ZTch0_h16_N1A1fEv" = .ok name ∧
        "covariant return thunk to ".toList <+: name.toList ∧
        demangle .complete "__ZTch0_h16_N1A1fEv" =
          .ok ("\x7bvirtual override thunk(" ++ body ++ ")\x7d") := by
  have hsymbol : Unbraced "_ZTch0_h16_N1A1fEv".toList := by decide
  have hcode : "_ZTc".toList <+: "_ZTch0_h16_N1A1fEv".toList := by decide
  have hname : demangle .complete "_ZTch0_h16_N1A1fEv" =
      .ok "covariant return thunk to A::f()" := by decide +kernel
  refine ⟨hsymbol, hcode, ?_⟩
  rcases demangle_table_or_thunk hsymbol .covariantThunk hcode .complete with
    ⟨failure, hfailure, -⟩ | ⟨name, _, hok, hunderscored, hbraces⟩
  · rw [hname] at hfailure
    cases hfailure
  · cases hbraces with
    | @worded _ body hlabel => exact ⟨name, body, hok, hlabel, hunderscored⟩
    | cloned _ hpoint => exact absurd hpoint (by decide)

/-- The text is in the braces of a wording, and only the spelling of the mark keeps it there. -/
theorem demangle_underscored_table :
    demangle .complete "_ZTV5klass" = .ok "vtable for klass" ∧
      demangle .complete "__ZTV5klass" = .ok "\x7bvtable(klass)\x7d" ∧
      "\x7bvtable(".toList <+: "\x7bvtable(klass)\x7d".toList := by
  decide +kernel

/-- Clone suffixes are written behind the braces. -/
example : demangle .complete "_ZTV5klass.part.1" =
    .ok "\x7bvtable(klass)\x7d [clone .part.1]" := by
  decide +kernel

end MangledNames

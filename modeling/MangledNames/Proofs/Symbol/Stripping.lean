import Mathlib.Data.List.Infix
import MangledNames.Proofs.Line.Text
import MangledNames.Proofs.Symbol.Targets

/-!
# All groups or nothing

What is left out of a text in braces is told here in turns, as long as it begins with a group: the
first closing brace is looked for among the bytes, the text is cut behind it, and the separators that
follow are dropped (`Strips`). A cut has to fall between two characters, or the turn cannot be made.
It always can be, because a closing brace is a character of its own, so there is exactly one way
through a text. It makes a turn for each closing brace at most (`exists_strips`).

The way ends at a text that begins with no group, or at a brace that is not closed. In the first case
this text is worded, and in the other case nothing is, however many groups have been left out by then
(`specialName_strips`).
-/

namespace MangledNames.Symbol

open SpecialWording

/-- The text between two places among the bytes, if none of them falls into a character. -/
def part? (text : String) (start stop : Nat) : Option String :=
  Line.textAt? text (Text.utf8 text).toArray ⟨start, stop⟩

theorem part?_append (front middle back : String) :
    part? (front ++ middle ++ back) (Text.utf8 front).length (Text.utf8 (front ++ middle)).length =
      some middle := by
  have hbytes : Text.utf8 (front ++ middle ++ back) =
      Text.utf8 front ++ (Text.utf8 middle ++ Text.utf8 back) := by
    rw [Text.utf8_append, Text.utf8_append, List.append_assoc]
  have hparts : Text.utf8 (front ++ middle ++ back) =
      Text.utf8 front ++ Text.utf8 (middle ++ back) := by
    rw [hbytes, Text.utf8_append]
  have hfits : Line.Span.Fits (front ++ middle ++ back)
      ⟨(Text.utf8 front).length, (Text.utf8 (front ++ middle)).length⟩ := by
    refine ⟨Text.isValid_of_parts hparts, Text.isValid_of_parts (Text.utf8_append _ back), ?_⟩
    rw [Text.utf8_append, List.length_append]
    exact Nat.le_add_right _ _
  obtain ⟨part, hpart, hspan⟩ := hfits.exists_textAt?
  rw [part?, hpart]
  congr 1
  apply Text.utf8_inj
  rw [hspan, Line.Span.of_toArray, hbytes, List.drop_left, Text.utf8_append, List.length_append,
    Nat.add_sub_cancel_left, List.take_left]

theorem utf8_of_part? {text part : String} {start stop : Nat}
    (hpart : part? text start stop = some part) :
    Text.utf8 part = ((Text.utf8 text).drop start).take (stop - start) := by
  unfold part? Line.textAt? at hpart
  split at hpart
  next =>
      rw [← Line.Span.of_toArray ⟨start, stop⟩]
      exact Text.ofUtf8?_eq_some_iff.mp hpart
  next => cases hpart

/-- The code of a wording has four bytes. -/
theorem part?_eq_code_iff {wording : SpecialWording} (hmem : wording ∈ SpecialWording.all)
    {symbol : String} :
    part? symbol 0 4 = some wording.code ↔ wording.code.toList <+: symbol.toList := by
  have hcode : (Text.utf8 wording.code).length = 4 ∧
      (∀ byte ∈ Text.utf8 wording.code, byte < 128) ∧
      (Text.utf8 wording.code).map Char.ofUInt8 = wording.code.toList := by
    revert wording
    decide +kernel
  obtain ⟨hlength, hascii, hchars⟩ := hcode
  constructor
  · intro hpart
    have hbytes := utf8_of_part? hpart
    rw [List.drop_zero] at hbytes
    rw [← hchars]
    apply Text.map_isPrefix_of_utf8 hascii
    rw [← Text.utf8_eq_flatMap, hbytes]
    exact List.take_prefix _ _
  · rintro ⟨rest, hrest⟩
    have hsymbol : symbol = "" ++ wording.code ++ String.ofList rest := by
      apply String.toList_inj.mp
      rw [← hrest]
      simp
    have hempty : (Text.utf8 "").length = 0 := by decide
    have hpart := part?_append "" wording.code (String.ofList rest)
    rwa [← hsymbol, hempty, String.empty_append, hlength] at hpart

def closingBrace : UInt8 := '\x7d'.toUInt8

/-- A text begins with a group. It is cut behind the first closing brace among its bytes. -/
structure OpensGroup (text inside behind : String) : Prop where
  text_eq : text = "\x7b" ++ inside ++ "\x7d" ++ behind
  not_closing_mem : '\x7d' ∉ inside.toList
  cut : ∃ place, (Text.utf8 text).idxOf? closingBrace = some place ∧
    part? text (place + 1) (Text.utf8 text).length = some behind

theorem closingBrace_not_mem_utf8 {text : String} (htext : '\x7d' ∉ text.toList) :
    closingBrace ∉ Text.utf8 text := by
  intro hmem
  have hwithin : [closingBrace] <:+: Text.utf8 text := (List.singleton_infix_iff _ _).mpr hmem
  have hascii : ∀ byte ∈ [closingBrace], byte < 128 := List.forall_mem_singleton.mpr (by decide)
  have hchar := Text.map_isInfix_of_utf8 (List.cons_ne_nil _ _) hascii hwithin
  exact htext ((List.singleton_infix_iff _ _).mp hchar)

/-- **A group can always be cut off.** -/
theorem opensGroup {inside : String} (hinside : '\x7d' ∉ inside.toList) (behind : String) :
    OpensGroup ("\x7b" ++ inside ++ "\x7d" ++ behind) inside behind := by
  have hclosing : Text.utf8 "\x7d" = [closingBrace] := by decide
  refine ⟨rfl, hinside, (Text.utf8 ("\x7b" ++ inside)).length, ?_, ?_⟩
  · have hfront : closingBrace ∉ Text.utf8 ("\x7b" ++ inside) := by
      apply closingBrace_not_mem_utf8
      rw [String.toList_append, List.mem_append, not_or]
      exact ⟨by decide, hinside⟩
    rw [Text.utf8_append, Text.utf8_append, hclosing, List.append_assoc, List.singleton_append,
      List.idxOf?, List.findIdx?_append, List.findIdx?_cons]
    have hnone : (Text.utf8 ("\x7b" ++ inside)).findIdx? (· == closingBrace) = none := by
      rw [List.findIdx?_eq_none_iff]
      intro byte hmem
      exact beq_eq_false_iff_ne.mpr fun heq => hfront (heq ▸ hmem)
    rw [hnone, beq_self_eq_true, if_pos rfl]
    simp
  · have hpart := part?_append ("\x7b" ++ inside ++ "\x7d") behind ""
    rw [String.append_empty] at hpart
    rwa [Text.utf8_append, hclosing, List.length_append, List.length_singleton] at hpart

namespace OpensGroup

variable {text inside behind : String} (hgroup : OpensGroup text inside behind)

include hgroup

theorem toList_eq : text.toList = '\x7b' :: (inside.toList ++ '\x7d' :: behind.toList) := by
  rw [hgroup.text_eq]
  simp only [String.toList_append, List.append_assoc]
  rfl

theorem opening : text.toList.head? = some '\x7b' := by
  rw [hgroup.toList_eq, List.head?_cons]

theorem closing_mem : '\x7d' ∈ text.toList := by
  rw [hgroup.toList_eq]
  exact List.mem_cons_of_mem _ (List.mem_append_right _ List.mem_cons_self)

theorem count_lt :
    (withoutSeparators behind.toList).count '\x7d' < text.toList.count '\x7d' := by
  have hbehind := (withoutSeparators_suffix behind.toList).sublist.count_le '\x7d'
  rw [hgroup.toList_eq, List.count_cons_of_ne (by decide), List.count_append,
    List.count_cons_self]
  exact Nat.lt_add_left _ (Nat.lt_succ_of_le hbehind)

/-- There is only one place to cut at. -/
theorem behind_eq {inside' behind' : String} (hother : OpensGroup text inside' behind') :
    behind = behind' := by
  obtain ⟨place, hplace, hbehind⟩ := hgroup.cut
  obtain ⟨place', hplace', hbehind'⟩ := hother.cut
  rw [hplace, Option.some.injEq] at hplace'
  rw [← hplace', hbehind, Option.some.injEq] at hbehind'
  exact hbehind'

end OpensGroup

theorem exists_opensGroup {text : String} (hopening : text.toList.head? = some '\x7b')
    (hclosing : '\x7d' ∈ text.toList) : ∃ inside behind, OpensGroup text inside behind := by
  obtain ⟨rest, hrest⟩ := List.head?_eq_some_iff.mp hopening
  rw [hrest, List.mem_cons, or_iff_right (by decide)] at hclosing
  obtain ⟨inside, behind, rfl, hinside⟩ := List.eq_append_cons_of_mem hclosing
  refine ⟨String.ofList inside, String.ofList behind, ?_⟩
  have htext : text =
      "\x7b" ++ String.ofList inside ++ "\x7d" ++ String.ofList behind := by
    apply String.toList_inj.mp
    rw [hrest]
    simp
  rw [htext]
  exact opensGroup (by rwa [String.toList_ofList]) _

/-- The way through a text: how many groups are left out, and what is left in the end, if no brace
is left open. -/
inductive Strips : String → Nat → Option String → Prop
  | ends {text : String} : text.toList.head? ≠ some '\x7b' → Strips text 0 (some text)
  | unclosed {text : String} : text.toList.head? = some '\x7b' → '\x7d' ∉ text.toList →
      Strips text 0 none
  | group {text inside behind : String} {count : Nat} {outcome : Option String} :
      OpensGroup text inside behind →
      Strips (String.ofList (withoutSeparators behind.toList)) count outcome →
      Strips text (count + 1) outcome

/-- **There is a way through every text.** It ends because every group takes a closing brace with
it. -/
theorem exists_strips (text : String) :
    ∃ count outcome, Strips text count outcome ∧ count ≤ text.toList.count '\x7d' := by
  induction hbraces : text.toList.count '\x7d' using Nat.strong_induction_on generalizing text with
  | _ braces ih =>
      by_cases hopening : text.toList.head? = some '\x7b'
      · by_cases hclosing : '\x7d' ∈ text.toList
        · obtain ⟨inside, behind, hgroup⟩ := exists_opensGroup hopening hclosing
          have hfewer := hgroup.count_lt
          rw [hbraces] at hfewer
          obtain ⟨count, outcome, hrest, hcount⟩ :=
            ih _ hfewer (String.ofList (withoutSeparators behind.toList))
              (by rw [String.toList_ofList])
          exact ⟨count + 1, outcome, .group hgroup hrest, Nat.lt_of_le_of_lt hcount hfewer⟩
        · exact ⟨0, none, .unclosed hopening hclosing, Nat.zero_le _⟩
      · exact ⟨0, some text, .ends hopening, Nat.zero_le _⟩

/-- **There is no other way through a text.** -/
theorem Strips.unique {text : String} {count count' : Nat} {outcome outcome' : Option String}
    (hstrips : Strips text count outcome) (hother : Strips text count' outcome') :
    count' = count ∧ outcome' = outcome := by
  induction hstrips generalizing count' with
  | ends hend =>
      cases hother with
      | ends => exact ⟨rfl, rfl⟩
      | unclosed hopening => exact absurd hopening hend
      | group hgroup => exact absurd hgroup.opening hend
  | unclosed hopening hclosing =>
      cases hother with
      | ends hend => exact absurd hopening hend
      | unclosed => exact ⟨rfl, rfl⟩
      | group hgroup => exact absurd hgroup.closing_mem hclosing
  | group hgroup _ ih =>
      cases hother with
      | ends hend => exact absurd hgroup.opening hend
      | unclosed _ hclosing => exact absurd hgroup.closing_mem hclosing
      | group hgroup' hrest =>
          rw [← hgroup.behind_eq hgroup'] at hrest
          obtain ⟨rfl, rfl⟩ := ih hrest
          exact ⟨rfl, rfl⟩

theorem afterBrace?_eq_none {text : List Char} (hclosing : '\x7d' ∉ text) :
    afterBrace? text = none := by
  induction text with
  | nil => rw [afterBrace?]
  | cons c text ih =>
      rw [List.mem_cons, not_or] at hclosing
      rw [afterBrace?, if_neg (Ne.symm hclosing.1), ih hclosing.2]

/-- Groups are left out on this way. -/
theorem Strips.withoutGroups?_eq {text : String} {count : Nat} {outcome : Option String}
    (hstrips : Strips text count outcome) :
    withoutGroups? text.toList = outcome.map String.toList := by
  induction hstrips with
  | ends hend => exact withoutGroups?_of_unbraced hend
  | unclosed hopening hclosing =>
      obtain ⟨rest, hrest⟩ := List.head?_eq_some_iff.mp hopening
      rw [hrest] at hclosing ⊢
      rw [withoutGroups?, afterBrace?_eq_none (List.not_mem_of_not_mem_cons hclosing)]
      rfl
  | group hgroup _ ih =>
      rw [hgroup.toList_eq, withoutGroups?, afterBrace?_append hgroup.not_closing_mem,
        afterGroup?_eq, ← ih, String.toList_ofList]

/-- **A text is worded without its groups, or it stays as it is.** -/
theorem specialName_strips (symbol written : String) :
    (∀ wording ∈ all, part? symbol 0 4 = some wording.code →
      ∀ body, written = wording.text body →
        ∃ count outcome, Strips body count outcome ∧
          (∀ count' outcome', Strips body count' outcome' →
            count' = count ∧ outcome' = outcome) ∧
          count ≤ body.toList.count '\x7d' ∧
          specialName symbol written = outcome.elim written (wording.label ++ ·)) ∧
    ((∀ wording ∈ all, part? symbol 0 4 = some wording.code →
      ∀ body, written ≠ wording.text body) → specialName symbol written = written) := by
  constructor
  · intro wording hmem hcode body hwritten
    obtain ⟨count, outcome, hstrips, hcount⟩ := exists_strips body
    refine ⟨count, outcome, hstrips, fun _ _ => hstrips.unique, hcount, ?_⟩
    have hwording := of?_eq_some_iff.mpr ⟨hmem, (part?_eq_code_iff hmem).mp hcode⟩
    have hchars : written.toList = wording.enclose body.toList := by
      rw [hwritten, SpecialWording.toList_text]
    rw [specialName_enclose hwording hchars, hstrips.withoutGroups?_eq]
    cases outcome with
    | none => rfl
    | some rest =>
        change wording.label ++ String.ofList rest.toList = _
        rw [String.ofList_toList, Option.elim_some]
  · intro hother
    apply specialName_eq_self
    intro wording hwording body hbody
    obtain ⟨hmem, hcode⟩ := of?_eq_some_iff.mp hwording
    apply hother wording hmem ((part?_eq_code_iff hmem).mpr hcode) (String.ofList body)
    apply String.toList_inj.mp
    rw [hbody, SpecialWording.toList_text, String.toList_ofList]

/-- Two groups are left out; the second of two is not closed; the symbol has no code, because its
fourth byte is the first one of a longer character. -/
theorem specialName_strips_thunks :
    (Strips "\x7boffset(0)\x7d, \x7boffset(16)\x7d, π::f()" 2 (some "π::f()") ∧
        specialName "_ZTch0_h16_NπEv"
            "\x7bvirtual override thunk(\x7boffset(0)\x7d, \x7boffset(16)\x7d, π::f())\x7d" =
          "covariant return thunk to π::f()") ∧
      (Strips "\x7boffset(8)\x7d, \x7bπ" 1 none ∧
        specialName "_ZTh8_π" "\x7bvirtual override thunk(\x7boffset(8)\x7d, \x7bπ)\x7d" =
          "\x7bvirtual override thunk(\x7boffset(8)\x7d, \x7bπ)\x7d") ∧
      part? "_ZTπ" 0 4 = none ∧
      specialName "_ZTπ" "\x7bvtable(π)\x7d" = "\x7bvtable(π)\x7d" := by
  have htwo : Strips "\x7boffset(0)\x7d, \x7boffset(16)\x7d, π::f()" 2 (some "π::f()") :=
    .group (@opensGroup "offset(0)" (by decide) ", \x7boffset(16)\x7d, π::f()")
      (.group (@opensGroup "offset(16)" (by decide) ", π::f()") (.ends (by decide)))
  have hunclosed : Strips "\x7boffset(8)\x7d, \x7bπ" 1 none :=
    .group (@opensGroup "offset(8)" (by decide) ", \x7bπ") (.unclosed (by decide) (by decide))
  have hnone : part? "_ZTπ" 0 4 = none := by decide +kernel
  refine ⟨⟨htwo, ?_⟩, ⟨hunclosed, ?_⟩, hnone, ?_⟩
  · obtain ⟨_, _, -, hunique, -, hname⟩ := (specialName_strips "_ZTch0_h16_NπEv" _).1
      ⟨"_ZTc", "\x7bvirtual override thunk(", "covariant return thunk to "⟩ (by decide)
      (by decide +kernel) "\x7boffset(0)\x7d, \x7boffset(16)\x7d, π::f()" rfl
    obtain ⟨rfl, rfl⟩ := hunique _ _ htwo
    exact hname
  · obtain ⟨_, _, -, hunique, -, hname⟩ := (specialName_strips "_ZTh8_π" _).1
      ⟨"_ZTh", "\x7bvirtual override thunk(", "non-virtual thunk to "⟩ (by decide)
      (by decide +kernel) "\x7boffset(8)\x7d, \x7bπ" rfl
    obtain ⟨rfl, rfl⟩ := hunique _ _ hunclosed
    exact hname
  · refine (specialName_strips "_ZTπ" _).2 fun wording _ hcode => ?_
    rw [hnone] at hcode
    cases hcode

end MangledNames.Symbol

import MangledNames.Proofs.Symbol.Groups
import MangledNames.Proofs.Symbol.Options

/-!
# Targets behind their groups

What a table or a thunk is for, its target, comes out behind a label. In front of the target of a
thunk its offsets are written, each as a group in braces, and wording leaves them out. It does not
count them, and it does not look at the label: it leaves out groups as long as there are any
(`withoutGroups?_offsets`). Up to the target this makes no difference. But a target may begin with
braces of its own, as a member of a closure does, and these are taken for another group.

So a target comes out whole just if it begins with no brace. What comes out otherwise has lost a
part of the target in front, unless a group is not closed and nothing is worded (`WordsTarget`).
-/

namespace MangledNames.Symbol

namespace SpecialWording

theorem afterBrace?_append {inside : List Char} (hinside : '\x7d' ∉ inside) (text : List Char) :
    afterBrace? (inside ++ '\x7d' :: text) = afterGroup? text := by
  induction inside with
  | nil => rw [List.nil_append, afterBrace?, if_pos rfl]
  | cons c inside ih =>
      rw [List.mem_cons, not_or] at hinside
      rw [List.cons_append, afterBrace?, if_neg (Ne.symm hinside.1), ih hinside.2]

/-- What is left behind the separators at the beginning. -/
def withoutSeparators : List Char → List Char
  | ',' :: ' ' :: text => withoutSeparators text
  | text => text

theorem withoutSeparators_eq_self {text : List Char}
    (htext : ∀ rest, text = ',' :: ' ' :: rest → False) : withoutSeparators text = text := by
  rw [withoutSeparators]
  exact htext

theorem withoutSeparators_of_ne {text : List Char} (htext : text.head? ≠ some ',') :
    withoutSeparators text = text := by
  apply withoutSeparators_eq_self
  rintro rest rfl
  exact htext rfl

theorem withoutSeparators_suffix (text : List Char) : withoutSeparators text <:+ text := by
  induction text using withoutSeparators.induct with
  | case1 text ih =>
      rw [withoutSeparators]
      exact ih.trans ((List.suffix_cons _ _).trans (List.suffix_cons _ _))
  | case2 text hseparator =>
      refine ⟨[], ?_⟩
      rw [List.nil_append, withoutSeparators_eq_self hseparator]

theorem afterGroup?_eq (text : List Char) :
    afterGroup? text = withoutGroups? (withoutSeparators text) := by
  induction text using withoutSeparators.induct with
  | case1 text ih => rw [afterGroup?, withoutSeparators, ih]
  | case2 text hseparator =>
      rw [withoutSeparators_eq_self hseparator]
      unfold afterGroup? withoutGroups?
      split
      next rest => exact absurd rfl (hseparator rest)
      next => rfl
      next hopening =>
          split
          next => exact absurd rfl (hopening _)
          next => rfl

/-- An offset as it is written in front of a target. -/
def offsetText (inside : List Char) : List Char := '\x7b' :: (inside ++ ['\x7d', ',', ' '])

theorem withoutGroups?_offsetText {inside : List Char} (hinside : '\x7d' ∉ inside)
    {text : List Char} (htext : text.head? ≠ some ',') :
    withoutGroups? (offsetText inside ++ text) = withoutGroups? text := by
  have hsplit : offsetText inside ++ text =
      '\x7b' :: (inside ++ '\x7d' :: ',' :: ' ' :: text) := by simp [offsetText]
  calc withoutGroups? (offsetText inside ++ text)
      = afterBrace? (inside ++ '\x7d' :: ',' :: ' ' :: text) := by rw [hsplit, withoutGroups?]
    _ = afterGroup? (',' :: ' ' :: text) := afterBrace?_append hinside _
    _ = withoutGroups? (withoutSeparators text) := by rw [afterGroup?_eq, withoutSeparators]
    _ = withoutGroups? text := by rw [withoutSeparators_of_ne htext]

/-- **Offsets are left out**, and no more is than would be without them. -/
theorem withoutGroups?_offsets {offsets : List (List Char)}
    (hoffsets : ∀ inside ∈ offsets, '\x7d' ∉ inside) {target : List Char}
    (htarget : offsets = [] ∨ target.head? ≠ some ',') :
    withoutGroups? (offsets.flatMap offsetText ++ target) = withoutGroups? target := by
  induction offsets with
  | nil => rfl
  | cons inside offsets ih =>
      rw [List.forall_mem_cons] at hoffsets
      have hcomma : target.head? ≠ some ',' := htarget.resolve_left (List.cons_ne_nil _ _)
      have hrest : (offsets.flatMap offsetText ++ target).head? ≠ some ',' := by
        cases offsets with
        | nil => exact hcomma
        | cons next offsets => simp [offsetText]
      rw [List.flatMap_cons, List.append_assoc, withoutGroups?_offsetText hoffsets.1 hrest,
        ih hoffsets.2 (.inr hcomma)]

mutual

theorem exists_front_of_afterBrace? : ∀ {text rest : List Char}, afterBrace? text = some rest →
    ∃ front, text = front ++ rest ∧ '\x7d' ∈ front
  | c :: text, rest, hrest => by
      rw [afterBrace?] at hrest
      by_cases hc : c = '\x7d'
      · rw [if_pos hc] at hrest
        obtain ⟨front, rfl⟩ := suffix_of_afterGroup? hrest
        exact ⟨c :: front, rfl, hc ▸ List.mem_cons_self⟩
      · rw [if_neg hc] at hrest
        obtain ⟨front, rfl, hmem⟩ := exists_front_of_afterBrace? hrest
        exact ⟨c :: front, rfl, List.mem_cons_of_mem c hmem⟩

theorem suffix_of_afterGroup? : ∀ {text rest : List Char}, afterGroup? text = some rest →
    rest <:+ text
  | [], rest, hrest => by
      cases hrest
      exact List.suffix_refl _
  | c :: text, rest, hrest => by
      unfold afterGroup? at hrest
      split at hrest
      next heq =>
          cases heq
          exact (suffix_of_afterGroup? hrest).trans ((List.suffix_cons _ _).trans
            (List.suffix_cons _ _))
      next heq =>
          cases heq
          obtain ⟨front, rfl, -⟩ := exists_front_of_afterBrace? hrest
          exact (List.suffix_append front rest).trans (List.suffix_cons _ _)
      next =>
          cases hrest
          exact List.suffix_refl _

end

theorem withoutGroups?_of_unbraced {text : List Char} (htext : text.head? ≠ some '\x7b') :
    withoutGroups? text = some text := by
  unfold withoutGroups?
  split
  next => exact absurd rfl htext
  next => rfl

/-- From a text that begins with a brace, at least the group is lost. -/
theorem exists_front_of_withoutGroups? {text rest : List Char}
    (htext : text.head? = some '\x7b') (hrest : withoutGroups? text = some rest) :
    ∃ front, text = front ++ rest ∧ '\x7d' ∈ front := by
  obtain ⟨inner, rfl⟩ := List.head?_eq_some_iff.mp htext
  rw [withoutGroups?] at hrest
  obtain ⟨front, rfl, hmem⟩ := exists_front_of_afterBrace? hrest
  exact ⟨'\x7b' :: front, rfl, List.mem_cons_of_mem _ hmem⟩

theorem withoutGroups?_eq_self_iff {text : List Char} :
    withoutGroups? text = some text ↔ text.head? ≠ some '\x7b' := by
  refine ⟨fun hself hbrace => ?_, withoutGroups?_of_unbraced⟩
  obtain ⟨front, hfront, hclosing⟩ := exists_front_of_withoutGroups? hbrace hself
  rw [List.self_eq_append_left.mp hfront] at hclosing
  cases hclosing

theorem head?_opening {wording : SpecialWording} (hmem : wording ∈ all) :
    wording.opening.toList.head? = some '\x7b' := by
  revert wording
  decide

/-- What is worded is never taken for what is written, for no label begins with a brace. -/
theorem label_append_ne_enclose {wording : SpecialWording} (hmem : wording ∈ all)
    (target body : List Char) : wording.label.toList ++ target ≠ wording.enclose body := by
  have hlabel : ∃ c, wording.label.toList.head? = some c ∧ c ≠ '\x7b' := by
    simp only [all, List.mem_cons, List.not_mem_nil, or_false] at hmem
    rcases hmem with rfl | rfl | rfl | rfl | rfl
    all_goals exact ⟨_, rfl, by decide⟩
  obtain ⟨c, hc, hne⟩ := hlabel
  intro heq
  have hhead := congrArg List.head? heq
  rw [enclose, List.head?_append, List.head?_append, hc, head?_opening hmem] at hhead
  exact hne (Option.some.inj hhead)

end SpecialWording

open SpecialWording

/-- What comes out for a symbol, if this is written for it, and the target should come behind the
label. -/
structure WordsTarget (symbol written label target : String) : Prop where
  whole_iff : specialName symbol written = label ++ target ↔ target.toList.head? ≠ some '\x7b'
  of_brace : target.toList.head? = some '\x7b' →
    specialName symbol written = written ∧ ¬ Closed target.toList ∨
      ∃ front rest, target = front ++ rest ∧ '\x7d' ∈ front.toList ∧
        specialName symbol written = label ++ rest

theorem specialName_enclose {symbol written : String} {wording : SpecialWording}
    (hwording : of? symbol.toList = some wording) {body : List Char}
    (hwritten : written.toList = wording.enclose body) :
    specialName symbol written =
      match withoutGroups? body with
      | none => written
      | some rest => wording.label ++ String.ofList rest := by
  rw [specialName, hwording, Option.bind_some, hwritten, worded?_enclose]
  cases withoutGroups? body with
  | none => rfl
  | some rest =>
      apply String.toList_inj.mp
      simp only [Option.map_some, String.toList_ofList, String.toList_append]

section

variable {symbol written : String} {wording : SpecialWording} (hmem : wording ∈ all)
  (hcode : wording.code.toList <+: symbol.toList) {body : List Char}
  (hwritten : written.toList = wording.enclose body)

include hmem hcode hwritten

theorem specialName_eq_label_append_iff {target : String} :
    specialName symbol written = wording.label ++ target ↔
      withoutGroups? body = some target.toList := by
  rw [specialName_enclose (of?_eq_some_iff.mpr ⟨hmem, hcode⟩) hwritten]
  cases withoutGroups? body with
  | none =>
      refine iff_of_false (fun heq => ?_) nofun
      have heq : written = wording.label ++ target := heq
      apply label_append_ne_enclose hmem target.toList body
      rw [← hwritten, heq, String.toList_append]
  | some rest =>
      rw [String.append_right_inj, Option.some.injEq, ← String.toList_inj, String.toList_ofList]

theorem wordsTarget {target : String}
    (hbody : withoutGroups? body = withoutGroups? target.toList) :
    WordsTarget symbol written wording.label target where
  whole_iff := by
    rw [specialName_eq_label_append_iff hmem hcode hwritten, hbody, withoutGroups?_eq_self_iff]
  of_brace := by
    intro hbrace
    have hname := specialName_enclose (of?_eq_some_iff.mpr ⟨hmem, hcode⟩) hwritten
    rw [hbody] at hname
    cases hrest : withoutGroups? target.toList with
    | none =>
        rw [hrest] at hname
        refine .inl ⟨hname, fun hclosed => ?_⟩
        obtain ⟨rest, hsome⟩ := exists_withoutGroups? hclosed
        cases hrest.symm.trans hsome
    | some rest =>
        rw [hrest] at hname
        obtain ⟨front, hfront, hclosing⟩ := exists_front_of_withoutGroups? hbrace hrest
        refine .inr ⟨String.ofList front, String.ofList rest, ?_, ?_, hname⟩
        · rw [← String.ofList_append, ← hfront, String.ofList_toList]
        · rwa [String.toList_ofList]

end

/-- A text in the braces of a wording. -/
def SpecialWording.text (wording : SpecialWording) (body : String) : String :=
  wording.opening ++ body ++ ")\x7d"

theorem SpecialWording.toList_text (wording : SpecialWording) (body : String) :
    (wording.text body).toList = wording.enclose body.toList := by
  rw [text, String.toList_append, String.toList_append, List.append_assoc]
  rfl

/-- **Which tables name their whole type.** Whatever the type is, it comes out whole behind the
label just if it begins with no brace. Otherwise a part of it is lost in front, or the text stays as
it is written because a group in the type is not closed. -/
theorem specialName_table (symbol type : String) :
    ("_ZTV".toList <+: symbol.toList →
        WordsTarget symbol ("\x7bvtable(" ++ type ++ ")\x7d") "vtable for " type) ∧
      ("_ZTT".toList <+: symbol.toList →
        WordsTarget symbol ("\x7bvtt(" ++ type ++ ")\x7d") "VTT for " type) := by
  constructor
  · intro hcode
    have hmem : ⟨"_ZTV", "\x7bvtable(", "vtable for "⟩ ∈ all := by decide
    exact wordsTarget hmem hcode (toList_text _ type) rfl
  · intro hcode
    have hmem : ⟨"_ZTT", "\x7bvtt(", "VTT for "⟩ ∈ all := by decide
    exact wordsTarget hmem hcode (toList_text _ type) rfl

/-- Braces that are not in front do no harm. -/
theorem specialName_table_of_closure :
    "_ZTV".toList <+: "_ZTVN1AUlvE_E".toList ∧
      specialName "_ZTVN1AUlvE_E" "\x7bvtable(A::\x7blambda()#1\x7d)\x7d" =
        "vtable for A::\x7blambda()#1\x7d" := by
  have hcode : "_ZTV".toList <+: "_ZTVN1AUlvE_E".toList := by decide
  have hwords := (specialName_table "_ZTVN1AUlvE_E" "A::\x7blambda()#1\x7d").1 hcode
  exact ⟨hcode, hwords.whole_iff.mpr (by decide)⟩

/-- A table for a member of a closure or of an unnamed type loses what the member is in. -/
theorem specialName_table_of_closure_member :
    demangle .complete "_ZTVNUlvE_1BE" = .ok "vtable for ::B" ∧
      specialName "_ZTVNUlvE_1BE" ("\x7bvtable(" ++ "\x7blambda()#1\x7d::B" ++ ")\x7d") ≠
        "vtable for " ++ "\x7blambda()#1\x7d::B" ∧
      specialName "_ZTTNUt_1BE" ("\x7bvtt(" ++ "\x7bunnamed type#1\x7d::B" ++ ")\x7d") ≠
        "VTT for " ++ "\x7bunnamed type#1\x7d::B" := by
  decide +kernel

/-- What is written for a thunk, with its offsets in front of its target. -/
def thunkText (offsets : List String) (target : String) : String :=
  "\x7bvirtual override thunk(" ++
    (String.join (offsets.map fun offset => "\x7b" ++ offset ++ "\x7d, ") ++ target) ++ ")\x7d"

theorem toList_join_offsets (offsets : List String) :
    (String.join (offsets.map fun offset => "\x7b" ++ offset ++ "\x7d, ")).toList =
      (offsets.map String.toList).flatMap offsetText := by
  induction offsets with
  | nil => rfl
  | cons offset offsets ih =>
      rw [List.map_cons, String.join_cons, String.toList_append, String.toList_append,
        String.toList_append, ih]
      rfl

/-- **Which thunks name their whole target.** -/
theorem specialName_thunk (symbol : String) {offsets : List String}
    (hoffsets : ∀ offset ∈ offsets, '\x7d' ∉ offset.toList) {target : String}
    (htarget : target.toList.head? ≠ some ',') :
    ("_ZTh".toList <+: symbol.toList →
        WordsTarget symbol (thunkText offsets target) "non-virtual thunk to " target) ∧
      ("_ZTv".toList <+: symbol.toList →
        WordsTarget symbol (thunkText offsets target) "virtual thunk to " target) ∧
      ("_ZTc".toList <+: symbol.toList →
        WordsTarget symbol (thunkText offsets target) "covariant return thunk to " target) := by
  have hbody : withoutGroups? (String.join
      (offsets.map fun offset => "\x7b" ++ offset ++ "\x7d, ") ++ target).toList =
      withoutGroups? target.toList := by
    rw [String.toList_append, toList_join_offsets]
    exact withoutGroups?_offsets (List.forall_mem_map.mpr hoffsets) (.inr htarget)
  refine ⟨fun hcode => ?_, fun hcode => ?_, fun hcode => ?_⟩
  · have hmem : ⟨"_ZTh", "\x7bvirtual override thunk(", "non-virtual thunk to "⟩ ∈ all := by decide
    exact wordsTarget hmem hcode (toList_text _ _) hbody
  · have hmem : ⟨"_ZTv", "\x7bvirtual override thunk(", "virtual thunk to "⟩ ∈ all := by decide
    exact wordsTarget hmem hcode (toList_text _ _) hbody
  · have hmem : ⟨"_ZTc", "\x7bvirtual override thunk(", "covariant return thunk to "⟩ ∈ all := by
      decide
    exact wordsTarget hmem hcode (toList_text _ _) hbody

/-- Two offsets are left out, and no braces behind them. -/
theorem specialName_thunk_to_closure :
    let target := "A::\x7blambda()#1\x7d::operator()() const"
    (∀ offset ∈ ["offset(0)", "virtual offset(0, -24)"], '\x7d' ∉ offset.toList) ∧
      target.toList.head? ≠ some ',' ∧ "_ZTc".toList <+: "_ZTch0_v0_n24_NK1AUlvE_clEv".toList ∧
      specialName "_ZTch0_v0_n24_NK1AUlvE_clEv"
          (thunkText ["offset(0)", "virtual offset(0, -24)"] target) =
        "covariant return thunk to A::\x7blambda()#1\x7d::operator()() const" := by
  intro target
  have hoffsets : ∀ offset ∈ ["offset(0)", "virtual offset(0, -24)"], '\x7d' ∉ offset.toList := by
    decide
  have htarget : target.toList.head? ≠ some ',' := by decide
  have hcode : "_ZTc".toList <+: "_ZTch0_v0_n24_NK1AUlvE_clEv".toList := by decide
  have hwords :=
    (specialName_thunk "_ZTch0_v0_n24_NK1AUlvE_clEv" hoffsets htarget).2.2 hcode
  exact ⟨hoffsets, htarget, hcode, hwords.whole_iff.mpr (by decide)⟩

/-- A thunk to a member of a closure loses the closure. -/
theorem specialName_thunk_to_closure_member :
    let target := "\x7blambda()#1\x7d::operator()() const"
    demangle .complete "_ZThn8_NKUlvE_clEv" = .ok "non-virtual thunk to ::operator()() const" ∧
      specialName "_ZThn8_NKUlvE_clEv" (thunkText ["offset(-8)"] target) ≠
        "non-virtual thunk to " ++ target ∧
      specialName "_ZTch0_h16_NKUlvE_clEv" (thunkText ["offset(0)", "offset(16)"] target) ≠
        "covariant return thunk to " ++ target := by
  decide +kernel

end MangledNames.Symbol

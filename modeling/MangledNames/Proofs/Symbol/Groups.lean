import MangledNames.Symbol.SpecialName

/-!
# Leaving groups out

A text in braces keeps them only if a group at its beginning is not closed. So it is enough that
behind every opening brace there is a closing one, wherever it stands (`Closed`): this survives when
the text goes on, and when a part of it is left out at the front, and a pair of braces has it
whatever stands between them.
-/

namespace MangledNames.Symbol

/-- Behind every opening brace there is a closing one. -/
def Closed : List Char → Prop
  | [] => True
  | c :: text => (c = '\x7b' → '\x7d' ∈ text) ∧ Closed text

namespace Closed

theorem append {text other : List Char} (htext : Closed text) (hother : Closed other) :
    Closed (text ++ other) := by
  induction text with
  | nil => exact hother
  | cons c text ih =>
      obtain ⟨hc, htext⟩ := htext
      exact ⟨fun hopening => List.mem_append_left other (hc hopening), ih htext⟩

theorem of_not_mem {text : List Char} (htext : '\x7b' ∉ text) : Closed text := by
  induction text with
  | nil => trivial
  | cons c text ih =>
      obtain ⟨hc, htext⟩ := not_or.mp (mt List.mem_cons.mpr htext)
      exact ⟨fun hopening => absurd hopening.symm hc, ih htext⟩

/-- A closing brace at the end closes whatever has been opened. -/
theorem append_brace (text : List Char) : Closed (text ++ ['\x7d']) := by
  induction text with
  | nil => exact ⟨by decide, trivial⟩
  | cons c text ih => exact ⟨fun _ => List.mem_append_right text (List.mem_singleton.mpr rfl), ih⟩

end Closed

namespace SpecialWording

mutual

theorem exists_afterBrace? : ∀ {text : List Char}, Closed text → '\x7d' ∈ text →
    ∃ rest, afterBrace? text = some rest
  | c :: text, ⟨_, hclosed⟩, hmem => by
      rw [afterBrace?]
      by_cases hc : c = '\x7d'
      · rw [if_pos hc]
        exact exists_afterGroup? hclosed
      · rw [if_neg hc]
        exact exists_afterBrace? hclosed ((List.mem_cons.mp hmem).resolve_left (Ne.symm hc))

theorem exists_afterGroup? : ∀ {text : List Char}, Closed text →
    ∃ rest, afterGroup? text = some rest
  | [], _ => ⟨[], rfl⟩
  | c :: text, ⟨hc, hclosed⟩ => by
      unfold afterGroup?
      split
      next heq =>
          cases heq
          exact exists_afterGroup? hclosed.2
      next heq =>
          cases heq
          exact exists_afterBrace? hclosed (hc rfl)
      next => exact ⟨_, rfl⟩

end

theorem exists_withoutGroups? {text : List Char} (hclosed : Closed text) :
    ∃ rest, withoutGroups? text = some rest := by
  unfold withoutGroups?
  split
  next text => exact exists_afterBrace? hclosed.2 (hclosed.1 rfl)
  next => exact ⟨_, rfl⟩

/-- A text in the braces of a wording, as it is written before it is worded. -/
def enclose (wording : SpecialWording) (body : List Char) : List Char :=
  wording.opening.toList ++ (body ++ closing)

theorem body?_enclose (wording : SpecialWording) (body : List Char) :
    wording.body? (wording.enclose body) = some body := by
  have hprefix : wording.opening.toList.isPrefixOf (wording.enclose body) :=
    List.isPrefixOf_iff_prefix.mpr (List.prefix_append _ _)
  have hsuffix : closing.isSuffixOf (body ++ closing) :=
    List.isSuffixOf_iff_suffix.mpr (List.suffix_append _ _)
  rw [body?, if_pos hprefix, enclose, List.drop_left]
  simp only [hsuffix, if_true, List.length_append, Nat.add_sub_cancel, List.take_left]

theorem body?_eq_some_iff {wording : SpecialWording} {written body : List Char} :
    wording.body? written = some body ↔ written = wording.enclose body := by
  refine ⟨fun hbody => ?_, fun hwritten => hwritten ▸ body?_enclose wording body⟩
  unfold body? at hbody
  split at hbody
  next hprefix =>
      obtain ⟨rest, rfl⟩ := List.isPrefixOf_iff_prefix.mp hprefix
      simp only [List.drop_left] at hbody
      split at hbody
      next hsuffix =>
          obtain ⟨front, rfl⟩ := List.isSuffixOf_iff_suffix.mp hsuffix
          rw [List.length_append, Nat.add_sub_cancel, List.take_left, Option.some.injEq] at hbody
          rw [enclose, hbody]
      next => cases hbody
  next => cases hbody

theorem worded?_enclose (wording : SpecialWording) (body : List Char) :
    wording.worded? (wording.enclose body) =
      (withoutGroups? body).map (wording.label.toList ++ ·) := by
  rw [worded?, body?_enclose, Option.bind_some]

/-- **A closed text in braces is worded.** -/
theorem exists_worded? (wording : SpecialWording) {body : List Char} (hbody : Closed body) :
    ∃ rest, wording.worded? (wording.enclose body) = some (wording.label.toList ++ rest) := by
  obtain ⟨rest, hrest⟩ := exists_withoutGroups? hbody
  refine ⟨rest, ?_⟩
  rw [worded?_enclose, hrest, Option.map_some]

/-- The codes are as long as each other and all different, so none hides another. -/
theorem of?_eq_some_iff {symbol : List Char} {wording : SpecialWording} :
    of? symbol = some wording ↔ wording ∈ all ∧ wording.code.toList <+: symbol := by
  constructor
  · intro hwording
    have hcode := List.find?_some hwording
    exact ⟨List.mem_of_find?_eq_some hwording, List.isPrefixOf_iff_prefix.mp hcode⟩
  · rintro ⟨hmem, rest, rfl⟩
    simp only [all, List.mem_cons, List.not_mem_nil, or_false] at hmem
    rcases hmem with rfl | rfl | rfl | rfl | rfl <;> rfl

end SpecialWording

theorem exists_specialName {symbol : String} {wording : SpecialWording}
    (hwording : SpecialWording.of? symbol.toList = some wording) {body : List Char}
    (hbody : Closed body) :
    ∃ rest, specialName symbol (String.ofList (wording.enclose body)) =
      String.ofList (wording.label.toList ++ rest) := by
  obtain ⟨rest, hrest⟩ := wording.exists_worded? hbody
  refine ⟨rest, ?_⟩
  rw [specialName, hwording, Option.bind_some, String.toList_ofList, hrest]

/-- A text that is not in the braces of the selected wording stays as it is. -/
theorem specialName_eq_self {symbol written : String}
    (hwritten : ∀ wording, SpecialWording.of? symbol.toList = some wording →
      ∀ body, written.toList ≠ wording.enclose body) : specialName symbol written = written := by
  unfold specialName
  cases hwording : SpecialWording.of? symbol.toList with
  | none => rfl
  | some wording =>
      have hbody : wording.body? written.toList = none :=
        Option.eq_none_iff_forall_ne_some.mpr fun body hbody =>
          hwritten wording hwording body (SpecialWording.body?_eq_some_iff.mp hbody)
      rw [Option.bind_some, SpecialWording.worded?, hbody]
      rfl

end MangledNames.Symbol

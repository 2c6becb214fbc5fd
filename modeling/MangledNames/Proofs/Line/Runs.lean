import Mathlib.Algebra.Ring.Parity
import Mathlib.Data.List.DropRight
import MangledNames.Proofs.Line.Pieces

/-!
# Candidates by their places in the line

Token bytes come in runs. In a run, a mark is an underscore with a `Z` behind it, if the underscores
in a row up to it are odd in number: the ones before it pair off and are passed over two at a time.
A run has a candidate if it has a mark, and the candidate goes from the first mark to the end of the
run. Nothing here speaks of states or of reading from left to right.

A place is fresh if cutting may begin there: what its run has before it leaves no mark and no
underscore without a partner. Runs begin at fresh places (`fresh_of_not_tokenAt`), and what is cut
off as a byte or as a pair leads from one fresh place to the next.
-/

namespace MangledNames.Line

variable {text : List UInt8}

def TokenAt (text : List UInt8) (pos : Nat) : Prop :=
  ∃ byte, text[pos]? = some byte ∧ isTokenByte byte = true

/-- Token bytes, and none on either side of them. -/
structure IsRun (text : List UInt8) (run : Span) : Prop where
  nonempty : run.start < run.stop
  tokenAt : ∀ pos, run.start ≤ pos → pos < run.stop → TokenAt text pos
  left : ∀ pos, pos + 1 = run.start → ¬ TokenAt text pos
  right : ¬ TokenAt text run.stop

/-- How many underscores stand in a row right before a place. -/
def underscoresBefore (text : List UInt8) (pos : Nat) : Nat :=
  ((text.take pos).rtakeWhile (· = underscore)).length

structure IsMark (text : List UInt8) (pos : Nat) : Prop where
  underscore_at : text[pos]? = some underscore
  capitalZ_at : text[pos + 1]? = some capitalZ
  odd : Odd (underscoresBefore text (pos + 1))

/-- From the first mark of a run to its end. -/
structure IsCandidate (text : List UInt8) (span : Span) : Prop where
  run : ∃ start, IsRun text ⟨start, span.stop⟩ ∧ start ≤ span.start ∧
    ∀ pos, start ≤ pos → pos < span.start → ¬ IsMark text pos
  inside : span.start + 1 < span.stop
  mark : IsMark text span.start

theorem tokenAt_of_getElem? {pos : Nat} {byte : UInt8} (hbyte : text[pos]? = some byte)
    (htoken : isTokenByte byte = true) : TokenAt text pos := ⟨byte, hbyte, htoken⟩

theorem IsMark.tokenAt {pos : Nat} (hmark : IsMark text pos) : TokenAt text pos :=
  tokenAt_of_getElem? hmark.underscore_at isTokenByte_underscore

theorem underscoresBefore_zero : underscoresBefore text 0 = 0 := by
  simp [underscoresBefore]

theorem underscoresBefore_succ {pos : Nat} (hbyte : text[pos]? = some underscore) :
    underscoresBefore text (pos + 1) = underscoresBefore text pos + 1 := by
  unfold underscoresBefore
  rw [List.take_add_one, hbyte, Option.toList_some, List.rtakeWhile_concat_pos _ _ _ (by simp),
    List.length_append, List.length_singleton]

theorem underscoresBefore_succ_of_ne {pos : Nat} {byte : UInt8} (hbyte : text[pos]? = some byte)
    (hne : byte ≠ underscore) : underscoresBefore text (pos + 1) = 0 := by
  unfold underscoresBefore
  rw [List.take_add_one, hbyte, Option.toList_some, List.rtakeWhile_concat_neg _ _ _ (by simpa)]
  rfl

/-- Every token byte is in a run. -/
theorem exists_run_start {pos : Nat} (htoken : TokenAt text pos) :
    ∃ start, start ≤ pos ∧ (∀ place, start ≤ place → place ≤ pos → TokenAt text place) ∧
      ∀ place, place + 1 = start → ¬ TokenAt text place := by
  induction pos with
  | zero =>
      refine ⟨0, Nat.le_refl 0, ?_, by omega⟩
      intro place _ hplace
      have hzero : place = 0 := by omega
      exact hzero ▸ htoken
  | succ pos ih =>
      by_cases hbefore : TokenAt text pos
      · obtain ⟨start, hstart, htokens, hleft⟩ := ih hbefore
        refine ⟨start, Nat.le_succ_of_le hstart, ?_, hleft⟩
        intro place hlow hhigh
        by_cases heq : place = pos + 1
        · exact heq ▸ htoken
        · exact htokens place hlow (by omega)
      · refine ⟨pos + 1, Nat.le_refl _, ?_, ?_⟩
        · intro place hlow hhigh
          have heq : place = pos + 1 := by omega
          exact heq ▸ htoken
        · intro place hplace
          have heq : place = pos := by omega
          exact heq ▸ hbefore

/-- A run takes in all token bytes that it reaches, and stops with them. -/
theorem IsRun.eq_of_mem {run : Span} (hrun : IsRun text run) {pos stop inner : Nat}
    (htokens : ∀ place, pos ≤ place → place < stop → TokenAt text place)
    (hstop : ¬ TokenAt text stop) (hlow : run.start ≤ inner) (hhigh : inner < run.stop)
    (hpos : pos ≤ inner) (hinner : inner < stop) : run.start ≤ pos ∧ run.stop = stop := by
  constructor
  · by_contra hlt
    have hbefore := htokens (run.start - 1) (by omega) (by omega)
    exact hrun.left (run.start - 1) (by omega) hbefore
  · rcases Nat.lt_trichotomy run.stop stop with hlt | heq | hgt
    · exact absurd (htokens run.stop (by omega) hlt) hrun.right
    · exact heq
    · exact absurd (hrun.tokenAt stop (by omega) hgt) hstop

/-- If the place is in a run, no mark of the run is before it, and no underscore without a
partner. -/
def Fresh (text : List UInt8) (pos : Nat) : Prop :=
  TokenAt text pos →
    Even (underscoresBefore text pos) ∧
      ∀ mark, mark < pos → (∀ place, mark ≤ place → place < pos → TokenAt text place) →
        ¬ IsMark text mark

theorem fresh_zero (text : List UInt8) : Fresh text 0 := by
  intro _
  refine ⟨?_, by omega⟩
  rw [underscoresBefore_zero]
  exact Even.zero

theorem fresh_of_not_tokenAt {pos : Nat} (hpos : ¬ TokenAt text pos) : Fresh text pos :=
  fun htoken => absurd htoken hpos

/-- A byte that is no underscore leads on to a fresh place. -/
theorem Fresh.succ {pos : Nat} {byte : UInt8} (hfresh : Fresh text pos)
    (hbyte : text[pos]? = some byte) (hne : byte ≠ underscore) : Fresh text (pos + 1) := by
  intro _
  refine ⟨?_, ?_⟩
  · rw [underscoresBefore_succ_of_ne hbyte hne]
    exact Even.zero
  · intro mark hmark htokens hisMark
    by_cases heq : mark = pos
    · subst heq
      have hat := hisMark.underscore_at
      rw [hbyte, Option.some.injEq] at hat
      exact hne hat
    · have htoken := htokens pos (by omega) (Nat.lt_succ_self pos)
      exact (hfresh htoken).2 mark (by omega) (fun place hlow hhigh =>
        htokens place hlow (by omega)) hisMark

/-- An underscore and the byte after it pair off. -/
theorem Fresh.even_pair {pos : Nat} {next : UInt8} (hfresh : Fresh text pos)
    (hpos : text[pos]? = some underscore) (hnext : text[pos + 1]? = some next) :
    Even (underscoresBefore text (pos + 2)) := by
  by_cases heq : next = underscore
  · have heven := (hfresh (tokenAt_of_getElem? hpos isTokenByte_underscore)).1
    rw [underscoresBefore_succ (hnext.trans (congrArg some heq)), underscoresBefore_succ hpos]
    exact heven.add (by decide : Even 2)
  · rw [underscoresBefore_succ_of_ne hnext heq]
    exact Even.zero

theorem Fresh.not_isMark_pair {pos : Nat} {next : UInt8} (hfresh : Fresh text pos)
    (hpos : text[pos]? = some underscore) (hnext : text[pos + 1]? = some next)
    (hne : next ≠ capitalZ) {mark : Nat} (hlow : pos ≤ mark) (hhigh : mark < pos + 2) :
    ¬ IsMark text mark := by
  intro hmark
  have hcases : mark = pos ∨ mark = pos + 1 := by omega
  rcases hcases with rfl | rfl
  · have hat := hmark.capitalZ_at
    rw [hnext, Option.some.injEq] at hat
    exact hne hat
  · exact Nat.not_odd_iff_even.mpr (hfresh.even_pair hpos hnext) hmark.odd

theorem Fresh.pair {pos : Nat} {next : UInt8} (hfresh : Fresh text pos)
    (hpos : text[pos]? = some underscore) (hnext : text[pos + 1]? = some next)
    (hne : next ≠ capitalZ) : Fresh text (pos + 2) := by
  intro _
  refine ⟨hfresh.even_pair hpos hnext, ?_⟩
  intro mark hmark htokens
  by_cases hlow : pos ≤ mark
  · exact hfresh.not_isMark_pair hpos hnext hne hlow hmark
  · have htoken := htokens pos (by omega) (by omega)
    exact (hfresh htoken).2 mark (by omega) fun place hplace hlt =>
      htokens place hplace (by omega)

/-- At a fresh place, an underscore before a `Z` is a mark. -/
theorem Fresh.isMark {pos : Nat} (hfresh : Fresh text pos) (hpos : text[pos]? = some underscore)
    (hnext : text[pos + 1]? = some capitalZ) : IsMark text pos where
  underscore_at := hpos
  capitalZ_at := hnext
  odd := by
    rw [underscoresBefore_succ hpos]
    exact (hfresh (tokenAt_of_getElem? hpos isTokenByte_underscore)).1.add_one

/-- A mark at a fresh place begins a candidate, and its run has no other. -/
theorem Fresh.isCandidate_iff {pos stop : Nat} (hfresh : Fresh text pos) (hmark : IsMark text pos)
    (hinside : pos + 1 < stop)
    (htokens : ∀ place, pos ≤ place → place < stop → TokenAt text place)
    (hstop : ¬ TokenAt text stop) {span : Span} :
    IsCandidate text span ∧ pos ≤ span.start ↔
      span = ⟨pos, stop⟩ ∨ IsCandidate text span ∧ stop ≤ span.start := by
  constructor
  · rintro ⟨hcandidate, hle⟩
    by_cases hlt : span.start < stop
    · left
      obtain ⟨start, hrun, hstart, hfirst⟩ := hcandidate.run
      have hspan : span.start < span.stop := Nat.lt_of_succ_lt hcandidate.inside
      obtain ⟨hreach, heq⟩ := hrun.eq_of_mem htokens hstop hstart hspan hle hlt
      -- the run reaches back to the mark at `pos`, so that a later one is not its first
      have hpos : span.start = pos := by
        by_contra hne
        exact hfirst pos hreach (by omega) hmark
      cases span
      simp only at hpos heq
      rw [hpos, heq]
    · exact Or.inr ⟨hcandidate, by omega⟩
  · rintro (rfl | ⟨hcandidate, hle⟩)
    · obtain ⟨start, hstart, hbefore, hleft⟩ := exists_run_start hmark.tokenAt
      refine ⟨⟨⟨start, ?_, hstart, ?_⟩, hinside, hmark⟩, Nat.le_refl pos⟩
      · refine ⟨Nat.lt_of_le_of_lt hstart (Nat.lt_of_succ_lt hinside), ?_, hleft, hstop⟩
        intro place hlow hhigh
        by_cases hplace : place ≤ pos
        · exact hbefore place hlow hplace
        · exact htokens place (by omega) hhigh
      · intro place hlow hhigh
        exact (hfresh hmark.tokenAt).2 place hhigh fun other hother hlt =>
          hbefore other (by omega) (by omega)
    · exact ⟨hcandidate, by omega⟩

end MangledNames.Line

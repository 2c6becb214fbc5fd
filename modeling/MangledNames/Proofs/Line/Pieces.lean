import Mathlib.Data.List.Chain
import Mathlib.Data.List.TakeWhile
import MangledNames.Line.Scanner
import MangledNames.Proofs.Text.Ascii

/-!
# A line cut into pieces

The scanner counts positions and keeps a literal segment open. What it recognises does not depend on
either, and is said here by recursion on the bytes that are left: a line is cut into candidates and
single bytes between them. An underscore that begins no candidate takes the byte after it along,
which is how that byte escapes being looked at again.

The cut depends on the line only. A boundary is a place where no token byte comes next; cutting
respects boundaries (`pieces_append`), because a candidate cannot cross one and an underscore before
it takes along a byte that would have been a piece on its own anyway.
-/

namespace MangledNames.Line

inductive Piece where
  | single (byte : UInt8)
  | candidate (bytes : List UInt8)
  deriving DecidableEq, Repr

def Piece.bytes : Piece → List UInt8
  | single byte => [byte]
  | candidate bytes => bytes

/-- The pieces of a text that begins outside of a candidate. -/
def pieces : List UInt8 → List Piece
  | [] => []
  | [byte] => [.single byte]
  | byte :: next :: rest =>
    if byte = underscore then
      if next = capitalZ then
        .candidate (byte :: next :: rest.takeWhile isTokenByte) ::
          pieces (rest.dropWhile isTokenByte)
      else .single byte :: .single next :: pieces rest
    else .single byte :: pieces (next :: rest)
termination_by line => line.length
decreasing_by
  · have hle := List.length_dropWhile_le isTokenByte rest
    simp only [List.length_cons]
    omega
  · simp only [List.length_cons]
    omega
  · simp

@[simp]
theorem isTokenByte_underscore : isTokenByte underscore = true := by decide

theorem ne_underscore_of_not_token {byte : UInt8} (hbyte : isTokenByte byte = false) :
    byte ≠ underscore := by
  rintro rfl
  simp at hbyte

theorem ne_capitalZ_of_not_token {byte : UInt8} (hbyte : isTokenByte byte = false) :
    byte ≠ capitalZ := by
  rintro rfl
  exact absurd hbyte (by decide)

/-- The underscore, the digits, and the letters of both kinds. -/
theorem toNat_of_isTokenByte {byte : UInt8} (hbyte : isTokenByte byte = true) :
    byte.toNat = 95 ∨ 48 ≤ byte.toNat ∧ byte.toNat ≤ 57 ∨
      65 ≤ byte.toNat ∧ byte.toNat ≤ 90 ∨ 97 ≤ byte.toNat ∧ byte.toNat ≤ 122 := by
  simp only [isTokenByte, Bool.or_eq_true, Bool.and_eq_true, decide_eq_true_eq,
    UInt8.le_iff_toNat_le] at hbyte
  rcases hbyte with ((rfl | hdigit) | hcapital) | hsmall
  · exact .inl rfl
  · exact .inr (.inl hdigit)
  · exact .inr (.inr (.inl hcapital))
  · exact .inr (.inr (.inr hsmall))

theorem lt_of_isTokenByte {byte : UInt8} (hbyte : isTokenByte byte = true) : byte < 128 := by
  have hranges := toNat_of_isTokenByte hbyte
  rw [UInt8.lt_iff_toNat_lt]
  change byte.toNat < 128
  omega

@[simp]
theorem pieces_nil : pieces [] = [] := by
  rw [pieces]

theorem pieces_cons_of_ne {byte : UInt8} (hbyte : byte ≠ underscore) (rest : List UInt8) :
    pieces (byte :: rest) = .single byte :: pieces rest := by
  cases rest with
  | nil => simp [pieces]
  | cons next rest => rw [pieces, if_neg hbyte]

theorem pieces_underscore : pieces [underscore] = [.single underscore] := by
  rw [pieces]

theorem pieces_mark (rest : List UInt8) :
    pieces (underscore :: capitalZ :: rest) =
      .candidate (underscore :: capitalZ :: rest.takeWhile isTokenByte) ::
        pieces (rest.dropWhile isTokenByte) := by
  rw [pieces, if_pos rfl, if_pos rfl]

theorem pieces_underscore_of_ne {next : UInt8} (hnext : next ≠ capitalZ) (rest : List UInt8) :
    pieces (underscore :: next :: rest) = .single underscore :: .single next :: pieces rest := by
  rw [pieces, if_pos rfl, if_neg hnext]

/-- Nothing is lost or moved. -/
theorem flatMap_bytes_pieces (line : List UInt8) : (pieces line).flatMap Piece.bytes = line := by
  fun_induction pieces line with
  | case1 => rfl
  | case2 byte => rfl
  | case3 rest ih =>
      rw [List.flatMap_cons, ih]
      simp [Piece.bytes]
  | case4 next rest hnext ih =>
      rw [List.flatMap_cons, List.flatMap_cons, ih]
      rfl
  | case5 byte next rest hbyte ih =>
      rw [List.flatMap_cons, ih]
      rfl

/-- The mark, and token bytes after it. -/
def IsCandidateText (bytes : List UInt8) : Prop :=
  ∃ rest, bytes = underscore :: capitalZ :: rest ∧ ∀ byte ∈ rest, isTokenByte byte = true

theorem IsCandidateText.isTokenByte {bytes : List UInt8} (htext : IsCandidateText bytes) :
    ∀ byte ∈ bytes, isTokenByte byte = true := by
  obtain ⟨rest, rfl, hrest⟩ := htext
  intro byte hmem
  simp only [List.mem_cons] at hmem
  rcases hmem with rfl | rfl | hmem
  · decide
  · decide
  · exact hrest byte hmem

theorem IsCandidateText.lt {bytes : List UInt8} (htext : IsCandidateText bytes) :
    ∀ byte ∈ bytes, byte < 128 :=
  fun byte hmem => lt_of_isTokenByte (htext.isTokenByte byte hmem)

theorem IsCandidateText.length_pos {bytes : List UInt8} (htext : IsCandidateText bytes) :
    0 < bytes.length := by
  obtain ⟨rest, rfl, _⟩ := htext
  simp

theorem isCandidateText_mark (rest : List UInt8) :
    IsCandidateText (underscore :: capitalZ :: rest.takeWhile isTokenByte) :=
  ⟨_, rfl, fun _ hmem => List.mem_takeWhile_imp hmem⟩

theorem isCandidateText_of_mem {line bytes : List UInt8} (hmem : .candidate bytes ∈ pieces line) :
    IsCandidateText bytes := by
  fun_induction pieces line with
  | case1 => simp at hmem
  | case2 byte => simp at hmem
  | case3 rest ih =>
      rcases List.mem_cons.mp hmem with heq | hmem
      · rw [Piece.candidate.inj heq]
        exact isCandidateText_mark rest
      · exact ih hmem
  | case4 next rest hnext ih =>
      simp only [List.mem_cons, reduceCtorEq, false_or] at hmem
      exact ih hmem
  | case5 byte next rest hbyte ih =>
      simp only [List.mem_cons, reduceCtorEq, false_or] at hmem
      exact ih hmem

/-- A candidate on its own is one piece. -/
theorem pieces_of_isCandidateText {bytes : List UInt8} (htext : IsCandidateText bytes) :
    pieces bytes = [.candidate bytes] := by
  obtain ⟨rest, rfl, hrest⟩ := htext
  rw [pieces_mark, List.takeWhile_eq_self_iff.mpr hrest, List.dropWhile_eq_nil_iff.mpr hrest,
    pieces_nil]

/-- No token byte comes next. -/
def AtBoundary (rest : List UInt8) : Prop :=
  ∀ byte, rest.head? = some byte → isTokenByte byte = false

theorem atBoundary_nil : AtBoundary [] := by
  simp [AtBoundary]

theorem atBoundary_cons {byte : UInt8} {rest : List UInt8} :
    AtBoundary (byte :: rest) ↔ isTokenByte byte = false := by
  simp [AtBoundary]

theorem atBoundary_dropWhile (rest : List UInt8) : AtBoundary (rest.dropWhile isTokenByte) := by
  intro byte hbyte
  have hnot := List.head?_dropWhile_not isTokenByte rest
  rw [hbyte] at hnot
  simpa using hnot

theorem takeWhile_of_atBoundary {rest : List UInt8} (hrest : AtBoundary rest) :
    rest.takeWhile isTokenByte = [] := by
  cases rest with
  | nil => rfl
  | cons byte rest => simp [atBoundary_cons.mp hrest]

theorem dropWhile_of_atBoundary {rest : List UInt8} (hrest : AtBoundary rest) :
    rest.dropWhile isTokenByte = rest := by
  cases rest with
  | nil => rfl
  | cons byte rest => simp [atBoundary_cons.mp hrest]

theorem takeWhile_append_atBoundary (left : List UInt8) {right : List UInt8}
    (hright : AtBoundary right) :
    (left ++ right).takeWhile isTokenByte = left.takeWhile isTokenByte := by
  rw [List.takeWhile_append, takeWhile_of_atBoundary hright, List.append_nil]
  split
  next hlength =>
    exact ((List.takeWhile_prefix isTokenByte).eq_of_length hlength).symm
  next => rfl

theorem dropWhile_append_atBoundary (left : List UInt8) {right : List UInt8}
    (hright : AtBoundary right) :
    (left ++ right).dropWhile isTokenByte = left.dropWhile isTokenByte ++ right := by
  rw [List.dropWhile_append, dropWhile_of_atBoundary hright]
  split
  next hempty => rw [List.isEmpty_iff.mp hempty, List.nil_append]
  next => rfl

/-- **Cutting respects boundaries.** What stands on one side of a boundary does not change the
pieces on the other side. -/
theorem pieces_append (left : List UInt8) {right : List UInt8} (hright : AtBoundary right) :
    pieces (left ++ right) = pieces left ++ pieces right := by
  fun_induction pieces left with
  | case1 => rfl
  | case2 byte =>
      by_cases hbyte : byte = underscore
      · subst hbyte
        cases right with
        | nil => simp [pieces_underscore]
        | cons next rest =>
            -- the underscore takes along a byte that is a piece anyway
            have hnext := atBoundary_cons.mp hright
            rw [List.singleton_append,
              pieces_underscore_of_ne (ne_capitalZ_of_not_token hnext),
              pieces_cons_of_ne (ne_underscore_of_not_token hnext), List.singleton_append]
      · rw [List.singleton_append, pieces_cons_of_ne hbyte, List.singleton_append]
  | case3 rest ih =>
      rw [List.cons_append, List.cons_append, pieces_mark,
        takeWhile_append_atBoundary rest hright, dropWhile_append_atBoundary rest hright, ih,
        List.cons_append]
  | case4 next rest hnext ih =>
      rw [List.cons_append, List.cons_append, pieces_underscore_of_ne hnext, ih,
        List.cons_append, List.cons_append]
  | case5 byte next rest hbyte ih =>
      rw [List.cons_append, pieces_cons_of_ne hbyte, ih, List.cons_append]

/-- A separator is a piece of its own, with the pieces of both sides around it. -/
theorem pieces_separator (left right : List UInt8) {separator : UInt8}
    (hseparator : isTokenByte separator = false) :
    pieces (left ++ separator :: right) = pieces left ++ .single separator :: pieces right := by
  rw [pieces_append left (atBoundary_cons.mpr hseparator),
    pieces_cons_of_ne (ne_underscore_of_not_token hseparator)]

/-- A candidate is followed by a byte that is none of its own. -/
theorem isChain_pieces (line : List UInt8) :
    (pieces line).IsChain fun piece next =>
      ∀ bytes others, piece = .candidate bytes → next ≠ .candidate others := by
  fun_induction pieces line with
  | case1 => exact .nil
  | case2 byte => exact .singleton _
  | case3 rest ih =>
      refine List.isChain_cons.mpr ⟨?_, ih⟩
      intro next hnext bytes others _ heq
      have hboundary := atBoundary_dropWhile rest
      cases hdrop : rest.dropWhile isTokenByte with
      | nil => simp [hdrop] at hnext
      | cons byte tail =>
          rw [hdrop] at hboundary
          have hbyte := ne_underscore_of_not_token (atBoundary_cons.mp hboundary)
          rw [hdrop, pieces_cons_of_ne hbyte] at hnext
          simp [heq] at hnext
  | case4 next rest hnext ih =>
      refine List.isChain_cons.mpr ⟨by simp, List.isChain_cons.mpr ⟨by simp, ih⟩⟩
  | case5 byte next rest hbyte ih =>
      exact List.isChain_cons.mpr ⟨by simp, ih⟩

end MangledNames.Line

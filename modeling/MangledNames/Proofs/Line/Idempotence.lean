import MangledNames.Proofs.Line.Assembly

/-!
# Scanning twice

What a scan writes can be scanned again. The names that it wrote come back as single bytes if none
of them contains `_Z`, and the candidates without a name come back as they were
(`pieces_rewritten`). So the second scan has nothing to translate and writes what it reads
(`scan_idempotent`).

A name stands right after bytes that the first scan passed over, and may begin with `Z`. Still no
candidate arises where they meet. The underscores before a candidate were passed over in pairs, and
a pair is a pair whatever follows it. On the other side of the name is a boundary.
-/

namespace MangledNames.Line

section

variable (demangler : Demangler) (brackets : Bool)

/-- The pieces of what is written for a piece. -/
def Piece.again : Piece → List Piece
  | single byte => [.single byte]
  | candidate bytes =>
    match demangler (Text.ofAscii bytes) with
    | .ok _ => ((candidate bytes).written demangler brackets).map .single
    | .error _ => [.candidate bytes]

end

theorem pieces_of_unmarked {bytes : List UInt8}
    (hunmarked : ¬ [underscore, capitalZ] <:+: bytes) : pieces bytes = bytes.map .single := by
  fun_induction pieces bytes with
  | case1 => rfl
  | case2 byte => rfl
  | case3 rest ih => exact absurd ⟨[], rest, rfl⟩ hunmarked
  | case4 next rest hnext ih =>
      have hrest : ¬ [underscore, capitalZ] <:+: rest := fun hwithin =>
        hunmarked (hwithin.trans ⟨[underscore, next], [], List.append_nil _⟩)
      rw [ih hrest]
      rfl
  | case5 byte next rest hbyte ih =>
      have hrest : ¬ [underscore, capitalZ] <:+: next :: rest := fun hwithin =>
        hunmarked (hwithin.trans (List.suffix_cons _ _).isInfix)
      rw [ih hrest]
      rfl

theorem pieces_bracketed (brackets : Bool) {bytes : List UInt8}
    (hunmarked : ¬ [underscore, capitalZ] <:+: bytes) :
    pieces (bracketed brackets '['.toUInt8 ']'.toUInt8 bytes) =
      (bracketed brackets '['.toUInt8 ']'.toUInt8 bytes).map .single := by
  have hopen : '['.toUInt8 ≠ underscore := by decide
  have hclose : AtBoundary [']'.toUInt8] := atBoundary_cons.mpr (by decide)
  have hlast : pieces [']'.toUInt8] = [.single ']'.toUInt8] := by rw [pieces]
  cases brackets with
  | false => exact pieces_of_unmarked hunmarked
  | true =>
      simp only [bracketed, if_true]
      rw [pieces_cons_of_ne hopen, pieces_append _ hclose, pieces_of_unmarked hunmarked, hlast]
      simp

/-- The bytes of a name have a mark only if its text does. -/
theorem unmarked_utf8 {name : String} (hname : ¬ ['_', 'Z'] <:+: name.toList) :
    ¬ [underscore, capitalZ] <:+: Text.utf8 name := by
  intro hwithin
  have hmark : IsCandidateText [underscore, capitalZ] := isCandidateText_mark []
  exact hname (Text.map_isInfix_of_utf8 (List.cons_ne_nil _ _) hmark.lt hwithin)

/-- Nothing that is written moves a boundary. -/
theorem atBoundary_flatMap_written (demangler : Demangler) (brackets : Bool) {rest : List UInt8}
    (hrest : AtBoundary rest) :
    AtBoundary ((pieces rest).flatMap (Piece.written demangler brackets)) := by
  cases rest with
  | nil =>
      rw [pieces_nil, List.flatMap_nil]
      exact atBoundary_nil
  | cons byte rest =>
      have hbyte := atBoundary_cons.mp hrest
      rw [pieces_cons_of_ne (ne_underscore_of_not_token hbyte), List.flatMap_cons]
      exact atBoundary_cons.mpr hbyte

section

variable {demangler : Demangler}
  (hnames : ∀ symbol name, demangler symbol = .ok name → ¬ ['_', 'Z'] <:+: name.toList)

include hnames

theorem pieces_written (brackets : Bool) {bytes : List UInt8} (htext : IsCandidateText bytes) :
    pieces ((Piece.candidate bytes).written demangler brackets) =
      (Piece.candidate bytes).again demangler brackets := by
  cases hanswer : demangler (Text.ofAscii bytes) with
  | ok name =>
      have hunmarked := unmarked_utf8 (hnames _ _ hanswer)
      simp only [Piece.written, Piece.again, hanswer]
      exact pieces_bracketed brackets hunmarked
  | error failure =>
      simp only [Piece.written, Piece.again, hanswer]
      exact pieces_of_isCandidateText htext

/-- **What is written for the pieces of a line is cut where they were.** -/
theorem pieces_rewritten (brackets : Bool) (line : List UInt8) :
    pieces (rewritten demangler brackets line) =
      (pieces line).flatMap (Piece.again demangler brackets) := by
  rw [rewritten_eq]
  fun_induction pieces line with
  | case1 => rw [List.flatMap_nil, List.flatMap_nil, pieces_nil]
  | case2 byte =>
      change pieces [byte] = [.single byte]
      rw [pieces]
  | case3 rest ih =>
      have hboundary := atBoundary_flatMap_written demangler brackets (atBoundary_dropWhile rest)
      rw [List.flatMap_cons, List.flatMap_cons, pieces_append _ hboundary,
        pieces_written hnames brackets (isCandidateText_mark rest), ih]
  | case4 next rest hnext ih =>
      -- the pair does not depend on what is written after it
      simp only [List.flatMap_cons, Piece.written, Piece.again, List.singleton_append]
      rw [pieces_underscore_of_ne hnext, ih]
  | case5 byte next rest hbyte ih =>
      simp only [List.flatMap_cons, Piece.written, Piece.again, List.singleton_append] at ih ⊢
      rw [pieces_cons_of_ne hbyte, ih]

end

section

variable {demangler : Demangler}

theorem countP_again (brackets : Bool) (piece : Piece) :
    (piece.again demangler brackets).countP (Piece.isTranslated demangler) = 0 := by
  cases piece with
  | single byte => rfl
  | candidate bytes =>
      cases hanswer : demangler (Text.ofAscii bytes) with
      | ok name => simp [Piece.again, Piece.isTranslated, hanswer]
      | error failure => simp [Piece.again, Piece.isTranslated, hanswer, Except.toOption]

theorem flatMap_written_again (brackets again : Bool) (piece : Piece) :
    (piece.again demangler brackets).flatMap (Piece.written demangler again) =
      piece.written demangler brackets := by
  cases piece with
  | single byte => rfl
  | candidate bytes =>
      cases hanswer : demangler (Text.ofAscii bytes) with
      | ok name => simp [Piece.again, Piece.written, hanswer, List.flatMap_map]
      | error failure => simp [Piece.again, Piece.written, hanswer]

/-- Of the attempts, those remain that failed. -/
theorem attemptsOf_again (brackets : Bool) (rest : List Piece) :
    attemptsOf demangler (rest.flatMap (Piece.again demangler brackets)) =
      (attemptsOf demangler rest).filter fun attempt => attempt.answer.toOption.isNone := by
  induction rest with
  | nil => rfl
  | cons piece rest ih =>
      cases piece with
      | single byte => exact ih
      | candidate bytes =>
          rw [List.flatMap_cons, attemptsOf_append, attemptsOf_candidate, List.filter_cons, ih]
          cases hanswer : demangler (Text.ofAscii bytes) with
          | ok name =>
              simp [Piece.again, attemptsOf, attemptOn, Piece.candidate?, hanswer, Except.toOption,
                List.filterMap_map]
          | error failure =>
              simp [Piece.again, attemptsOf, attemptOn, Piece.candidate?, hanswer, Except.toOption]

/-- **Scanning twice is scanning once.** If no name contains `_Z`, a second scan translates nothing
and writes what it reads, with or without brackets, and it asks again about exactly the candidates
that failed. -/
theorem scan_idempotent
    (hnames : ∀ symbol name, demangler symbol = .ok name → ¬ ['_', 'Z'] <:+: name.toList)
    (line : List UInt8) (brackets again : Bool) :
    (scan demangler (rewritten demangler brackets line)).translated = 0 ∧
      rewritten demangler again (rewritten demangler brackets line) =
        rewritten demangler brackets line ∧
      (scan demangler (rewritten demangler brackets line)).attempts =
        (scan demangler line).attempts.filter fun attempt => attempt.answer.toOption.isNone := by
  have hpieces := pieces_rewritten hnames brackets line
  refine ⟨?_, ?_, ?_⟩
  · rw [translated_scan, hpieces, List.countP_flatMap]
    simp [Function.comp_def, countP_again]
  · calc
      rewritten demangler again (rewritten demangler brackets line) =
          ((pieces line).flatMap (Piece.again demangler brackets)).flatMap
            (Piece.written demangler again) := by
        rw [rewritten_eq, hpieces]
      _ = (pieces line).flatMap (Piece.written demangler brackets) := by
        rw [List.flatMap_assoc]
        simp only [flatMap_written_again]
      _ = rewritten demangler brackets line := (rewritten_eq demangler brackets line).symm
  · rw [attempts_scan, attempts_scan, hpieces, attemptsOf_again]

/-- A name may begin with `Z` right after underscores, and end with one. -/
theorem scan_idempotent_seam :
    let demangler := knowing "_Zf" "Z_"
    let line := Text.utf8 "___Zf _Zg"
    rewritten demangler false line = Text.utf8 "__Z_ _Zg" ∧
      (scan demangler (Text.utf8 "__Z_ _Zg")).translated = 0 ∧
      rewritten demangler true (Text.utf8 "__Z_ _Zg") = Text.utf8 "__Z_ _Zg" := by
  intro demangler line
  have hnames : ∀ symbol name, demangler symbol = .ok name → ¬ ['_', 'Z'] <:+: name.toList := by
    intro symbol name hname
    simp only [demangler, knowing] at hname
    split at hname
    · rw [← Except.ok.inj hname]
      decide
    · cases hname
  have hwritten : rewritten demangler false line = Text.utf8 "__Z_ _Zg" := by decide +kernel
  obtain ⟨hcount, hbytes, _⟩ := scan_idempotent hnames line false true
  rw [hwritten] at hcount hbytes
  exact ⟨hwritten, hcount, hbytes⟩

end

end MangledNames.Line

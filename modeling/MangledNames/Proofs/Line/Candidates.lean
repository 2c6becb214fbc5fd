import MangledNames.Proofs.Line.Assembly
import MangledNames.Proofs.Line.Runs
import MangledNames.Symbol.Demangle

/-!
# Which texts the demangler is asked about

The candidates that cutting finds are those which the runs and marks of the line have
(`mem_candidates`). The proof walks over fresh places: a byte and a pair leave the candidates ahead
as they are, and at a mark the run gives up its only candidate and reading goes on where it stops.

So the demangler is asked about one text for each run with a mark, from left to right, whatever it
answers (`attempts_exact`). These texts are ASCII and begin with `_Z`: that a candidate is no text,
or that the symbol demangler finds nothing to read in it, cannot happen.
-/

namespace MangledNames.Line

variable {text : List UInt8}

/-- The spans of the candidates among pieces that begin at a position. -/
def spansOf : Nat → List Piece → List Span
  | _, [] => []
  | pos, .single _ :: rest => spansOf (pos + 1) rest
  | pos, .candidate bytes :: rest =>
    ⟨pos, pos + bytes.length⟩ :: spansOf (pos + bytes.length) rest

def candidates (text : List UInt8) : List Span := spansOf 0 (pieces text)

theorem getElem?_of_drop {rest : List UInt8} {pos : Nat} {byte : UInt8}
    (hrest : text.drop pos = byte :: rest) : text[pos]? = some byte := by
  rw [← List.head?_drop, hrest]
  rfl

theorem drop_succ_of_drop {rest : List UInt8} {pos : Nat} {byte : UInt8}
    (hrest : text.drop pos = byte :: rest) : text.drop (pos + 1) = rest := by
  rw [← List.tail_drop, hrest]
  rfl

theorem tokenAt_of_drop {bytes rest : List UInt8} {pos : Nat}
    (hrest : text.drop pos = bytes ++ rest) (htoken : ∀ byte ∈ bytes, isTokenByte byte = true)
    {place : Nat} (hlow : pos ≤ place) (hhigh : place < pos + bytes.length) :
    TokenAt text place := by
  obtain ⟨offset, rfl⟩ : ∃ offset, place = pos + offset := ⟨place - pos, by omega⟩
  have hoffset : offset < bytes.length := by omega
  have hplace : text[pos + offset]? = some bytes[offset] := by
    rw [← List.getElem?_drop, hrest, List.getElem?_append_left hoffset,
      List.getElem?_eq_getElem hoffset]
  exact tokenAt_of_getElem? hplace (htoken _ (List.getElem_mem hoffset))

theorem not_tokenAt_of_atBoundary {pos : Nat} (hboundary : AtBoundary (text.drop pos)) :
    ¬ TokenAt text pos := by
  rintro ⟨byte, hbyte, htoken⟩
  rw [← List.head?_drop] at hbyte
  rw [hboundary byte hbyte] at htoken
  cases htoken

theorem IsCandidate.start_lt (hcandidate : IsCandidate text span) :
    span.start < text.length := by
  obtain ⟨byte, hbyte, _⟩ := hcandidate.mark.tokenAt
  exact (List.getElem?_eq_some_iff.mp hbyte).1

/-- From a fresh place on, cutting finds the candidates that begin there or later. -/
theorem mem_spansOf {rest : List UInt8} {pos : Nat} (hfresh : Fresh text pos)
    (hrest : text.drop pos = rest) {span : Span} :
    span ∈ spansOf pos (pieces rest) ↔ IsCandidate text span ∧ pos ≤ span.start := by
  fun_induction pieces rest generalizing pos with
  | case1 =>
      have hlength := List.drop_eq_nil_iff.mp hrest
      simp only [spansOf, List.not_mem_nil, false_iff]
      rintro ⟨hcandidate, hle⟩
      have hlt := hcandidate.start_lt
      omega
  | case2 byte =>
      have hlength := congrArg List.length hrest
      simp only [List.length_drop, List.length_singleton] at hlength
      simp only [spansOf, List.not_mem_nil, false_iff]
      rintro ⟨hcandidate, hle⟩
      have hnext := (List.getElem?_eq_some_iff.mp hcandidate.mark.capitalZ_at).1
      omega
  | case3 rest ih =>
      have hnext := drop_succ_of_drop hrest
      have hmark := hfresh.isMark (getElem?_of_drop hrest) (getElem?_of_drop hnext)
      have htext := isCandidateText_mark rest
      have hsplit : text.drop pos =
          (underscore :: capitalZ :: rest.takeWhile isTokenByte) ++
            rest.dropWhile isTokenByte := by
        rw [hrest, List.cons_append, List.cons_append, List.takeWhile_append_dropWhile]
      -- what is cut off stops where its run does, and reading goes on at a fresh place
      generalize underscore :: capitalZ :: rest.takeWhile isTokenByte = found at *
      have hafter : text.drop (pos + found.length) = rest.dropWhile isTokenByte := by
        rw [← List.drop_drop, hsplit, List.drop_left]
      have hstop : ¬ TokenAt text (pos + found.length) :=
        not_tokenAt_of_atBoundary (hafter ▸ atBoundary_dropWhile rest)
      have hinside : pos + 1 < pos + found.length := by
        obtain ⟨tail, rfl, _⟩ := htext
        simp only [List.length_cons]
        omega
      rw [spansOf, List.mem_cons, ih (fresh_of_not_tokenAt hstop) hafter]
      exact (hfresh.isCandidate_iff hmark hinside
        (fun place => tokenAt_of_drop hsplit htext.isTokenByte) hstop).symm
  | case4 next rest hne ih =>
      have hpos := getElem?_of_drop hrest
      have hdrop := drop_succ_of_drop hrest
      have hnext := getElem?_of_drop hdrop
      rw [spansOf, spansOf, ih (hfresh.pair hpos hnext hne) (drop_succ_of_drop hdrop)]
      constructor
      · rintro ⟨hcandidate, hle⟩
        exact ⟨hcandidate, by omega⟩
      · rintro ⟨hcandidate, hle⟩
        refine ⟨hcandidate, ?_⟩
        by_contra hlt
        exact hfresh.not_isMark_pair hpos hnext hne hle (by omega) hcandidate.mark
  | case5 byte next rest hne ih =>
      have hpos := getElem?_of_drop hrest
      rw [spansOf, ih (hfresh.succ hpos hne) (drop_succ_of_drop hrest)]
      constructor
      · rintro ⟨hcandidate, hle⟩
        exact ⟨hcandidate, by omega⟩
      · rintro ⟨hcandidate, hle⟩
        refine ⟨hcandidate, Nat.lt_of_le_of_ne hle ?_⟩
        rintro rfl
        have hat := hcandidate.mark.underscore_at
        rw [hpos, Option.some.injEq] at hat
        exact hne hat

/-- **The candidates of a line are the ones of its runs.** -/
theorem mem_candidates {span : Span} : span ∈ candidates text ↔ IsCandidate text span := by
  have hmem : span ∈ candidates text ↔ IsCandidate text span ∧ 0 ≤ span.start :=
    mem_spansOf (fresh_zero text) List.drop_zero
  exact hmem.trans (and_iff_left (Nat.zero_le _))

theorem le_of_mem_spansOf {rest : List Piece} {pos : Nat} {span : Span}
    (hmem : span ∈ spansOf pos rest) : pos ≤ span.start := by
  induction rest generalizing pos with
  | nil => simp [spansOf] at hmem
  | cons piece rest ih =>
      cases piece with
      | single byte => exact Nat.le_of_succ_le (ih hmem)
      | candidate bytes =>
          rcases List.mem_cons.mp hmem with rfl | hmem
          · exact Nat.le_refl _
          · exact Nat.le_trans (Nat.le_add_right _ _) (ih hmem)

theorem pairwise_spansOf (rest : List Piece) (pos : Nat) :
    (spansOf pos rest).Pairwise fun span next => span.stop ≤ next.start := by
  induction rest generalizing pos with
  | nil => exact .nil
  | cons piece rest ih =>
      cases piece with
      | single byte => exact ih (pos + 1)
      | candidate bytes =>
          exact List.pairwise_cons.mpr ⟨fun next hmem => le_of_mem_spansOf hmem, ih _⟩

/-- Candidates are listed from left to right, and something stands between them. -/
theorem pairwise_candidates (text : List UInt8) :
    (candidates text).Pairwise fun span next => span.stop < next.start := by
  refine (pairwise_spansOf (pieces text) 0).imp_of_mem ?_
  intro span next hspan hnext hle
  obtain ⟨start, hrun, _, _⟩ := (mem_candidates.mp hspan).run
  refine Nat.lt_of_le_of_ne hle fun heq => hrun.right ?_
  have htoken := (mem_candidates.mp hnext).mark.tokenAt
  rwa [← heq] at htoken

theorem map_of_spansOf {rest : List Piece} {pos : Nat} (hcut : CutFrom text pos rest) :
    (spansOf pos rest).map (fun span => span.of text.toArray) =
      rest.filterMap Piece.candidate? := by
  induction rest generalizing pos with
  | nil => rfl
  | cons piece rest ih =>
      cases piece with
      | single byte => exact ih hcut.next
      | candidate bytes =>
          have hbytes : Span.of ⟨pos, pos + bytes.length⟩ text.toArray = bytes := hcut.of_piece
          change Span.of _ _ :: List.map _ _ = bytes :: List.filterMap _ rest
          rw [hbytes]
          exact congrArg _ (ih hcut.next)

theorem map_of_candidates (text : List UInt8) :
    (candidates text).map (fun span => span.of text.toArray) =
      (pieces text).filterMap Piece.candidate? :=
  map_of_spansOf (cutFrom_pieces text)

theorem isCandidateText_of_mem_candidates {span : Span} (hmem : span ∈ candidates text) :
    IsCandidateText (span.of text.toArray) := by
  have htext : span.of text.toArray ∈ (pieces text).filterMap Piece.candidate? := by
    rw [← map_of_candidates]
    exact List.mem_map_of_mem hmem
  obtain ⟨piece, hpiece, hcandidate⟩ := List.mem_filterMap.mp htext
  cases piece with
  | single byte => cases hcandidate
  | candidate bytes =>
      rw [← Option.some.inj hcandidate]
      exact isCandidateText_of_mem hpiece

/-- The demangler is asked about the text of every candidate. -/
theorem attempts_eq_map_candidates (demangler : Demangler) (text : List UInt8) :
    (scan demangler text).attempts =
      (candidates text).map fun span => attemptOn demangler (span.of text.toArray) := by
  rw [attempts_scan, attemptsOf, ← map_of_candidates, List.map_map]
  rfl

theorem isLinkable_ofAscii {bytes : List UInt8} (htext : IsCandidateText bytes) :
    Symbol.isLinkable (Text.ofAscii bytes) = true := by
  have hzero : '\x00' ∉ bytes.map Char.ofUInt8 := by
    intro hmem
    obtain ⟨byte, hbyte, heq⟩ := List.mem_map.mp hmem
    have htoken := htext.isTokenByte byte hbyte
    have hval : byte.toUInt32 = 0 := congrArg Char.val heq
    have hnil : byte = 0 := UInt8.toNat_inj.mp (by simpa using congrArg UInt32.toNat hval)
    rw [hnil] at htoken
    exact absurd htoken (by decide)
  obtain ⟨rest, rfl, _⟩ := htext
  simp only [Symbol.isLinkable, Text.ofAscii, String.toList_ofList, decide_eq_true_eq]
  exact ⟨by simp, hzero⟩

theorem demangle_ne_invalidArgument {options : Options} {symbol : String}
    (hlinkable : Symbol.isLinkable symbol = true) :
    demangle options symbol ≠ .error .invalidArgument := by
  unfold demangle
  rw [if_pos hlinkable]
  split
  next refusal _ => cases refusal <;> simp [Symbol.Refusal.failure]
  next => split <;> simp

/-- **Exact recognition of candidates.** Each run of token bytes has a candidate from its first
mark to its end, or none if it has no mark, and the demangler is asked about these texts from left
to right. Which ones they are depends on the line only. All of them are ASCII text that begins with
`_Z`, so no state of a scan has an open candidate that is no text, and the symbol demangler never
calls one an invalid argument. -/
theorem attempts_exact (text : List UInt8) :
    (∀ span, span ∈ candidates text ↔ IsCandidate text span) ∧
      (candidates text).Pairwise (fun span next => span.stop < next.start) ∧
      (∀ span ∈ candidates text,
        [underscore, capitalZ] <+: span.of text.toArray ∧
          ∀ byte ∈ span.of text.toArray, byte < 128) ∧
      (∀ demangler,
        (scan demangler text).attempts.map (fun attempt => Text.utf8 attempt.candidate) =
            (candidates text).map (fun span => span.of text.toArray) ∧
          ∀ attempt ∈ (scan demangler text).attempts,
            attempt.answer = demangler attempt.candidate) ∧
      (∀ demangler count start,
        ((Scanner.start text).turns demangler text.toArray count).mode = .token start →
          (Text.ofUtf8? (Span.of
            ⟨start, ((Scanner.start text).turns demangler text.toArray count).pos⟩
            text.toArray)).isSome) ∧
      ∀ options, ∀ attempt ∈ (scan (demangle options) text).attempts,
        attempt.answer ≠ .error .invalidArgument := by
  have hmem : ∀ {demangler attempt}, attempt ∈ (scan demangler text).attempts →
      ∃ bytes, IsCandidateText bytes ∧ attempt = attemptOn demangler bytes := by
    intro demangler attempt hattempt
    rw [attempts_eq_map_candidates] at hattempt
    obtain ⟨span, hspan, rfl⟩ := List.mem_map.mp hattempt
    exact ⟨_, isCandidateText_of_mem_candidates hspan, rfl⟩
  refine ⟨fun _ => mem_candidates, pairwise_candidates text, ?_, ?_, ?_, ?_⟩
  · intro span hspan
    have htext := isCandidateText_of_mem_candidates hspan
    refine ⟨?_, htext.lt⟩
    obtain ⟨rest, hrest, _⟩ := htext
    exact ⟨rest, hrest.symm⟩
  · intro demangler
    refine ⟨?_, ?_⟩
    · rw [attempts_eq_map_candidates, List.map_map]
      refine List.map_congr_left fun span hspan => ?_
      exact Text.utf8_ofAscii (isCandidateText_of_mem_candidates hspan).lt
    · intro attempt hattempt
      obtain ⟨bytes, _, rfl⟩ := hmem hattempt
      rfl
  · intro demangler count start hmode
    have hsound : ((Scanner.start text).turns demangler text.toArray count).Sound text :=
      (Scanner.sound_start text).turns count
    rw [Text.ofUtf8?_eq_ofAscii (hsound.isCandidateText hmode).lt]
    rfl
  · intro options attempt hattempt
    obtain ⟨bytes, htext, rfl⟩ := hmem hattempt
    exact demangle_ne_invalidArgument (isLinkable_ofAscii htext)

/-- Neither the pair of underscores at 0 nor the mark inside the candidate has a candidate. -/
theorem attempts_exact_pair_before_mark :
    [underscore, capitalZ] <+: Span.of ⟨5, 10⟩ (Text.utf8 "__Z___Zf_Z-").toArray ∧
      ∀ demangler,
        (scan demangler (Text.utf8 "__Z___Zf_Z-")).attempts.map
          (fun attempt => Text.utf8 attempt.candidate) = [Text.utf8 "_Zf_Z"] := by
  obtain ⟨_, _, htext, hattempts, _⟩ := attempts_exact (Text.utf8 "__Z___Zf_Z-")
  have hcandidates : candidates (Text.utf8 "__Z___Zf_Z-") = [⟨5, 10⟩] := by decide +kernel
  rw [hcandidates] at htext hattempts
  refine ⟨(htext _ List.mem_cons_self).1, fun demangler => ?_⟩
  rw [(hattempts demangler).1]
  decide +kernel

end MangledNames.Line

import MangledNames.Proofs.Line.Pieces

/-!
# What the scanner knows at each turn

There are six ways for a turn to go on from a byte, and what is said of turns is said of each of
them (`Step`, `step_turn`).

A held underscore is the byte before the position, and an open token has the text of a candidate up
to the position. The open literal segment begins no later than either, and the segments before it
cover the line so far. One step keeps all of this (`Sound.step`), so it holds in every state that a
scan passes through.

A turn that does not advance leaves a candidate behind, and the next one advances. Counting a byte
that is left twice, and an open candidate once, every turn has less to do than the one before
(`work_turn_lt`), which bounds the number of turns by twice the length of the line.
-/

namespace MangledNames.Line

/-- Segments that are not empty, the first at `start`, each where the one before it stops, and the
last up to `stop`. -/
def Tiles : Nat → Nat → List Segment → Prop
  | start, stop, [] => start = stop
  | start, stop, segment :: segments =>
    segment.span.start = start ∧ start < segment.span.stop ∧
      Tiles segment.span.stop stop segments

theorem Tiles.concat {start middle stop : Nat} {segments : List Segment} {segment : Segment}
    (htiles : Tiles start middle segments) (hspan : segment.span = ⟨middle, stop⟩)
    (hlt : middle < stop) : Tiles start stop (segments ++ [segment]) := by
  induction segments generalizing start with
  | nil =>
      have hstart : start = middle := htiles
      subst hstart
      refine ⟨by rw [hspan], by rw [hspan]; exact hlt, ?_⟩
      rw [hspan]
      rfl
  | cons first segments ih =>
      obtain ⟨hfirst, hnonempty, hrest⟩ := htiles
      exact ⟨hfirst, hnonempty, ih hrest⟩

theorem Span.of_append {line bytes rest : List UInt8} {start pos : Nat} (hstart : start ≤ pos)
    (hrest : line.drop pos = bytes ++ rest) :
    Span.of ⟨start, pos + bytes.length⟩ line.toArray =
      Span.of ⟨start, pos⟩ line.toArray ++ bytes := by
  have hlength : pos + bytes.length - start = (pos - start) + bytes.length := by omega
  have hindex : start + (pos - start) = pos := by omega
  rw [Span.of_toArray, Span.of_toArray]
  change List.take (pos + bytes.length - start) _ = List.take (pos - start) _ ++ bytes
  rw [hlength, List.take_add, List.drop_drop, hindex, hrest, List.take_left]

theorem Span.of_succ {line rest : List UInt8} {start pos : Nat} {byte : UInt8}
    (hstart : start ≤ pos) (hrest : line.drop pos = byte :: rest) :
    Span.of ⟨start, pos + 1⟩ line.toArray = Span.of ⟨start, pos⟩ line.toArray ++ [byte] :=
  Span.of_append hstart (hrest.trans List.singleton_append.symm)

theorem Span.of_self (line : List UInt8) (pos : Nat) : Span.of ⟨pos, pos⟩ line.toArray = [] := by
  simp [Span.of_toArray]

theorem Span.length_of {line : List UInt8} {start stop : Nat} (hstop : stop ≤ line.length) :
    (Span.of ⟨start, stop⟩ line.toArray).length = stop - start := by
  rw [Span.of_toArray, List.length_take, List.length_drop]
  change min (stop - start) (line.length - start) = stop - start
  omega

theorem Span.of_append_drop {line : List UInt8} {start stop : Nat} (hle : start ≤ stop) :
    Span.of ⟨start, stop⟩ line.toArray ++ line.drop stop = line.drop start := by
  have hrest : line.drop stop = (line.drop start).drop (stop - start) := by
    rw [List.drop_drop, Nat.add_sub_cancel' hle]
  rw [Span.of_toArray, hrest]
  exact List.take_append_drop _ _

theorem Span.of_split {line : List UInt8} {start middle stop : Nat} (hstart : start ≤ middle)
    (hstop : middle ≤ stop) (hlength : stop ≤ line.length) :
    Span.of ⟨start, stop⟩ line.toArray =
      Span.of ⟨start, middle⟩ line.toArray ++ Span.of ⟨middle, stop⟩ line.toArray := by
  have hsplit : line.drop middle = Span.of ⟨middle, stop⟩ line.toArray ++ line.drop stop :=
    (Span.of_append_drop hstop).symm
  have hgrow := Span.of_append hstart hsplit
  rwa [Span.length_of hlength, Nat.add_sub_cancel' hstop] at hgrow

namespace Scanner

variable {demangler : Demangler} {line : List UInt8} {scanner : Scanner}

/-- Where a turn leads that finds a byte. -/
inductive Step (demangler : Demangler) (bytes : Array UInt8) (scanner : Scanner) (byte : UInt8)
    (rest : List UInt8) : Scanner → Prop where
  | pass (hmode : scanner.mode = .outside) (hbyte : byte ≠ underscore) :
      Step demangler bytes scanner byte rest (scanner.advance rest .outside)
  | hold (hmode : scanner.mode = .outside) (hbyte : byte = underscore) :
      Step demangler bytes scanner byte rest (scanner.advance rest .held)
  /-- The underscore and the byte after it are both passed over. -/
  | release (hmode : scanner.mode = .held) (hbyte : byte ≠ capitalZ) :
      Step demangler bytes scanner byte rest (scanner.advance rest .outside)
  | mark (hmode : scanner.mode = .held) (hbyte : byte = capitalZ) :
      Step demangler bytes scanner byte rest (scanner.advance rest (.token (scanner.pos - 1)))
  | collect {start : Nat} (hmode : scanner.mode = .token start) (hbyte : isTokenByte byte = true) :
      Step demangler bytes scanner byte rest (scanner.advance rest (.token start))
  /-- The byte is left to the next turn. -/
  | leave {start : Nat} (hmode : scanner.mode = .token start) (hbyte : isTokenByte byte = false) :
      Step demangler bytes scanner byte rest
        { scanner.endCandidate demangler bytes start with mode := .outside }

theorem step_turn (demangler : Demangler) (bytes : Array UInt8) {byte : UInt8}
    {rest : List UInt8} (hrest : scanner.rest = byte :: rest) :
    Step demangler bytes scanner byte rest (scanner.turn demangler bytes) := by
  unfold turn
  rw [hrest]
  cases hmode : scanner.mode with
  | outside =>
      by_cases hbyte : byte = underscore
      · simp only [if_pos hbyte]
        exact .hold hmode hbyte
      · simp only [if_neg hbyte]
        exact .pass hmode hbyte
  | held =>
      by_cases hbyte : byte = capitalZ
      · simp only [if_pos hbyte]
        exact .mark hmode hbyte
      · simp only [if_neg hbyte]
        exact .release hmode hbyte
  | token start =>
      by_cases hbyte : isTokenByte byte = true
      · simp only [if_pos hbyte]
        exact .collect hmode hbyte
      · simp only [if_neg hbyte]
        exact .leave hmode ((Bool.not_eq_true _).mp hbyte)

theorem turn_of_rest_eq_nil (bytes : Array UInt8) (hrest : scanner.rest = []) :
    scanner.turn demangler bytes = scanner := by
  unfold turn
  rw [hrest]

/-! ### The invariant -/

/-- Where the text begins that is not known to be literal. -/
def origin (scanner : Scanner) : Nat :=
  match scanner.mode with
  | .outside => scanner.pos
  | .held => scanner.pos - 1
  | .token start => start

/-- What the mode says about the text before the position. -/
def ModeSound (line : List UInt8) (scanner : Scanner) : Prop :=
  match scanner.mode with
  | .outside => True
  | .held => 1 ≤ scanner.pos ∧ Span.of ⟨scanner.pos - 1, scanner.pos⟩ line.toArray = [underscore]
  | .token start =>
    start + 2 ≤ scanner.pos ∧ IsCandidateText (Span.of ⟨start, scanner.pos⟩ line.toArray)

structure Sound (line : List UInt8) (scanner : Scanner) : Prop where
  rest_eq : scanner.rest = line.drop scanner.pos
  pos_le : scanner.pos ≤ line.length
  literalFrom_le : scanner.literalFrom ≤ scanner.origin
  modeSound : scanner.ModeSound line
  tiles : Tiles 0 scanner.literalFrom scanner.segments.toList

theorem sound_start (line : List UInt8) : Sound line (start line) where
  rest_eq := rfl
  pos_le := Nat.zero_le _
  literalFrom_le := Nat.zero_le _
  modeSound := trivial
  tiles := rfl

theorem Sound.origin_le (hsound : Sound line scanner) : scanner.origin ≤ scanner.pos := by
  have hmode := hsound.modeSound
  unfold ModeSound at hmode
  unfold origin
  split
  next => exact Nat.le_refl _
  next => exact Nat.sub_le _ _
  next start heq =>
      rw [heq] at hmode
      have hle := hmode.1
      omega

theorem Sound.drop_eq (hsound : Sound line scanner) {byte : UInt8} {rest : List UInt8}
    (hrest : scanner.rest = byte :: rest) : line.drop scanner.pos = byte :: rest :=
  hsound.rest_eq.symm.trans hrest

theorem Sound.rest_eq_nil_iff (hsound : Sound line scanner) :
    scanner.rest = [] ↔ scanner.pos = line.length := by
  have hle := hsound.pos_le
  rw [hsound.rest_eq, List.drop_eq_nil_iff]
  omega

theorem Sound.underscore_before (hsound : Sound line scanner) (hmode : scanner.mode = .held) :
    1 ≤ scanner.pos ∧ Span.of ⟨scanner.pos - 1, scanner.pos⟩ line.toArray = [underscore] := by
  have hheld := hsound.modeSound
  rwa [ModeSound, hmode] at hheld

/-- A held underscore and a `Z` are a mark. -/
theorem Sound.of_mark (hsound : Sound line scanner) (hmode : scanner.mode = .held)
    {rest : List UInt8} (hdrop : line.drop scanner.pos = capitalZ :: rest) :
    Span.of ⟨scanner.pos - 1, scanner.pos + 1⟩ line.toArray = [underscore, capitalZ] := by
  rw [Span.of_succ (Nat.sub_le _ _) hdrop, (hsound.underscore_before hmode).2]
  rfl

/-- The state after a byte that is read in any mode. -/
theorem Sound.advance (hsound : Sound line scanner) {byte : UInt8} {rest : List UInt8}
    (hrest : scanner.rest = byte :: rest) {mode : Mode}
    (horigin : scanner.literalFrom ≤ (scanner.advance rest mode).origin)
    (hmode : (scanner.advance rest mode).ModeSound line) :
    Sound line (scanner.advance rest mode) where
  rest_eq := by
    change rest = line.drop (scanner.pos + 1)
    rw [← List.tail_drop, ← hsound.rest_eq, hrest]
    rfl
  pos_le := by
    have hlength := congrArg List.length (hsound.rest_eq.symm.trans hrest)
    simp only [List.length_drop, List.length_cons] at hlength
    change scanner.pos + 1 ≤ line.length
    omega
  literalFrom_le := horigin
  modeSound := hmode
  tiles := hsound.tiles

theorem Sound.start_le {start : Nat} (hsound : Sound line scanner)
    (hmode : scanner.mode = .token start) : start ≤ scanner.pos := by
  have hle := hsound.origin_le
  rwa [origin, hmode] at hle

theorem Sound.isCandidateText {start : Nat} (hsound : Sound line scanner)
    (hmode : scanner.mode = .token start) :
    IsCandidateText (Span.of ⟨start, scanner.pos⟩ line.toArray) := by
  have htoken := hsound.modeSound
  rw [ModeSound, hmode] at htoken
  exact htoken.2

theorem Sound.start_add_two_le {start : Nat} (hsound : Sound line scanner)
    (hmode : scanner.mode = .token start) : start + 2 ≤ scanner.pos := by
  have htoken := hsound.modeSound
  rw [ModeSound, hmode] at htoken
  exact htoken.1

theorem Sound.literalFrom_le_start {start : Nat} (hsound : Sound line scanner)
    (hmode : scanner.mode = .token start) : scanner.literalFrom ≤ start := by
  have hle := hsound.literalFrom_le
  rwa [origin, hmode] at hle

/-- The text of an open candidate. -/
def candidateAt (line : List UInt8) (start : Nat) (scanner : Scanner) : String :=
  Text.ofAscii (Span.of ⟨start, scanner.pos⟩ line.toArray)

/-- The demangler is asked about every candidate that ends, for its bytes are always text. -/
theorem Sound.endCandidate_eq {start : Nat} (hsound : Sound line scanner)
    (hmode : scanner.mode = .token start) :
    scanner.endCandidate demangler line.toArray start =
      match demangler (scanner.candidateAt line start) with
      | .ok name =>
        (scanner.record ⟨scanner.candidateAt line start, .ok name⟩).pushName
          ⟨start, scanner.pos⟩ name
      | .error failure =>
        scanner.record ⟨scanner.candidateAt line start, .error failure⟩ := by
  unfold endCandidate
  rw [Text.ofUtf8?_eq_ofAscii (hsound.isCandidateText hmode).lt]
  change (match demangler (scanner.candidateAt line start) with
    | .ok name => _
    | .error _ => _) = _
  cases hanswer : demangler (scanner.candidateAt line start) with
  | ok name =>
      rw [candidateAt] at hanswer
      simp only [hanswer]
      rfl
  | error failure =>
      rw [candidateAt] at hanswer
      simp only [hanswer]
      rfl

theorem tiles_endLiteral {stop : Nat} (hle : scanner.literalFrom ≤ stop)
    (htiles : Tiles 0 scanner.literalFrom scanner.segments.toList) :
    Tiles 0 stop (scanner.endLiteral stop).segments.toList := by
  unfold endLiteral
  by_cases hlt : scanner.literalFrom < stop
  · simp only [hlt, if_true, Array.toList_push]
    exact htiles.concat rfl hlt
  · have heq : scanner.literalFrom = stop := by omega
    simp only [hlt, if_false]
    exact heq ▸ htiles

theorem tiles_pushName {start stop : Nat} {name : String} (hle : scanner.literalFrom ≤ start)
    (hlt : start < stop) (htiles : Tiles 0 scanner.literalFrom scanner.segments.toList) :
    Tiles 0 stop (scanner.pushName ⟨start, stop⟩ name).segments.toList := by
  unfold pushName
  simp only [Array.toList_push]
  exact (tiles_endLiteral hle htiles).concat rfl hlt

theorem Sound.endCandidate {start : Nat} (hsound : Sound line scanner)
    (hmode : scanner.mode = .token start) :
    Sound line { scanner.endCandidate demangler line.toArray start with mode := .outside } := by
  have hliteral := hsound.literalFrom_le_start hmode
  have hlt : start < scanner.pos := Nat.lt_of_succ_lt (hsound.start_add_two_le hmode)
  rw [hsound.endCandidate_eq hmode]
  split
  next name _ =>
      exact {
        rest_eq := hsound.rest_eq
        pos_le := hsound.pos_le
        literalFrom_le := Nat.le_refl _
        modeSound := trivial
        tiles := by
          change Tiles 0 scanner.pos (pushName _ ⟨start, scanner.pos⟩ name).segments.toList
          exact tiles_pushName hliteral hlt hsound.tiles }
  next failure _ =>
      exact {
        rest_eq := hsound.rest_eq
        pos_le := hsound.pos_le
        literalFrom_le := Nat.le_trans hliteral (hsound.start_le hmode)
        modeSound := trivial
        tiles := hsound.tiles }

theorem Sound.step (hsound : Sound line scanner) {byte : UInt8} {rest : List UInt8}
    (hrest : scanner.rest = byte :: rest) {next : Scanner}
    (hstep : Step demangler line.toArray scanner byte rest next) : Sound line next := by
  have hdrop := hsound.drop_eq hrest
  have hliteral := hsound.literalFrom_le
  cases hstep with
  | pass hmode _ =>
      rw [origin, hmode] at hliteral
      exact hsound.advance hrest (Nat.le_succ_of_le hliteral) trivial
  | hold hmode hbyte =>
      rw [origin, hmode] at hliteral
      refine hsound.advance hrest hliteral ⟨Nat.le_add_left 1 _, ?_⟩
      change Span.of ⟨scanner.pos + 1 - 1, scanner.pos + 1⟩ line.toArray = [underscore]
      rw [Nat.add_sub_cancel, Span.of_succ (Nat.le_refl _) hdrop, Span.of_self, hbyte]
      rfl
  | release _ _ =>
      have hle := hsound.origin_le
      exact hsound.advance hrest (hliteral.trans (Nat.le_succ_of_le hle)) trivial
  | mark hmode hbyte =>
      rw [origin, hmode] at hliteral
      have hpos := (hsound.underscore_before hmode).1
      refine hsound.advance hrest hliteral ⟨?_, [], ?_, by simp⟩
      · change scanner.pos - 1 + 2 ≤ scanner.pos + 1
        omega
      · exact hsound.of_mark hmode (hbyte ▸ hdrop)
  | @collect start hmode hbyte =>
      obtain ⟨text, htext, htoken⟩ := hsound.isCandidateText hmode
      refine hsound.advance hrest (hsound.literalFrom_le_start hmode)
        ⟨Nat.le_succ_of_le (hsound.start_add_two_le hmode), text ++ [byte], ?_, ?_⟩
      · change Span.of ⟨start, scanner.pos + 1⟩ line.toArray = _
        rw [Span.of_succ (hsound.start_le hmode) hdrop, htext]
        rfl
      · intro other hmem
        rcases List.mem_append.mp hmem with hmem | hmem
        · exact htoken other hmem
        · rw [List.mem_singleton.mp hmem]
          exact hbyte
  | leave hmode _ => exact hsound.endCandidate hmode

theorem Sound.turn (hsound : Sound line scanner) :
    Sound line (scanner.turn demangler line.toArray) := by
  cases hrest : scanner.rest with
  | nil => rwa [turn_of_rest_eq_nil line.toArray hrest]
  | cons byte rest => exact hsound.step hrest (step_turn demangler line.toArray hrest)

theorem Sound.turns (hsound : Sound line scanner) (count : Nat) :
    Sound line (scanner.turns demangler line.toArray count) := by
  induction count generalizing scanner with
  | zero => exact hsound
  | succ count ih =>
      unfold Scanner.turns
      split
      next => exact hsound
      next => exact ih hsound.turn

/-- What no turn changes is at the end as it was. -/
theorem Sound.turns_eq {α : Type} (view : Scanner → α)
    (hturn : ∀ {scanner}, Sound line scanner →
      view (scanner.turn demangler line.toArray) = view scanner)
    (hsound : Sound line scanner) (count : Nat) :
    view (scanner.turns demangler line.toArray count) = view scanner := by
  induction count generalizing scanner with
  | zero => rfl
  | succ count ih =>
      unfold Scanner.turns
      split
      next => rfl
      next =>
          calc
            view ((scanner.turn demangler line.toArray).turns demangler line.toArray count) =
                view (scanner.turn demangler line.toArray) := ih hsound.turn
            _ = view scanner := hturn hsound

/-- How many turns are left at most. -/
def work (scanner : Scanner) : Nat :=
  match scanner.mode with
  | .token _ => 2 * scanner.rest.length + 1
  | _ => 2 * scanner.rest.length

theorem rest_endCandidate (bytes : Array UInt8) (start : Nat) :
    (scanner.endCandidate demangler bytes start).rest = scanner.rest := by
  unfold endCandidate
  split
  next => rfl
  next candidate _ =>
      cases demangler candidate <;> rfl

theorem pos_endCandidate (bytes : Array UInt8) (start : Nat) :
    (scanner.endCandidate demangler bytes start).pos = scanner.pos := by
  unfold endCandidate
  split
  next => rfl
  next candidate _ =>
      cases demangler candidate <;> rfl

theorem work_step_lt {bytes : Array UInt8} {byte : UInt8} {rest : List UInt8}
    (hrest : scanner.rest = byte :: rest) {next : Scanner}
    (hstep : Step demangler bytes scanner byte rest next) : next.work < scanner.work := by
  have hlength : scanner.rest.length = rest.length + 1 := by rw [hrest, List.length_cons]
  cases hstep with
  | pass hmode _ | hold hmode _ | release hmode _ | mark hmode _ | collect hmode _ =>
      simp only [work, hmode, hlength, Scanner.advance]
      omega
  | leave hmode _ =>
      simp only [work, hmode, rest_endCandidate]
      omega

theorem work_turn_lt (bytes : Array UInt8) (hrest : scanner.rest ≠ []) :
    (scanner.turn demangler bytes).work < scanner.work := by
  obtain ⟨byte, rest, hcons⟩ := List.exists_cons_of_ne_nil hrest
  exact work_step_lt hcons (step_turn demangler bytes hcons)

theorem rest_turns_eq_nil (bytes : Array UInt8) {count : Nat} (hcount : scanner.work ≤ count) :
    (scanner.turns demangler bytes count).rest = [] := by
  induction count generalizing scanner with
  | zero =>
      have hlength : scanner.rest.length = 0 := by
        unfold work at hcount
        split at hcount <;> omega
      exact List.eq_nil_of_length_eq_zero hlength
  | succ count ih =>
      unfold turns
      split
      next hempty => exact List.isEmpty_iff.mp hempty
      next hempty =>
          have hrest : scanner.rest ≠ [] := fun hnil => hempty (List.isEmpty_iff.mpr hnil)
          have hlt : (scanner.turn demangler bytes).work < scanner.work :=
            work_turn_lt bytes hrest
          exact ih (by omega)

end Scanner

end MangledNames.Line

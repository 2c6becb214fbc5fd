import Mathlib.Data.Nat.PSub
import MangledNames.Proofs.Line.Partition

/-!
# A scan stays within its line, and ends

A scanner walks down the bytes that are left, and cutting a span out of a line always gives bytes,
so nothing about its positions can be seen from the fact that a scan has a result. Here a turn and
the end of a scan are read with their positions taken seriously: the byte is looked up in the line,
the step back over the mark has to have a place to go to, and a span is cut out only if the line
reaches that far. None of this is ever refused (`Sound.turn?_eq`, `Sound.finish?_eq`), because a
scanner is placed in its line as it should be (`Sound.placed`).

The states of a scan are those that one turn after the other leads to while the position is in the
line (`Reaches`), without a limit on their number. A turn that ends a candidate stays where it is,
so the position alone does not tell how far a scan has come; with the work that is left it does
(`Reaches.count_add_work_le`).
-/

namespace MangledNames.Line

/-- The bytes of a span, if it lies in the line. -/
def Span.of? (span : Span) (bytes : Array UInt8) : Option (List UInt8) :=
  if span.start ≤ span.stop ∧ span.stop ≤ bytes.size then some (span.of bytes) else none

theorem Span.of?_eq {span : Span} {bytes : Array UInt8} (hle : span.start ≤ span.stop)
    (hstop : span.stop ≤ bytes.size) : span.of? bytes = some (span.of bytes) :=
  if_pos ⟨hle, hstop⟩

theorem Tiles.bounds {start stop : Nat} {segments : List Segment}
    (htiles : Tiles start stop segments) {segment : Segment} (hmem : segment ∈ segments) :
    segment.span.start < segment.span.stop ∧ segment.span.stop ≤ stop := by
  induction segments generalizing start with
  | nil => cases hmem
  | cons first segments ih =>
      obtain ⟨hstart, hlt, hrest⟩ := htiles
      rcases List.mem_cons.mp hmem with rfl | hmem
      · exact ⟨hstart ▸ hlt, hrest.le⟩
      · exact ih hrest hmem

namespace Scanner

variable {demangler : Demangler} {text : List UInt8} {scanner : Scanner}

/-- A scanner that this many turns lead to. -/
inductive Reaches (demangler : Demangler) (text : List UInt8) : Nat → Scanner → Prop where
  | start : Reaches demangler text 0 (Scanner.start text)
  | turn {count : Nat} {scanner : Scanner} (hreaches : Reaches demangler text count scanner)
      (hpos : scanner.pos < text.length) :
      Reaches demangler text (count + 1) (scanner.turn demangler text.toArray)

theorem Reaches.sound {count : Nat} (hreaches : Reaches demangler text count scanner) :
    Sound text scanner := by
  induction hreaches with
  | start => exact sound_start text
  | turn _ _ ih => exact ih.turn

/-- Where the parts of a scanner stand in its line. -/
structure Placed (text : List UInt8) (scanner : Scanner) : Prop where
  pos_le : scanner.pos ≤ text.length
  rest_eq : scanner.rest = text.drop scanner.pos
  literalFrom_le : scanner.literalFrom ≤ scanner.pos
  held : scanner.mode = .held →
    1 ≤ scanner.pos ∧ text[scanner.pos - 1]? = some underscore ∧
      scanner.literalFrom ≤ scanner.pos - 1
  token : ∀ start, scanner.mode = .token start →
    start + 2 ≤ scanner.pos ∧ text[start]? = some underscore ∧
      text[start + 1]? = some capitalZ ∧
      (∀ place, start ≤ place → place < scanner.pos → TokenAt text place) ∧
      scanner.literalFrom ≤ start
  tiles : Tiles 0 scanner.literalFrom scanner.segments.toList

theorem Sound.held_before (hsound : Sound text scanner) (hmode : scanner.mode = .held) :
    1 ≤ scanner.pos ∧ text[scanner.pos - 1]? = some underscore := by
  obtain ⟨hpos, hbyte⟩ := hsound.underscore_before hmode
  have hdrop : Span.of ⟨scanner.pos - 1, scanner.pos⟩ text.toArray ++ text.drop scanner.pos =
      text.drop (scanner.pos - 1) := Span.of_append_drop (Nat.sub_le _ _)
  rw [hbyte] at hdrop
  exact ⟨hpos, getElem?_of_drop hdrop.symm⟩

theorem Sound.token_before (hsound : Sound text scanner) {start : Nat}
    (hmode : scanner.mode = .token start) :
    start + 2 ≤ scanner.pos ∧ text[start]? = some underscore ∧
      text[start + 1]? = some capitalZ ∧
      ∀ place, start ≤ place → place < scanner.pos → TokenAt text place := by
  have hpos := hsound.start_add_two_le hmode
  have hcandidate := hsound.isCandidateText hmode
  have hlength : (Span.of ⟨start, scanner.pos⟩ text.toArray).length = scanner.pos - start :=
    Span.length_of hsound.pos_le
  have hdrop : text.drop start =
      Span.of ⟨start, scanner.pos⟩ text.toArray ++ text.drop scanner.pos :=
    (Span.of_append_drop (hsound.start_le hmode)).symm
  obtain ⟨rest, hbytes, _⟩ := hcandidate
  have hmark : text.drop start = underscore :: capitalZ :: (rest ++ text.drop scanner.pos) := by
    rw [hdrop, hbytes]
    rfl
  refine ⟨hpos, getElem?_of_drop hmark, getElem?_of_drop (drop_succ_of_drop hmark), ?_⟩
  intro place hlow hhigh
  exact tokenAt_of_drop hdrop (hsound.isCandidateText hmode).isTokenByte hlow (by omega)

theorem Sound.placed (hsound : Sound text scanner) : Placed text scanner where
  pos_le := hsound.pos_le
  rest_eq := hsound.rest_eq
  literalFrom_le := Nat.le_trans hsound.literalFrom_le hsound.origin_le
  held := by
    intro hmode
    have hliteral := hsound.literalFrom_le
    rw [origin, hmode] at hliteral
    obtain ⟨hpos, hbyte⟩ := hsound.held_before hmode
    exact ⟨hpos, hbyte, hliteral⟩
  token := by
    intro start hmode
    obtain ⟨hpos, hunderscore, hcapitalZ, htoken⟩ := hsound.token_before hmode
    exact ⟨hpos, hunderscore, hcapitalZ, htoken, hsound.literalFrom_le_start hmode⟩
  tiles := hsound.tiles

/-- Asks about the candidate in a span of the line. -/
def endCandidate? (demangler : Demangler) (bytes : Array UInt8) (span : Span) (scanner : Scanner) :
    Option Scanner :=
  (span.of? bytes).map fun found =>
    match Text.ofUtf8? found with
    | none => scanner
    | some candidate =>
      match demangler candidate with
      | .ok name => (scanner.record ⟨candidate, .ok name⟩).pushName span name
      | .error failure => scanner.record ⟨candidate, .error failure⟩

/-- A turn that looks up its byte at the position. A mark begins two places before the position
behind it. -/
def turn? (demangler : Demangler) (bytes : Array UInt8) (scanner : Scanner) : Option Scanner :=
  bytes[scanner.pos]?.bind fun byte =>
    let next := scanner.advance scanner.rest.tail
    match scanner.mode with
    | .outside => some (next (if byte = underscore then .held else .outside))
    | .held =>
      if byte = capitalZ then
        (Nat.psub (scanner.pos + 1) 2).map fun start => next (.token start)
      else some (next .outside)
    | .token start =>
      if isTokenByte byte then some (next (.token start))
      else
        (scanner.endCandidate? demangler bytes ⟨start, scanner.pos⟩).map fun ended =>
          { ended with mode := .outside }

/-- A candidate that is open at the end of the line reaches up to there. -/
def finish? (demangler : Demangler) (bytes : Array UInt8) (scanner : Scanner) : Option Scanner :=
  match scanner.mode with
  | .token start =>
    (scanner.endCandidate? demangler bytes ⟨start, bytes.size⟩).map fun ended =>
      ended.endLiteral bytes.size
  | _ => some (scanner.endLiteral bytes.size)

theorem endCandidate?_eq (demangler : Demangler) {bytes : Array UInt8} {start : Nat}
    (hstart : start ≤ scanner.pos) (hpos : scanner.pos ≤ bytes.size) :
    scanner.endCandidate? demangler bytes ⟨start, scanner.pos⟩ =
      some (scanner.endCandidate demangler bytes start) := by
  have hspan : Span.of? ⟨start, scanner.pos⟩ bytes = some (Span.of ⟨start, scanner.pos⟩ bytes) :=
    Span.of?_eq hstart hpos
  unfold endCandidate? endCandidate
  rw [hspan, Option.map_some]
  cases htext : Text.ofUtf8? (Span.of ⟨start, scanner.pos⟩ bytes) with
  | none => rfl
  | some candidate =>
      cases hanswer : demangler candidate <;> simp only [hanswer]

theorem Sound.rest_ne_nil (hsound : Sound text scanner) (hpos : scanner.pos < text.length) :
    scanner.rest ≠ [] :=
  mt hsound.rest_eq_nil_iff.mp (Nat.ne_of_lt hpos)

/-- Going by positions, a turn makes the same step. -/
theorem Sound.turn?_of_step (hsound : Sound text scanner) {byte : UInt8} {rest : List UInt8}
    (hrest : scanner.rest = byte :: rest) {next : Scanner}
    (hstep : Step demangler text.toArray scanner byte rest next) :
    scanner.turn? demangler text.toArray = some next := by
  have hbyte : text.toArray[scanner.pos]? = some byte := by
    rw [List.getElem?_toArray]
    exact getElem?_of_drop (hsound.drop_eq hrest)
  unfold turn?
  rw [hbyte, Option.bind_some, hrest]
  cases hstep with
  | pass hmode hbyte => simp only [hmode, if_neg hbyte, List.tail_cons]
  | hold hmode hbyte => simp only [hmode, if_pos hbyte, List.tail_cons]
  | release hmode hbyte => simp only [hmode, if_neg hbyte, List.tail_cons]
  | mark hmode hbyte =>
      -- the underscore that is held is one of the two places to go back
      have hback : Nat.psub (scanner.pos + 1) 2 = some (scanner.pos - 1) :=
        Nat.psub_eq_sub (Nat.succ_le_succ (hsound.underscore_before hmode).1)
      simp only [hmode, if_pos hbyte, hback, Option.map_some, List.tail_cons]
  | collect hmode hbyte => simp only [hmode, if_pos hbyte, List.tail_cons]
  | leave hmode hbyte =>
      have hended := endCandidate?_eq demangler (hsound.start_le hmode)
        (hsound.pos_le.trans_eq List.size_toArray.symm)
      simp only [hmode, hbyte, Bool.false_eq_true, if_false, hended, Option.map_some]

/-- No turn is refused. -/
theorem Sound.turn?_eq (hsound : Sound text scanner) (hpos : scanner.pos < text.length) :
    scanner.turn? demangler text.toArray = some (scanner.turn demangler text.toArray) := by
  obtain ⟨byte, rest, hrest⟩ := List.exists_cons_of_ne_nil (hsound.rest_ne_nil hpos)
  exact hsound.turn?_of_step hrest (step_turn demangler text.toArray hrest)

/-- The end of the line is where the position is, and the end of a scan is not refused. -/
theorem Sound.finish?_eq (hsound : Sound text scanner) (hpos : scanner.pos = text.length) :
    scanner.finish? demangler text.toArray = some (scanner.finish demangler text.toArray) := by
  have hsize : text.toArray.size = scanner.pos := by rw [List.size_toArray, hpos]
  unfold finish? finish
  cases hmode : scanner.mode with
  | outside => rfl
  | held => rfl
  | token start =>
      have hended := endCandidate?_eq demangler (hsound.start_le hmode) (Nat.le_of_eq hsize.symm)
      simp only [hsize, hended, Option.map_some]

/-- A step reads a byte, or it leaves a candidate behind and stays where it is. -/
theorem pos_step {bytes : Array UInt8} {byte : UInt8} {rest : List UInt8} {next : Scanner}
    (hstep : Step demangler bytes scanner byte rest next) :
    next.pos = scanner.pos + 1 ∨
      (∃ start, scanner.mode = .token start) ∧ next.pos = scanner.pos ∧ next.mode = .outside := by
  cases hstep with
  | pass | hold | release | mark | collect => exact Or.inl rfl
  | @leave start hmode _ =>
      exact Or.inr ⟨⟨start, hmode⟩, pos_endCandidate bytes start, rfl⟩

theorem Reaches.work_turn_lt {count : Nat} (hreaches : Reaches demangler text count scanner)
    (hpos : scanner.pos < text.length) :
    (scanner.turn demangler text.toArray).work < scanner.work :=
  Scanner.work_turn_lt text.toArray (hreaches.sound.rest_ne_nil hpos)

/-- The turns taken and the work that is left never come to more than there was to do at first. -/
theorem Reaches.count_add_work_le {count : Nat}
    (hreaches : Reaches demangler text count scanner) :
    count + scanner.work ≤ 2 * text.length := by
  induction hreaches with
  | start => exact Nat.le_of_eq (Nat.zero_add _)
  | turn hreaches hpos ih =>
      have hlt := hreaches.work_turn_lt hpos
      omega

/-- From every state of a scan the end of the line is reached. -/
theorem Reaches.exists_end {count : Nat} (hreaches : Reaches demangler text count scanner) :
    ∃ total last, Reaches demangler text total last ∧ last.pos = text.length := by
  induction hwork : scanner.work using Nat.strong_induction_on generalizing count scanner with
  | h work ih =>
      by_cases hpos : scanner.pos < text.length
      · have hlt := hreaches.work_turn_lt hpos
        exact ih _ (hwork ▸ hlt) (hreaches.turn hpos) rfl
      · have hle := hreaches.sound.pos_le
        exact ⟨count, scanner, hreaches, by omega⟩

/-- A limited number of turns leads on from where a scan has come. -/
theorem Reaches.turns_start {count : Nat} (hreaches : Reaches demangler text count scanner)
    (more : Nat) :
    (Scanner.start text).turns demangler text.toArray (count + more) =
      scanner.turns demangler text.toArray more := by
  induction hreaches generalizing more with
  | start => rw [Nat.zero_add]
  | turn hreaches hpos ih =>
      have hempty := mt List.isEmpty_iff.mp (hreaches.sound.rest_ne_nil hpos)
      rw [Nat.add_assoc, Nat.add_comm 1 more, ih, turns, if_neg hempty]

theorem turns_of_rest_eq_nil (bytes : Array UInt8) (hrest : scanner.rest = []) (count : Nat) :
    scanner.turns demangler bytes count = scanner := by
  cases count with
  | zero => rfl
  | succ count => rw [turns, if_pos (List.isEmpty_iff.mpr hrest)]

/-- The limit that a scan sets itself is never felt. -/
theorem Reaches.scan_eq {count : Nat} (hreaches : Reaches demangler text count scanner)
    (hpos : scanner.pos = text.length) :
    scan demangler text =
      ⟨(scanner.finish demangler text.toArray).segments.toList,
        (scanner.finish demangler text.toArray).attempts.toList⟩ := by
  have hrest := hreaches.sound.rest_eq_nil_iff.mpr hpos
  have hcount : count + (2 * text.length - count) = 2 * text.length := by
    have hle := hreaches.count_add_work_le
    omega
  have hlast := hreaches.turns_start (2 * text.length - count)
  rw [hcount, turns_of_rest_eq_nil text.toArray hrest] at hlast
  rw [scan, hlast]

end Scanner

/-- **A scan stays within its line, and ends.** In every state of a scan the scanner is placed in
its line. A turn that is to be taken finds its byte, its mark and its candidate in the line; it
reads a byte, or leaves a candidate behind and stays where it is; and no more turns are ever taken
than twice the bytes of the line. The end of the line is reached, where the candidate that is open
lies in the line as well, and so do all the segments that come of it. -/
theorem scan_within_line (demangler : Demangler) (text : List UInt8) :
    (∀ count scanner, Scanner.Reaches demangler text count scanner →
      scanner.Placed text ∧ count ≤ 2 * text.length ∧
        (scanner.pos < text.length →
          scanner.turn? demangler text.toArray = some (scanner.turn demangler text.toArray) ∧
            ((scanner.turn demangler text.toArray).pos = scanner.pos + 1 ∨
              (∃ start, scanner.mode = .token start) ∧
                (scanner.turn demangler text.toArray).pos = scanner.pos ∧
                (scanner.turn demangler text.toArray).mode = .outside)) ∧
        (scanner.pos = text.length →
          ∃ last, scanner.finish? demangler text.toArray = some last ∧
            scan demangler text = ⟨last.segments.toList, last.attempts.toList⟩)) ∧
      (∃ count last, Scanner.Reaches demangler text count last ∧ last.pos = text.length) ∧
      ∀ segment ∈ (scan demangler text).segments,
        segment.span.of? text.toArray = some (segment.span.of text.toArray) := by
  have hstart : Scanner.Reaches demangler text 0 (Scanner.start text) := .start
  obtain ⟨total, last, hlast, hend⟩ := hstart.exists_end
  refine ⟨?_, ⟨total, last, hlast, hend⟩, ?_⟩
  · intro count scanner hreaches
    have hsound := hreaches.sound
    have hwork := hreaches.count_add_work_le
    refine ⟨hsound.placed, by omega, ?_, ?_⟩
    · intro hpos
      obtain ⟨byte, rest, hrest⟩ := List.exists_cons_of_ne_nil (hsound.rest_ne_nil hpos)
      exact ⟨hsound.turn?_eq hpos,
        Scanner.pos_step (Scanner.step_turn demangler text.toArray hrest)⟩
    · intro hpos
      exact ⟨_, hsound.finish?_eq hpos, hreaches.scan_eq hpos⟩
  · intro segment hsegment
    have htiles : Tiles 0 text.length
        (last.finish demangler text.toArray).segments.toList := hlast.sound.tiles_finish
    rw [hlast.scan_eq hend] at hsegment
    obtain ⟨hlt, hstop⟩ := htiles.bounds hsegment
    exact Span.of?_eq (Nat.le_of_lt hlt) (hstop.trans_eq List.size_toArray.symm)

/-- The turn that ends the first candidate is the fourth one, three bytes into the line. The second
candidate is open at the end. -/
theorem scan_within_line_two_candidates :
    ∃ left last,
      Scanner.Reaches (knowing "_Zf" "f()") (Text.utf8 "_Zf-_Zg") 4 left ∧ left.pos = 3 ∧
        left.literalFrom ≤ 3 ∧
        left.turn? (knowing "_Zf" "f()") (Text.utf8 "_Zf-_Zg").toArray =
          some (left.turn (knowing "_Zf" "f()") (Text.utf8 "_Zf-_Zg").toArray) ∧
        Scanner.Reaches (knowing "_Zf" "f()") (Text.utf8 "_Zf-_Zg") 8 last ∧
        last.mode = .token 4 ∧ last.literalFrom ≤ 4 ∧
        8 ≤ 2 * (Text.utf8 "_Zf-_Zg").length ∧
        (last.finish? (knowing "_Zf" "f()") (Text.utf8 "_Zf-_Zg").toArray).isSome := by
  obtain ⟨hstates, _, _⟩ := scan_within_line (knowing "_Zf" "f()") (Text.utf8 "_Zf-_Zg")
  have hleft : Scanner.Reaches (knowing "_Zf" "f()") (Text.utf8 "_Zf-_Zg") 4 _ :=
    (((Scanner.Reaches.start.turn (by decide +kernel)).turn (by decide +kernel)).turn
      (by decide +kernel)).turn (by decide +kernel)
  have hlast : Scanner.Reaches (knowing "_Zf" "f()") (Text.utf8 "_Zf-_Zg") 8 _ :=
    (((hleft.turn (by decide +kernel)).turn (by decide +kernel)).turn (by decide +kernel)).turn
      (by decide +kernel)
  obtain ⟨hplaced, _, hturn, _⟩ := hstates 4 _ hleft
  obtain ⟨hlastPlaced, hcount, _, hfinish⟩ := hstates 8 _ hlast
  obtain ⟨closed, hclosed, _⟩ := hfinish (by decide +kernel)
  refine ⟨_, _, hleft, by decide +kernel, hplaced.literalFrom_le.trans (by decide +kernel),
    (hturn (by decide +kernel)).1, hlast, by decide +kernel, ?_, hcount, ?_⟩
  · obtain ⟨_, _, _, _, hliteral⟩ := hlastPlaced.token 4 (by decide +kernel)
    exact hliteral
  · rw [hclosed]
    rfl

end MangledNames.Line

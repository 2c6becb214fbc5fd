import MangledNames.Proofs.Line.Candidates

/-!
# The segments of a line

The segments of a line follow one another from its first byte to its last, none is empty, and a
literal segment and a name take turns. There is only one way to do this once it is known which
candidates have names (`segments_partition`).

Two names never meet because a candidate ends only where a byte follows that is none of its own, and
two literal segments never meet because one that is open stays open up to the next name. What is
open when a candidate fails takes it in as a whole.
-/

namespace MangledNames.Line

variable {demangler : Demangler} {line : List UInt8}

def Segment.name? : Segment → Option (Span × String)
  | literal _ => none
  | translated span name => some (span, name)

/-- What the demangler makes of the bytes of a span, taken as characters one by one. -/
def nameAt? (demangler : Demangler) (line : List UInt8) (span : Span) : Option String :=
  (demangler (Text.ofAscii (span.of line.toArray))).toOption

theorem nameAt?_eq_some_iff {span : Span} {name : String} :
    nameAt? demangler line span = some name ↔
      demangler (Text.ofAscii (span.of line.toArray)) = .ok name := by
  rw [nameAt?]
  cases demangler (Text.ofAscii (span.of line.toArray)) <;> simp [Except.toOption]

theorem CutFrom.nameAt?_eq {rest : List Piece} {pos : Nat} {bytes : List UInt8}
    (hcut : CutFrom line pos (.candidate bytes :: rest)) :
    nameAt? demangler line ⟨pos, pos + bytes.length⟩ =
      (demangler (Text.ofAscii bytes)).toOption := by
  have hbytes : Span.of ⟨pos, pos + bytes.length⟩ line.toArray = bytes := hcut.of_piece
  rw [nameAt?, hbytes]

theorem Tiles.le {start stop : Nat} {segments : List Segment} (htiles : Tiles start stop segments) :
    start ≤ stop := by
  induction segments generalizing start with
  | nil => exact Nat.le_of_eq htiles
  | cons segment segments ih =>
      obtain ⟨_, hlt, hrest⟩ := htiles
      exact Nat.le_trans (Nat.le_of_lt hlt) (ih hrest)

/-- The bytes of segments that follow one another are the bytes that they cover. -/
theorem Tiles.flatMap_of {start stop : Nat} {segments : List Segment}
    (htiles : Tiles start stop segments) (hlength : stop ≤ line.length) :
    segments.flatMap (fun segment => segment.span.of line.toArray) =
      Span.of ⟨start, stop⟩ line.toArray := by
  induction segments generalizing start with
  | nil =>
      have heq : start = stop := htiles
      rw [heq, Span.of_self]
      rfl
  | cons segment segments ih =>
      obtain ⟨hstart, hlt, hrest⟩ := htiles
      have hspan : segment.span = ⟨start, segment.span.stop⟩ := by rw [← hstart]
      rw [List.flatMap_cons, ih hrest, Span.of_split (Nat.le_of_lt hlt) hrest.le hlength, ← hspan]

theorem Tiles.eq_nil {segments : List Segment} (htiles : Tiles 0 0 segments) : segments = [] := by
  cases segments with
  | nil => rfl
  | cons segment segments =>
      obtain ⟨_, hlt, hrest⟩ := htiles
      have hle := hrest.le
      omega

theorem Scanner.Sound.tiles_finish {scanner : Scanner} (hsound : scanner.Sound line) :
    Tiles 0 line.length (scanner.finish demangler line.toArray).segments.toList := by
  have hle : scanner.literalFrom ≤ line.length :=
    Nat.le_trans hsound.literalFrom_le (Nat.le_trans hsound.origin_le hsound.pos_le)
  unfold Scanner.finish
  rw [List.size_toArray]
  split
  next start hmode =>
      have hended : Scanner.Sound line
          { scanner.endCandidate demangler line.toArray start with mode := .outside } :=
        hsound.endCandidate hmode
      refine tiles_endLiteral ?_ hended.tiles
      exact Nat.le_trans hended.literalFrom_le hended.pos_le
  next => exact tiles_endLiteral hle hsound.tiles

/-- An open literal segment comes first, and covers what has been passed over. -/
theorem segmentsOf_open (demangler : Demangler) {literalFrom pos : Nat} (hlt : literalFrom < pos)
    (rest : List Piece) :
    ∃ stop others, pos ≤ stop ∧
      segmentsOf demangler literalFrom pos rest = .literal ⟨literalFrom, stop⟩ :: others := by
  induction rest generalizing pos with
  | nil => exact ⟨pos, [], Nat.le_refl pos, by rw [segmentsOf, literalBetween, if_pos hlt]⟩
  | cons piece rest ih =>
      cases piece with
      | single byte =>
          obtain ⟨stop, others, hstop, heq⟩ := ih (Nat.lt_succ_of_lt hlt)
          exact ⟨stop, others, Nat.le_of_succ_le hstop, heq⟩
      | candidate bytes =>
          rw [segmentsOf]
          split
          next name _ =>
              rw [literalBetween, if_pos hlt]
              exact ⟨pos, _, Nat.le_refl pos, rfl⟩
          next failure _ =>
              obtain ⟨stop, others, hstop, heq⟩ := ih (Nat.lt_add_right bytes.length hlt)
              exact ⟨stop, others, Nat.le_trans (Nat.le_add_right _ _) hstop, heq⟩

/-- Two neighbours are a literal segment and a name, in one order or the other. -/
def Alternate (segment next : Segment) : Prop := segment.isTranslated ≠ next.isTranslated

/-- Pieces of which no two neighbours are candidates. -/
def Apart (rest : List Piece) : Prop :=
  rest.IsChain fun piece next =>
    ∀ bytes others, piece = .candidate bytes → next ≠ .candidate others

theorem isChain_segmentsOf (demangler : Demangler) {rest : List Piece} (hapart : Apart rest)
    (literalFrom pos : Nat) :
    (segmentsOf demangler literalFrom pos rest).IsChain Alternate := by
  have hliteral : ∀ start stop, (literalBetween start stop).IsChain Alternate := by
    intro start stop
    unfold literalBetween
    split
    · exact .singleton _
    · exact .nil
  induction rest generalizing literalFrom pos with
  | nil => exact hliteral _ _
  | cons piece rest ih =>
      obtain ⟨hhead, hrest⟩ := List.isChain_cons.mp hapart
      cases piece with
      | single byte => exact ih hrest _ _
      | candidate bytes =>
          rw [segmentsOf]
          split
          next name _ =>
              refine List.IsChain.append (hliteral _ _)
                (List.isChain_cons.mpr ⟨?_, ih hrest _ _⟩) ?_
              · intro next hnext
                -- after a name comes a byte, or the end
                cases rest with
                | nil => simp [segmentsOf, literalBetween] at hnext
                | cons following rest =>
                    cases following with
                    | single byte =>
                        obtain ⟨stop, others, _, heq⟩ :=
                          segmentsOf_open demangler (Nat.lt_succ_self (pos + bytes.length)) rest
                        rw [segmentsOf, heq] at hnext
                        rw [← Option.some.inj hnext]
                        simp [Alternate, Segment.isTranslated]
                    | candidate others => exact absurd rfl (hhead _ rfl bytes others rfl)
              · intro segment hsegment next hnext
                unfold literalBetween at hsegment
                split at hsegment
                · rw [← Option.some.inj hsegment, ← Option.some.inj hnext]
                  simp [Alternate, Segment.isTranslated]
                · simp at hsegment
          next failure _ => exact ih hrest _ _

theorem filterMap_name?_literalBetween (start stop : Nat) :
    (literalBetween start stop).filterMap Segment.name? = [] := by
  unfold literalBetween
  split <;> rfl

/-- The names are those of the candidates that have one. -/
theorem filterMap_name?_segmentsOf {rest : List Piece} {pos : Nat}
    (hcut : CutFrom line pos rest) (literalFrom : Nat) :
    (segmentsOf demangler literalFrom pos rest).filterMap Segment.name? =
      (spansOf pos rest).filterMap fun span =>
        (nameAt? demangler line span).map (Prod.mk span) := by
  induction rest generalizing literalFrom pos with
  | nil => exact filterMap_name?_literalBetween _ _
  | cons piece rest ih =>
      cases piece with
      | single byte => exact ih hcut.next literalFrom
      | candidate bytes =>
          have hnext : CutFrom line (pos + bytes.length) rest := hcut.next
          rw [segmentsOf, spansOf, List.filterMap_cons, hcut.nameAt?_eq]
          split
          next name hanswer =>
              rw [List.filterMap_append, filterMap_name?_literalBetween, List.nil_append,
                List.filterMap_cons, ih hnext, hanswer]
              rfl
          next failure hanswer =>
              rw [ih hnext, hanswer]
              rfl

/-- A candidate without a name lies in a literal segment. -/
theorem exists_literal_of_failure {rest : List Piece} {literalFrom pos : Nat}
    (hcut : CutFrom line pos rest) (hle : literalFrom ≤ pos) {span : Span}
    (hspan : span ∈ spansOf pos rest) (hfailure : nameAt? demangler line span = none) :
    ∃ literal, .literal literal ∈ segmentsOf demangler literalFrom pos rest ∧
      literal.start ≤ span.start ∧ span.stop ≤ literal.stop := by
  induction rest generalizing literalFrom pos with
  | nil => simp [spansOf] at hspan
  | cons piece rest ih =>
      cases piece with
      | single byte => exact ih hcut.next (Nat.le_succ_of_le hle) hspan
      | candidate bytes =>
          have hnext : CutFrom line (pos + bytes.length) rest := hcut.next
          have htext := hcut.isCandidateText bytes List.mem_cons_self
          rw [segmentsOf]
          rcases List.mem_cons.mp hspan with rfl | hspan
          · rw [hcut.nameAt?_eq] at hfailure
            split
            next name hanswer =>
                rw [hanswer] at hfailure
                cases hfailure
            next failure _ =>
                have hlt : literalFrom < pos + bytes.length :=
                  Nat.lt_of_le_of_lt hle (Nat.lt_add_of_pos_right htext.length_pos)
                obtain ⟨stop, others, hstop, heq⟩ := segmentsOf_open demangler hlt rest
                refine ⟨⟨literalFrom, stop⟩, ?_, hle, hstop⟩
                rw [heq]
                exact List.mem_cons_self
          · split
            next name _ =>
                obtain ⟨literal, hmem, hbounds⟩ := ih hnext (Nat.le_refl _) hspan
                refine ⟨literal, List.mem_append_right _ ?_, hbounds⟩
                exact List.mem_cons_of_mem _ hmem
            next failure _ => exact ih hnext (Nat.le_trans hle (Nat.le_add_right _ _)) hspan

/-- **The segments of a line are its canonical partition.** They are not empty and follow one
another from 0 to the length of the line, so that their bytes in a row are the line; literal
segments and names take turns; the names are those of the candidates that have one, in order; and a
candidate without a name lies in one literal segment. -/
theorem segments_partition (demangler : Demangler) (line : List UInt8) :
    Tiles 0 line.length (scan demangler line).segments ∧
      (scan demangler []).segments = [] ∧
      (scan demangler line).segments.IsChain Alternate ∧
      (scan demangler line).segments.filterMap Segment.name? =
        (candidates line).filterMap (fun span =>
          (nameAt? demangler line span).map (Prod.mk span)) ∧
      (∀ span ∈ candidates line, nameAt? demangler line span = none →
        ∃ literal, .literal literal ∈ (scan demangler line).segments ∧
          literal.start ≤ span.start ∧ span.stop ≤ literal.stop) ∧
      (scan demangler line).segments.flatMap (fun segment => segment.span.of line.toArray) =
        line := by
  have htiles : ∀ line, Tiles 0 line.length (scan demangler line).segments := by
    intro line
    have hsound : Scanner.Sound line
        ((Scanner.start line).turns demangler line.toArray (2 * line.length)) :=
      (Scanner.sound_start line).turns (2 * line.length)
    exact hsound.tiles_finish
  have hwhole : Span.of ⟨0, line.length⟩ line.toArray = line := by
    simp [Span.of_toArray]
  refine ⟨htiles line, (htiles []).eq_nil, ?_, ?_, ?_, ?_⟩
  · rw [scan_eq]
    exact isChain_segmentsOf demangler (isChain_pieces line) 0 0
  · rw [scan_eq]
    exact filterMap_name?_segmentsOf (cutFrom_pieces line) 0
  · intro span hspan hfailure
    rw [scan_eq]
    exact exists_literal_of_failure (cutFrom_pieces line) (Nat.le_refl 0) hspan hfailure
  · rw [(htiles line).flatMap_of (Nat.le_refl _), hwhole]

theorem segments_partition_failure_after_name :
    let segments := (scan (knowing "_Zf" "f()") (Text.utf8 "a_Zf _Zg!")).segments
    segments.filterMap Segment.name? = [(⟨1, 4⟩, "f()")] ∧
      ⟨5, 8⟩ ∈ candidates (Text.utf8 "a_Zf _Zg!") ∧
      ∃ literal, .literal literal ∈ segments ∧ literal.start ≤ 5 ∧ 8 ≤ literal.stop := by
  intro segments
  obtain ⟨_, _, _, hnames, hfailure, _⟩ :=
    segments_partition (knowing "_Zf" "f()") (Text.utf8 "a_Zf _Zg!")
  have hspan : ⟨5, 8⟩ ∈ candidates (Text.utf8 "a_Zf _Zg!") := by decide +kernel
  have hname : nameAt? (knowing "_Zf" "f()") (Text.utf8 "a_Zf _Zg!") ⟨5, 8⟩ = none := by
    decide +kernel
  refine ⟨hnames.trans ?_, hspan, hfailure ⟨5, 8⟩ hspan hname⟩
  decide +kernel

end MangledNames.Line

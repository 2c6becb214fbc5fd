import MangledNames.Proofs.Line.Assembly
import MangledNames.Proofs.Text.Boundaries

/-!
# Lines that are text

The scanner looks at bytes, and a line may be text with characters of several bytes. No segment cuts
one of them in two: a segment begins and ends at an end of the line or at an end of a candidate, and
a candidate begins and ends with ASCII bytes (`fits_of_mem_segments`). So every segment of the line
is text, and the texts in a row have the bytes that are written (`exists_scanText?`).
-/

namespace MangledNames.Line

variable {demangler : Demangler} {line : String}

/-- Both ends are places between characters. -/
structure Span.Fits (line : String) (span : Span) : Prop where
  start : String.Pos.Raw.IsValid line ⟨span.start⟩
  stop : String.Pos.Raw.IsValid line ⟨span.stop⟩
  le : span.start ≤ span.stop

theorem CutFrom.fits {rest : List Piece} {pos : Nat} {bytes : List UInt8}
    (hcut : CutFrom (Text.utf8 line) pos (.candidate bytes :: rest))
    (hpos : pos ≤ (Text.utf8 line).length) :
    Span.Fits line ⟨pos, pos + bytes.length⟩ := by
  have htext := hcut.isCandidateText bytes List.mem_cons_self
  have hsplit := List.take_append_drop pos (Text.utf8 line)
  rw [hcut.drop_eq, List.flatMap_cons, Piece.bytes] at hsplit
  have hlength : ((Text.utf8 line).take pos).length = pos := List.length_take_of_le hpos
  generalize (Text.utf8 line).take pos = front at hsplit hlength
  generalize rest.flatMap Piece.bytes = back at hsplit
  have hne := List.ne_nil_of_length_pos htext.length_pos
  refine ⟨?_, ?_, Nat.le_add_right _ _⟩
  · obtain ⟨first, others, rfl⟩ := List.exists_cons_of_ne_nil hne
    have hfirst := htext.lt first List.mem_cons_self
    rw [← hlength]
    exact (Text.isValid_of_ascii hfirst hsplit.symm).1
  · have hlast := htext.lt _ (List.getLast_mem hne)
    have hsplit : Text.utf8 line = (front ++ bytes.dropLast) ++ bytes.getLast hne :: back := by
      rw [← hsplit, List.append_assoc, ← List.singleton_append, ← List.append_assoc bytes.dropLast,
        List.dropLast_concat_getLast hne]
    have hplace := (Text.isValid_of_ascii hlast hsplit).2
    rwa [List.length_append, hlength, Nat.add_assoc, List.length_dropLast,
      Nat.sub_add_cancel htext.length_pos] at hplace

theorem fits_literalBetween {start stop : Nat} (hstart : String.Pos.Raw.IsValid line ⟨start⟩)
    (hstop : String.Pos.Raw.IsValid line ⟨stop⟩) :
    ∀ segment ∈ literalBetween start stop, segment.span.Fits line := by
  intro segment hmem
  unfold literalBetween at hmem
  split at hmem
  next hlt =>
      rw [List.mem_singleton.mp hmem]
      exact ⟨hstart, hstop, Nat.le_of_lt hlt⟩
  next => cases hmem

theorem fits_of_mem_segmentsOf {rest : List Piece} {literalFrom pos : Nat}
    (hcut : CutFrom (Text.utf8 line) pos rest) (hpos : pos ≤ (Text.utf8 line).length)
    (hopen : String.Pos.Raw.IsValid line ⟨literalFrom⟩) :
    ∀ segment ∈ segmentsOf demangler literalFrom pos rest, segment.span.Fits line := by
  induction rest generalizing literalFrom pos with
  | nil =>
      have hend : pos = (Text.utf8 line).length :=
        Nat.le_antisymm hpos (List.drop_eq_nil_iff.mp hcut.drop_eq)
      exact fits_literalBetween hopen (hend ▸ Text.isValid_length line)
  | cons piece rest ih =>
      have hnextPos : pos + piece.bytes.length ≤ (Text.utf8 line).length := by
        have hlength := congrArg List.length hcut.drop_eq
        rw [List.length_drop, List.flatMap_cons, List.length_append] at hlength
        omega
      cases piece with
      | single byte => exact ih hcut.next hnextPos hopen
      | candidate bytes =>
          have hnext : CutFrom (Text.utf8 line) (pos + bytes.length) rest := hcut.next
          have hfits := hcut.fits hpos
          rw [segmentsOf]
          split
          next name _ =>
              intro segment hmem
              rcases List.mem_append.mp hmem with hmem | hmem
              · exact fits_literalBetween hopen hfits.start segment hmem
              · rcases List.mem_cons.mp hmem with rfl | hmem
                · exact hfits
                · exact ih hnext hnextPos hfits.stop segment hmem
          -- the candidate joins the open segment, which began at a place between characters
          next failure _ => exact ih hnext hnextPos hopen

/-- **No segment cuts a character.** -/
theorem fits_of_mem_segments (demangler : Demangler) (line : String) :
    ∀ segment ∈ (scan demangler (Text.utf8 line)).segments, segment.span.Fits line := by
  rw [scan_eq]
  exact fits_of_mem_segmentsOf (cutFrom_pieces _) (Nat.zero_le _) (Text.isValid_zero line)

theorem Span.Fits.exists_textAt? {span : Span} (hfits : span.Fits line) :
    ∃ part, textAt? line (Text.utf8 line).toArray span = some part ∧
      Text.utf8 part = span.of (Text.utf8 line).toArray := by
  obtain ⟨part, hpart⟩ := Text.ofUtf8?_between hfits.le hfits.start hfits.stop
  refine ⟨part, ?_, Text.ofUtf8?_eq_some_iff.mp hpart⟩
  rw [textAt?, String.Pos.Raw.isValid_eq_true_iff.mpr hfits.start,
    String.Pos.Raw.isValid_eq_true_iff.mpr hfits.stop]
  exact hpart

theorem utf8_bracketed (brackets : Bool) (name : String) :
    Text.utf8 (String.ofList (bracketed brackets '[' ']' name.toList)) =
      bracketed brackets '['.toUInt8 ']'.toUInt8 (Text.utf8 name) := by
  rw [Text.utf8_ofList, Text.utf8_eq_flatMap]
  cases brackets with
  | false => rfl
  | true =>
      simp only [bracketed, if_true, List.flatMap_cons, List.flatMap_append, List.flatMap_nil]
      rfl

theorem Segment.exists_text? {segment : Segment} (hfits : segment.span.Fits line)
    (brackets : Bool) :
    ∃ chars, segment.text? line (Text.utf8 line).toArray brackets = some chars ∧
      Text.utf8 (String.ofList chars) = segment.bytes (Text.utf8 line).toArray brackets := by
  cases segment with
  | literal span =>
      have hspan : span.Fits line := hfits
      obtain ⟨part, hpart, hbytes⟩ := hspan.exists_textAt?
      refine ⟨part.toList, ?_, ?_⟩
      · change (textAt? line _ span).map String.toList = _
        rw [hpart]
        rfl
      · rw [String.ofList_toList, hbytes]
        rfl
  | translated span name => exact ⟨_, rfl, utf8_bracketed brackets name⟩

theorem exists_mapM_text? (brackets : Bool) {segments : List Segment}
    (hfits : ∀ segment ∈ segments, segment.span.Fits line) :
    ∃ texts, segments.mapM (Segment.text? line (Text.utf8 line).toArray brackets) = some texts ∧
      Text.utf8 (String.ofList texts.flatten) =
        segments.flatMap (Segment.bytes (Text.utf8 line).toArray brackets) := by
  induction segments with
  | nil => exact ⟨[], rfl, rfl⟩
  | cons segment segments ih =>
      rw [List.forall_mem_cons] at hfits
      obtain ⟨chars, hchars, hbytes⟩ := Segment.exists_text? hfits.1 brackets
      obtain ⟨texts, htexts, hrest⟩ := ih hfits.2
      refine ⟨chars :: texts, ?_, ?_⟩
      · rw [List.mapM_cons, hchars, htexts]
        rfl
      · rw [List.flatten_cons, List.flatMap_cons, String.ofList_append, Text.utf8_append, hbytes,
          hrest]

/-- **The text of a line has the bytes that are written.** -/
theorem exists_scanText? (demangler : Demangler) (line : String) (brackets : Bool) :
    ∃ out, scanText? demangler line brackets = some out ∧
      Text.utf8 out = rewritten demangler brackets (Text.utf8 line) := by
  obtain ⟨texts, htexts, hbytes⟩ :=
    exists_mapM_text? brackets (fits_of_mem_segments demangler line)
  refine ⟨String.ofList texts.flatten, ?_, hbytes⟩
  rw [scanText?, htexts]
  rfl

end MangledNames.Line

import MangledNames.Proofs.Stream.Reading

/-!
# Lines of a schedule

Ends of input cut the bytes of a schedule into stretches, and newlines cut a stretch into lines. The
last line of a stretch may lack its newline. Then the end of input is what ends that line, and
reading goes on with the next stretch. An end of input that has no line to end is the end for good.

As long as interruptions are the only faults, nothing else of a schedule matters: neither how the
bytes of a stretch are delivered, nor where interruptions fall, nor the capacity of the buffer
(`filter_of_stretches`). Where deliveries are cut is not seen in front of a stop, and the capacity
only cuts them further.
-/

namespace MangledNames.Stream

def Calm (schedule : List Delivery) : Prop := ∀ kind, .fault kind ∈ schedule → kind = .interrupted

/-- The bytes between ends of input. -/
def stretches (schedule : List Delivery) : List (List UInt8) :=
  (schedule.splitOn (.bytes [])).map deliveredText

/-- The lines of stretches, up to the first stretch that ends with a newline or is empty. -/
def cutLines : List (List UInt8) → List (List UInt8)
  | [] => []
  | stretch :: rest => lines stretch ++ if LacksNewline stretch then cutLines rest else []

/-- A stretch ends the reading, unless it leaves a line that lacks its newline. -/
theorem cutLines_cons (stretch : List UInt8) (rest : List (List UInt8)) :
    cutLines (stretch :: rest) =
      lines (finishedPart stretch) ++
        if lastPart stretch = [] then [] else lastPart stretch :: cutLines rest := by
  induction stretch using lines_induction with
  | nil => simp [cutLines, lines, LacksNewline, finishedPart, lastPart]
  | last body hbody hnewline =>
      rw [cutLines, lines_of_not_mem hbody hnewline,
        if_pos (lacksNewline_of_not_mem hbody hnewline), finishedPart_of_not_mem hnewline,
        lastPart_of_not_mem hnewline, if_neg hbody]
      rfl
  | line body others hnewline ih =>
      obtain ⟨hfinished, hlast⟩ := parts_append_newline body others
      rw [hfinished, hlast, lines_append_newline hnewline, List.cons_append, ← ih, cutLines,
        cutLines, lines_append_newline hnewline, List.cons_append]
      simp only [lacksNewline_append_newline]

theorem Calm.of_subset {schedule part : List Delivery} (hcalm : Calm schedule)
    (hpart : part ⊆ schedule) : Calm part :=
  fun kind hmem => hcalm kind (hpart hmem)

theorem Calm.stop_cases {schedule : List Delivery} (hcalm : Calm schedule) :
    schedule.dropWhile Delivery.isPassed = [] ∨
      ∃ rest, schedule.dropWhile Delivery.isPassed = .bytes [] :: rest := by
  cases hdrop : schedule.dropWhile Delivery.isPassed with
  | nil => exact .inl rfl
  | cons first rest =>
      have hmem : first ∈ schedule := by
        apply (List.dropWhile_suffix Delivery.isPassed).subset
        rw [hdrop]
        exact List.mem_cons_self
      have hnot := List.head?_dropWhile_not Delivery.isPassed schedule
      rw [hdrop] at hnot
      cases first with
      | bytes piece =>
          have hpiece : piece = [] := by simpa [Delivery.isPassed] using hnot
          exact .inr ⟨rest, by rw [hpiece]⟩
      | fault kind =>
          rw [hcalm kind hmem] at hnot
          cases hnot

/-- The first stretch is what is passed, and the others are behind the stop. -/
theorem stretches_eq {schedule : List Delivery} (hcalm : Calm schedule) :
    stretches schedule =
      deliveredText (schedule.takeWhile Delivery.isPassed) ::
        match schedule.dropWhile Delivery.isPassed with
        | [] => []
        | _ :: rest => stretches rest := by
  have hsplit := List.takeWhile_append_dropWhile (p := Delivery.isPassed) (l := schedule)
  have hrun : .bytes [] ∉ schedule.takeWhile Delivery.isPassed := by
    intro hmem
    have hpassed := List.mem_takeWhile_imp hmem
    cases hpassed
  generalize schedule.takeWhile Delivery.isPassed = run at hsplit hrun
  rcases hcalm.stop_cases with hstop | ⟨rest, hstop⟩
  · rw [hstop, List.append_nil] at hsplit
    rw [hstop, ← hsplit, stretches, List.splitOn_eq_singleton hrun]
    rfl
  · rw [hstop] at hsplit ⊢
    rw [← hsplit, stretches, List.splitOn_append_cons_self_of_not_mem hrun]
    rfl

/-- **Reading finds the lines of the stretches.** -/
theorem read_of_calm {schedule : List Delivery} (hcalm : Calm schedule) :
    Source.read ⟨[], schedule⟩ = (cutLines (stretches schedule), none) := by
  induction hlength : schedule.length using Nat.strongRecOn generalizing schedule with
  | ind length ih =>
      subst hlength
      -- what stands behind an end of input is a shorter schedule, which is read in the same way
      rw [read_eq_finished, stretches_eq hcalm, cutLines_cons, Source.text, Source.stop,
        List.nil_append]
      generalize deliveredText (schedule.takeWhile Delivery.isPassed) = text
      have hbehind : ∀ rest, schedule.dropWhile Delivery.isPassed = .bytes [] :: rest →
          Source.read ⟨[], rest⟩ = (cutLines (stretches rest), none) := by
        intro rest hstop
        have hsuffix := List.dropWhile_suffix Delivery.isPassed (l := schedule)
        rw [hstop] at hsuffix
        have hlt : rest.length < schedule.length := by
          have hle := hsuffix.length_le
          rwa [List.length_cons] at hle
        exact ih _ hlt (hcalm.of_subset fun _ hmem =>
          hsuffix.subset (List.mem_cons_of_mem _ hmem)) rfl
      rcases hcalm.stop_cases with hstop | ⟨rest, hstop⟩
      · have hend : Source.read ⟨[], []⟩ = (cutLines [], none) := rfl
        rw [hstop, readBehind_of_unfinished rfl, List.tail_nil, hend]
        split <;> simp
      · rw [hstop, readBehind_of_unfinished rfl, List.tail_cons, hbehind rest hstop]
        split <;> simp

theorem deliveredText_append (left right : List Delivery) :
    deliveredText (left ++ right) = deliveredText left ++ deliveredText right :=
  List.flatMap_append

theorem stretches_end (rest : List Delivery) :
    stretches (.bytes [] :: rest) = [] :: stretches rest := by
  rw [stretches, List.splitOn_cons_eq_if_modifyHead, if_pos (beq_self_eq_true _)]
  rfl

theorem stretches_cons {first : Delivery} (hfirst : first ≠ .bytes []) (rest : List Delivery) :
    stretches (first :: rest) = (stretches rest).modifyHead (first.content ++ ·) := by
  obtain ⟨run, others, hrest⟩ :=
    List.exists_cons_of_ne_nil (List.splitOn_ne_nil (.bytes []) rest)
  have hne : ¬ (first == .bytes []) = true := by simpa using hfirst
  rw [stretches, stretches, List.splitOn_cons_eq_if_modifyHead, if_neg hne, hrest]
  rfl

theorem stretches_append {run : List Delivery} (hrun : .bytes [] ∉ run) (rest : List Delivery) :
    stretches (run ++ rest) = (stretches rest).modifyHead (deliveredText run ++ ·) := by
  induction run with
  | nil =>
      have hid : ((deliveredText [] : List UInt8) ++ ·) = id := rfl
      rw [List.nil_append, hid, List.modifyHead_id]
      rfl
  | cons first run ih =>
      rw [List.mem_cons, not_or] at hrun
      rw [List.cons_append, stretches_cons (Ne.symm hrun.1), ih hrun.2, List.modifyHead_modifyHead]
      congr 1
      funext stretch
      rw [Function.comp_apply, deliveredText, deliveredText, List.flatMap_cons, List.append_assoc]

theorem pieces_spec {capacity limit : Nat} {content : List UInt8} (hcapacity : 0 < capacity)
    (hcontent : content ≠ []) (hlimit : content.length ≤ limit) :
    deliveredText (Delivery.pieces capacity limit content) = content ∧
      ∀ delivery ∈ Delivery.pieces capacity limit content, ∃ piece, piece ≠ [] ∧
        delivery = .bytes piece := by
  fun_induction Delivery.pieces capacity limit content with
  | case1 content => exact absurd (List.eq_nil_of_length_eq_zero (Nat.le_zero.mp hlimit)) hcontent
  | case2 limit content hdrop =>
      refine ⟨List.append_nil content, ?_⟩
      intro delivery hmem
      exact ⟨content, hcontent, List.mem_singleton.mp hmem⟩
  | case3 limit content hdrop ih =>
      have hlength : (content.drop capacity).length ≤ limit := by
        rw [List.length_drop]
        omega
      obtain ⟨htext, hpieces⟩ := ih hdrop hlength
      refine ⟨?_, ?_⟩
      · rw [deliveredText, List.flatMap_cons]
        change content.take capacity ++ deliveredText _ = content
        rw [htext, List.take_append_drop]
      · intro delivery hmem
        rcases List.mem_cons.mp hmem with rfl | hmem
        · refine ⟨_, ?_, rfl⟩
          simp [List.take_eq_nil_iff, hcontent, Nat.ne_of_gt hcapacity]
        · exact hpieces delivery hmem

section

variable {capacity : Nat} (hcapacity : 0 < capacity)

include hcapacity

theorem through_spec {content : List UInt8} (hcontent : content ≠ []) :
    deliveredText (Delivery.through capacity (.bytes content)) = content ∧
      ∀ delivery ∈ Delivery.through capacity (.bytes content), ∃ piece, piece ≠ [] ∧
        delivery = .bytes piece := by
  rw [Delivery.through, if_neg (Nat.ne_of_gt hcapacity)]
  exact pieces_spec hcapacity hcontent (Nat.le_succ _)

theorem through_end : Delivery.through capacity (.bytes []) = [.bytes []] := by
  rw [Delivery.through, if_neg (Nat.ne_of_gt hcapacity), List.length_nil, Delivery.pieces,
    List.drop_nil]

theorem calm_through {schedule : List Delivery} (hcalm : Calm schedule) :
    Calm (schedule.flatMap (Delivery.through capacity)) := by
  intro kind hmem
  obtain ⟨delivery, hdelivery, hmem⟩ := List.mem_flatMap.mp hmem
  cases delivery with
  | bytes content =>
      by_cases hcontent : content = []
      · rw [hcontent, through_end hcapacity] at hmem
        simp at hmem
      · obtain ⟨piece, _, heq⟩ := (through_spec hcapacity hcontent).2 _ hmem
        cases heq
  | fault met =>
      have heq := Delivery.fault.inj (List.mem_singleton.mp hmem)
      rw [heq]
      exact hcalm met hdelivery

theorem stretches_through (schedule : List Delivery) :
    stretches (schedule.flatMap (Delivery.through capacity)) = stretches schedule := by
  induction schedule with
  | nil => rfl
  | cons first rest ih =>
      rw [List.flatMap_cons]
      cases first with
      | bytes content =>
          by_cases hcontent : content = []
          · rw [hcontent, through_end hcapacity, List.singleton_append, stretches_end,
              stretches_end, ih]
          · obtain ⟨htext, hpieces⟩ := through_spec hcapacity hcontent
            have hrun : .bytes [] ∉ Delivery.through capacity (.bytes content) := by
              intro hmem
              obtain ⟨piece, hpiece, heq⟩ := hpieces _ hmem
              exact hpiece (Delivery.bytes.inj heq).symm
            have hfirst : Delivery.bytes content ≠ .bytes [] := by simpa using hcontent
            rw [stretches_append hrun, stretches_cons hfirst, ih, htext]
            rfl
      | fault kind =>
          have hfirst : Delivery.fault kind ≠ .bytes [] := by simp
          rw [Delivery.through, List.singleton_append, stretches_cons hfirst,
            stretches_cons hfirst, ih]

theorem deliveredText_through (schedule : List Delivery) :
    deliveredText (schedule.flatMap (Delivery.through capacity)) = deliveredText schedule := by
  induction schedule with
  | nil => rfl
  | cons first rest ih =>
      have hfirst : deliveredText (first.through capacity) = first.content := by
        cases first with
        | bytes content =>
            by_cases hcontent : content = []
            · rw [hcontent, through_end hcapacity]
              rfl
            · exact (through_spec hcapacity hcontent).1
        | fault kind => rfl
      rw [List.flatMap_cons, deliveredText_append, hfirst, ih]
      rfl

/-- What is delivered at once is a steady source of its bytes, in whichever pieces they come. -/
theorem steady_ofDeliveries (content : List UInt8) :
    (Source.ofDeliveries capacity [.bytes content]).Steady ∧
      (Source.ofDeliveries capacity [.bytes content]).content = content := by
  have htext := deliveredText_through hcapacity [.bytes content]
  refine ⟨?_, htext.trans (List.append_nil content)⟩
  change SteadyDeliveries ([.bytes content].flatMap (Delivery.through capacity))
  rw [List.flatMap_singleton]
  by_cases hcontent : content = []
  · rw [hcontent, through_end hcapacity]
    exact ⟨rfl, trivial⟩
  · obtain ⟨-, hpieces⟩ := through_spec hcapacity hcontent
    generalize Delivery.through capacity (.bytes content) = parts at hpieces
    induction parts with
    | nil => trivial
    | cons first rest ih =>
        obtain ⟨⟨piece, hpiece, rfl⟩, hrest⟩ := List.forall_mem_cons.mp hpieces
        rw [steadyDeliveries_cons hpiece]
        exact ih hrest

end

/-- **How the bytes are delivered does not matter.** If interruptions are the only faults, a filter
takes the lines of the stretches. So two schedules with the same stretches are filtered alike, with
buffers of any capacity and into any output. -/
theorem filter_of_stretches {σ : Type} [Output σ] (demangler : Demangler) (brackets : Bool)
    {schedule : List Delivery} (hcalm : Calm schedule) {capacity : Nat} (hcapacity : 0 < capacity)
    (output : σ) :
    let source := Source.ofDeliveries capacity schedule
    source.read = (cutLines (stretches schedule), none) ∧
      filter demangler brackets source output =
        filterLines demangler brackets none (cutLines (stretches schedule)) ⟨0, 0⟩ output #[] ∧
      ∀ other room, Calm other → 0 < room → stretches other = stretches schedule →
        filter demangler brackets (Source.ofDeliveries room other) output =
          filter demangler brackets source output := by
  have hread : ∀ schedule capacity, Calm schedule → 0 < capacity →
      (Source.ofDeliveries capacity schedule).read = (cutLines (stretches schedule), none) := by
    intro schedule capacity hcalm hcapacity
    rw [Source.ofDeliveries, read_of_calm (calm_through hcapacity hcalm),
      stretches_through hcapacity]
  intro source
  refine ⟨hread _ _ hcalm hcapacity, ?_, ?_⟩
  · rw [filter_eq_filterLines, hread _ _ hcalm hcapacity]
  · intro other room hother hroom hstretches
    rw [filter_eq_filterLines, filter_eq_filterLines, hread _ _ hother hroom,
      hread _ _ hcalm hcapacity, hstretches]

/-- A line may be cut within a candidate and ended by an end of input. Behind one that ends no line,
nothing is read. -/
theorem filter_of_stretches_two_cuts :
    let schedule : List Delivery :=
      [.bytes (Text.utf8 "a_Z"), .fault .interrupted, .bytes (Text.utf8 "f\nb_Zf"), .bytes [],
        .bytes (Text.utf8 "_Zg\n"), .bytes [], .bytes (Text.utf8 "lost")]
    let other : List Delivery :=
      [.bytes (Text.utf8 "a_Zf\nb"), .bytes (Text.utf8 "_Zf"), .bytes [], .fault .interrupted,
        .bytes (Text.utf8 "_Zg"), .bytes (Text.utf8 "\n"), .bytes [], .bytes (Text.utf8 "lo"),
        .bytes (Text.utf8 "st")]
    let filtered := fun capacity schedule =>
      filter (Line.knowing "_Zf" "f()") true (Source.ofDeliveries capacity schedule)
        (Sink.new [.accept 3, .fault .interrupted] none)
    (Source.ofDeliveries 2 schedule).read =
        ([Text.utf8 "a_Zf\n", Text.utf8 "b_Zf", Text.utf8 "_Zg\n"], none) ∧
      filtered 5 other = filtered 2 schedule := by
  intro schedule other filtered
  have hcalm : Calm schedule := by simp [Calm, schedule]
  have hother : Calm other := by simp [Calm, other]
  have hstretches : stretches other = stretches schedule := by decide +kernel
  have hlines : cutLines (stretches schedule) =
      [Text.utf8 "a_Zf\n", Text.utf8 "b_Zf", Text.utf8 "_Zg\n"] := by decide +kernel
  obtain ⟨hread, _, hsame⟩ :=
    filter_of_stretches (Line.knowing "_Zf" "f()") true hcalm (by decide : 0 < 2)
      (Sink.new [.accept 3, .fault .interrupted] none)
  rw [hlines] at hread
  exact ⟨hread, hsame other 5 hother (by decide) hstretches⟩

end MangledNames.Stream

import MangledNames.Proofs.Stream.Accepted
import MangledNames.Proofs.Stream.Stretches

/-!
# A read that fails

A line that has been finished when reading fails has been written by then, for no line is read
before the one in front of it is written. Of the line that is being read nothing is kept. So a fault
behind some bytes leaves what a source without faults would leave that ends after the last newline
of these bytes (`filter_of_read_fault`).

Where writes fail as well, what is met first decides, in the order in which lines are read and
written in turns (`findSome?_encounters`).
-/

namespace MangledNames.Stream

theorem isPassed_of_mem_through {schedule : List Delivery} (hcalm : Calm schedule)
    (hends : .bytes [] ∉ schedule) {capacity : Nat} (hcapacity : 0 < capacity) :
    ∀ delivery ∈ schedule.flatMap (Delivery.through capacity), delivery.isPassed = true := by
  intro part hmem
  obtain ⟨delivery, hdelivery, hmem⟩ := List.mem_flatMap.mp hmem
  cases delivery with
  | bytes content =>
      have hcontent : content ≠ [] := by
        rintro rfl
        exact hends hdelivery
      obtain ⟨piece, hpiece, rfl⟩ := (through_spec hcapacity hcontent).2 _ hmem
      exact isPassed_bytes hpiece
  | fault kind =>
      rw [List.mem_singleton.mp hmem, hcalm kind hdelivery]
      rfl

section

variable {before : List Delivery} (hbefore : Calm before) (hends : .bytes [] ∉ before)
  {kind : Fault} (hkind : kind ≠ .interrupted) (after : List Delivery)
  {capacity : Nat} (hcapacity : 0 < capacity)

include hbefore hends hkind hcapacity

theorem read_of_fault :
    (Source.ofDeliveries capacity (before ++ .fault kind :: after)).read =
      (lines (finishedPart (deliveredText before)), some kind) := by
  have hpassed := isPassed_of_mem_through hbefore hends hcapacity
  have hstop : ¬ Delivery.isPassed (.fault kind) = true := by
    simpa [Delivery.isPassed] using hkind
  have hschedule : (before ++ .fault kind :: after).flatMap (Delivery.through capacity) =
      before.flatMap (Delivery.through capacity) ++
        .fault kind :: after.flatMap (Delivery.through capacity) := by
    rw [List.flatMap_append, List.flatMap_cons]
    rfl
  rw [read_eq_finished, Source.ofDeliveries, Source.text, Source.stop, hschedule,
    List.takeWhile_append_of_pos hpassed, List.dropWhile_append_of_pos hpassed,
    List.takeWhile_cons_of_neg hstop, List.dropWhile_cons_of_neg hstop, readBehind_fault,
    List.append_nil, List.append_nil, List.nil_append, deliveredText_through hcapacity]

end

section

variable {σ : Type} [Output σ]

/-- The faults of reading and writing in turns: a line is read and written, then the next one, up to
the read that ends all. -/
def encounters (ending : Option Fault) : List (List UInt8) → σ → List (Option Fault)
  | [], _ => [ending]
  | text :: rest, output =>
    none :: (Output.writeAll output text).1 ::
      encounters ending rest (Output.writeAll output text).2

theorem findSome?_encounters (ending : Option Fault) (texts : List (List UInt8)) (output : σ) :
    (encounters ending texts output).findSome? id = (writeEach texts output).1.or ending := by
  induction texts generalizing output with
  | nil => cases ending <;> rfl
  | cons text rest ih =>
      simp only [encounters, writeEach, List.findSome?_cons, id_eq, ih]
      cases Output.writeAll output text with
      | mk fault next => cases fault <;> rfl

end

/-- The records of lines of which all are written. -/
def recordsOf (demangler : Demangler) : Totals → List (List UInt8) → List LogRecord
  | _, [] => []
  | totals, bytes :: rest =>
    let names := namesIn demangler bytes
    let totals := totals.add names
    loggedFor demangler bytes ++ .lineWritten totals.lines names :: recordsOf demangler totals rest

theorem log_filterLines {σ : Type} [Output σ] {good : σ → Prop}
    (hwrite : ∀ {output}, good output → ∀ bytes, ∃ next,
      Output.writeAll output bytes = (none, next) ∧ good next)
    (demangler : Demangler) (brackets : Bool) (ending : Option Fault) (rest : List (List UInt8))
    (totals : Totals) {output : σ} (hgood : good output) (log : Array LogRecord) :
    (filterLines demangler brackets ending rest totals output log).log.toList =
      log.toList ++ recordsOf demangler totals rest := by
  induction rest generalizing totals output log with
  | nil =>
      rw [recordsOf, List.append_nil]
      cases ending with
      | none =>
          simp only [filterLines, finish]
          split <;> rfl
      | some kind => rfl
  | cons bytes rest ih =>
      obtain ⟨next, hnext, hgoodNext⟩ := hwrite hgood (writtenLine demangler brackets bytes)
      simp only [filterLines, hnext, recordsOf]
      rw [ih _ hgoodNext, Array.toList_push, Array.toList_appendList]
      simp only [List.append_assoc, List.singleton_append]

theorem log_filter {σ : Type} [Output σ] {good : σ → Prop}
    (hwrite : ∀ {output}, good output → ∀ bytes, ∃ next,
      Output.writeAll output bytes = (none, next) ∧ good next)
    (demangler : Demangler) (brackets : Bool) (source : Source) {output : σ} (hgood : good output) :
    (filter demangler brackets source output).log.toList =
      recordsOf demangler ⟨0, 0⟩ source.read.1 := by
  rw [filter_eq_filterLines, log_filterLines hwrite demangler brackets _ _ _ hgood]
  rfl

theorem log_filter_accepting (demangler : Demangler) (brackets : Bool) (source : Source)
    (flushFault : Option Fault) :
    (filter demangler brackets source (Sink.new [] flushFault)).log.toList =
      recordsOf demangler ⟨0, 0⟩ source.read.1 := by
  have hwrite : ∀ {sink : Sink}, sink.script = [] → ∀ bytes, ∃ next : Sink,
      Output.writeAll sink bytes = (none, next) ∧ next.script = [] := by
    intro sink hscript bytes
    refine ⟨_, Sink.writeAll_accepting hscript bytes, ?_⟩
    split
    next => exact hscript
    next => rfl
  have hnew : (Sink.new [] flushFault).script = [] := rfl
  exact log_filter hwrite demangler brackets source hnew

theorem filterLines_congr {σ : Type} [Output σ] {demangler other : Demangler} (brackets : Bool)
    (ending : Option Fault) {rest : List (List UInt8)}
    (hagree : ∀ bytes ∈ rest,
      Line.scan other (withoutNewline bytes) = Line.scan demangler (withoutNewline bytes))
    (totals : Totals) (output : σ) (log : Array LogRecord) :
    filterLines other brackets ending rest totals output log =
      filterLines demangler brackets ending rest totals output log := by
  refine (filterLines_agree (fun _ => rfl) brackets ending ?_ totals output ?_).eq
  · intro bytes hbytes
    rw [writtenLine, writtenLine, Line.rewritten, Line.rewritten, namesIn, namesIn, loggedFor,
      loggedFor, hagree bytes hbytes]
    exact ⟨rfl, rfl, List.forall₂_same.mpr fun _ _ => rfl⟩
  · exact List.forall₂_same.mpr fun _ _ => rfl

/-- If a source has the lines of some bytes, only the answers on the candidates of these bytes
matter. -/
theorem filter_congr {σ : Type} [Output σ] {demangler other : Demangler} (brackets : Bool)
    {source : Source} {content : List UInt8} (hread : source.read.1 = lines content)
    (hagree : ∀ attempt ∈ (Line.scan demangler content).attempts,
      other attempt.candidate = attempt.answer) (output : σ) :
    filter other brackets source output = filter demangler brackets source output := by
  rw [filter_eq_filterLines, filter_eq_filterLines, hread]
  apply filterLines_congr
  intro bytes hbytes
  apply Line.scan_congr
  intro attempt hattempt
  apply hagree
  rw [← flatMap_attempts_lines]
  exact List.mem_flatMap.mpr ⟨bytes, hbytes, hattempt⟩

section

variable (demangler : Demangler) (brackets : Bool) {source : Source}

theorem filter_accepting_eq {other : Source} (hlines : source.read.1 = other.read.1)
    (flushFault otherFault : Option Fault) :
    let run := filter demangler brackets source (Sink.new [] flushFault)
    let whole := filter demangler brackets other (Sink.new [] otherFault)
    run.output.taken = whole.output.taken ∧ run.log = whole.log := by
  intro run whole
  obtain ⟨htaken, -, -⟩ := filter_accepting_sink demangler brackets source flushFault
  obtain ⟨hwhole, -, -⟩ := filter_accepting_sink demangler brackets other otherFault
  refine ⟨?_, ?_⟩
  · rw [writtenTexts, hlines] at htaken
    exact htaken.trans hwhole.symm
  · apply Array.toList_inj.mp
    rw [log_filter_accepting, log_filter_accepting, hlines]

theorem result_of_encounters {σ : Type} [Output σ] {kind : Fault}
    (hread : source.read.2 = some kind) (output : σ) :
    ∃ fault,
      (encounters (some kind) (writtenTexts demangler brackets source) output).findSome? id =
          some fault ∧
        (filter demangler brackets source output).result = .error fault := by
  have hresult := congrArg Prod.fst (filter_eq_writeEach demangler brackets source output)
  rw [hread] at hresult
  simp only at hresult
  rw [hresult, findSome?_encounters]
  cases writeEach (writtenTexts demangler brackets source) output with
  | mk fault next =>
      cases fault with
      | none => exact ⟨kind, rfl, rfl⟩
      | some met => exact ⟨met, rfl, rfl⟩

end

/-- **A read fault keeps the finished lines and nothing else.** If it comes behind some bytes, a
filter into a sink that accepts everything ends with it, without a flush. It has written and
recorded what it would have of the finished part of these bytes, and what the demangler says of
other candidates has no influence. Into any output, the result is the fault that is met first when
lines are read and written in turns. -/
theorem filter_of_read_fault (demangler : Demangler) (brackets : Bool) {before : List Delivery}
    (hbefore : Calm before) (hends : .bytes [] ∉ before) {kind : Fault}
    (hkind : kind ≠ .interrupted) (after : List Delivery) {capacity : Nat}
    (hcapacity : 0 < capacity) :
    let source := Source.ofDeliveries capacity (before ++ .fault kind :: after)
    let finished := finishedPart (deliveredText before)
    (∀ flushFault,
      let run := filter demangler brackets source (Sink.new [] flushFault)
      run.result = .error kind ∧ run.output.flushes = 0 ∧
        (∀ calm : Source, calm.Steady → calm.content = finished →
          let whole := filter demangler brackets calm (Sink.new [] none)
          whole.result = .ok (readTotals demangler calm) ∧
            run.output.taken = whole.output.taken ∧ run.log = whole.log) ∧
        (newline ∉ deliveredText before → run.output.taken = []) ∧
        ∀ other : Demangler,
          (∀ attempt ∈ (Line.scan demangler finished).attempts,
            other attempt.candidate = attempt.answer) →
          filter other brackets source (Sink.new [] flushFault) = run) ∧
      ∀ {σ : Type} [Output σ] (output : σ),
        ∃ fault,
          (encounters (some kind) ((lines finished).map (writtenLine demangler brackets))
              output).findSome? id = some fault ∧
            (filter demangler brackets source output).result = .error fault := by
  intro source finished
  have hread : source.read = (lines finished, some kind) :=
    read_of_fault hbefore hends hkind after hcapacity
  have hlines : source.read.1 = lines finished := congrArg Prod.fst hread
  have hending : source.read.2 = some kind := congrArg Prod.snd hread
  refine ⟨?_, ?_⟩
  · intro flushFault run
    obtain ⟨htaken, hflushes, hresult⟩ := filter_accepting_sink demangler brackets source flushFault
    rw [hending] at hflushes hresult
    refine ⟨hresult, hflushes, ?_, ?_, ?_⟩
    · intro calm hsteady hcontent whole
      have hcalm : calm.read = (lines finished, none) := by rw [read_of_steady hsteady, hcontent]
      obtain ⟨-, -, hok⟩ := filter_accepting_sink demangler brackets calm none
      rw [hcalm] at hok
      exact ⟨hok, filter_accepting_eq demangler brackets (by rw [hlines, hcalm]) flushFault none⟩
    · intro hnewline
      have hfinished : finished = [] := finishedPart_of_not_mem hnewline
      rw [writtenTexts, hlines, hfinished] at htaken
      exact htaken
    · intro other hagree
      exact filter_congr brackets hlines hagree (Sink.new [] flushFault)
  · intro σ _ output
    have hmet := result_of_encounters demangler brackets hending output
    rwa [writtenTexts, hlines] at hmet

/-- The fault falls within a candidate behind a finished line. A sink that fails on this line is
first. -/
theorem filter_of_read_fault_within_candidate :
    let before : List Delivery :=
      [.bytes (Text.utf8 "a_Z"), .fault .interrupted, .bytes (Text.utf8 "f\n_Z")]
    let source := Source.ofDeliveries 2 (before ++ [.fault .brokenPipe, .bytes (Text.utf8 "f\n")])
    let filtered := fun sink => filter (Line.knowing "_Zf" "f()") false source sink
    (filtered (Sink.new [] none)).result = .error .brokenPipe ∧
      (filtered (Sink.new [] none)).output.taken = Text.utf8 "af()\n" ∧
      (filtered (Sink.new [.accept 1, .fault .storageFull] none)).result =
        .error .storageFull := by
  intro before source filtered
  have hbefore : Calm before := by simp [Calm, before]
  have hends : .bytes [] ∉ before := by decide +kernel
  obtain ⟨haccepting, hfirst⟩ :=
    filter_of_read_fault (Line.knowing "_Zf" "f()") false hbefore hends
      (by decide : Fault.brokenPipe ≠ .interrupted) [.bytes (Text.utf8 "f\n")] (by decide : 0 < 2)
  obtain ⟨hresult, -, hcalm, -, -⟩ := haccepting none
  have hfinished : Source.content ⟨Text.utf8 "a_Zf\n", []⟩ =
      finishedPart (deliveredText before) := by decide +kernel
  obtain ⟨-, htaken, -⟩ := hcalm ⟨Text.utf8 "a_Zf\n", []⟩ trivial hfinished
  have hwhole : (filter (Line.knowing "_Zf" "f()") false ⟨Text.utf8 "a_Zf\n", []⟩
      (Sink.new [] none)).output.taken = Text.utf8 "af()\n" := by decide +kernel
  obtain ⟨fault, hmet, hfault⟩ := hfirst (Sink.new [.accept 1, .fault .storageFull] none)
  have hfull : (encounters (some .brokenPipe)
      ((lines (finishedPart (deliveredText before))).map
        (writtenLine (Line.knowing "_Zf" "f()") false))
      (Sink.new [.accept 1, .fault .storageFull] none)).findSome? id = some .storageFull := by
    decide +kernel
  obtain rfl := Option.some.inj (hfull.symm.trans hmet)
  exact ⟨hresult, htaken.trans hwhole, hfault⟩

end MangledNames.Stream

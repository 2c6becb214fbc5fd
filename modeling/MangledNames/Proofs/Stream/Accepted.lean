import MangledNames.Proofs.Stream.Reading

/-!
# What a failing sink accepts

A filter writes its lines one after the other, and stops at the first write that fails
(`filterLines_eq`). So whatever a sink answers, what it has accepted is the beginning of what a sink
would have accepted that takes everything (`filter_of_failing_sink`).

A sink uses up the answers of its script from the front. That a write has failed for good is said
here of the answers that have been used, and not of what the write returned: all of them but the
last are harmless, and the last one is the failure (`EndedBy`). Writing one text keeps this, and so
does writing one text after the other.
-/

namespace MangledNames.Stream

section

variable {σ : Type} [Output σ]

/-- Writes texts up to the first write that fails. -/
def writeEach : List (List UInt8) → σ → Option Fault × σ
  | [], output => (none, output)
  | text :: rest, output =>
    match Output.writeAll output text with
    | (some fault, output) => (some fault, output)
    | (none, output) => writeEach rest output

/-- How a filter ends when it has written what it could. -/
def conclude (ending : Option Fault) (totals : Totals) :
    Option Fault × σ → Except Fault Totals × σ
  | (some fault, output) => (.error fault, output)
  | (none, output) =>
    match ending with
    | some fault => (.error fault, output)
    | none =>
      match Output.flush output with
      | (none, output) => (.ok totals, output)
      | (some fault, output) => (.error fault, output)

theorem filterLines_eq (demangler : Demangler) (brackets : Bool) (ending : Option Fault)
    (rest : List (List UInt8)) (totals : Totals) (output : σ) (log : Array LogRecord) :
    ((filterLines demangler brackets ending rest totals output log).result,
        (filterLines demangler brackets ending rest totals output log).output) =
      conclude ending
        ⟨totals.lines + rest.length, totals.translated + (rest.map (namesIn demangler)).sum⟩
        (writeEach (rest.map (writtenLine demangler brackets)) output) := by
  induction rest generalizing totals output log with
  | nil =>
      cases ending with
      | none =>
          simp only [filterLines, finish, List.map_nil, writeEach, conclude]
          cases hflush : Output.flush output with
          | mk fault next =>
              cases fault with
              | none => rfl
              | some kind => rfl
      | some kind => rfl
  | cons bytes rest ih =>
      simp only [List.map_cons, writeEach, filterLines]
      cases hwrite : Output.writeAll output (writtenLine demangler brackets bytes) with
      | mk fault next =>
          cases fault with
          | none =>
              simp only [ih, Totals.add, List.length_cons, List.sum_cons]
              congr 2 <;> omega
          | some kind => rfl

end

def WriteAnswer.failure? : WriteAnswer → Option Fault
  | accept limit => if limit = 0 then some .writeZero else none
  | fault kind => if kind = .interrupted then none else some kind

namespace Sink

theorem harmless_iff {answer : WriteAnswer} : Harmless answer ↔ answer.failure? = none := by
  cases answer with
  | accept limit => simp [Harmless, WriteAnswer.failure?, Nat.pos_iff_ne_zero]
  | fault kind => simp [Harmless, WriteAnswer.failure?]

/-- A fault is that of the last answer, and all answers before it are harmless. -/
def EndedBy (used : List WriteAnswer) : Option Fault → Prop
  | none => ∀ answer ∈ used, Harmless answer
  | some fault =>
    ∃ before last, used = before ++ [last] ∧ (∀ answer ∈ before, Harmless answer) ∧
      last.failure? = some fault

theorem EndedBy.append {used more : List WriteAnswer} {fault : Option Fault}
    (hused : ∀ answer ∈ used, Harmless answer) (hmore : EndedBy more fault) :
    EndedBy (used ++ more) fault := by
  cases fault with
  | none => exact List.forall_mem_append.mpr ⟨hused, hmore⟩
  | some kind =>
      obtain ⟨before, last, rfl, hbefore, hlast⟩ := hmore
      exact ⟨used ++ before, last, (List.append_assoc ..).symm,
        List.forall_mem_append.mpr ⟨hused, hbefore⟩, hlast⟩

theorem EndedBy.findSome?_eq {used : List WriteAnswer} {fault : Option Fault}
    (hended : EndedBy used fault) : used.findSome? WriteAnswer.failure? = fault := by
  cases fault with
  | none =>
      apply List.findSome?_eq_none_iff.mpr
      exact fun answer hmem => harmless_iff.mp (hended answer hmem)
  | some kind =>
      obtain ⟨before, last, rfl, hbefore, hlast⟩ := hended
      have hnone : before.findSome? WriteAnswer.failure? = none :=
        List.findSome?_eq_none_iff.mpr fun answer hmem => harmless_iff.mp (hbefore answer hmem)
      rw [List.findSome?_append, hnone, Option.none_or, List.findSome?_singleton, hlast]

/-- From one state to the other, these answers have been used and these bytes accepted. -/
structure Progress (sink next : Sink) (used : List WriteAnswer) (part : List UInt8) : Prop where
  script : sink.script = used ++ next.script
  taken : next.taken = sink.taken ++ part
  flushes : next.flushes = sink.flushes
  flushFault : next.flushFault = sink.flushFault

theorem Progress.refl (sink : Sink) : Progress sink sink [] [] :=
  ⟨rfl, (List.append_nil _).symm, rfl, rfl⟩

theorem Progress.trans {sink middle next : Sink} {used more : List WriteAnswer}
    {part further : List UInt8} (hfirst : Progress sink middle used part)
    (hsecond : Progress middle next more further) :
    Progress sink next (used ++ more) (part ++ further) where
  script := by rw [hfirst.script, hsecond.script, List.append_assoc]
  taken := by rw [hsecond.taken, hfirst.taken, List.append_assoc]
  flushes := hsecond.flushes.trans hfirst.flushes
  flushFault := hsecond.flushFault.trans hfirst.flushFault

theorem progress_accept (sink : Sink) (answer : WriteAnswer) (script : List WriteAnswer)
    (part : List UInt8) :
    Progress { sink with script := answer :: script } (sink.accept script part) [answer] part :=
  ⟨rfl, taken_accept sink script part, rfl, rfl⟩

theorem progress_skip (sink : Sink) (answer : WriteAnswer) (script : List WriteAnswer) :
    Progress { sink with script := answer :: script } { sink with script } [answer] [] :=
  ⟨rfl, (List.append_nil _).symm, rfl, rfl⟩

theorem writeFrom_spec (sink : Sink) (script : List WriteAnswer) (bytes : List UInt8) :
    ∃ used part,
      Progress { sink with script } (sink.writeFrom script bytes).2 used part ∧
        EndedBy used (sink.writeFrom script bytes).1 ∧ part <+: bytes ∧
        (part = bytes ↔ (sink.writeFrom script bytes).1 = none) := by
  fun_induction writeFrom sink script bytes with
  | case1 sink script =>
      exact ⟨[], [], Progress.refl _, by simp [EndedBy], List.prefix_refl _, by simp⟩
  | case2 sink bytes hbytes =>
      refine ⟨[], bytes, ⟨rfl, taken_accept sink [] bytes, rfl, rfl⟩, by simp [EndedBy],
        List.prefix_refl _, by simp⟩
  | case3 sink script bytes hbytes =>
      have hne : [] ≠ bytes := fun hnil => hbytes hnil.symm
      exact ⟨[.accept 0], [], progress_accept sink _ script [],
        ⟨[], .accept 0, rfl, by simp, rfl⟩, List.nil_prefix, by simp [hne]⟩
  | case4 sink limit script bytes hbytes hlimit ih =>
      obtain ⟨used, part, hprogress, hended, hbegins, hwhole⟩ := ih
      have hharmless : ∀ answer ∈ [WriteAnswer.accept limit], Harmless answer := by
        simpa [Harmless] using Nat.pos_of_ne_zero hlimit
      have hcut := List.take_append_drop limit bytes
      refine ⟨_, _, (progress_accept sink _ script (bytes.take limit)).trans hprogress,
        hended.append hharmless, ?_, ?_⟩
      · have hlonger := (List.prefix_append_right_inj (bytes.take limit)).mpr hbegins
        rwa [hcut] at hlonger
      · rw [← hwhole]
        constructor
        · intro hall
          exact List.append_cancel_left (hall.trans hcut.symm)
        · intro hpart
          rw [hpart, hcut]
  | case5 sink script bytes hbytes ih =>
      obtain ⟨used, part, hprogress, hended, hbegins, hwhole⟩ := ih
      have hharmless : ∀ answer ∈ [WriteAnswer.fault .interrupted], Harmless answer := by
        simp [Harmless]
      exact ⟨_, _, (progress_skip sink _ script).trans hprogress, hended.append hharmless,
        hbegins, hwhole⟩
  | case6 sink kind script bytes hbytes hkind =>
      have hne : [] ≠ bytes := fun hnil => hbytes hnil.symm
      exact ⟨[.fault kind], [], progress_skip sink _ script,
        ⟨[], .fault kind, rfl, by simp, if_neg hkind⟩, List.nil_prefix, by simp [hne]⟩

end Sink

/-- Texts up to somewhere within one of them, of which the last byte is missing at least. -/
def BreaksOff (texts : List (List UInt8)) (part : List UInt8) : Prop :=
  ∃ whole next rest begun, texts = whole ++ next :: rest ∧ part = whole.flatten ++ begun ∧
    begun <+: next ∧ begun ≠ next

/-- What is accepted of texts if writing them ends so. -/
def AcceptedOf (texts : List (List UInt8)) (part : List UInt8) : Option Fault → Prop
  | none => part = texts.flatten
  | some _ => BreaksOff texts part

theorem BreaksOff.cons {texts : List (List UInt8)} {part : List UInt8}
    (hbreaks : BreaksOff texts part) (text : List UInt8) :
    BreaksOff (text :: texts) (text ++ part) := by
  obtain ⟨whole, next, rest, begun, rfl, rfl, hbegins, hne⟩ := hbreaks
  refine ⟨text :: whole, next, rest, begun, rfl, ?_, hbegins, hne⟩
  rw [List.flatten_cons, List.append_assoc]

theorem BreaksOff.isPrefix {texts : List (List UInt8)} {part : List UInt8}
    (hbreaks : BreaksOff texts part) : part <+: texts.flatten := by
  obtain ⟨whole, next, rest, begun, rfl, rfl, hbegins, -⟩ := hbreaks
  rw [List.flatten_append, List.flatten_cons, List.prefix_append_right_inj]
  exact hbegins.trans (List.prefix_append _ _)

theorem BreaksOff.ne {texts : List (List UInt8)} {part : List UInt8}
    (hbreaks : BreaksOff texts part) : part ≠ texts.flatten := by
  obtain ⟨whole, next, rest, begun, rfl, rfl, hbegins, hne⟩ := hbreaks
  rw [List.flatten_append, List.flatten_cons]
  intro heq
  have hbegun : begun = next ++ rest.flatten := List.append_cancel_left heq
  have hlt : begun.length < next.length :=
    Nat.lt_of_le_of_ne hbegins.length_le fun hlength => hne (hbegins.eq_of_length hlength)
  have hlength := congrArg List.length hbegun
  rw [List.length_append] at hlength
  omega

namespace Sink

/-- **Writing texts to a sink.** All of them are accepted, or the first failure breaks them off. -/
theorem writeEach_spec (texts : List (List UInt8)) (sink : Sink) :
    ∃ used part,
      Progress sink (writeEach texts sink).2 used part ∧ EndedBy used (writeEach texts sink).1 ∧
        AcceptedOf texts part (writeEach texts sink).1 := by
  induction texts generalizing sink with
  | nil => exact ⟨[], [], Progress.refl sink, by simp [EndedBy, writeEach], rfl⟩
  | cons text rest ih =>
      obtain ⟨used, part, hprogress, hended, hbegins, hwhole⟩ :=
        writeFrom_spec sink sink.script text
      simp only [writeEach]
      cases hwrite : Output.writeAll sink text with
      | mk fault next =>
          change sink.writeFrom sink.script text = (fault, next) at hwrite
          rw [hwrite] at hprogress hended hwhole
          cases fault with
          | some kind =>
              -- the texts break off within the first one
              refine ⟨used, part, hprogress, hended, ?_⟩
              have hne : part ≠ text := by simpa using hwhole
              exact ⟨[], text, rest, part, rfl, rfl, hbegins, hne⟩
          | none =>
              obtain ⟨more, further, hmore, hlast, hrest⟩ := ih next
              obtain rfl : part = text := hwhole.mpr rfl
              refine ⟨used ++ more, part ++ further, hprogress.trans hmore, hlast.append hended, ?_⟩
              generalize (writeEach rest next).1 = fault at hrest
              cases fault with
              | none =>
                  rw [AcceptedOf] at hrest
                  rw [hrest, AcceptedOf, List.flatten_cons]
              | some kind => exact BreaksOff.cons hrest part

end Sink

theorem Sink.writeAll_accepting {sink : Sink} (hscript : sink.script = []) (text : List UInt8) :
    Output.writeAll sink text = (none, if text = [] then sink else sink.accept [] text) := by
  change sink.writeFrom sink.script text = _
  rw [hscript]
  cases text with
  | nil => simp [writeFrom, ← hscript]
  | cons byte text => rfl

theorem Sink.conclude_eq (ending : Option Fault) (totals : Totals) (fault : Option Fault)
    (sink : Sink) :
    conclude ending totals (fault, sink) =
      (((fault.or ending).or sink.flushFault).elim (.ok totals) .error,
        if fault.or ending = none then { sink with flushes := sink.flushes + 1 } else sink) := by
  cases fault with
  | some kind => rfl
  | none =>
      cases ending with
      | some kind => rfl
      | none =>
          have hflush : Output.flush sink =
              (sink.flushFault, { sink with flushes := sink.flushes + 1 }) := rfl
          rw [conclude, hflush]
          generalize sink.flushFault = flushFault
          cases flushFault with
          | some kind => rfl
          | none => rfl

section

variable (demangler : Demangler) (brackets : Bool) (source : Source)

/-- The texts that a filter writes, if it can. -/
def writtenTexts : List (List UInt8) := source.read.1.map (writtenLine demangler brackets)

/-- What a filter counts, if nothing fails. -/
def readTotals : Totals :=
  ⟨source.read.1.length, (source.read.1.map (namesIn demangler)).sum⟩

theorem filter_eq_writeEach {σ : Type} [Output σ] (output : σ) :
    ((filter demangler brackets source output).result,
        (filter demangler brackets source output).output) =
      conclude source.read.2 (readTotals demangler source)
        (writeEach (writtenTexts demangler brackets source) output) := by
  rw [filter_eq_filterLines, filterLines_eq, Nat.zero_add, Nat.zero_add]
  rfl

/-- The first fault that is met decides the result: of writing, of reading, or of the flush. -/
theorem filter_sink_spec (script : List WriteAnswer) (flushFault : Option Fault) :
    let run := filter demangler brackets source (Sink.new script flushFault)
    ∃ used fault, script = used ++ run.output.script ∧ Sink.EndedBy used fault ∧
      AcceptedOf (writtenTexts demangler brackets source) run.output.taken fault ∧
      run.output.flushes = (if fault.or source.read.2 = none then 1 else 0) ∧
      run.result =
        ((fault.or source.read.2).or flushFault).elim (.ok (readTotals demangler source))
          .error := by
  intro run
  have hrun : (run.result, run.output) = _ :=
    filter_eq_writeEach demangler brackets source (Sink.new script flushFault)
  obtain ⟨used, part, hprogress, hended, haccepted⟩ :=
    Sink.writeEach_spec (writtenTexts demangler brackets source) (Sink.new script flushFault)
  generalize writeEach (writtenTexts demangler brackets source)
    (Sink.new script flushFault) = written at hrun hprogress hended haccepted
  obtain ⟨fault, next⟩ := written
  rw [Sink.conclude_eq] at hrun
  obtain ⟨hresult, houtput⟩ := Prod.mk.inj hrun
  have hscript : run.output.script = next.script := by
    rw [houtput]
    split <;> rfl
  have htaken : run.output.taken = part := by
    refine Eq.trans ?_ hprogress.taken
    rw [houtput]
    split <;> rfl
  have hflushes : next.flushes = 0 := hprogress.flushes
  have hflushFault : next.flushFault = flushFault := hprogress.flushFault
  refine ⟨used, fault, ?_, hended, ?_, ?_, ?_⟩
  · rw [hscript]
    exact hprogress.script
  · rwa [htaken]
  · rw [houtput]
    split
    next => exact congrArg (· + 1) hflushes
    next => exact hflushes
  · rw [hresult, hflushFault]

theorem filter_accepting_sink (flushFault : Option Fault) :
    let run := filter demangler brackets source (Sink.new [] flushFault)
    run.output.taken = (writtenTexts demangler brackets source).flatten ∧
      run.output.flushes = (if source.read.2 = none then 1 else 0) ∧
      run.result =
        (source.read.2.or flushFault).elim (.ok (readTotals demangler source)) .error := by
  intro run
  obtain ⟨used, fault, hscript, hended, haccepted, hflushes, hresult⟩ :=
    filter_sink_spec demangler brackets source [] flushFault
  have hused : used = [] := (List.append_eq_nil_iff.mp hscript.symm).1
  have hfault := hended.findSome?_eq
  rw [hused] at hfault
  obtain rfl : none = fault := hfault
  rw [Option.none_or] at hflushes hresult
  exact ⟨haccepted, hflushes, hresult⟩

/-- **A writer fault cuts the output off, and changes nothing before the cut.** A sink uses answers
of its script from the front, and the first one that is a failure is the last one that it uses. What
it has accepted begins what a sink takes that accepts everything, and is all of it just if no write
has failed. Then a failure is the result, nothing is flushed, and the accepted bytes end within the
text of a line. Only if reading and writing went through is the sink flushed, once, and a fault of
the flush is the result although everything has been accepted. -/
theorem filter_of_failing_sink (script : List WriteAnswer) (flushFault : Option Fault) :
    let run := filter demangler brackets source (Sink.new script flushFault)
    let full := (filter demangler brackets source (Sink.new [] none)).output.taken
    let texts := writtenTexts demangler brackets source
    full = texts.flatten ∧
      ∃ used, script = used ++ run.output.script ∧
        let failure := used.findSome? WriteAnswer.failure?
        run.output.taken <+: full ∧
          (run.output.taken = full ↔ failure = none) ∧
          (∀ fault, failure = some fault →
            run.result = .error fault ∧ run.output.flushes = 0 ∧
              (∀ answer ∈ used.dropLast, Sink.Harmless answer) ∧
              BreaksOff texts run.output.taken) ∧
          (failure = none →
            run.result = (filter demangler brackets source (Sink.new [] flushFault)).result) ∧
          run.output.flushes = (if failure = none ∧ source.read.2 = none then 1 else 0) ∧
          (failure = none → source.read.2 = none → ∀ fault, flushFault = some fault →
            run.result = .error fault ∧ run.output.taken = full) := by
  intro run full texts
  obtain ⟨used, fault, hscript, hended, haccepted, hflushes, hresult⟩ :=
    filter_sink_spec demangler brackets source script flushFault
  obtain ⟨hfull, -, -⟩ := filter_accepting_sink demangler brackets source none
  obtain ⟨-, -, hcalm⟩ := filter_accepting_sink demangler brackets source flushFault
  change full = texts.flatten at hfull
  refine ⟨hfull, used, hscript, ?_⟩
  rw [hended.findSome?_eq, hfull, hcalm]
  cases fault with
  | none =>
      have htaken : run.output.taken = texts.flatten := haccepted
      rw [Option.none_or] at hflushes hresult
      refine ⟨htaken ▸ List.prefix_refl _, by simp [htaken], by simp, fun _ => hresult, ?_, ?_⟩
      · simpa using hflushes
      · intro _ hread fault hfault
        refine ⟨?_, htaken⟩
        rw [hread, Option.none_or] at hresult
        exact hresult.trans (by rw [hfault]; rfl)
  | some kind =>
      have hbreaks : BreaksOff texts run.output.taken := haccepted
      refine ⟨hbreaks.isPrefix, by simp [hbreaks.ne], ?_, by simp, by simpa using hflushes,
        by simp⟩
      intro fault hfault
      obtain rfl := Option.some.inj hfault
      obtain ⟨before, last, hused, hbefore, -⟩ := hended
      refine ⟨hresult, hflushes, ?_, hbreaks⟩
      rw [hused, List.dropLast_concat]
      exact hbefore

/-- A name that is written in parts may break off. The answer behind the failure is not used. -/
theorem filter_of_failing_sink_within_name :
    let script : List WriteAnswer :=
      [.accept 2, .fault .interrupted, .accept 9, .accept 3, .fault .brokenPipe, .accept 9]
    let source : Source := ⟨[], [.bytes (Text.utf8 "a_Zf\n_Zf\nb")]⟩
    let run := filter (Line.knowing "_Zf" "f()") false source (Sink.new script (some .other))
    run.result = .error .brokenPipe ∧ run.output.flushes = 0 ∧
      BreaksOff [Text.utf8 "af()\n", Text.utf8 "f()\n", Text.utf8 "b\n"] run.output.taken := by
  intro script source run
  obtain ⟨-, used, hscript, -, -, hfailed, -⟩ :=
    filter_of_failing_sink (Line.knowing "_Zf" "f()") false source script (some .other)
  have hrest : run.output.script = [.accept 9] := by decide +kernel
  have hused : used = [.accept 2, .fault .interrupted, .accept 9, .accept 3, .fault .brokenPipe] :=
    List.append_cancel_right (hscript.symm.trans (by rw [hrest]; rfl))
  have hfailure : used.findSome? WriteAnswer.failure? = some .brokenPipe := by
    rw [hused]
    decide
  have htexts : writtenTexts (Line.knowing "_Zf" "f()") false source =
      [Text.utf8 "af()\n", Text.utf8 "f()\n", Text.utf8 "b\n"] := by decide +kernel
  have hrun : run = filter (Line.knowing "_Zf" "f()") false source (Sink.new script (some .other)) :=
    rfl
  obtain ⟨hresult, hflushes, -, hbreaks⟩ := hfailed .brokenPipe hfailure
  rw [htexts] at hbreaks
  rw [hrun]
  exact ⟨hresult, hflushes, hbreaks⟩

end

end MangledNames.Stream

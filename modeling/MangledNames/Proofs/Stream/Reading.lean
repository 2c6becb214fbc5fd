import Mathlib.Data.List.DropRight
import MangledNames.Proofs.Stream.Whole

/-!
# What stops reading

Bytes are read past, and so is an interruption. What stops reading is an end of input, or a fault
that is none of these. So all that reading sees of a source is the text up to the first stop, and
what stands from that stop on. A line is taken off the text as long as the text has a newline, and
then the stop decides (`findsLine_readLine`); in which pieces the text came is not seen.

Each line that is read has a byte. So a source runs out of lines, and what is read from it can be
told without a limit (`read_eq`).
-/

namespace MangledNames.Stream

def Delivery.isPassed : Delivery → Bool
  | bytes content => !content.isEmpty
  | fault kind => kind = .interrupted

def deliveredText (deliveries : List Delivery) : List UInt8 := deliveries.flatMap Delivery.content

namespace Source

/-- What is still to come before reading is stopped. -/
def text (source : Source) : List UInt8 :=
  source.buffer ++ deliveredText (source.deliveries.takeWhile Delivery.isPassed)

/-- What stops reading, and what stands behind it. -/
def stop (source : Source) : List Delivery := source.deliveries.dropWhile Delivery.isPassed

/-- What a line read finds at the stop, if this text is left in front of it. -/
def readStop (text : List UInt8) : List Delivery → LineRead × Source
  | [] => (unfinished text, ⟨[], []⟩)
  | .bytes _ :: rest => (unfinished text, ⟨[], rest⟩)
  | .fault kind :: rest => (.fault kind, ⟨[], rest⟩)

theorem content_eq (source : Source) :
    source.content = source.text ++ deliveredText source.stop := by
  rw [content, text, stop, List.append_assoc, deliveredText, deliveredText, ← List.flatMap_append,
    List.takeWhile_append_dropWhile]

theorem readStop_cases (text : List UInt8) (stop : List Delivery) :
    (∃ kind rest, stop = .fault kind :: rest ∧ readStop text stop = (.fault kind, ⟨[], rest⟩)) ∨
      readStop text stop = (unfinished text, ⟨[], stop.tail⟩) := by
  rcases stop with - | ⟨piece | kind, rest⟩
  · exact .inr rfl
  · exact .inr rfl
  · exact .inl ⟨kind, rest, rfl, rfl⟩

end Source

theorem isPassed_bytes {piece : List UInt8} (hpiece : piece ≠ []) :
    Delivery.isPassed (.bytes piece) = true := by
  simpa [Delivery.isPassed] using hpiece

/-- What a line read finds in front of a stop, and the source that it leaves. -/
inductive FindsLine : List UInt8 → List Delivery → LineRead × Source → Prop where
  | line (body : List UInt8) (next : Source) :
      newline ∉ body →
        FindsLine (body ++ newline :: next.text) next.stop (.line (body ++ [newline]), next)
  | stop (text : List UInt8) (stop : List Delivery) :
      newline ∉ text → FindsLine text stop (Source.readStop text stop)

theorem findsLine_readOn {deliveries : List Delivery} {before : List UInt8}
    (hbefore : newline ∉ before) :
    FindsLine (before ++ deliveredText (deliveries.takeWhile Delivery.isPassed))
      (deliveries.dropWhile Delivery.isPassed) (Source.readOn deliveries before) := by
  fun_induction Source.readOn deliveries before with
  | case1 before =>
      have hstop := FindsLine.stop before [] hbefore
      simpa [deliveredText, Source.readStop] using hstop
  | case2 deliveries before =>
      have hstop := FindsLine.stop before (.bytes [] :: deliveries) hbefore
      simpa [deliveredText, Delivery.isPassed, Source.readStop] using hstop
  | case3 piece deliveries before hpiece first rest htake =>
      obtain ⟨body, hbody, rfl, rfl⟩ := takeLine?_eq_some htake
      have hline := FindsLine.line (before ++ body) ⟨rest, deliveries⟩
        (List.not_mem_append hbefore hbody)
      rw [List.takeWhile_cons_of_pos (isPassed_bytes hpiece),
        List.dropWhile_cons_of_pos (isPassed_bytes hpiece), deliveredText, List.flatMap_cons,
        Delivery.content]
      simpa [Source.text, Source.stop, deliveredText] using hline
  | case4 piece deliveries before hpiece htake ih =>
      have hgo := ih (List.not_mem_append hbefore (not_mem_of_takeLine?_eq_none htake))
      rw [List.takeWhile_cons_of_pos (isPassed_bytes hpiece),
        List.dropWhile_cons_of_pos (isPassed_bytes hpiece), deliveredText, List.flatMap_cons,
        ← List.append_assoc]
      exact hgo
  | case5 deliveries before ih => exact ih hbefore
  | case6 kind deliveries before hkind =>
      have hpassed : ¬ Delivery.isPassed (.fault kind) = true := by
        simpa [Delivery.isPassed] using hkind
      have hstop := FindsLine.stop before (.fault kind :: deliveries) hbefore
      rw [List.takeWhile_cons_of_neg hpassed, List.dropWhile_cons_of_neg hpassed, deliveredText,
        List.flatMap_nil, List.append_nil]
      exact hstop

/-- **Reading sees the text up to the stop.** -/
theorem findsLine_readLine (source : Source) :
    FindsLine source.text source.stop source.readLine := by
  unfold Source.readLine
  split
  next first rest htake =>
      obtain ⟨body, hbody, rfl, hbuffer⟩ := takeLine?_eq_some htake
      have hline := FindsLine.line body ⟨rest, source.deliveries⟩ hbody
      rw [Source.text, hbuffer, List.append_assoc, List.cons_append]
      exact hline
  next htake => exact findsLine_readOn (not_mem_of_takeLine?_eq_none htake)

theorem length_content_lt {source next : Source} {bytes : List UInt8}
    (hread : source.readLine = (.line bytes, next)) :
    next.content.length < source.content.length := by
  have hfinds := findsLine_readLine source
  rw [hread] at hfinds
  rw [source.content_eq]
  generalize source.text = text at hfinds
  generalize source.stop = stop at hfinds
  generalize hfound : (LineRead.line bytes, next) = found at hfinds
  cases hfinds with
  | line body other hbody =>
      obtain ⟨-, rfl⟩ := Prod.mk.inj hfound
      rw [next.content_eq]
      simp only [List.length_append, List.length_cons]
      omega
  | stop _ _ _ =>
      rcases Source.readStop_cases text stop with ⟨kind, rest, rfl, hstop⟩ | hstop
      · rw [hstop] at hfound
        cases hfound
      · -- the line lacks its newline and is all that stands in front of the stop
        rw [hstop] at hfound
        obtain ⟨hbytes, rfl⟩ := Prod.mk.inj hfound
        have hpos : 0 < text.length := by
          cases text with
          | nil => cases hbytes
          | cons byte text => exact Nat.succ_pos _
        have hrest : (deliveredText stop.tail).length ≤ (deliveredText stop).length := by
          cases stop with
          | nil => exact Nat.le_refl _
          | cons first rest =>
              rw [deliveredText, deliveredText, List.flatMap_cons, List.length_append]
              exact Nat.le_add_left _ _
        rw [List.length_append]
        exact Nat.lt_of_le_of_lt hrest (Nat.lt_add_of_pos_left hpos)

/-- The lines that reading finds, and the fault that ends it. -/
def Source.read (source : Source) : List (List UInt8) × Option Fault :=
  source.linesWithin (source.content.length + 1)

theorem linesWithin_eq_of_lt {limit other : Nat} {source : Source}
    (hlimit : source.content.length < limit) (hother : source.content.length < other) :
    source.linesWithin limit = source.linesWithin other := by
  induction limit generalizing source other with
  | zero => exact absurd hlimit (Nat.not_lt_zero _)
  | succ limit ih =>
      obtain ⟨other, rfl⟩ : ∃ before, other = before + 1 := ⟨other - 1, by omega⟩
      rw [Source.linesWithin, Source.linesWithin]
      cases hread : source.readLine with
      | mk read next =>
          cases read with
          | endOfInput => rfl
          | fault kind => rfl
          | line bytes =>
              have hlt := length_content_lt hread
              simp only [ih (by omega : next.content.length < limit)
                (by omega : next.content.length < other)]

theorem read_eq (source : Source) :
    source.read =
      match source.readLine with
      | (.endOfInput, _) => ([], none)
      | (.fault kind, _) => ([], some kind)
      | (.line bytes, next) => (bytes :: next.read.1, next.read.2) := by
  unfold Source.read
  rw [Source.linesWithin]
  cases hread : source.readLine with
  | mk read next =>
      cases read with
      | endOfInput => rfl
      | fault kind => rfl
      | line bytes =>
          have hlt := length_content_lt hread
          simp only [linesWithin_eq_of_lt hlt (Nat.lt_succ_self _)]

theorem read_of_steady {source : Source} (hsteady : source.Steady) :
    source.read = (lines source.content, none) :=
  linesWithin_eq hsteady (Nat.lt_succ_self _)

/-- The text up to its last newline. -/
def finishedPart (text : List UInt8) : List UInt8 := text.rdropWhile (· ≠ newline)

/-- The text behind its last newline. -/
def lastPart (text : List UInt8) : List UInt8 := text.rtakeWhile (· ≠ newline)

theorem finishedPart_append_lastPart (text : List UInt8) :
    finishedPart text ++ lastPart text = text :=
  List.rdropWhile_append_rtakeWhile

theorem finishedPart_of_not_mem {body : List UInt8} (hbody : newline ∉ body) :
    finishedPart body = [] := by
  apply List.rdropWhile_eq_nil_iff.mpr
  intro byte hmem
  simpa using ne_of_mem_of_not_mem hmem hbody

theorem lastPart_of_not_mem {body : List UInt8} (hbody : newline ∉ body) :
    lastPart body = body := by
  have happend := finishedPart_append_lastPart body
  rwa [finishedPart_of_not_mem hbody, List.nil_append] at happend

theorem parts_append_newline (body rest : List UInt8) :
    finishedPart (body ++ newline :: rest) = body ++ newline :: finishedPart rest ∧
      lastPart (body ++ newline :: rest) = lastPart rest := by
  induction rest using List.reverseRecOn with
  | nil => simp [finishedPart, lastPart]
  | append_singleton rest byte ih =>
      have hconcat : body ++ newline :: (rest ++ [byte]) = (body ++ newline :: rest) ++ [byte] := by
        simp
      simp only [finishedPart, lastPart] at ih ⊢
      rw [hconcat, List.rdropWhile_concat, List.rdropWhile_concat, List.rtakeWhile_concat,
        List.rtakeWhile_concat, ih.1, ih.2]
      split
      next => exact ⟨rfl, rfl⟩
      next => exact ⟨hconcat.symm, rfl⟩

/-- What reading finds at the stop, if this text is left in front of it. -/
def readBehind (last : List UInt8) (stop : List Delivery) : List (List UInt8) × Option Fault :=
  match Source.readStop last stop with
  | (.endOfInput, _) => ([], none)
  | (.fault kind, _) => ([], some kind)
  | (.line bytes, next) => (bytes :: next.read.1, next.read.2)

theorem readBehind_fault (last : List UInt8) (kind : Fault) (rest : List Delivery) :
    readBehind last (.fault kind :: rest) = ([], some kind) := rfl

theorem readBehind_of_unfinished {last : List UInt8} {stop : List Delivery}
    (hstop : Source.readStop last stop = (Source.unfinished last, ⟨[], stop.tail⟩)) :
    readBehind last stop =
      if last = [] then ([], none)
      else (last :: (Source.read ⟨[], stop.tail⟩).1, (Source.read ⟨[], stop.tail⟩).2) := by
  rw [readBehind, hstop]
  cases last with
  | nil => rfl
  | cons byte last => rfl

/-- **Every finished line is read, and then the stop decides.** -/
theorem read_eq_finished (source : Source) :
    source.read =
      (lines (finishedPart source.text) ++ (readBehind (lastPart source.text) source.stop).1,
        (readBehind (lastPart source.text) source.stop).2) := by
  induction hlength : source.content.length using Nat.strongRecOn generalizing source with
  | ind length ih =>
      subst hlength
      -- a line may leave all deliveries as they are, so the induction is on the number of bytes
      have hnext : ∀ {bytes next}, source.readLine = (.line bytes, next) → next.read = _ :=
        fun hread => ih _ (length_content_lt hread) _ rfl
      have hfinds := findsLine_readLine source
      rw [read_eq]
      generalize source.readLine = found at hfinds hnext
      generalize source.text = text at hfinds
      generalize source.stop = stop at hfinds
      cases hfinds with
      | line body next hbody =>
          obtain ⟨hfinished, hlast⟩ := parts_append_newline body next.text
          rw [hfinished, hlast, lines_append_newline hbody]
          simp only [hnext rfl]
          rfl
      | stop _ _ hbody =>
          rw [finishedPart_of_not_mem hbody, lastPart_of_not_mem hbody]
          rfl

theorem filter_eq_filterLines {σ : Type} [Output σ] (demangler : Demangler) (brackets : Bool)
    (source : Source) (output : σ) :
    filter demangler brackets source output =
      filterLines demangler brackets source.read.2 source.read.1 ⟨0, 0⟩ output #[] := by
  rw [filter, filterFrom_eq]
  rfl

end MangledNames.Stream

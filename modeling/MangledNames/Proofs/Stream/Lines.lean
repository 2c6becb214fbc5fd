import MangledNames.Stream.Filter

/-!
# The lines that are read

A source delivers its bytes in pieces that end anywhere. What is read from it does not show where:
as long as nothing fails, reading line by line finds the lines of all its bytes (`linesWithin_eq`).
The buffer may hold the beginning of a line, and deliveries complete it. So the step to prove is
about a beginning without a newline and the deliveries behind it (`readsFirst_readOn`).
-/

namespace MangledNames.Stream

/-- The lines of a text, each with the newline that ends it. -/
def lines : List UInt8 → List (List UInt8)
  | [] => []
  | byte :: rest =>
    if byte = newline then [byte] :: lines rest
    else
      match lines rest with
      | [] => [[byte]]
      | line :: others => (byte :: line) :: others

theorem lines_of_not_mem {body : List UInt8} (hbody : body ≠ []) (hnewline : newline ∉ body) :
    lines body = [body] := by
  induction body with
  | nil => exact absurd rfl hbody
  | cons byte body ih =>
      rw [List.mem_cons, not_or] at hnewline
      have hbyte : byte ≠ newline := Ne.symm hnewline.1
      by_cases hempty : body = []
      · subst hempty
        simp [lines, hbyte]
      · rw [lines, if_neg hbyte, ih hempty hnewline.2]

theorem lines_append_newline {body : List UInt8} (hnewline : newline ∉ body)
    (rest : List UInt8) :
    lines (body ++ newline :: rest) = (body ++ [newline]) :: lines rest := by
  induction body with
  | nil => simp [lines]
  | cons byte body ih =>
      rw [List.mem_cons, not_or] at hnewline
      have hbyte : byte ≠ newline := Ne.symm hnewline.1
      rw [List.cons_append, lines, if_neg hbyte, ih hnewline.2]
      rfl

/-- A text is empty, or a last line without a newline, or it begins with a line and its newline. -/
@[elab_as_elim]
theorem lines_induction {motive : List UInt8 → Prop} (nil : motive [])
    (last : ∀ body, body ≠ [] → newline ∉ body → motive body)
    (line : ∀ body rest, newline ∉ body → motive rest → motive (body ++ newline :: rest))
    (content : List UInt8) : motive content := by
  induction hlength : content.length using Nat.strongRecOn generalizing content with
  | ind length ih =>
      by_cases hmem : newline ∈ content
      · obtain ⟨body, rest, rfl, hnewline⟩ := List.eq_append_cons_of_mem hmem
        refine line body rest hnewline (ih rest.length ?_ rest rfl)
        rw [← hlength, List.length_append, List.length_cons]
        omega
      · by_cases hempty : content = []
        · rw [hempty]
          exact nil
        · exact last content hempty hmem

theorem takeLine?_eq_some {bytes first rest : List UInt8}
    (htake : takeLine? bytes = some (first, rest)) :
    ∃ body, newline ∉ body ∧ first = body ++ [newline] ∧ bytes = body ++ newline :: rest := by
  induction bytes generalizing first rest with
  | nil => cases htake
  | cons byte bytes ih =>
      rw [takeLine?] at htake
      by_cases hbyte : byte = newline
      · subst hbyte
        simp only [↓reduceIte, Option.some.injEq, Prod.mk.injEq] at htake
        obtain ⟨rfl, rfl⟩ := htake
        exact ⟨[], List.not_mem_nil, rfl, rfl⟩
      · rw [if_neg hbyte, Option.map_eq_some_iff] at htake
        obtain ⟨⟨line, others⟩, htake, heq⟩ := htake
        obtain ⟨body, hnewline, rfl, rfl⟩ := ih htake
        simp only [Prod.mk.injEq] at heq
        obtain ⟨rfl, rfl⟩ := heq
        refine ⟨byte :: body, ?_, rfl, rfl⟩
        rw [List.mem_cons, not_or]
        exact ⟨Ne.symm hbyte, hnewline⟩

theorem not_mem_of_takeLine?_eq_none {bytes : List UInt8} (htake : takeLine? bytes = none) :
    newline ∉ bytes := by
  induction bytes with
  | nil => exact List.not_mem_nil
  | cons byte bytes ih =>
      rw [takeLine?] at htake
      by_cases hbyte : byte = newline
      · rw [if_pos hbyte] at htake
        cases htake
      · rw [if_neg hbyte, Option.map_eq_none_iff] at htake
        rw [List.mem_cons, not_or]
        exact ⟨Ne.symm hbyte, ih htake⟩

/-- Nothing fails for good, and no byte comes behind the end of input. -/
def SteadyDeliveries : List Delivery → Prop
  | [] => True
  | .bytes [] :: rest => rest.flatMap Delivery.content = [] ∧ SteadyDeliveries rest
  | .bytes (_ :: _) :: rest => SteadyDeliveries rest
  | .fault kind :: rest => kind = .interrupted ∧ SteadyDeliveries rest

def Source.Steady (source : Source) : Prop := SteadyDeliveries source.deliveries

theorem steadyDeliveries_cons {piece : List UInt8} (hpiece : piece ≠ [])
    (rest : List Delivery) :
    SteadyDeliveries (.bytes piece :: rest) ↔ SteadyDeliveries rest := by
  cases piece with
  | nil => exact absurd rfl hpiece
  | cons byte piece => rfl

/-- What asking for a line of a text finds, and the text that it leaves. -/
inductive ReadsFirst : List UInt8 → LineRead → List UInt8 → Prop where
  | endOfInput : ReadsFirst [] .endOfInput []
  | last (body : List UInt8) :
      body ≠ [] → newline ∉ body → ReadsFirst body (.line body) []
  | line (body rest : List UInt8) :
      newline ∉ body → ReadsFirst (body ++ newline :: rest) (.line (body ++ [newline])) rest

theorem readsFirst_unfinished {before : List UInt8} (hbefore : newline ∉ before) :
    ReadsFirst before (Source.unfinished before) [] := by
  cases before with
  | nil => exact .endOfInput
  | cons byte before => exact .last _ (List.cons_ne_nil _ _) hbefore

/-- Deliveries complete a line of which the beginning has been read. -/
theorem readsFirst_readOn {deliveries : List Delivery} {before : List UInt8}
    (hsteady : SteadyDeliveries deliveries) (hbefore : newline ∉ before) :
    ReadsFirst (before ++ deliveries.flatMap Delivery.content)
        (Source.readOn deliveries before).1 (Source.readOn deliveries before).2.content ∧
      (Source.readOn deliveries before).2.Steady := by
  fun_induction Source.readOn deliveries before with
  | case1 before =>
      rw [List.flatMap_nil, List.append_nil]
      exact ⟨readsFirst_unfinished hbefore, trivial⟩
  | case2 deliveries before =>
      -- an end of input in between is the end, since no byte comes behind it
      obtain ⟨hend, hsteady⟩ := hsteady
      have hcontent : Source.content ⟨[], deliveries⟩ = [] := hend
      rw [List.flatMap_cons, Delivery.content, hend, List.append_nil, List.append_nil, hcontent]
      exact ⟨readsFirst_unfinished hbefore, hsteady⟩
  | case3 piece deliveries before hpiece first rest htake =>
      rw [steadyDeliveries_cons hpiece] at hsteady
      obtain ⟨body, hbody, rfl, rfl⟩ := takeLine?_eq_some htake
      have hnewline : newline ∉ before ++ body := List.not_mem_append hbefore hbody
      have hline := ReadsFirst.line (before ++ body)
        (rest ++ deliveries.flatMap Delivery.content) hnewline
      rw [List.append_assoc, List.append_assoc] at hline
      rw [List.flatMap_cons, Delivery.content, List.append_assoc, List.cons_append]
      exact ⟨hline, hsteady⟩
  | case4 piece deliveries before hpiece htake ih =>
      rw [steadyDeliveries_cons hpiece] at hsteady
      have hnewline : newline ∉ before ++ piece :=
        List.not_mem_append hbefore (not_mem_of_takeLine?_eq_none htake)
      rw [List.flatMap_cons, Delivery.content, ← List.append_assoc]
      exact ih hsteady hnewline
  | case5 deliveries before ih => exact ih hsteady.2 hbefore
  | case6 fault deliveries before hfault => exact absurd hsteady.1 hfault

theorem readsFirst_readLine {source : Source} (hsteady : source.Steady) :
    ReadsFirst source.content source.readLine.1 source.readLine.2.content ∧
      source.readLine.2.Steady := by
  unfold Source.readLine
  split
  next first rest htake =>
      obtain ⟨body, hbody, rfl, hbuffer⟩ := takeLine?_eq_some htake
      have hline := ReadsFirst.line body (rest ++ source.deliveries.flatMap Delivery.content) hbody
      rw [Source.content, hbuffer, List.append_assoc, List.cons_append]
      exact ⟨hline, hsteady⟩
  next htake => exact readsFirst_readOn hsteady (not_mem_of_takeLine?_eq_none htake)

/-- The lines that reading finds, and the fault that ends it. The limit exceeds the number of
lines. -/
def Source.linesWithin : Nat → Source → List (List UInt8) × Option Fault
  | 0, _ => ([], none)
  | limit + 1, source =>
    match source.readLine with
    | (.endOfInput, _) => ([], none)
    | (.fault fault, _) => ([], some fault)
    | (.line bytes, source) =>
      let rest := source.linesWithin limit
      (bytes :: rest.1, rest.2)

/-- **Where deliveries end does not show.** Reading from a steady source finds the lines of its
bytes. -/
theorem linesWithin_eq {source : Source} {limit : Nat} (hsteady : source.Steady)
    (hlimit : source.content.length < limit) :
    source.linesWithin limit = (lines source.content, none) := by
  induction limit generalizing source with
  | zero => exact absurd hlimit (Nat.not_lt_zero _)
  | succ limit ih =>
      obtain ⟨hfirst, hnext⟩ := readsFirst_readLine hsteady
      rw [Source.linesWithin]
      generalize source.readLine = readLine at hfirst hnext
      obtain ⟨read, next⟩ := readLine
      generalize hcontent : source.content = content at hfirst hlimit
      generalize hrest : next.content = rest at hfirst
      cases hfirst with
      | endOfInput => rfl
      | last _ hbody hnewline =>
          have hlength : 0 < content.length := List.length_pos_iff.mpr hbody
          have hnone : next.linesWithin limit = (lines [], none) := by
            rw [← hrest]
            apply ih hnext
            rw [hrest, List.length_nil]
            omega
          simp only [hnone, lines_of_not_mem hbody hnewline]
          rfl
      | line body _ hnewline =>
          rw [List.length_append, List.length_cons] at hlimit
          have hothers : next.linesWithin limit = (lines rest, none) := by
            rw [← hrest]
            apply ih hnext
            rw [hrest]
            omega
          simp only [hothers, lines_append_newline hnewline]

end MangledNames.Stream

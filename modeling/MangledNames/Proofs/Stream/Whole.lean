import Mathlib.Algebra.Ring.Nat
import Mathlib.Data.List.Forall2
import MangledNames.Proofs.Line.Assembly
import MangledNames.Proofs.Stream.Lines
import MangledNames.Proofs.Stream.Outputs

/-!
# A stream is scanned as one text

A filter reads, scans and writes line after line. Two separations take it apart. What is read does
not depend on what is written, so that the lines come first and the rest is a recursion over them
(`filterFrom_eq`). And a newline is no token byte, so that the text on one side of it is scanned as
if the other side were not there. Put together, the lines of a text come out as the text does when
it is scanned as a whole, and only the newline that the last line lacks is new (`filter_eq_scan`).
-/

namespace MangledNames.Stream

section

variable (demangler : Demangler) (brackets : Bool)

def writtenLine (bytes : List UInt8) : List UInt8 :=
  Line.rewritten demangler brackets (withoutNewline bytes) ++ [newline]

def namesIn (bytes : List UInt8) : Nat := (Line.scan demangler (withoutNewline bytes)).translated

def loggedFor (bytes : List UInt8) : List LogRecord :=
  (Line.scan demangler (withoutNewline bytes)).attempts.filterMap leftAsIs

variable {σ : Type} [Output σ]

/-- Filters lines that have been read, up to the fault that ended reading. -/
def filterLines (ending : Option Fault) :
    List (List UInt8) → Totals → σ → Array LogRecord → Filtering σ
  | [], totals, output, log =>
    match ending with
    | none => finish totals output log
    | some fault => ⟨.error fault, output, log⟩
  | bytes :: rest, totals, output, log =>
    let log := log ++ loggedFor demangler bytes
    match Output.writeAll output (writtenLine demangler brackets bytes) with
    | (some fault, output) => ⟨.error fault, output, log⟩
    | (none, output) =>
      let names := namesIn demangler bytes
      let totals := totals.add names
      filterLines ending rest totals output (log.push (.lineWritten totals.lines names))

/-- What is read does not depend on what is written. -/
theorem filterFrom_eq (limit : Nat) (source : Source) (totals : Totals) (output : σ)
    (log : Array LogRecord) :
    filterFrom demangler brackets limit source totals output log =
      filterLines demangler brackets (source.linesWithin limit).2 (source.linesWithin limit).1
        totals output log := by
  induction limit generalizing source totals output log with
  | zero => rfl
  | succ limit ih =>
      rw [filterFrom, Source.linesWithin]
      cases source.readLine with
      | mk read next =>
          cases read with
          | endOfInput => rfl
          | fault fault => rfl
          | line bytes =>
              rw [filterLines]
              simp only [ih]
              rfl

end

/-- The same result and the same output, and records that correspond one by one. -/
structure Filtering.Agree {σ : Type} (like : LogRecord → LogRecord → Prop)
    (run other : Filtering σ) : Prop where
  result_eq : other.result = run.result
  output_eq : other.output = run.output
  log : List.Forall₂ like run.log.toList other.log.toList

theorem Filtering.Agree.eq {σ : Type} {run other : Filtering σ}
    (hagree : run.Agree (· = ·) other) : other = run := by
  obtain ⟨hresult, houtput, hlog⟩ := hagree
  rw [List.forall₂_eq_eq_eq] at hlog
  cases run
  cases other
  rw [Filtering.mk.injEq]
  exact ⟨hresult, houtput, (Array.toList_inj.mp hlog).symm⟩

/-- What matters for a line is what is written, counted and recorded for it. Two demanglers that
agree in this are led through the same states. -/
theorem filterLines_agree {σ : Type} [Output σ] {like : LogRecord → LogRecord → Prop}
    (hrefl : ∀ record, like record record) {demangler other : Demangler} (brackets : Bool)
    (ending : Option Fault) {rest : List (List UInt8)}
    (hlines : ∀ bytes ∈ rest,
      writtenLine other brackets bytes = writtenLine demangler brackets bytes ∧
        namesIn other bytes = namesIn demangler bytes ∧
        List.Forall₂ like (loggedFor demangler bytes) (loggedFor other bytes))
    (totals : Totals) (output : σ) {log otherLog : Array LogRecord}
    (hlog : List.Forall₂ like log.toList otherLog.toList) :
    (filterLines demangler brackets ending rest totals output log).Agree like
      (filterLines other brackets ending rest totals output otherLog) := by
  induction rest generalizing totals output log otherLog with
  | nil =>
      cases ending with
      | some fault => exact ⟨rfl, rfl, hlog⟩
      | none =>
          rw [filterLines, filterLines, finish, finish]
          cases Output.flush output with
          | mk fault next => cases fault <;> exact ⟨rfl, rfl, hlog⟩
  | cons bytes rest ih =>
      rw [List.forall_mem_cons] at hlines
      obtain ⟨⟨hwritten, hnames, hlogged⟩, hrest⟩ := hlines
      have hlogs : List.Forall₂ like (log ++ loggedFor demangler bytes).toList
          (otherLog ++ loggedFor other bytes).toList := by
        rw [Array.toList_appendList, Array.toList_appendList]
        exact List.rel_append hlog hlogged
      rw [filterLines, filterLines, hwritten, hnames]
      cases Output.writeAll output (writtenLine demangler brackets bytes) with
      | mk fault next =>
          cases fault with
          | some kind => exact ⟨rfl, rfl, hlogs⟩
          | none =>
              apply ih hrest
              rw [Array.toList_push, Array.toList_push]
              exact List.rel_append hlogs (.cons (hrefl _) .nil)

section

variable {σ : Type} [Output σ] {good : σ → Prop} {taken : σ → List UInt8}

theorem filterLines_of_steady (houtput : SteadyOutput good taken) (demangler : Demangler)
    (brackets : Bool) (rest : List (List UInt8)) (totals : Totals) {output : σ}
    (hgood : good output) (log : Array LogRecord) :
    (filterLines demangler brackets none rest totals output log).result =
        .ok ⟨totals.lines + rest.length, totals.translated + (rest.map (namesIn demangler)).sum⟩ ∧
      taken (filterLines demangler brackets none rest totals output log).output =
        taken output ++ rest.flatMap (writtenLine demangler brackets) := by
  induction rest generalizing totals output log with
  | nil =>
      obtain ⟨next, hnext, htaken⟩ := houtput.flush hgood
      simp only [filterLines, finish, hnext]
      refine ⟨rfl, ?_⟩
      rw [htaken, List.flatMap_nil, List.append_nil]
  | cons bytes rest ih =>
      obtain ⟨next, hnext, hgoodNext, htaken⟩ :=
        houtput.writeAll hgood (writtenLine demangler brackets bytes)
      obtain ⟨hresult, hrest⟩ := ih (totals.add (namesIn demangler bytes)) hgoodNext _
      simp only [filterLines, hnext]
      refine ⟨?_, ?_⟩
      · rw [hresult]
        simp only [Totals.add, List.length_cons, List.map_cons, List.sum_cons]
        congr 2 <;> omega
      · rw [hrest, htaken, List.append_assoc, List.flatMap_cons]

end

theorem isTokenByte_newline : Line.isTokenByte newline = false := by decide

theorem withoutNewline_of_not_mem {body : List UInt8} (hnewline : newline ∉ body) :
    withoutNewline body = body := by
  apply if_neg
  intro hlast
  exact hnewline (List.mem_of_getLast? hlast)

theorem withoutNewline_append_newline (body : List UInt8) :
    withoutNewline (body ++ [newline]) = body := by
  simp [withoutNewline]

/-- Whether the last line of a text lacks its newline. -/
def LacksNewline (content : List UInt8) : Prop :=
  content ≠ [] ∧ content.getLast? ≠ some newline

instance (content : List UInt8) : Decidable (LacksNewline content) :=
  inferInstanceAs (Decidable (_ ∧ _))

theorem lacksNewline_of_not_mem {body : List UInt8} (hbody : body ≠ [])
    (hnewline : newline ∉ body) : LacksNewline body :=
  ⟨hbody, fun hlast => hnewline (List.mem_of_getLast? hlast)⟩

theorem lacksNewline_append_newline (body rest : List UInt8) :
    LacksNewline (body ++ newline :: rest) ↔ LacksNewline rest := by
  cases rest with
  | nil => simp [LacksNewline]
  | cons byte rest => simp [LacksNewline, List.getLast?_append, List.getLast?_cons_cons]

theorem length_lines (content : List UInt8) :
    (lines content).length =
      content.count newline + if LacksNewline content then 1 else 0 := by
  induction content using lines_induction with
  | nil => rfl
  | last body hbody hnewline =>
      rw [lines_of_not_mem hbody hnewline, List.count_eq_zero_of_not_mem hnewline,
        if_pos (lacksNewline_of_not_mem hbody hnewline)]
      rfl
  | line body rest hnewline ih =>
      rw [lines_append_newline hnewline, List.length_cons, ih, List.count_append,
        List.count_eq_zero_of_not_mem hnewline, List.count_cons_self]
      simp only [lacksNewline_append_newline]
      omega

theorem sum_namesIn_lines (demangler : Demangler) (content : List UInt8) :
    ((lines content).map (namesIn demangler)).sum = (Line.scan demangler content).translated := by
  induction content using lines_induction with
  | nil => rfl
  | last body hbody hnewline =>
      rw [lines_of_not_mem hbody hnewline, List.map_singleton, List.sum_singleton, namesIn,
        withoutNewline_of_not_mem hnewline]
  | line body rest hnewline ih =>
      rw [lines_append_newline hnewline, List.map_cons, List.sum_cons, ih, namesIn,
        withoutNewline_append_newline,
        Line.translated_scan_separator demangler body rest isTokenByte_newline]

theorem flatMap_writtenLine_lines (demangler : Demangler) (brackets : Bool)
    (content : List UInt8) :
    (lines content).flatMap (writtenLine demangler brackets) =
      Line.rewritten demangler brackets content ++
        if LacksNewline content then [newline] else [] := by
  induction content using lines_induction with
  | nil => rfl
  | last body hbody hnewline =>
      rw [lines_of_not_mem hbody hnewline, List.flatMap_singleton, writtenLine,
        withoutNewline_of_not_mem hnewline, if_pos (lacksNewline_of_not_mem hbody hnewline)]
  | line body rest hnewline ih =>
      rw [lines_append_newline hnewline, List.flatMap_cons, ih, writtenLine,
        withoutNewline_append_newline,
        Line.rewritten_separator demangler body rest isTokenByte_newline]
      simp only [lacksNewline_append_newline, List.append_assoc, List.cons_append,
        List.nil_append]

theorem flatMap_attempts_lines (demangler : Demangler) (content : List UInt8) :
    (lines content).flatMap (fun bytes => (Line.scan demangler (withoutNewline bytes)).attempts) =
      (Line.scan demangler content).attempts := by
  induction content using lines_induction with
  | nil => rfl
  | last body hbody hnewline =>
      rw [lines_of_not_mem hbody hnewline, List.flatMap_singleton,
        withoutNewline_of_not_mem hnewline]
  | line body rest hnewline ih =>
      rw [lines_append_newline hnewline, List.flatMap_cons, ih, withoutNewline_append_newline,
        Line.attempts_scan_separator demangler body rest isTokenByte_newline]

/-- **Cutting a stream into lines is invisible.** If nothing fails, a filter writes what one scan of
all bytes finds, and the newline that the last line lacks. It counts the names of that scan, and the
newlines. A stream of which no candidate has a name passes unchanged. -/
theorem filter_eq_scan {σ : Type} [Output σ] {good : σ → Prop} {taken : σ → List UInt8}
    (houtput : SteadyOutput good taken) (demangler : Demangler) (brackets : Bool)
    {source : Source} (hsource : source.Steady) {output : σ} (hgood : good output) :
    (filter demangler brackets source output).result =
        .ok ⟨source.content.count newline + (if LacksNewline source.content then 1 else 0),
          (Line.scan demangler source.content).translated⟩ ∧
      taken (filter demangler brackets source output).output =
        taken output ++ (Line.rewritten demangler brackets source.content ++
          if LacksNewline source.content then [newline] else []) ∧
      ((∀ attempt ∈ (Line.scan demangler source.content).attempts,
          ∃ failure, attempt.answer = .error failure) →
        taken (filter demangler brackets source output).output =
          taken output ++ (source.content ++
            if LacksNewline source.content then [newline] else [])) := by
  have hlines : source.linesWithin (source.content.length + 1) = (lines source.content, none) :=
    linesWithin_eq hsource (Nat.lt_succ_self _)
  have hfilter : filter demangler brackets source output =
      filterLines demangler brackets none (lines source.content) ⟨0, 0⟩ output #[] := by
    rw [filter, filterFrom_eq, hlines]
  obtain ⟨hresult, hwritten⟩ :=
    filterLines_of_steady houtput demangler brackets (lines source.content) ⟨0, 0⟩ hgood #[]
  rw [flatMap_writtenLine_lines] at hwritten
  rw [length_lines, sum_namesIn_lines, Nat.zero_add, Nat.zero_add] at hresult
  rw [hfilter]
  refine ⟨hresult, hwritten, ?_⟩
  intro hfailures
  rw [hwritten, Line.rewritten_of_failures hfailures]

/-- A candidate may come in three deliveries, and go out through a sink that takes little. -/
theorem filter_eq_scan_in_parts :
    let source : Source :=
      ⟨Text.utf8 "a_", [.bytes (Text.utf8 "Z"), .fault .interrupted, .bytes (Text.utf8 "f\r"),
        .bytes (Text.utf8 "\n_Zg"), .bytes []]⟩
    let sink := Sink.new [.accept 2, .fault .interrupted, .accept 1] none
    let filtering := filter (Line.knowing "_Zf" "f()") true source sink
    filtering.result = .ok ⟨2, 1⟩ ∧
      filtering.output.taken = Text.utf8 "a[f()]\r\n_Zg\n" := by
  intro source sink filtering
  have hsource : source.Steady := ⟨rfl, rfl, trivial⟩
  have hsink : sink.Steady := by
    refine ⟨?_, rfl⟩
    simp [sink, Sink.new, Sink.Harmless]
  obtain ⟨hresult, hwritten, _⟩ :=
    filter_eq_scan Sink.steadyOutput (Line.knowing "_Zf" "f()") true hsource hsink
  refine ⟨?_, ?_⟩
  · rw [hresult]
    decide +kernel
  · rw [hwritten]
    decide +kernel

end MangledNames.Stream

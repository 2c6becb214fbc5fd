import MangledNames.Stream.Buffered
import MangledNames.Stream.Sink

/-!
# Outputs that take everything

A filter sees of its output only whether a write or a flush fails. Where none of them does, what is
written in several parts is taken as it would be in one. A sink may still accept a few bytes at a
time and be interrupted at will: neither is a failure, and neither shows in what it has accepted
(`Sink.steadyOutput`). Nor does it show when a buffer in front of a device is emptied, if it is
looked at what the device holds in the end (`Buffered.steadyOutput`).
-/

namespace MangledNames.Stream

/-- From good states on nothing fails, and what is written is added to what has been taken. -/
structure SteadyOutput {σ : Type} [Output σ] (good : σ → Prop) (taken : σ → List UInt8) :
    Prop where
  writeAll : ∀ {output}, good output → ∀ bytes, ∃ next,
    Output.writeAll output bytes = (none, next) ∧ good next ∧ taken next = taken output ++ bytes
  flush : ∀ {output}, good output → ∃ next,
    Output.flush output = (none, next) ∧ taken next = taken output

namespace Sink

/-- An answer that is no failure. -/
def Harmless : WriteAnswer → Prop
  | .accept limit => 0 < limit
  | .fault kind => kind = .interrupted

structure Steady (sink : Sink) : Prop where
  script : ∀ answer ∈ sink.script, Harmless answer
  flush : sink.flushFault = none

def taken (sink : Sink) : List UInt8 := sink.accepted.toList

theorem taken_accept (sink : Sink) (script : List WriteAnswer) (bytes : List UInt8) :
    (sink.accept script bytes).taken = sink.taken ++ bytes := by
  simp [accept, taken]

theorem writeFrom_of_steady {script : List WriteAnswer}
    (hscript : ∀ answer ∈ script, Harmless answer) (sink : Sink)
    (hflush : sink.flushFault = none) (bytes : List UInt8) :
    ∃ next, sink.writeFrom script bytes = (none, next) ∧ next.Steady ∧
      next.taken = sink.taken ++ bytes := by
  fun_induction writeFrom sink script bytes with
  | case1 sink script => exact ⟨_, rfl, ⟨hscript, hflush⟩, (List.append_nil _).symm⟩
  | case2 sink bytes hbytes =>
      exact ⟨_, rfl, ⟨by simp [accept], hflush⟩, taken_accept sink [] bytes⟩
  | case3 sink script bytes hbytes =>
      have hlimit := (List.forall_mem_cons.mp hscript).1
      exact absurd hlimit (Nat.lt_irrefl 0)
  | case4 sink limit script bytes hbytes hlimit ih =>
      have hrest := (List.forall_mem_cons.mp hscript).2
      obtain ⟨next, hnext, hsteady, htaken⟩ := ih hrest hflush
      refine ⟨next, hnext, hsteady, ?_⟩
      rw [htaken, taken_accept, List.append_assoc, List.take_append_drop]
  | case5 sink script bytes hbytes ih =>
      have hrest := (List.forall_mem_cons.mp hscript).2
      exact ih hrest hflush
  | case6 sink fault script bytes hbytes hfault =>
      have hinterrupted := (List.forall_mem_cons.mp hscript).1
      exact absurd hinterrupted hfault

/-- A sink may take its bytes in small parts and be interrupted. -/
theorem steadyOutput : SteadyOutput Steady taken where
  writeAll := by
    intro output hsteady bytes
    exact writeFrom_of_steady hsteady.script output hsteady.flush bytes
  flush := by
    intro output hsteady
    refine ⟨{ output with flushes := output.flushes + 1 }, ?_, rfl⟩
    change (output.flushFault, _) = _
    rw [hsteady.flush]

end Sink

namespace Buffered

section

variable (capacity : Nat) (held stored : Array UInt8)

theorem drain_device :
    drain ⟨capacity, false, held, stored⟩ = (none, ⟨capacity, false, #[], stored ++ held⟩) := by
  simp [drain, store]

theorem close_device :
    close ⟨capacity, false, held, stored⟩ = stored.toList ++ held.toList := by
  rw [close, drain_device, Array.toList_append]

/-- Bytes may pass by the buffer only if nothing in it would be written behind them. -/
theorem put_device (bytes : List UInt8) (hroom : bytes.length ≤ capacity - held.size ∨ held = #[]) :
    ∃ next, put ⟨capacity, false, held, stored⟩ bytes = (none, next) ∧ next.deviceFull = false ∧
      next.close = stored.toList ++ held.toList ++ bytes := by
  rw [put]
  split
  next hlarge =>
      have hnothing : held = #[] ∨ bytes = [] := by
        rcases hroom with hroom | hheld
        · by_cases hbytes : bytes = []
          · exact .inr hbytes
          · have hpos := List.length_pos_iff.mpr hbytes
            left
            apply Array.eq_empty_of_size_eq_zero
            change capacity ≤ bytes.length at hlarge
            omega
        · exact .inl hheld
      refine ⟨⟨capacity, false, held, stored ++ bytes.toArray⟩, by simp [store], rfl, ?_⟩
      rw [close_device, Array.toList_append]
      rcases hnothing with rfl | rfl <;> simp
  next hsmall =>
      refine ⟨⟨capacity, false, held ++ bytes, stored⟩, rfl, rfl, ?_⟩
      rw [close_device]
      simp

end

/-- When the buffer is emptied does not show in what the device holds in the end. -/
theorem steadyOutput : SteadyOutput (fun output : Buffered => output.deviceFull = false) close where
  writeAll := by
    rintro ⟨capacity, deviceFull, held, stored⟩ rfl bytes
    change ∃ next, (if bytes.length ≤ capacity - held.size then put _ bytes else _) = _ ∧ _
    rw [close_device]
    by_cases hroom : bytes.length ≤ capacity - held.size
    · rw [if_pos hroom]
      exact put_device capacity held stored bytes (.inl hroom)
    · rw [if_neg hroom, drain_device]
      obtain ⟨next, hput, hnext, hclose⟩ :=
        put_device capacity #[] (stored ++ held) bytes (.inr rfl)
      refine ⟨next, hput, hnext, ?_⟩
      rw [hclose, Array.toList_append, List.append_nil]
  flush := by
    rintro ⟨capacity, deviceFull, held, stored⟩ rfl
    refine ⟨_, drain_device capacity held stored, ?_⟩
    rw [close_device, close_device, Array.toList_append, List.append_nil]

end Buffered

end MangledNames.Stream

import Mathlib.Data.List.Forall2
import MangledNames.Proofs.Line.Partition

/-!
# What a scan sees of the answers

Which texts a scan asks about depends on the line only, and of an answer it sees the name, or that
there is none. Why there is none goes into the attempt and nowhere else. So two demanglers that find
the same names for the candidates of a line lead to the same segments, and to attempts that differ
in failures at most (`SameNames.segments_eq`, `SameNames.alike_attempts`). What they answer on other
texts is not asked for.
-/

namespace MangledNames.Line

/-- For every candidate of the line both find the same name, or both find none. -/
def SameNames (demangler other : Demangler) (line : List UInt8) : Prop :=
  ∀ span ∈ candidates line, nameAt? other line span = nameAt? demangler line span

/-- The same question, and the same name for an answer if there is one. -/
def Attempt.Alike (attempt other : Attempt) : Prop :=
  other.candidate = attempt.candidate ∧ other.answer.toOption = attempt.answer.toOption

variable {demangler other : Demangler} {line : List UInt8}

theorem sameNames_iff :
    SameNames demangler other line ↔
      ∀ attempt ∈ (scan demangler line).attempts,
        (other attempt.candidate).toOption = attempt.answer.toOption := by
  rw [attempts_eq_map_candidates, List.forall_mem_map]
  rfl

namespace SameNames

theorem segments_eq (hnames : SameNames demangler other line) :
    (scan other line).segments = (scan demangler line).segments := by
  have hagree := sameNames_iff.mp hnames
  rw [attempts_scan] at hagree
  rw [scan_eq, scan_eq]
  exact segmentsOf_congr hagree 0 0

theorem alike_attempts (hnames : SameNames demangler other line) :
    List.Forall₂ Attempt.Alike (scan demangler line).attempts (scan other line).attempts := by
  rw [attempts_eq_map_candidates, attempts_eq_map_candidates, List.forall₂_map_left_iff,
    List.forall₂_map_right_iff, List.forall₂_same]
  exact fun span hspan => ⟨rfl, hnames span hspan⟩

theorem translated_eq (hnames : SameNames demangler other line) :
    (scan other line).translated = (scan demangler line).translated := by
  rw [Scan.translated, Scan.translated, hnames.segments_eq]

theorem rewritten_eq (hnames : SameNames demangler other line) (brackets : Bool) :
    rewritten other brackets line = rewritten demangler brackets line := by
  rw [rewritten, rewritten, Scan.bytes, Scan.bytes, hnames.segments_eq]

end SameNames

end MangledNames.Line

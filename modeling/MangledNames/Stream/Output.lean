import MangledNames.Stream.Source

/-!
# What lines are written to
-/

namespace MangledNames.Stream

/-- Takes bytes in order. A write takes all its bytes or ends with a fault. -/
class Output (σ : Type) where
  writeAll : σ → List UInt8 → Option Fault × σ
  flush : σ → Option Fault × σ

end MangledNames.Stream

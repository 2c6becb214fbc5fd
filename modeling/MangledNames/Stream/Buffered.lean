import MangledNames.Stream.Output

/-!
# Outputs behind a buffer

Bytes are held in a buffer and reach the device when the buffer cannot hold what is written next. A
full device takes no byte, so that its fault shows only then.
-/

namespace MangledNames.Stream

structure Buffered where
  capacity : Nat
  deviceFull : Bool
  held : Array UInt8
  /-- The bytes that have reached the device. -/
  stored : Array UInt8

namespace Buffered

def new (capacity : Nat) (deviceFull : Bool) : Buffered := ⟨capacity, deviceFull, #[], #[]⟩

def store (output : Buffered) (bytes : Array UInt8) : Option Fault × Buffered :=
  if output.deviceFull ∧ bytes ≠ #[] then (some .storageFull, output)
  else (none, { output with stored := output.stored ++ bytes })

/-- Empties the buffer. -/
def drain (output : Buffered) : Option Fault × Buffered :=
  match output.store output.held with
  | (none, output) => (none, { output with held := #[] })
  | (some fault, output) => (some fault, output)

def room (output : Buffered) : Nat := output.capacity - output.held.size

/-- Bytes that do not fit into the empty buffer do not pass through it. -/
def put (output : Buffered) (bytes : List UInt8) : Option Fault × Buffered :=
  if output.capacity ≤ bytes.length then output.store bytes.toArray
  else (none, { output with held := output.held ++ bytes })

instance : Output Buffered where
  writeAll output bytes :=
    if bytes.length ≤ output.room then output.put bytes
    else
      match output.drain with
      | (none, output) => output.put bytes
      | (some fault, output) => (some fault, output)
  flush := drain

/-- What the device holds after the output is closed. -/
def close (output : Buffered) : List UInt8 := output.drain.2.stored.toList

end Buffered

end MangledNames.Stream

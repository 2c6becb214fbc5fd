import MangledNames.Stream.Output

/-!
# Scripted sinks

A sink answers each write as its script says, by accepting some of the bytes or by a fault, and
accepts everything when the script is used up.
-/

namespace MangledNames.Stream

inductive WriteAnswer where
  | accept (limit : Nat)
  | fault (fault : Fault)
  deriving DecidableEq, Repr

structure Sink where
  script : List WriteAnswer
  flushFault : Option Fault
  /-- All accepted bytes. -/
  accepted : Array UInt8
  /-- How many bytes each write has accepted that was no fault. -/
  writes : Array Nat
  flushes : Nat
  deriving DecidableEq, Repr

namespace Sink

def new (script : List WriteAnswer) (flushFault : Option Fault) : Sink :=
  ⟨script, flushFault, #[], #[], 0⟩

def accept (sink : Sink) (script : List WriteAnswer) (bytes : List UInt8) : Sink :=
  { sink with
    script
    accepted := sink.accepted ++ bytes
    writes := sink.writes.push bytes.length }

/-- Writes bytes until all are accepted. An interrupted write is repeated, and a write that accepts
nothing is a fault. -/
def writeFrom (sink : Sink) : List WriteAnswer → List UInt8 → Option Fault × Sink
  | script, [] => (none, { sink with script })
  | [], bytes => (none, sink.accept [] bytes)
  | .accept limit :: script, bytes =>
    if limit = 0 then (some .writeZero, sink.accept script [])
    else (sink.accept script (bytes.take limit)).writeFrom script (bytes.drop limit)
  | .fault .interrupted :: script, bytes => sink.writeFrom script bytes
  | .fault fault :: script, _ => (some fault, { sink with script })

instance : Output Sink where
  writeAll sink bytes := sink.writeFrom sink.script bytes
  flush sink := (sink.flushFault, { sink with flushes := sink.flushes + 1 })

end Sink

end MangledNames.Stream

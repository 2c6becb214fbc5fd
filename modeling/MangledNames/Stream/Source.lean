/-!
# Where lines are read from

A source delivers its bytes in pieces of at most the capacity of its buffer, and may deliver a fault
in between. A delivery of no bytes is an end of input: it ends the line that is being read, and
reading can go on behind it. An interrupted read is repeated.
-/

namespace MangledNames.Stream

/-- The kinds of faults of reading and writing. -/
inductive Fault where
  | interrupted
  | brokenPipe
  | permissionDenied
  | unexpectedEof
  | invalidData
  | writeZero
  | isADirectory
  | storageFull
  | other
  deriving DecidableEq, Repr

/-- The words of the operating system, and where it has none, of the kind of fault. -/
def Fault.message : Fault → String
  | interrupted => "Interrupted system call (os error 4)"
  | brokenPipe => "Broken pipe (os error 32)"
  | permissionDenied => "Permission denied (os error 13)"
  | unexpectedEof => "unexpected end of file"
  | invalidData => "invalid data"
  | writeZero => "failed to write whole buffer"
  | isADirectory => "Is a directory (os error 21)"
  | storageFull => "No space left on device (os error 28)"
  | other => "other error"

inductive Delivery where
  | bytes (bytes : List UInt8)
  | fault (fault : Fault)
  deriving DecidableEq, Repr

structure Source where
  /-- What the last delivery has left. -/
  buffer : List UInt8
  deliveries : List Delivery

namespace Delivery

/-- Cuts bytes into pieces of the capacity. The limit is at least the number of pieces. -/
def pieces (capacity : Nat) : Nat → List UInt8 → List Delivery
  | 0, _ => []
  | limit + 1, content =>
    match content.drop capacity with
    | [] => [.bytes content]
    | rest => .bytes (content.take capacity) :: pieces capacity limit rest

/-- What a delivery becomes when it is read through a buffer. A buffer without room shows an end of
input. -/
def through (capacity : Nat) : Delivery → List Delivery
  | .bytes content =>
    if capacity = 0 then [.bytes []] else pieces capacity (content.length + 1) content
  | .fault kind => [.fault kind]

def content : Delivery → List UInt8
  | .bytes content => content
  | .fault _ => []

end Delivery

namespace Source

def ofDeliveries (capacity : Nat) (deliveries : List Delivery) : Source :=
  ⟨[], deliveries.flatMap (Delivery.through capacity)⟩

/-- All bytes that are still to come. -/
def content (source : Source) : List UInt8 :=
  source.buffer ++ source.deliveries.flatMap Delivery.content

end Source

/-- What comes of asking for a line. -/
inductive LineRead where
  /-- A line with the newline that ends it, which the last line may lack. -/
  | line (bytes : List UInt8)
  | endOfInput
  | fault (fault : Fault)
  deriving DecidableEq, Repr

def newline : UInt8 := '\n'.toUInt8

/-- The first line of the bytes, with its newline, and what follows it. -/
def takeLine? : List UInt8 → Option (List UInt8 × List UInt8)
  | [] => none
  | byte :: bytes =>
    if byte = newline then some ([byte], bytes)
    else (takeLine? bytes).map fun (line, rest) => (byte :: line, rest)

namespace Source

/-- The line that ends without a newline. -/
def unfinished (bytes : List UInt8) : LineRead :=
  if bytes.isEmpty then .endOfInput else .line bytes

/-- Reads on when the buffer is used up. A fault loses the bytes of the line that have been read. -/
def readOn : List Delivery → List UInt8 → LineRead × Source
  | [], before => (unfinished before, ⟨[], []⟩)
  | .bytes [] :: deliveries, before => (unfinished before, ⟨[], deliveries⟩)
  | .bytes piece :: deliveries, before =>
    match takeLine? piece with
    | some (line, rest) => (.line (before ++ line), ⟨rest, deliveries⟩)
    | none => readOn deliveries (before ++ piece)
  | .fault .interrupted :: deliveries, before => readOn deliveries before
  | .fault fault :: deliveries, _ => (.fault fault, ⟨[], deliveries⟩)

def readLine (source : Source) : LineRead × Source :=
  match takeLine? source.buffer with
  | some (line, rest) => (.line line, ⟨rest, source.deliveries⟩)
  | none => readOn source.deliveries source.buffer

end Source

end MangledNames.Stream

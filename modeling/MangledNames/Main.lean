import MangledNames.Command.Run
import MangledNames.Stream.Sink

/-!
# The program

The outer layer opens what the arguments name and prints what a run says. What is written, said and
returned is decided elsewhere; here files are handles, and the system words its own errors.
-/

namespace MangledNames.Command

/-- The environment variable that specifies which log records are shown. -/
def logVariable : String := "RUST_LOG"

def systemWords : IO.Error → String
  | .noFileOrDirectory _ code details | .inappropriateType _ code details
  | .permissionDenied _ code details | .resourceExhausted _ code details
  | .otherError code details => s!"{details} (os error {code})"
  | error => toString error

def faultOf : IO.Error → Stream.Fault
  | .interrupted .. => .interrupted
  | .permissionDenied .. => .permissionDenied
  | .resourceVanished .. => .brokenPipe
  | .resourceExhausted .. => .storageFull
  | .inappropriateType .. => .isADirectory
  | .unexpectedEof => .unexpectedEof
  | _ => .other

/-- What an action yields, an error included. -/
def attempted {α : Type} (action : IO α) : IO (Except IO.Error α) := do
  try
    return .ok (← action)
  catch error =>
    return .error error

def pathText (path : Bytes) : String := (Text.ofUtf8? path).getD ""

/-- The stream in place of a path, or why there is none. -/
def openStream (path : Bytes) (standard : IO IO.FS.Stream) (mode : IO.FS.Mode) :
    IO (Except String IO.FS.Stream) := do
  let named := IO.FS.Stream.ofHandle <$> IO.FS.Handle.mk (pathText path) mode
  return (← attempted (streamAt path standard named)).mapError systemWords

/-- What a stream delivers up to its end or its first fault. -/
partial def readDeliveries (input : IO.FS.Stream) (before : Array Stream.Delivery) :
    IO (Array Stream.Delivery) := do
  match ← attempted (input.read bufferSize.toUSize) with
  | .error error => return before.push (.fault (faultOf error))
  | .ok piece =>
    if piece.isEmpty then return before
    readDeliveries input (before.push (.bytes piece.toList))

/-- Writes what a filtering has accepted, where a fault takes the place of its result. -/
def settleInto (output : IO.FS.Stream) (filtering : Stream.Filtering Stream.Sink) :
    IO (Stream.Filtering Stream.Sink) := do
  match ← attempted (output.write ⟨filtering.output.accepted⟩ *> output.flush) with
  | .ok _ => return filtering
  | .error error => return { filtering with result := .error (faultOf error) }

def noFiles : FileTree := ⟨[], []⟩

def filterStreams (source destination : Bytes) (brackets : Bool) (options : Options)
    (input output : IO.FS.Stream) : IO Ending := do
  let deliveries ← readDeliveries input #[]
  let filtering := Stream.filter (demangle options) brackets
    (Stream.Source.ofDeliveries bufferSize deliveries.toList) (Stream.Sink.new [] none)
  let (status, complaints) := report source destination (← settleInto output filtering)
  return ⟨status, [], complaints, noFiles⟩

def perform : Plan → IO Ending
  | .file source destination brackets options =>
    streamsEnding source destination noFiles (openStream source IO.getStdin .read)
      (openStream destination IO.getStdout .write)
      (filterStreams source destination brackets options)
  | plan => return planEnding ⟨[], [], noFiles⟩ plan

def logSpecification : IO LogSpecification := do
  return .ofText? (← IO.getEnv logVariable)

end MangledNames.Command

open MangledNames.Command in
def main (arguments : List String) : IO UInt32 := do
  let (plan, complaints) := planned (arguments.map MangledNames.Text.utf8)
  let ending := (← perform plan).after complaints
  (← IO.getStdout).write ⟨ending.output.toArray⟩
  let errors ← IO.getStderr
  for line in ending.errorLines (← logSpecification) do
    errors.write ⟨(line ++ [MangledNames.Stream.newline]).toArray⟩
  return ending.status.code.toUInt32

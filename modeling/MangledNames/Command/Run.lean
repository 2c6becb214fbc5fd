import MangledNames.Command.FileTree
import MangledNames.Command.LogFilter
import MangledNames.Command.Plan
import MangledNames.Stream.Buffered
import MangledNames.Stream.Filter
import MangledNames.Symbol.Demangle

/-!
# A run of the program

What a run prints, how it ends, and which files it leaves behind. The source is opened first and the
destination is created next, so that nothing is changed if one of them fails. What the source holds
is read after that.
-/

namespace MangledNames.Command

inductive Complaint where
  | record (record : LogRecord)
  | message (text : Bytes)
  deriving DecidableEq, Repr

structure Ending where
  status : ExitStatus
  output : Bytes
  /-- What is said on the side, in order. -/
  complaints : List Complaint
  files : FileTree

structure Invocation where
  arguments : List Bytes
  input : Bytes
  files : FileTree

/-- The path that stands for the standard streams. -/
def standardStream : Bytes := Text.utf8 "-"

/-- What there is in place of a path: a standard stream, or else what the path names. -/
def streamAt {α : Type} (path : Bytes) (standard named : α) : α :=
  if path = standardStream then standard else named

@[simp]
theorem streamAt_standardStream {α : Type} (standard named : α) :
    streamAt standardStream standard named = standard :=
  if_pos rfl

theorem streamAt_of_ne {α : Type} {path : Bytes} (hpath : path ≠ standardStream)
    (standard named : α) : streamAt path standard named = named :=
  if_neg hpath

def bufferSize : Nat := 8192

def symbolEnding (symbol : String) (options : Options) (files : FileTree) : Ending :=
  match demangle options symbol with
  | .ok name => ⟨.success, Text.utf8 (name ++ "\n"), [], files⟩
  | .error failure =>
    ⟨failure.exitStatus, Text.utf8 (failure.placeholder ++ "\n"),
      [.record (.symbolFailed symbol failure)], files⟩

def failedToOpen (path : Bytes) (reason : String) : Bytes :=
  Text.utf8 "Failed to open " ++ path ++ Text.utf8 (": " ++ reason ++ "\n")

def failedToCreate (path : Bytes) (reason : String) : Bytes :=
  Text.utf8 "Failed to create " ++ path ++ Text.utf8 (": " ++ reason ++ "\n")

def failedWhileProcessing (source destination : Bytes) (fault : Stream.Fault) : Bytes :=
  Text.utf8 "Failed while processing " ++ source ++ Text.utf8 " into " ++ destination ++
    Text.utf8 (": " ++ fault.message)

/-- Where bytes are read from or written to. -/
inductive Place where
  | standard
  | location (location : Location)
  deriving DecidableEq, Repr

def openSource (files : FileTree) (path : Bytes) : Except PathError Place :=
  streamAt path (.ok .standard) (Place.location <$> files.openSource path)

def createDestination (files : FileTree) (path : Bytes) : Except PathError (Place × FileTree) :=
  streamAt path (.ok (.standard, files))
    ((fun (location, files) => (Place.location location, files)) <$> files.create path)

/-- A directory can be opened and not be read. -/
def deliveries (input : Bytes) (files : FileTree) : Place → List Stream.Delivery
  | .standard => [.bytes input]
  | .location location =>
    match files.node? location with
    | some (.file content) => [.bytes content]
    | some .directory => [.fault .isADirectory]
    | _ => []

def isFull (files : FileTree) : Place → Bool
  | .standard => false
  | .location location => files.node? location = some (.device .full)

/-- Puts what has been written into its place: the output of the run, or a file. -/
def settle (files : FileTree) (written : Bytes) : Place → Bytes × FileTree
  | .standard => (written, files)
  | .location location =>
    match files.node? location with
    | some (.device _) => ([], files)
    | _ => ([], files.write location written)

def filterPlaces (source destination : Place) (brackets : Bool) (options : Options) (input : Bytes)
    (files : FileTree) : Stream.Filtering Stream.Buffered :=
  Stream.filter (demangle options) brackets
    (Stream.Source.ofDeliveries bufferSize (deliveries input files source))
    (Stream.Buffered.new bufferSize (isFull files destination))

/-- How a run ends that has filtered a stream, and what it says on the side. -/
def report {σ : Type} (source destination : Bytes) (filtering : Stream.Filtering σ) :
    ExitStatus × List Complaint :=
  let records := filtering.log.toList.map Complaint.record
  match filtering.result with
  | .ok totals => (.success, records ++ [.record (.fileWritten totals.lines totals.translated)])
  | .error fault =>
    (.ioFailure, records ++ [.message (failedWhileProcessing source destination fault)])

def filterEnding (source destination : Bytes) (brackets : Bool) (options : Options) (input : Bytes)
    (from_ into : Place) (files : FileTree) : Ending :=
  let filtering := filterPlaces from_ into brackets options input files
  let (status, complaints) := report source destination filtering
  let (output, files) := settle files filtering.output.close into
  ⟨status, output, complaints, files⟩

/-- How a run ends that filters one stream into another, and in which order it gets them. They may be
places in a tree of files or streams of the system, and `m` is how these are reached. -/
def streamsEnding {m : Type → Type} [Monad m] {α β : Type} (source destination : Bytes)
    (files : FileTree) (opening : m (Except String α)) (creating : m (Except String β))
    (filtering : α → β → m Ending) : m Ending := do
  match ← opening with
  | .error reason => return ⟨.noInputFile, failedToOpen source reason, [], files⟩
  | .ok from_ =>
    match ← creating with
    | .error reason => return ⟨.noOutputFile, failedToCreate destination reason, [], files⟩
    | .ok into => filtering from_ into

def fileEnding (source destination : Bytes) (brackets : Bool) (options : Options) (input : Bytes)
    (files : FileTree) : Ending :=
  Id.run <| streamsEnding source destination files
    (pure ((openSource files source).mapError PathError.message))
    (pure ((createDestination files destination).mapError PathError.message))
    fun from_ (into, files) =>
      pure (filterEnding source destination brackets options input from_ into files)

def planEnding (invocation : Invocation) : Plan → Ending
  | .print text => ⟨.help, Text.utf8 text, [], invocation.files⟩
  | .symbol symbol options => symbolEnding symbol options invocation.files
  | .file source destination brackets options =>
    fileEnding source destination brackets options invocation.input invocation.files

def Ending.after (ending : Ending) (complaints : List Complaint) : Ending :=
  { ending with complaints := complaints ++ ending.complaints }

/-- What the arguments ask for, and what is said before it is done. -/
def planned (arguments : List Bytes) : Plan × List Complaint :=
  match loneSymbol? arguments with
  | some symbol => (.symbol symbol .complete, [])
  | none =>
    match Request.ofArguments .none arguments with
    | .arguments arguments => (.ofArguments arguments, [.record (.started arguments.options)])
    | request => (.ofRequest request, [])

def run (invocation : Invocation) : Ending :=
  let (plan, complaints) := planned invocation.arguments
  (planEnding invocation plan).after complaints

def padded (level : LogLevel) : String :=
  level.name ++ String.ofList (List.replicate (5 - level.name.length) ' ')

def Complaint.shown? (filter : LogFilter) : Complaint → Option Bytes
  | .record entry =>
    if filter.shows entry then
      some (Text.utf8 ("[" ++ padded entry.level ++ " " ++ entry.target ++ "] " ++ entry.message))
    else none
  | .message text => some text

/-- The lines on the side, which begin with the warnings. A path may take several lines. -/
def Ending.errorLines (ending : Ending) (specification : LogSpecification) : List Bytes :=
  specification.warnings.map Text.utf8 ++
    (ending.complaints.filterMap (Complaint.shown? specification.filter)).flatMap
      (·.splitOn Stream.newline)

end MangledNames.Command

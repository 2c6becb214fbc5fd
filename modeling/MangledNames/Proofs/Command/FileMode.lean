import MangledNames.Command.Run
import MangledNames.Proofs.Command.Arguments
import MangledNames.Proofs.Command.FileTree
import MangledNames.Proofs.Stream.Stretches
import MangledNames.Proofs.Stream.Text

/-!
# Filtering a source into a destination

The source is opened and the destination is created, and only then is anything read. If the two are
apart, the creation does not touch what there is to read, and the destination comes to hold what the
filter makes of the source (`run_file`). If they are one file, it is the creation that decides: the
file is emptied, so nothing is left to be filtered, and the run ends as a success
(`run_file_onto_itself`).
-/

namespace MangledNames.Command

/-- The place that a path names to read from, and the bytes that are there. -/
inductive SourceAt (input : Bytes) (files : FileTree) : Bytes → Place → Bytes → Prop where
  | standard : SourceAt input files standardStream .standard input
  | file {path : Bytes} {location : Location} {content : Bytes} :
      path ≠ standardStream → files.LeadsTo path location →
        files.node? location = some (.file content) →
        SourceAt input files path (.location location) content

/-- The place that a path names to write to. A file need not exist yet. -/
inductive DestinationAt (files : FileTree) : Bytes → Place → Prop where
  | standard : DestinationAt files standardStream .standard
  | file {path : Bytes} {location : Location} :
      path ≠ standardStream → files.LeadsTo path location → files.CanHoldFile location →
        DestinationAt files path (.location location)

/-- The files after the destination has been created. -/
def emptied (files : FileTree) : Place → FileTree
  | .standard => files
  | .location location => files.write location []

section

variable {input : Bytes} {files : FileTree} {path content : Bytes} {place from_ into : Place}

theorem SourceAt.openSource_eq (hsource : SourceAt input files path place content) :
    openSource files path = .ok place := by
  cases hsource with
  | standard => exact streamAt_standardStream _ _
  | file hpath hleads hfile =>
      rw [openSource, streamAt_of_ne hpath, FileTree.openSource_of_file hleads hfile]
      rfl

theorem DestinationAt.createDestination_eq (hdestination : DestinationAt files path place) :
    createDestination files path = .ok (place, emptied files place) := by
  cases hdestination with
  | standard => exact streamAt_standardStream _ _
  | file hpath hleads hholds =>
      rw [createDestination, streamAt_of_ne hpath, FileTree.create_of_canHoldFile hleads hholds]
      rfl

theorem DestinationAt.isFull_eq (hdestination : DestinationAt files path place) :
    isFull (emptied files place) place = false := by
  cases hdestination with
  | standard => rfl
  | file hpath hleads hholds =>
      rw [isFull, emptied, FileTree.node?_write hholds.ne_nil]
      rfl

/-- Creating the destination keeps what a source has that is another place. -/
theorem SourceAt.deliveries_eq (hsource : SourceAt input files path from_ content)
    (hapart : from_ = into → into = .standard) :
    deliveries input (emptied files into) from_ = [.bytes content] := by
  cases hsource with
  | standard => rfl
  | @file path location content hpath hleads hfile =>
      have hkept : (emptied files into).node? location = some (.file content) := by
        cases into with
        | standard => exact hfile
        | location other =>
            have hne : location ≠ other := by
              rintro rfl
              cases hapart rfl
            rw [emptied, FileTree.node?_write_of_ne hne, hfile]
      rw [deliveries, hkept]

end

/-- What a filter writes for these bytes if nothing fails. -/
def filtered (switches : List Switch) (content : Bytes) : Bytes :=
  (Stream.filter (demangle (Switch.options switches)) (Switch.bracketed switches)
    ⟨[], [.bytes content]⟩ (Stream.Sink.new [] none)).output.taken

theorem filtered_eq (switches : List Switch) (content : Bytes) :
    filtered switches content =
      ((Stream.lines content).map (Stream.writtenLine (demangle (Switch.options switches))
        (Switch.bracketed switches))).flatten := by
  have hsteady : Stream.Source.Steady ⟨[], [.bytes content]⟩ := by
    cases content with
    | nil => exact ⟨rfl, trivial⟩
    | cons byte rest => trivial
  obtain ⟨htaken, -⟩ := Stream.filter_accepting_sink (demangle (Switch.options switches))
    (Switch.bracketed switches) ⟨[], [.bytes content]⟩ none
  have hcontent : Stream.Source.content ⟨[], [.bytes content]⟩ = content := List.append_nil content
  rw [filtered, htaken, Stream.writtenTexts, Stream.read_of_steady hsteady, hcontent]

/-- Every line is written with a newline at least. -/
theorem filtered_eq_nil_iff {switches : List Switch} {content : Bytes} :
    filtered switches content = [] ↔ content = [] := by
  rw [filtered_eq]
  induction content using Stream.lines_induction with
  | nil => simp [Stream.lines]
  | last body hbody hnewline =>
      rw [Stream.lines_of_not_mem hbody hnewline]
      simp [Stream.writtenLine, hbody]
  | line body rest hnewline _ =>
      rw [Stream.lines_append_newline hnewline]
      simp [Stream.writtenLine]

/-- A run that filters bytes through its buffers writes what the filter writes for them. -/
theorem filterPlaces_spec (switches : List Switch) {input content : Bytes} {files : FileTree}
    {from_ into : Place} (hdeliveries : deliveries input files from_ = [.bytes content])
    (hdevice : isFull files into = false) :
    let filtering := filterPlaces from_ into (Switch.bracketed switches) (Switch.options switches)
      input files
    (∃ totals, filtering.result = .ok totals) ∧
      filtering.output.close = filtered switches content := by
  intro filtering
  have hgood : (Stream.Buffered.new bufferSize (isFull files into)).deviceFull = false := hdevice
  have hempty : (Stream.Buffered.new bufferSize (isFull files into)).close = [] := by
    rw [Stream.Buffered.new, hdevice, Stream.Buffered.close_device]
    rfl
  obtain ⟨hsteady, hcontent⟩ := Stream.steady_ofDeliveries (by decide : 0 < bufferSize) content
  obtain ⟨hresult, hwritten⟩ := Stream.filter_of_steady (demangle (Switch.options switches))
    (Switch.bracketed switches) Stream.Buffered.steadyOutput hsteady hgood
  rw [← hdeliveries] at hresult hwritten
  refine ⟨⟨_, hresult⟩, ?_⟩
  rw [filtered_eq]
  refine hwritten.trans ?_
  rw [hempty, List.nil_append, hdeliveries, Stream.writtenTexts, Stream.read_of_steady hsteady,
    hcontent]

section

variable {source destination : Bytes} {brackets : Bool} {options : Options} {input : Bytes}
  {files created : FileTree} {from_ into : Place} {error : PathError}

theorem fileEnding_of_not_opened (hsource : openSource files source = .error error) :
    fileEnding source destination brackets options input files =
      ⟨.noInputFile, failedToOpen source error.message, [], files⟩ := by
  rw [fileEnding, hsource]
  rfl

theorem fileEnding_of_not_created (hsource : openSource files source = .ok from_)
    (hdestination : createDestination files destination = .error error) :
    fileEnding source destination brackets options input files =
      ⟨.noOutputFile, failedToCreate destination error.message, [], files⟩ := by
  rw [fileEnding, hsource, hdestination]
  rfl

theorem fileEnding_of_created (hsource : openSource files source = .ok from_)
    (hdestination : createDestination files destination = .ok (into, created)) :
    fileEnding source destination brackets options input files =
      filterEnding source destination brackets options input from_ into created := by
  rw [fileEnding, hsource, hdestination]
  rfl

end

/-- The bytes are in the place, and nowhere else has anything changed. -/
def Ending.Leaves (ending : Ending) (files : FileTree) (bytes : Bytes) : Place → Prop
  | .standard => ending.output = bytes ∧ ending.files = files
  | .location location =>
    ending.output = [] ∧ ending.files.node? location = some (.file bytes) ∧
      ∀ other, other ≠ location → ending.files.node? other = files.node? other

theorem DestinationAt.leaves_of_settle {files : FileTree} {path : Bytes} {place : Place}
    (hdestination : DestinationAt files path place) {ending : Ending} {written : Bytes}
    (houtput : ending.output = (settle (emptied files place) written place).1)
    (hfiles : ending.files = (settle (emptied files place) written place).2) :
    ending.Leaves files written place := by
  cases hdestination with
  | standard => exact ⟨houtput, hfiles⟩
  | @file path location hpath hleads hholds =>
      have hlocation := hholds.ne_nil
      have hsettle : settle (files.write location []) written (.location location) =
          ([], (files.write location []).write location written) := by
        rw [settle, FileTree.node?_write hlocation]
      rw [emptied, hsettle] at houtput hfiles
      refine ⟨houtput, ?_, ?_⟩
      · rw [hfiles, FileTree.node?_write hlocation]
      · intro other hother
        rw [hfiles, FileTree.node?_write_of_ne hother, FileTree.node?_write_of_ne hother]

theorem planned_fileArguments {before after : List Switch} (hnodup : (before ++ after).Nodup)
    {source destination : Bytes} (hsource : isPath source) (hdestination : isPath destination) :
    ∃ complaints, planned (fileArguments before after source destination) =
      (.file source destination (Switch.bracketed (before ++ after))
        (Switch.options (before ++ after)), complaints) := by
  have hlone : loneSymbol? (fileArguments before after source destination) = none := by
    unfold fileArguments
    rcases before with - | ⟨first, - | ⟨second, before⟩⟩ <;> rfl
  rw [planned, hlone, ofArguments_fileArguments hnodup hsource hdestination]
  exact ⟨_, rfl⟩

section

variable {before after : List Switch} (hswitches : (before ++ after).Nodup)
  {source destination : Bytes} (hpaths : isPath source ∧ isPath destination)
  {input : Bytes} {files : FileTree} {from_ into : Place} {content : Bytes}
  (hdestination : DestinationAt files destination into)

include hswitches hpaths hdestination

/-- What is read decides, and it is read when the destination has been emptied. -/
theorem run_fileArguments (hsource : openSource files source = .ok from_)
    (hdeliveries : deliveries input (emptied files into) from_ = [.bytes content]) :
    let ending := run ⟨fileArguments before after source destination, input, files⟩
    ending.status = .success ∧
      ending.Leaves files (filtered (before ++ after) content) into := by
  intro ending
  obtain ⟨complaints, hplan⟩ := planned_fileArguments hswitches hpaths.1 hpaths.2
  obtain ⟨⟨totals, hresult⟩, hclose⟩ :=
    filterPlaces_spec (before ++ after) hdeliveries hdestination.isFull_eq
  have hending : ending = (filterEnding source destination (Switch.bracketed (before ++ after))
      (Switch.options (before ++ after)) input from_ into
      (emptied files into)).after complaints := by
    simp only [ending, run, hplan, planEnding,
      fileEnding_of_created hsource hdestination.createDestination_eq]
  rw [hending]
  refine ⟨?_, ?_⟩
  · change (report source destination _).1 = .success
    rw [report, hresult]
  · rw [← hclose]
    exact hdestination.leaves_of_settle rfl rfl

/-- **File mode is correct end to end.** Whatever the switches are and wherever they stand, the run
succeeds, the destination holds what the filter writes for the bytes of the source, and nothing else
has changed: no other file, and the output only if it is the destination. -/
theorem run_file (hsource : SourceAt input files source from_ content)
    (hapart : from_ = into → into = .standard) :
    let ending := run ⟨fileArguments before after source destination, input, files⟩
    ending.status.code = 0 ∧
      ending.Leaves files (filtered (before ++ after) content) into := by
  intro ending
  obtain ⟨hstatus, hleaves⟩ := run_fileArguments hswitches hpaths hdestination hsource.openSource_eq
    (hsource.deliveries_eq hapart)
  refine ⟨?_, hleaves⟩
  rw [hstatus]
  rfl

end

/-- A directory and a file beside it, with a file in the directory. -/
def sampleFiles : FileTree :=
  let directory := Text.utf8 "d"
  ⟨[], [([directory], .directory), ([directory, Text.utf8 "a"], .file (Text.utf8 "_Z1fi\n_Z")),
    ([Text.utf8 "b"], .file (Text.utf8 "old"))]⟩

/-- Paths may take detours, and what the destination held before does not show. -/
theorem run_file_into_old_file :
    let arguments := ["--brackets", "--file", "d/../d/a", "./b", "--no-params"].map Text.utf8
    let ending := run ⟨arguments, [], sampleFiles⟩
    ending.status.code = 0 ∧
      ending.Leaves sampleFiles (Text.utf8 "[f]\n_Z\n") (.location [Text.utf8 "b"]) := by
  intro arguments ending
  have harguments : arguments = fileArguments [.brackets] [.noParameters] (Text.utf8 "d/../d/a")
      (Text.utf8 "./b") := by
    decide +kernel
  have hsource : SourceAt [] sampleFiles (Text.utf8 "d/../d/a")
      (.location [Text.utf8 "d", Text.utf8 "a"]) (Text.utf8 "_Z1fi\n_Z") :=
    .file (by decide +kernel) ⟨by decide +kernel, by decide +kernel⟩ (by decide +kernel)
  have hdestination : DestinationAt sampleFiles (Text.utf8 "./b") (.location [Text.utf8 "b"]) :=
    .file (by decide +kernel) ⟨by decide +kernel, by decide +kernel⟩
      (.inr ⟨Text.utf8 "old", by decide +kernel⟩)
  have hswitches : ([Switch.brackets] ++ [Switch.noParameters]).Nodup := by decide
  have hfiltered : filtered ([Switch.brackets] ++ [Switch.noParameters]) (Text.utf8 "_Z1fi\n_Z") =
      Text.utf8 "[f]\n_Z\n" := by
    decide +kernel
  simp only [ending]
  rw [harguments, ← hfiltered]
  exact run_file hswitches (by decide +kernel) hdestination hsource (by decide +kernel)

/-- The run fails and the file is as it was, or the file has been filtered. -/
def Ending.KeepsFile (ending : Ending) (switches : List Switch) (location : Location)
    (content : Bytes) : Prop :=
  (ending.status.code ≠ 0 ∧ ending.files.node? location = some (.file content)) ∨
    (ending.status.code = 0 ∧
      ending.files.node? location = some (.file (filtered switches content)))

/-- **A file that is filtered onto itself is emptied.** Its bytes are gone when they are to be read,
and the run succeeds. So nothing is lost only if there was nothing in the file. -/
theorem run_file_onto_itself {before after : List Switch} (hswitches : (before ++ after).Nodup)
    {source destination : Bytes} (hpaths : isPath source ∧ isPath destination)
    {input : Bytes} {files : FileTree} {location : Location} {content : Bytes}
    (hsource : SourceAt input files source (.location location) content)
    (hdestination : DestinationAt files destination (.location location)) :
    let ending := run ⟨fileArguments before after source destination, input, files⟩
    ending.status.code = 0 ∧ ending.Leaves files [] (.location location) ∧
      (ending.KeepsFile (before ++ after) location content ↔ content = []) := by
  intro ending
  have hempty : filtered (before ++ after) [] = [] := filtered_eq_nil_iff.mpr rfl
  have hdeliveries : deliveries input (emptied files (.location location)) (.location location) =
      [.bytes []] := by
    cases hdestination with
    | file hpath hleads hholds => rw [deliveries, emptied, FileTree.node?_write hholds.ne_nil]
  obtain ⟨hstatus, hleaves⟩ :=
    run_fileArguments hswitches hpaths hdestination hsource.openSource_eq hdeliveries
  rw [hempty] at hleaves
  have hcode : ending.status.code = 0 := congrArg ExitStatus.code hstatus
  have hfile : ending.files.node? location = some (.file []) := hleaves.2.1
  refine ⟨hcode, hleaves, ?_⟩
  constructor
  · rintro (⟨hfailure, -⟩ | ⟨-, hkept⟩)
    · exact absurd hcode hfailure
    · rw [hfile, Option.some.injEq, Node.file.injEq] at hkept
      exact filtered_eq_nil_iff.mp hkept.symm
  · rintro rfl
    right
    rw [hempty]
    exact ⟨hcode, hfile⟩

/-- The two paths may differ. -/
theorem run_file_onto_itself_by_detour :
    let arguments := ["--file", "d/a", "./d/./a"].map Text.utf8
    let ending := run ⟨arguments, [], sampleFiles⟩
    let location := [Text.utf8 "d", Text.utf8 "a"]
    ending.status.code = 0 ∧ ending.files.node? location = some (.file []) ∧
      ¬ ending.KeepsFile [] location (Text.utf8 "_Z1fi\n_Z") := by
  intro arguments ending location
  have harguments : arguments = fileArguments [] [] (Text.utf8 "d/a") (Text.utf8 "./d/./a") := by
    decide +kernel
  have hsource : SourceAt [] sampleFiles (Text.utf8 "d/a") (.location location)
      (Text.utf8 "_Z1fi\n_Z") :=
    .file (by decide +kernel) ⟨by decide +kernel, by decide +kernel⟩ (by decide +kernel)
  have hdestination : DestinationAt sampleFiles (Text.utf8 "./d/./a") (.location location) :=
    .file (by decide +kernel) ⟨by decide +kernel, by decide +kernel⟩
      (.inr ⟨Text.utf8 "_Z1fi\n_Z", by decide +kernel⟩)
  have hswitches : ([] ++ [] : List Switch).Nodup := by decide
  obtain ⟨hcode, hleaves, hkeeps⟩ :=
    run_file_onto_itself hswitches (by decide +kernel) hsource hdestination
  rw [← harguments] at hcode hleaves hkeeps
  refine ⟨hcode, hleaves.2.1, ?_⟩
  intro hkept
  exact absurd (hkeeps.mp hkept) (by decide +kernel)

/-- A line is lost, and the run is a success. -/
theorem run_file_onto_itself_loses_line :
    let files : FileTree := ⟨[], [([Text.utf8 "a"], .file (Text.utf8 "x\n"))]⟩
    let ending := run ⟨["--file", "a", "a"].map Text.utf8, [], files⟩
    ending.status.code = 0 ∧ ending.files.node? [Text.utf8 "a"] = some (.file []) ∧
      filtered [] (Text.utf8 "x\n") = Text.utf8 "x\n" := by
  decide +kernel

end MangledNames.Command

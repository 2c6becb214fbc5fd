import MangledNames.Proofs.Command.FileMode

/-!
# What a run may change

A run decides on what it is to do before it looks at any file, and it has opened the source before it
creates the destination. After that it can fail only while it reads and writes. So every failure but
this last one leaves all files as they were (`TouchesOnlyDestination.of_failure`), and what any run
changes is a file in the place that the destination leads to, one that was there or a new one.

A path is only what follows `--file`, so a run for a symbol has no destination at all.
-/

namespace MangledNames.Command

/-- What has been created is a file, unless it is a device that was there before. -/
theorem cases_of_createDestination {files created : FileTree} {path : Bytes} {into : Place}
    (hcreate : createDestination files path = .ok (into, created)) :
    DestinationAt files path into ∧ created = emptied files into ∨
      ∃ location device, into = .location location ∧
        files.node? location = some (.device device) ∧ created = files := by
  unfold createDestination streamAt at hcreate
  split at hcreate
  next hstandard =>
      cases hcreate
      rw [hstandard]
      exact .inl ⟨.standard, rfl⟩
  next hpath =>
      cases hfile : files.create path with
      | error error =>
          rw [hfile] at hcreate
          cases hcreate
      | ok found =>
          obtain ⟨location, created⟩ := found
          rw [hfile] at hcreate
          cases hcreate
          obtain ⟨hleads, ⟨hholds, rfl⟩ | ⟨⟨device, hdevice⟩, rfl⟩⟩ :=
            FileTree.cases_of_create hfile
          · exact .inl ⟨.file hpath hleads hholds, rfl⟩
          · exact .inr ⟨location, device, rfl, hdevice, rfl⟩

section

variable (source destination : Bytes) (brackets : Bool) (options : Options) (input : Bytes)

theorem status_filterEnding (from_ into : Place) (files : FileTree) :
    let ending := filterEnding source destination brackets options input from_ into files
    ending.status = .success ∨ ending.status = .ioFailure := by
  intro ending
  change (report source destination (filterPlaces from_ into brackets options input files)).1 = _ ∨
    (report source destination (filterPlaces from_ into brackets options input files)).1 = _
  unfold report
  split
  next => exact .inl rfl
  next => exact .inr rfl

/-- **Either nothing has changed, or the files have been read and written.** -/
theorem files_fileEnding (files : FileTree) :
    let ending := fileEnding source destination brackets options input files
    ending.files = files ∨ (ending.status = .success ∨ ending.status = .ioFailure) ∧
      ∃ into written, DestinationAt files destination into ∧ ending.Leaves files written into := by
  intro ending
  have hending : ending = fileEnding source destination brackets options input files := rfl
  cases hsource : openSource files source with
  | error error =>
      rw [fileEnding_of_not_opened hsource] at hending
      exact .inl (congrArg Ending.files hending)
  | ok from_ =>
      cases hcreate : createDestination files destination with
      | error error =>
          rw [fileEnding_of_not_created hsource hcreate] at hending
          exact .inl (congrArg Ending.files hending)
      | ok found =>
          obtain ⟨into, created⟩ := found
          rw [fileEnding_of_created hsource hcreate] at hending
          have hfiles : ending.files = (settle created
              (filterPlaces from_ into brackets options input created).output.close into).2 :=
            congrArg Ending.files hending
          rcases cases_of_createDestination hcreate with
            ⟨hdestination, rfl⟩ | ⟨location, device, rfl, hdevice, rfl⟩
          · right
            rw [hending]
            exact ⟨status_filterEnding _ _ _ _ _ _ _ _, into, _, hdestination,
              hdestination.leaves_of_settle rfl rfl⟩
          · left
            rw [hfiles, settle, hdevice]

end

theorem Plan.paths_of_ofRequest {request : Request} {source destination : Bytes} {brackets : Bool}
    {options : Options}
    (hplan : Plan.ofRequest request = .file source destination brackets options) :
    ∃ arguments, request = .arguments arguments ∧ arguments.paths = [source, destination] := by
  cases request with
  | help long => cases long <;> cases hplan
  | usageError => cases hplan
  | arguments arguments =>
      refine ⟨arguments, rfl, ?_⟩
      change Plan.ofArguments arguments = _ at hplan
      unfold Plan.ofArguments at hplan
      split at hplan
      next _ _ hpaths =>
          cases hplan
          exact hpaths
      all_goals cases hplan

/-- Files are filtered only if the arguments name just these two. -/
theorem filePaths_of_planned {arguments : List Bytes} {source destination : Bytes}
    {brackets : Bool} {options : Options}
    (hplan : (planned arguments).1 = .file source destination brackets options) :
    filePaths arguments = [source, destination] := by
  cases hlone : loneSymbol? arguments with
  | some symbol =>
      rw [planned, hlone] at hplan
      cases hplan
  | none =>
      rw [planned_fst hlone] at hplan
      obtain ⟨result, hresult, hpaths⟩ := Plan.paths_of_ofRequest hplan
      rw [← hpaths, Request.paths_ofArguments hresult]
      rfl

theorem files_symbolEnding (symbol : String) (options : Options) (files : FileTree) :
    (symbolEnding symbol options files).files = files := by
  unfold symbolEnding
  split <;> rfl

/-- **A run that filters nothing leaves all files alone**, and one that does changes its destination
at most. -/
theorem files_run (invocation : Invocation) :
    (run invocation).files = invocation.files ∨
      ((run invocation).status = .success ∨ (run invocation).status = .ioFailure) ∧
        ∃ source destination, filePaths invocation.arguments = [source, destination] ∧
          ∃ into written, DestinationAt invocation.files destination into ∧
            (run invocation).Leaves invocation.files written into := by
  rw [run_eq]
  cases hplan : (planned invocation.arguments).1 with
  | print text => exact .inl rfl
  | symbol symbol options => exact .inl (files_symbolEnding _ _ _)
  | file source destination brackets options =>
      refine (files_fileEnding source destination brackets options invocation.input
        invocation.files).imp id ?_
      rintro ⟨hstatus, into, written, hdestination, hleaves⟩
      refine ⟨hstatus, source, destination, filePaths_of_planned hplan, into, written,
        hdestination, ?_⟩
      cases into with
      | standard => exact hleaves
      | location location => exact hleaves

/-- What is left as it was by a run, however it ends. -/
structure TouchesOnlyDestination (invocation : Invocation) : Prop where
  of_failure : 1 ≤ (run invocation).status.code → (run invocation).status.code ≤ 7 →
    (run invocation).files = invocation.files
  of_change : ∀ location,
    (run invocation).files.node? location ≠ invocation.files.node? location →
      ∃ source destination, filePaths invocation.arguments = [source, destination] ∧
        DestinationAt invocation.files destination (.location location) ∧
        ∃ content, (run invocation).files.node? location = some (.file content)
  of_symbol : ∀ symbol options, (planned invocation.arguments).1 = .symbol symbol options →
    (run invocation).files = invocation.files
  of_standard : ∀ source, filePaths invocation.arguments = [source, standardStream] →
    (run invocation).files = invocation.files
  of_missing_source : ∀ source destination brackets options error,
    (planned invocation.arguments).1 = .file source destination brackets options →
      openSource invocation.files source = .error error →
        (run invocation).status.code = 6 ∧ (run invocation).files = invocation.files

/-- **Failing runs leave all files alone**, and other runs all but their destination. -/
theorem touchesOnlyDestination (invocation : Invocation) : TouchesOnlyDestination invocation where
  of_failure := by
    intro hlow hhigh
    refine (files_run invocation).resolve_right ?_
    rintro ⟨hsuccess | hfailure, -⟩
    · rw [hsuccess] at hlow
      cases hlow
    · rw [hfailure] at hhigh
      exact absurd hhigh (by decide)
  of_change := by
    intro location hchanged
    rcases files_run invocation with
      hfiles | ⟨-, source, destination, hpaths, into, written, hdestination, hleaves⟩
    · rw [hfiles] at hchanged
      exact absurd rfl hchanged
    · cases into with
      | standard =>
          rw [hleaves.2] at hchanged
          exact absurd rfl hchanged
      | location place =>
          obtain rfl : location = place := by
            by_contra hne
            exact hchanged (hleaves.2.2 location hne)
          exact ⟨source, destination, hpaths, hdestination, written, hleaves.2.1⟩
  of_symbol := by
    intro symbol options hplan
    rw [run_eq, hplan]
    exact files_symbolEnding _ _ _
  of_standard := by
    intro source hstandard
    rcases files_run invocation with
      hfiles | ⟨-, _, destination, hpaths, into, written, hdestination, hleaves⟩
    · exact hfiles
    · rw [hstandard] at hpaths
      cases hpaths
      cases hdestination with
      | standard => exact hleaves.2
      | file hpath => exact absurd rfl hpath
  of_missing_source := by
    intro source destination brackets options error hplan herror
    rw [run_eq, hplan, planEnding, fileEnding_of_not_opened herror]
    exact ⟨rfl, rfl⟩

/-- The destination keeps what it has if the source is missing. It is written over if the source is
an empty input. -/
theorem touchesOnlyDestination_of_missing_source :
    let missing : Invocation := ⟨["--file", "c", "b"].map Text.utf8, [], sampleFiles⟩
    let empty : Invocation := ⟨["--file", "-", "d/../b"].map Text.utf8, [], sampleFiles⟩
    ((run missing).status.code = 6 ∧ (run missing).files = sampleFiles) ∧
      DestinationAt sampleFiles (Text.utf8 "d/../b") (.location [Text.utf8 "b"]) ∧
      (run empty).files.node? [Text.utf8 "b"] = some (.file []) := by
  intro missing empty
  have hfile : (run empty).files.node? [Text.utf8 "b"] = some (.file []) := by decide +kernel
  refine ⟨?_, ?_, hfile⟩
  · exact (touchesOnlyDestination missing).of_missing_source (Text.utf8 "c") (Text.utf8 "b") false
      .complete .noEntry (by decide +kernel) (by decide +kernel)
  · have hchanged : (run empty).files.node? [Text.utf8 "b"] ≠ sampleFiles.node? [Text.utf8 "b"] := by
      rw [hfile]
      decide +kernel
    obtain ⟨source, destination, hpaths, hdestination, -⟩ :=
      (touchesOnlyDestination empty).of_change [Text.utf8 "b"] hchanged
    have hnamed : filePaths empty.arguments = [standardStream, Text.utf8 "d/../b"] := by
      decide +kernel
    rw [hnamed] at hpaths
    cases hpaths
    exact hdestination

end MangledNames.Command

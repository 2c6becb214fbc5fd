import MangledNames.Command.Run

/-!
# Switches and paths

A switch is read by itself: it is on from there on, and what follows is read as it would be without
it. So a list of switches, each of which stands there once, comes to what it turns on, in whichever
order it stands (`ofArguments_switches`), and `--file` may stand before, behind or among them.
-/

namespace MangledNames.Command

namespace Switch

/-- What is written on the command line for a switch. -/
def argument : Switch → Bytes
  | brackets => Text.utf8 "--brackets"
  | noParameters => Text.utf8 "--no-params"
  | noReturnType => Text.utf8 "--no-return-type"
  | hideLiteralTypes => Text.utf8 "--hide-expression-literal-types"

/-- The rendering options among the switches. -/
def options (switches : List Switch) : Options :=
  ⟨.noParameters ∈ switches, .noReturnType ∈ switches, .hideLiteralTypes ∈ switches⟩

def bracketed (switches : List Switch) : Bool := .brackets ∈ switches

theorem of?_argument (switch : Switch) : of? switch.argument = some switch := by
  cases switch <;> decide +kernel

end Switch

namespace Arguments

theorem isOn_turnOn (arguments : Arguments) (switch other : Switch) :
    (arguments.turnOn switch).isOn other = (switch = other || arguments.isOn other) := by
  cases switch <;> cases other <;> simp [turnOn, isOn]

/-- The switches are on that were on before, and those of the list. -/
def turnOnAll (arguments : Arguments) (switches : List Switch) : Arguments :=
  { arguments with
    brackets := arguments.brackets || Switch.bracketed switches
    options := arguments.options.union (Switch.options switches) }

theorem turnOnAll_nil (arguments : Arguments) : arguments.turnOnAll [] = arguments := by
  simp [turnOnAll, Switch.bracketed, Switch.options, Options.union]

theorem turnOnAll_cons (arguments : Arguments) (switch : Switch) (switches : List Switch) :
    arguments.turnOnAll (switch :: switches) = (arguments.turnOn switch).turnOnAll switches := by
  cases switch <;> simp [turnOnAll, turnOn, Switch.bracketed, Switch.options, Options.union]

theorem isOn_turnOnAll (arguments : Arguments) (switches : List Switch) (switch : Switch) :
    (arguments.turnOnAll switches).isOn switch =
      (arguments.isOn switch || decide (switch ∈ switches)) := by
  cases switch <;> rfl

theorem turnOnAll_append (arguments : Arguments) (before after : List Switch) :
    (arguments.turnOnAll before).turnOnAll after = arguments.turnOnAll (before ++ after) := by
  induction before generalizing arguments with
  | nil => rw [turnOnAll_nil, List.nil_append]
  | cons switch before ih => rw [turnOnAll_cons, ih, List.cons_append, turnOnAll_cons]

theorem isOn_none (switch : Switch) : Arguments.none.isOn switch = false := by
  cases switch <;> rfl

theorem turnOnAll_none (switches : List Switch) :
    Arguments.none.turnOnAll switches =
      ⟨Switch.bracketed switches, Switch.options switches, [], .none⟩ := by
  simp [turnOnAll, none, Options.union, Options.complete]

/-- Switches that stand there once are still off when they are read. -/
theorem isOn_of_nodup {before after : List Switch} (hnodup : (before ++ after).Nodup) :
    ∀ switch ∈ after, (Arguments.none.turnOnAll before).isOn switch = false := by
  intro switch hmem
  have hnot : switch ∉ before := fun hin =>
    (List.nodup_append.mp hnodup).2.2 switch hin switch hmem rfl
  rw [isOn_turnOnAll, isOn_none]
  simpa using hnot

end Arguments

namespace Request

open Arguments

theorem ofArguments_switch {arguments : Arguments} {switch : Switch}
    (hoff : arguments.isOn switch = false) (rest : List Bytes) :
    ofArguments arguments (switch.argument :: rest) =
      ofArguments (arguments.turnOn switch) rest := by
  have hoption : switch.argument ≠ Text.utf8 "--" ∧ switch.argument ≠ Text.utf8 "--help" ∧
      switch.argument ≠ Text.utf8 "--file" ∧ isWord switch.argument = false := by
    cases switch <;> decide +kernel
  obtain ⟨hend, hhelp, hfile, hword⟩ := hoption
  rw [ofArguments.eq_def]
  simp only [if_neg hend, if_neg hhelp, if_neg hfile, hword, Switch.of?_argument, hoff,
    Bool.false_eq_true, if_false]

/-- **Switches come to what they turn on.** -/
theorem ofArguments_switches {switches : List Switch} (hnodup : switches.Nodup)
    {arguments : Arguments} (hoff : ∀ switch ∈ switches, arguments.isOn switch = false)
    (rest : List Bytes) :
    ofArguments arguments (switches.map Switch.argument ++ rest) =
      ofArguments (arguments.turnOnAll switches) rest := by
  induction switches generalizing arguments with
  | nil => rw [List.map_nil, List.nil_append, turnOnAll_nil]
  | cons switch switches ih =>
      obtain ⟨hfirst, hothers⟩ := List.forall_mem_cons.mp hoff
      obtain ⟨hnew, hnodup⟩ := List.nodup_cons.mp hnodup
      have hstill : ∀ other ∈ switches, (arguments.turnOn switch).isOn other = false := by
        intro other hmem
        have hne : switch ≠ other := by
          rintro rfl
          exact hnew hmem
        rw [isOn_turnOn, hothers other hmem]
        simpa using hne
      rw [List.map_cons, List.cons_append, ofArguments_switch hfirst, ih hnodup hstill,
        turnOnAll_cons]

/-- Switches on both sides of what is read in between come to what they turn on together. -/
theorem ofArguments_around {before after : List Switch} (hnodup : (before ++ after).Nodup)
    {middle : List Bytes} {added : Arguments}
    (hmiddle : ∀ rest, ofArguments (Arguments.none.turnOnAll before) (middle ++ rest) =
      ofArguments added rest)
    (hkept : ∀ switch, added.isOn switch = (Arguments.none.turnOnAll before).isOn switch) :
    ofArguments .none (before.map Switch.argument ++ (middle ++ after.map Switch.argument)) =
      (added.turnOnAll after).request := by
  obtain ⟨hbefore, hafter, -⟩ := List.nodup_append.mp hnodup
  have hoff : ∀ switch ∈ after, added.isOn switch = false := by
    intro switch hmem
    rw [hkept, isOn_of_nodup hnodup switch hmem]
  have hfinished := ofArguments_switches hafter hoff []
  rw [List.append_nil, ofArguments] at hfinished
  rw [ofArguments_switches hbefore fun switch _ => isOn_none switch, hmiddle, hfinished]

theorem ofArguments_file {source destination : Bytes} (hsource : isPath source)
    (hdestination : isPath destination) (arguments : Arguments) (rest : List Bytes) :
    ofArguments arguments (Text.utf8 "--file" :: source :: destination :: rest) =
      ofArguments (arguments.addPaths source destination) rest := by
  have hoption : Text.utf8 "--file" ≠ Text.utf8 "--" ∧ Text.utf8 "--file" ≠ Text.utf8 "--help" := by
    decide +kernel
  rw [ofArguments, if_neg hoption.1, if_neg hoption.2, if_pos rfl]
  exact if_pos ⟨hsource, hdestination⟩

end Request

/-- The paths behind `--file` in front of a `--`. -/
def filePaths : List Bytes → List Bytes
  | [] => []
  | argument :: rest =>
    if argument = Text.utf8 "--" then []
    else if argument = Text.utf8 "--file" then
      match rest with
      | source :: destination :: rest => source :: destination :: filePaths rest
      | _ => []
    else filePaths rest

theorem filePaths_end (rest : List Bytes) : filePaths (Text.utf8 "--" :: rest) = [] := by
  rw [filePaths.eq_def]
  exact if_pos rfl

theorem filePaths_of_ne {argument : Bytes} (hend : argument ≠ Text.utf8 "--")
    (hfile : argument ≠ Text.utf8 "--file") (rest : List Bytes) :
    filePaths (argument :: rest) = filePaths rest := by
  rw [filePaths.eq_def]
  exact (if_neg hend).trans (if_neg hfile)

namespace Arguments

theorem paths_turnOn (arguments : Arguments) (switch : Switch) :
    (arguments.turnOn switch).paths = arguments.paths := by
  cases switch <;> rfl

theorem paths_of_addSymbol? {arguments added : Arguments} {argument : Bytes}
    (hadded : arguments.addSymbol? argument = some added) : added.paths = arguments.paths := by
  unfold addSymbol? at hadded
  split at hadded
  next => cases hadded
  next =>
      obtain ⟨symbol, -, rfl⟩ := Option.map_eq_some_iff.mp hadded
      rfl

theorem eq_of_request {arguments result : Arguments}
    (hrequest : arguments.request = .arguments result) : result = arguments := by
  unfold request at hrequest
  split at hrequest
  next => cases hrequest
  next => exact (Request.arguments.inj hrequest).symm

end Arguments

namespace Request

theorem paths_ofWords {arguments result : Arguments} {words : List Bytes}
    (hresult : ofWords arguments words = .arguments result) : result.paths = arguments.paths := by
  induction words generalizing arguments with
  | nil => rw [Arguments.eq_of_request hresult]
  | cons word words ih =>
      rw [ofWords] at hresult
      split at hresult
      next => cases hresult
      next added hadded => rw [ih hresult, Arguments.paths_of_addSymbol? hadded]

theorem ofLetters_ne_arguments (argument : Bytes) (result : Arguments) :
    ofLetters argument ≠ .arguments result := by
  unfold ofLetters
  split
  next => split <;> exact nofun
  next => exact nofun

/-- **Only what follows `--file` is a path.** -/
theorem paths_ofArguments {start result : Arguments} {arguments : List Bytes}
    (hresult : ofArguments start arguments = .arguments result) :
    result.paths = start.paths ++ filePaths arguments := by
  fun_induction ofArguments start arguments with
  | case1 start =>
      rw [Arguments.eq_of_request hresult, filePaths, List.append_nil]
  | case2 start rest =>
      rw [paths_ofWords hresult, filePaths_end, List.append_nil]
  | case3 | case5 | case6 | case7 | case9 | case11 => cases hresult
  | case4 start source destination rest hpaths hend hhelp ih =>
      rw [ih hresult, filePaths, if_neg hend, if_pos rfl, Arguments.addPaths, List.append_assoc]
      rfl
  | case8 start argument rest hend hhelp hfile hword added hadded ih =>
      rw [ih hresult, Arguments.paths_of_addSymbol? hadded, filePaths_of_ne hend hfile]
  | case10 start argument rest hend hhelp hfile hword switch hswitch hoff ih =>
      rw [ih hresult, Arguments.paths_turnOn, filePaths_of_ne hend hfile]
  | case12 => exact absurd hresult (ofLetters_ne_arguments _ _)

end Request

/-- Two paths behind `--file`, and switches on both sides of them. -/
def fileArguments (before after : List Switch) (source destination : Bytes) : List Bytes :=
  before.map Switch.argument ++
    Text.utf8 "--file" :: source :: destination :: after.map Switch.argument

theorem ofArguments_fileArguments {before after : List Switch} (hnodup : (before ++ after).Nodup)
    {source destination : Bytes} (hsource : isPath source) (hdestination : isPath destination) :
    Request.ofArguments .none (fileArguments before after source destination) =
      .arguments ⟨Switch.bracketed (before ++ after), Switch.options (before ++ after),
        [source, destination], none⟩ := by
  have hfile : ∀ rest, Request.ofArguments (Arguments.none.turnOnAll before)
      ([Text.utf8 "--file", source, destination] ++ rest) =
        Request.ofArguments ((Arguments.none.turnOnAll before).addPaths source destination) rest :=
    Request.ofArguments_file hsource hdestination _
  refine (Request.ofArguments_around hnodup hfile fun _ => rfl).trans ?_
  change (((Arguments.none.turnOnAll before).turnOnAll after).addPaths source
    destination).request = _
  rw [Arguments.turnOnAll_append, Arguments.turnOnAll_none]
  rfl

theorem planned_fst {arguments : List Bytes} (hlone : loneSymbol? arguments = none) :
    (planned arguments).1 = .ofRequest (Request.ofArguments .none arguments) := by
  rw [planned, hlone]
  cases Request.ofArguments .none arguments <;> rfl

theorem run_eq (invocation : Invocation) :
    run invocation = (planEnding invocation (planned invocation.arguments).1).after
      (planned invocation.arguments).2 := rfl

end MangledNames.Command

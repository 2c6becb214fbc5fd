import MangledNames.Proofs.Command.Arguments
import MangledNames.Proofs.Symbol.Options
import MangledNames.Proofs.Text.Ascii

/-!
# All ways to pass a symbol

A symbol is the only argument, or it stands behind `--`, or it stands among switches as a word. The
first of these does not go through the reading of the arguments at all, so that a symbol may begin
with a hyphen there, and the others collect the options one by one. What is answered is the same: the
name that the symbol has with the options that are given, or the text and the exit code for the
reason why it has none (`run_symbol`).
-/

namespace MangledNames.Command

/-- The run prints the name and succeeds, or the text and the exit code tell why there is none. -/
inductive Ending.Answers (ending : Ending) : Except Failure String → Prop where
  | name {name : String} : ending.output = Text.utf8 (name ++ "\n") → ending.status.code = 0 →
      ending.Answers (.ok name)
  | outOfMemory : ending.output = Text.utf8 ("<out of memory>" ++ "\n") →
      ending.status.code = 2 → ending.Answers (.error .outOfMemory)
  | invalidName : ending.output = Text.utf8 ("<invalid name>" ++ "\n") →
      ending.status.code = 3 → ending.Answers (.error .invalidName)
  | invalidArgument : ending.output = Text.utf8 ("<invalid arg>" ++ "\n") →
      ending.status.code = 4 → ending.Answers (.error .invalidArgument)
  | unknown : ending.output = Text.utf8 ("<???>" ++ "\n") →
      ending.status.code = 5 → ending.Answers (.error .unknown)

theorem isWord_utf8 {symbol : String} (hsymbol : symbol.toList.head? ≠ some '-') :
    isWord (Text.utf8 symbol) := by
  have hhead : (Text.utf8 symbol).head? ≠ some hyphen := by
    intro hhead
    obtain ⟨rest, hrest⟩ := List.head?_eq_some_iff.mp hhead
    have hbytes : [hyphen] <+: symbol.toList.flatMap String.utf8EncodeChar := by
      rw [← Text.utf8_eq_flatMap, hrest]
      exact List.prefix_append [hyphen] rest
    have hascii : ∀ byte ∈ [hyphen], byte < 128 := List.forall_mem_singleton.mpr (by decide)
    obtain ⟨chars, hchars⟩ := Text.map_isPrefix_of_utf8 hascii hbytes
    apply hsymbol
    rw [← hchars]
    rfl
  exact decide_eq_true (.inl hhead)

/-- Only a symbol that begins with two hyphens can be taken for an option. -/
theorem loneSymbol?_utf8 {symbol : String} (hsymbol : ¬ "--".toList <+: symbol.toList) :
    loneSymbol? [Text.utf8 symbol] = some symbol := by
  have hprefix : ¬ (Text.utf8 "--").isPrefixOf (Text.utf8 symbol) := by
    intro hprefix
    have hbytes := List.isPrefixOf_iff_prefix.mp hprefix
    rw [Text.utf8_eq_flatMap symbol] at hbytes
    have hascii : ∀ byte ∈ Text.utf8 "--", byte < 128 := by decide +kernel
    exact hsymbol (Text.map_isPrefix_of_utf8 hascii hbytes)
  rw [loneSymbol?, if_neg hprefix, Text.ofUtf8?_utf8]

theorem Arguments.addSymbol?_utf8 {arguments : Arguments} (hnone : arguments.symbol = .none)
    (symbol : String) :
    arguments.addSymbol? (Text.utf8 symbol) = some { arguments with symbol := some symbol } := by
  rw [addSymbol?, hnone, Text.ofUtf8?_utf8]
  rfl

namespace Request

theorem ofArguments_end (arguments : Arguments) (rest : List Bytes) :
    ofArguments arguments (Text.utf8 "--" :: rest) = ofWords arguments rest := by
  rw [ofArguments.eq_def]
  exact if_pos rfl

theorem ofArguments_word {argument : Bytes} (hword : isWord argument) {arguments added : Arguments}
    (hadded : arguments.addSymbol? argument = some added) (rest : List Bytes) :
    ofArguments arguments (argument :: rest) = ofArguments added rest := by
  have hoption : ∀ option ∈ ["--", "--help", "--file"], argument ≠ Text.utf8 option := by
    have hnot : ∀ option ∈ ["--", "--help", "--file"], ¬ isWord (Text.utf8 option) := by
      decide +kernel
    rintro option hmem rfl
    exact hnot option hmem hword
  simp only [List.forall_mem_cons] at hoption
  obtain ⟨hend, hhelp, hfile, -⟩ := hoption
  rw [ofArguments.eq_def]
  simp only [if_neg hend, if_neg hhelp, if_neg hfile, hword, if_true, hadded]

end Request

theorem planned_lone {symbol : String} (hsymbol : ¬ "--".toList <+: symbol.toList) :
    (planned [Text.utf8 symbol]).1 = .symbol symbol .complete := by
  rw [planned, loneSymbol?_utf8 hsymbol]

theorem planned_behind {switches : List Switch} (hnodup : switches.Nodup) (symbol : String) :
    (planned (switches.map Switch.argument ++ [Text.utf8 "--", Text.utf8 symbol])).1 =
      .symbol symbol (Switch.options switches) := by
  have hlone : loneSymbol? (switches.map Switch.argument ++ [Text.utf8 "--", Text.utf8 symbol]) =
      none := by
    rcases switches with - | ⟨first, - | ⟨second, switches⟩⟩ <;> rfl
  rw [planned_fst hlone,
    Request.ofArguments_switches hnodup fun switch _ => Arguments.isOn_none switch,
    Request.ofArguments_end, Arguments.turnOnAll_none, Request.ofWords, Arguments.addSymbol?_utf8 rfl]
  rfl

theorem planned_among {before after : List Switch} (hnodup : (before ++ after).Nodup)
    (hsome : before ++ after ≠ []) {symbol : String} (hsymbol : symbol.toList.head? ≠ some '-') :
    (planned (before.map Switch.argument ++ Text.utf8 symbol :: after.map Switch.argument)).1 =
      .symbol symbol (Switch.options (before ++ after)) := by
  have hlone : loneSymbol?
      (before.map Switch.argument ++ Text.utf8 symbol :: after.map Switch.argument) = none := by
    rcases before with - | ⟨first, before⟩
    · obtain ⟨first, after, rfl⟩ := List.exists_cons_of_ne_nil hsome
      rfl
    · cases before <;> rfl
  have hword : ∀ rest, Request.ofArguments (Arguments.none.turnOnAll before)
      ([Text.utf8 symbol] ++ rest) =
        Request.ofArguments { Arguments.none.turnOnAll before with symbol := some symbol } rest :=
    Request.ofArguments_word (isWord_utf8 hsymbol) (Arguments.addSymbol?_utf8 rfl symbol)
  rw [planned_fst hlone]
  refine (congrArg Plan.ofRequest (Request.ofArguments_around hnodup hword fun _ => rfl)).trans ?_
  change Plan.ofArguments
    { (Arguments.none.turnOnAll before).turnOnAll after with symbol := some symbol } = _
  rw [Arguments.turnOnAll_append, Arguments.turnOnAll_none]
  rfl

theorem answers_of_planned {invocation : Invocation} {symbol : String} {options : Options}
    (hplan : (planned invocation.arguments).1 = .symbol symbol options) :
    (run invocation).Answers (demangle options symbol) := by
  rw [run_eq, hplan, planEnding, symbolEnding]
  cases demangle options symbol with
  | ok name => exact .name rfl rfl
  | error failure =>
      cases failure with
      | outOfMemory => exact .outOfMemory rfl rfl
      | invalidName => exact .invalidName rfl rfl
      | invalidArgument => exact .invalidArgument rfl rfl
      | unknown => exact .unknown rfl rfl

theorem same_of_planned {left right : List Bytes} (hplan : (planned left).1 = (planned right).1)
    (input : Bytes) (files : FileTree) :
    (run ⟨left, input, files⟩).status = (run ⟨right, input, files⟩).status ∧
      (run ⟨left, input, files⟩).output = (run ⟨right, input, files⟩).output := by
  rw [run_eq, run_eq, hplan]
  exact ⟨rfl, rfl⟩

/-- **All ways to pass a symbol agree.** A lone symbol is what it is behind `--`, and among switches
only these decide on the options, wherever they stand. The name is printed, or what stands for it,
and the exit code tells which. -/
theorem run_symbol (symbol : String) (input : Bytes) (files : FileTree) :
    (¬ "--".toList <+: symbol.toList →
      let alone := run ⟨[Text.utf8 symbol], input, files⟩
      let behind := run ⟨[Text.utf8 "--", Text.utf8 symbol], input, files⟩
      alone.status = behind.status ∧ alone.output = behind.output) ∧
    ∀ switches : List Switch, switches.Nodup →
      (run ⟨switches.map Switch.argument ++ [Text.utf8 "--", Text.utf8 symbol], input,
        files⟩).Answers (demangle (Switch.options switches) symbol) ∧
      (symbol.toList.head? ≠ some '-' → switches ≠ [] →
        ∀ before after, switches = before ++ after →
          (run ⟨before.map Switch.argument ++ Text.utf8 symbol :: after.map Switch.argument, input,
            files⟩).Answers (demangle (Switch.options switches) symbol)) := by
  constructor
  · intro hsymbol
    apply same_of_planned
    rw [planned_lone hsymbol]
    exact (planned_behind List.nodup_nil symbol).symm
  · intro switches hnodup
    refine ⟨answers_of_planned (planned_behind hnodup symbol), ?_⟩
    rintro hsymbol hsome before after rfl
    exact answers_of_planned (planned_among hnodup hsome hsymbol)

/-- A symbol that looks like a request for help is a symbol, and has no name; one among switches is
named as these say. -/
theorem run_symbol_like_option :
    let alone := run ⟨[Text.utf8 "-h"], [], ⟨[], []⟩⟩
    let behind := run ⟨[Text.utf8 "--", Text.utf8 "-h"], [], ⟨[], []⟩⟩
    let among := run ⟨["--brackets", "_Z1fi", "--no-params"].map Text.utf8, [], ⟨[], []⟩⟩
    (¬ "--".toList <+: "-h".toList ∧ alone.status = behind.status ∧ alone.output = behind.output) ∧
      (behind.output = Text.utf8 "<invalid name>\n" ∧ behind.status.code = 3) ∧
      "_Z1fi".toList.head? ≠ some '-' ∧ among.Answers (.ok "f") := by
  intro alone behind among
  have hhyphen : ¬ "--".toList <+: "-h".toList := by decide
  have hsymbol : "_Z1fi".toList.head? ≠ some '-' := by decide
  have hbehind := ((run_symbol "-h" [] ⟨[], []⟩).2 [] List.nodup_nil).1
  have hamong := ((run_symbol "_Z1fi" [] ⟨[], []⟩).2 [.brackets, .noParameters] (by decide)).2
    hsymbol (by decide) [.brackets] [.noParameters] rfl
  have hfailure : demangle (Switch.options []) "-h" = .error .invalidName := by decide +kernel
  have hname : demangle (Switch.options [.brackets, .noParameters]) "_Z1fi" = .ok "f" := by
    decide +kernel
  rw [hfailure] at hbehind
  rw [hname] at hamong
  refine ⟨⟨hhyphen, (run_symbol "-h" [] ⟨[], []⟩).1 hhyphen⟩, ?_, hsymbol, hamong⟩
  cases hbehind with
  | invalidName houtput hcode => exact ⟨houtput, hcode⟩

end MangledNames.Command

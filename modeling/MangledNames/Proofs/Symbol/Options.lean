import MangledNames.Symbol.Demangle

/-!
# What the options may change

A symbol is read before the options are looked at, so a symbol that cannot be read fails in the same
way whatever is left out of its name. A name that has been read can only fail to be written, and
that is one kind of failure. So two runs that both fail have failed alike, and the options can at
most decide between a name and `unknown` (`demangle_options`).

They do decide it: a template parameter without an argument is not missed if it stands among
parameters that are left out.
-/

namespace MangledNames

open MangledNames.Symbol

theorem Symbol.Refusal.failure_ne_unknown (refusal : Refusal) : refusal.failure ≠ .unknown := by
  cases refusal <;> decide

/-- The name that is written for a symbol that has been read. -/
theorem demangle_of_parse {symbol : String} (hlinkable : isLinkable symbol)
    {name : MangledName} {table : Table} (hparse : parse symbol.toList = .ok (name, table))
    (options : Options) :
    demangle options symbol =
      match name.text? (surroundings table options) with
      | none => .error .unknown
      | some written => .ok (specialName symbol written) := by
  cases htext : name.text? (surroundings table options) with
  | none => simp only [demangle, if_pos hlinkable, hparse, htext]
  | some written => simp only [demangle, if_pos hlinkable, hparse, htext]

theorem exists_of_demangle {options : Options} {symbol name : String}
    (hname : demangle options symbol = .ok name) :
    isLinkable symbol ∧ ∃ read table written, parse symbol.toList = .ok (read, table) ∧
      read.text? (surroundings table options) = some written ∧
        name = specialName symbol written := by
  unfold demangle at hname
  split at hname
  next hlinkable =>
      split at hname
      next => cases hname
      next read table hparse =>
          split at hname
          next => cases hname
          next written htext =>
              cases hname
              exact ⟨hlinkable, read, table, written, hparse, htext, rfl⟩
  next => cases hname

/-- **The options decide between a name and `unknown`, and nothing else.** -/
theorem demangle_options (symbol : String) :
    (∃ failure, failure ≠ .unknown ∧ ∀ options, demangle options symbol = .error failure) ∨
      ∀ options, (∃ name, demangle options symbol = .ok name) ∨
        demangle options symbol = .error .unknown := by
  by_cases hlinkable : isLinkable symbol
  · cases hparse : parse symbol.toList with
    | error refusal =>
        refine .inl ⟨refusal.failure, refusal.failure_ne_unknown, fun options => ?_⟩
        rw [demangle, if_pos hlinkable, hparse]
    | ok reading =>
        obtain ⟨name, table⟩ := reading
        refine .inr fun options => ?_
        rw [demangle_of_parse hlinkable hparse]
        cases name.text? (surroundings table options) with
        | none => exact .inr rfl
        | some written => exact .inl ⟨_, rfl⟩
  · refine .inl ⟨.invalidArgument, by decide, fun options => ?_⟩
    rw [demangle, if_neg hlinkable]

instance decidableEqExcept {ε α : Type} [DecidableEq ε] [DecidableEq α] : DecidableEq (Except ε α)
  | .ok value, .ok other => decidable_of_iff (value = other) ⟨congrArg Except.ok, Except.ok.inj⟩
  | .error failure, .error other =>
    decidable_of_iff (failure = other) ⟨congrArg Except.error, Except.error.inj⟩
  | .ok _, .error _ => isFalse nofun
  | .error _, .ok _ => isFalse nofun

/-- Without its parameters this function has a name, and with them it has none. -/
theorem demangle_unresolved_parameter :
    demangle ⟨true, false, false⟩ "_Z1fT_" = .ok "f" ∧
      demangle .complete "_Z1fT_" = .error .unknown := by
  decide +kernel

end MangledNames

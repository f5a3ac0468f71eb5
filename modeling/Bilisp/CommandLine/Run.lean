import Bilisp.CommandLine.Arguments
import Bilisp.CommandLine.Disk
import Bilisp.Diagnostic.Excerpt
import Bilisp.Node.Outline
import Bilisp.Settings.Toml
import Bilisp.Source
import Bilisp.Text.Line

/-!
# Running the command line

A run reads a source file and writes its canonical text to a file or to standard output, in one piece and only
if everything went well. The exit code tells a text that cannot be read (1) from forms and nodes without a
counterpart, bad settings and bad arguments (2). Files that cannot be opened or decoded, and faults that are
no diagnostics, end a run without an exit code.
-/

namespace Bilisp

/-- Why a run ends without an exit code. -/
inductive Failure where
  | file (path : FilePath) (fault : FileFault)
  | notUtf8
  | badConfig
  | noLineCount
  | fault (f : Fault)

/-- What a run leaves behind: its exit code, the texts on standard output and standard error, and the file it
wrote. -/
structure Outcome where
  exit : Except Failure Nat
  output : Text
  complaint : Text
  written : Option (FilePath × Text)

namespace Outcome

/-- A run that wrote nothing to standard output or to a file. -/
def silent (exit : Except Failure Nat) (complaint : Text) : Outcome := ⟨exit, [], complaint, none⟩

end Outcome

/-- The characters of a file. -/
def decodeFile (content : ByteArray) : Except Failure Text :=
  match String.fromUTF8? content with
  | some text => .ok text.toList
  | none => .error .notUtf8

/-- The path of the source file. -/
def Arguments.inputPath (arguments : Arguments) : FilePath := .ofText arguments.input

/-- The path of the configuration file: the one that is named, or the one beside the input. -/
def Arguments.configPath (arguments : Arguments) : FilePath :=
  match arguments.config with
  | none | some [] => arguments.inputPath.parent.child "lispsyntax.toml"
  | some name => .ofText name

/-- The path of the file to write, if one is named. -/
def Arguments.outputPath? (arguments : Arguments) : Option FilePath :=
  match arguments.output with
  | none | some [] => none
  | some name => some (.ofText name)

/-- The configuration that applies to a run. A file that is not there sets nothing, but its name has to be
short enough to look for it. -/
def loadConfig (disk : Disk) (arguments : Arguments) : Except Failure Config :=
  match disk.read arguments.configPath with
  | .error .nameTooLong => .error (.file arguments.configPath .nameTooLong)
  | .error _ => .ok []
  | .ok content => do
    match Toml.read? (← decodeFile content) with
    | some config => return config
    | none => throw .badConfig

/-- The settings of a run. Arguments come before the configuration, and a number that was taken away leaves
nothing to go by. -/
def Arguments.settings (arguments : Arguments) (config : Config) : Except Failure Settings :=
  let configured := Settings.ofConfig config
  let topLevel := configured.topLevel && !arguments.nested
  match arguments.blankLines with
  | .unsaid => .ok ⟨topLevel, configured.blankLines⟩
  | .given count => .ok ⟨topLevel, count⟩
  | .withdrawn => .error .noLineCount

/-- The text of a source file. -/
def loadSource (disk : Disk) (path : FilePath) : Except Failure Text :=
  match disk.read path with
  | .error fault => .error (.file path fault)
  | .ok content => (decodeFile content).map Text.unifyLineEnds

/-- How a run ends that meets a fault: a diagnostic is shown with its source, and any other fault is passed
on. -/
def faultOutcome (path : FilePath) (source complaint : Text) : Fault → Outcome
  | .diagnostic d =>
    .silent (.ok (if d.cause.isReading then 1 else 2))
      (complaint ++ d.display source path.text ++ "\n")
  | fault => .silent (.error (.fault fault)) complaint

/-- Puts the result of a run where it belongs. -/
def deliver (disk : Disk) (arguments : Arguments) (complaint text : Text) : Outcome :=
  if arguments.check then .silent (.ok 0) complaint
  else
    match arguments.outputPath? with
    | none => ⟨.ok 0, text, complaint, none⟩
    | some path =>
      match disk.writable path with
      | .error fault => .silent (.error (.file path fault)) complaint
      | .ok place => ⟨.ok 0, [], complaint, some (place, text)⟩

/-- Writes the canonical text of a source where it belongs. -/
def runSource (disk : Disk) (arguments : Arguments) (settings : Settings) (source : Text) : Outcome :=
  match program source with
  | .error fault => faultOutcome arguments.inputPath source [] fault
  | .ok nodes =>
    let complaint := if arguments.debug then Node.outlineAll 0 nodes else []
    match programText settings.topLevel settings.blankLines nodes with
    | .error fault => faultOutcome arguments.inputPath source complaint fault
    | .ok text => deliver disk arguments complaint (if text.isEmpty then [] else text ++ "\n")

/-- Runs with given arguments. -/
def runArguments (disk : Disk) (arguments : Arguments) : Outcome :=
  match loadConfig disk arguments >>= arguments.settings with
  | .error failure => .silent (.error failure) []
  | .ok settings =>
    if settings.blankLines < 0 then
      .silent (.ok 2) ("error: blank lines must be non-negative: " ++ intText settings.blankLines ++ "\n")
    else
      match loadSource disk arguments.inputPath with
      | .error failure => .silent (.error failure) []
      | .ok source => runSource disk arguments settings source

/-- Runs a command line. -/
def runCommand (disk : Disk) (words : List Text) : Outcome :=
  match readArguments words with
  | .error e => .silent (.ok 2) (usageText ++ "lispsyntax: error: " ++ e.message ++ "\n")
  | .ok .help => ⟨.ok 0, helpText, [], none⟩
  | .ok (.run arguments) => runArguments disk arguments

end Bilisp

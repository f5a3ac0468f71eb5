import Bilisp.CommandLine.Run

/-!
# The program

Fetches the files that the arguments name, runs the command line on them, and puts the outcome where it
belongs.
-/

namespace Bilisp

/-- The text of a failure that ends the program. -/
def Failure.message : Failure → Text
  | .file path problem => problem.message path
  | .notUtf8 => "the file is not encoded in UTF-8"
  | .badConfig => "the configuration file is malformed"
  | .noLineCount => "the number of blank lines is missing"
  | .fault .pastEnd => "string index out of range"
  | .fault (.literal e) => e.message
  | .fault (.diagnostic d) => d.headline

/-- Adds a file to a disk if it can be read. -/
def fetchFile (disk : Disk) (path : FilePath) : IO Disk := do
  try
    return disk.addFile path (← IO.FS.readBinFile (String.ofList path.text))
  catch _ => return disk

/-- The files and directories that arguments name. -/
def fetch (arguments : Arguments) : IO Disk := do
  let disk ← fetchFile (← fetchFile .empty arguments.inputPath) arguments.configPath
  match arguments.outputPath? with
  | some path => return disk.addDirectory path.parent
  | none => return disk

/-- Fetches what a command line needs, and runs it. -/
def perform (words : List Text) : IO UInt32 := do
  let disk ←
    match readArguments words with
    | .ok (.run arguments) => fetch arguments
    | _ => pure .empty
  let outcome := runCommand disk words
  (← IO.getStderr).putStr (String.ofList outcome.complaint)
  (← IO.getStdout).putStr (String.ofList outcome.output)
  if let some (path, text) := outcome.written then
    IO.FS.writeFile (String.ofList path.text) (String.ofList text)
  match outcome.exit with
  | .ok code => return code.toUInt32
  | .error failure => throw (IO.userError (String.ofList failure.message))

end Bilisp

def main (args : List String) : IO UInt32 := Bilisp.perform (args.map String.toList)

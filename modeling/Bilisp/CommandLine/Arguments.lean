import Bilisp.Number.Integer
import Bilisp.Text.Quoted

/-!
# Command line arguments

Options may stand anywhere among the arguments, be shortened as long as they stay unique, and carry their
value behind an equals sign, directly behind a single letter, or as the next argument. After `--` nothing is
an option; attached to an option, it takes the value of the option away. The last of repeated options counts.
-/

namespace Bilisp

/-- The options. -/
inductive Switch where
  | help
  | output
  | config
  | nested
  | blankLines
  | check
  | debug
deriving Repr, DecidableEq

/-- The spellings of options. -/
def switches : List (Text × Switch) :=
  [("-h", .help), ("--help", .help), ("-o", .output), ("--output", .output), ("--config", .config),
   ("--nested", .nested), ("--blank-lines", .blankLines), ("--check", .check), ("--debug", .debug)]

/-- Whether an option has a value. -/
def Switch.takesValue : Switch → Bool
  | .output | .config | .blankLines => true
  | .help | .nested | .check | .debug => false

/-- The spellings of one option, as messages name it. -/
def Switch.title (switch : Switch) : Text :=
  Text.join "/" ((switches.filter fun entry => entry.2 = switch).map Prod.fst)

/-- What is wrong with the arguments. -/
inductive UsageError where
  | ambiguous (word : Text) (spellings : List Text)
  | missingValue (switch : Switch)
  | superfluousValue (switch : Switch) (value : Text)
  | noInteger (switch : Switch) (value : Text)
  | missingInput
  | unrecognized (words : List Text)
deriving Repr, DecidableEq

/-- The sentence that tells what is wrong with the arguments. -/
def UsageError.message : UsageError → Text
  | .ambiguous word spellings =>
    "ambiguous option: " ++ word ++ " could match " ++ Text.join ", " spellings
  | .missingValue switch => "argument " ++ switch.title ++ ": expected one argument"
  | .superfluousValue switch value =>
    "argument " ++ switch.title ++ ": ignored explicit argument " ++ value.quoted
  | .noInteger switch value =>
    "argument " ++ switch.title ++ ": invalid int value: " ++ value.quoted
  | .missingInput => "the following arguments are required: input"
  | .unrecognized words => "unrecognized arguments: " ++ Text.join " " words

/-- The blank lines that arguments ask for: nothing is said, a number is given, or the number was taken
away. -/
inductive LineCount where
  | unsaid
  | given (count : Int)
  | withdrawn
deriving Repr, DecidableEq

/-- What the arguments ask for. -/
structure Arguments where
  input : Text
  output : Option Text
  config : Option Text
  nested : Bool
  blankLines : LineCount
  check : Bool
  debug : Bool
deriving Repr, DecidableEq

/-! ## Kinds of words -/

/-- A value attached to an option: behind the equals sign of a long option, or behind the letter of a short
one, with or without an equals sign. -/
inductive Attached where
  | long (value : Text)
  | short (value : Text)
deriving Repr, DecidableEq

/-- The text of an attached value. -/
def Attached.value : Attached → Text
  | .long value | .short value => value

/-- What a word on the command line is. -/
inductive Word where
  | plain
  | separator
  | unknown
  | option (switch : Switch) (value : Option Attached)
deriving Repr, DecidableEq

/-- The part of a word in front of the first equals sign and, if there is one, the part behind it. -/
def splitEquals (word : Text) : Text × Option Text :=
  match word.dropWhile (· != '=') with
  | _ :: value => (word.takeWhile (· != '='), some value)
  | [] => (word, none)

/-- Whether a word looks like a negative number. -/
def looksNegative (word : Text) : Bool :=
  match word with
  | '-' :: rest =>
    let digits := if rest.getLast? = some '\n' then rest.dropLast else rest
    let fraction := digits.dropWhile isDecimal
    (!digits.isEmpty && fraction.isEmpty) ||
      (fraction.head? = some '.' && !fraction.tail.isEmpty && fraction.tail.all isDecimal)
  | _ => false

/-- The options that a word can stand for. A word with two hyphens stands for every option that it begins, a
word with one hyphen for the letter behind it. -/
def candidates (word : Text) : List (Text × Switch × Option Attached) :=
  match word with
  | '-' :: '-' :: _ =>
    let (lead, value) := splitEquals word
    (switches.filter fun entry => lead.isPrefixOf entry.1).map fun (spelling, switch) =>
      (spelling, switch, value.map Attached.long)
  | _ =>
    (switches.filter fun entry => entry.1 = word.take 2).map fun (spelling, switch) =>
      (spelling, switch, some (.short (word.drop 2)))

/-- What a word is that is not behind `--`. -/
def classify (word : Text) : Except UsageError Word :=
  match word with
  | '-' :: second :: _ =>
    let (lead, value) := splitEquals word
    let attached := if second = '-' then Attached.long else Attached.short
    match Text.assoc? switches word, Text.assoc? switches lead with
    | some switch, _ => .ok (.option switch none)
    | none, some switch => .ok (.option switch (value.map attached))
    | none, none =>
      match candidates word with
      | [(_, switch, value)] => .ok (.option switch value)
      | [] => .ok (if looksNegative word || word.contains ' ' then .plain else .unknown)
      | several => .error (.ambiguous word (several.map Prod.fst))
  | _ => .ok .plain

/-- The words with what they are. -/
def classifyAll : List Text → Except UsageError (List (Text × Word))
  | [] => return []
  | word :: rest =>
    if word = "--".toList then return (word, .separator) :: rest.map fun w => (w, .plain)
    else return (word, ← classify word) :: (← classifyAll rest)

/-! ## Taking words in -/

/-- What was read so far. The input may not be known yet, an option may await its value, and words may be left
over. -/
structure Reading where
  input : Option Text
  settings : Arguments
  awaiting : Option Switch
  afterInput : Bool
  leftOver : List Text
deriving Repr, DecidableEq

/-- Nothing was read. -/
def Reading.start : Reading := ⟨none, ⟨[], none, none, false, .unsaid, false, false⟩, none, false, []⟩

/-- What a value says about blank lines: `--` withdraws the number, and all else has to be an integer. -/
def readLineCount (value : Text) : Except UsageError LineCount :=
  if value = "--".toList then .ok .withdrawn
  else
    match readInteger? 10 value with
    | some n => .ok (.given n)
    | none => .error (.noInteger .blankLines value)

/-- Takes in an option with its value, if it has one. The value `--` counts as none. -/
def Reading.set (r : Reading) (switch : Switch) (value : Text) : Except UsageError Reading :=
  let change (settings : Arguments) : Except UsageError Reading := .ok { r with settings }
  let kept := if value = "--".toList then none else some value
  match switch with
  | .help => .ok r
  | .output => change { r.settings with output := kept }
  | .config => change { r.settings with config := kept }
  | .nested => change { r.settings with nested := true }
  | .blankLines => do change { r.settings with blankLines := ← readLineCount value }
  | .check => change { r.settings with check := true }
  | .debug => change { r.settings with debug := true }

/-- Checks the letters behind the letter of the help option, which are short options too. -/
def checkLetters (nextIsPlain : Bool) : Text → Except UsageError Unit
  | [] => .ok ()
  | 'h' :: rest => checkLetters nextIsPlain rest
  | ['o'] => if nextIsPlain then .ok () else .error (.missingValue .output)
  | 'o' :: _ => .ok ()
  | letters => .error (.superfluousValue .help letters)

/-- What the arguments come to: a request for help, or settings. -/
inductive Request where
  | help
  | run (arguments : Arguments)
deriving Repr, DecidableEq

/-- The settings at the end of the words. -/
def Reading.finish (r : Reading) : Except UsageError Request :=
  match r.input with
  | none => .error .missingInput
  | some input =>
    if r.leftOver.isEmpty then .ok (.run { r.settings with input })
    else .error (.unrecognized r.leftOver)

/-- Whether the next word is plain. -/
def nextIsPlain : List (Text × Word) → Bool
  | (_, .plain) :: _ => true
  | _ => false

/-- A word that has no use. -/
def Reading.leave (r : Reading) (word : Text) : Reading := { r with leftOver := r.leftOver ++ [word] }

/-- Takes in words from left to right. The separator next to the input goes with it, and help comes before
everything behind it. -/
def Reading.take (r : Reading) : List (Text × Word) → Except UsageError Request
  | [] =>
    match r.awaiting with
    | some switch => .error (.missingValue switch)
    | none => r.finish
  | (word, kind) :: rest =>
    let next := { r with awaiting := none, afterInput := false }
    match r.awaiting, kind with
    | some switch, .plain => do Reading.take (← next.set switch word) rest
    | some switch, _ => .error (.missingValue switch)
    | none, .plain =>
      if r.input.isSome then Reading.take (next.leave word) rest
      else Reading.take { next with input := some word, afterInput := true } rest
    | none, .separator =>
      if r.input.isNone || r.afterInput then Reading.take next rest else Reading.take (next.leave word) rest
    | none, .unknown => Reading.take (next.leave word) rest
    | none, .option switch (some attached) =>
      if switch.takesValue then do Reading.take (← next.set switch attached.value) rest
      else
        match attached with
        | .short (letter :: letters) => do
          checkLetters (nextIsPlain rest) (letter :: letters)
          return .help
        | _ => .error (.superfluousValue switch attached.value)
    | none, .option switch none =>
      if switch.takesValue then Reading.take { next with awaiting := some switch } rest
      else if switch = .help then .ok .help
      else do Reading.take (← next.set switch []) rest

/-- What the words of a command line ask for. -/
def readArguments (words : List Text) : Except UsageError Request := do
  Reading.start.take (← classifyAll words)

/-! ## Texts for people -/

/-- How the program is called. -/
def usageText : Text :=
  "usage: lispsyntax [-h] [-o OUTPUT] [--config FILE] [--nested]\n" ++
  "                  [--blank-lines N] [--check] [--debug]\n" ++
  "                  input\n"

/-- What the program and its options do. -/
def helpText : Text :=
  usageText ++
  "\n" ++
  "Translate S-expression source to host AST and back\n" ++
  "\n" ++
  "positional arguments:\n" ++
  "  input                 Input .clj file\n" ++
  "\n" ++
  "options:\n" ++
  "  -h, --help            show this help message and exit\n" ++
  "  -o OUTPUT, --output OUTPUT\n" ++
  "                        Output file (default: stdout)\n" ++
  "  --config FILE         Config file (default: auto-discover lispsyntax.toml)\n" ++
  "  --nested              Render forms as nested rather than top-level (fn\n" ++
  "                        instead of defn)\n" ++
  "  --blank-lines N       Blank lines between rendered forms (default: 0)\n" ++
  "  --check               Only check that the input translates\n" ++
  "  --debug               Dump host AST to stderr\n"

end Bilisp

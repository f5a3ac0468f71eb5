import Bilisp.Text.Basic

/-!
# Settings

Settings are read from the table `format` of a configuration. A value of another type than expected does not
count.
-/

namespace Bilisp

/-- A value of a configuration; values that no setting can take are not told apart. -/
inductive ConfigValue where
  | boolean (value : Bool)
  | integer (value : Int)
  | string (value : Text)
  | table (entries : List (Text × ConfigValue))
  | other

/-- The entries of a configuration. -/
abbrev Config := List (Text × ConfigValue)

/-- How programs are written. -/
structure Settings where
  topLevel : Bool
  blankLines : Int
deriving Repr, DecidableEq

namespace Settings

/-- Forms as at top level, without blank lines between them. -/
def standard : Settings := ⟨true, 0⟩

/-- The settings of a configuration. -/
def ofConfig (config : Config) : Settings :=
  match Text.assoc? config "format" with
  | some (.table entries) =>
    { topLevel :=
        match Text.assoc? entries "top_level" with
        | some (.boolean value) => value
        | _ => standard.topLevel
      blankLines :=
        match Text.assoc? entries "blank_lines" with
        | some (.integer value) => value
        | _ => standard.blankLines }
  | _ => standard

end Settings

end Bilisp

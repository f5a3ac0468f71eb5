/-!
# Text as a list of characters

Everything the library reads and writes is a list of characters: scanners and printers recurse on it, and
a position in a text is a count of characters. String literals stand for their characters.
-/

namespace Bilisp

/-- A text is the list of its characters. -/
abbrev Text := List Char

instance : Coe String Text := ⟨String.toList⟩

namespace Text

/-- The texts in order, with the separator between neighbours. -/
def join (separator : Text) (texts : List Text) : Text :=
  List.intercalate separator texts

/-- How many bytes a text takes in UTF-8. -/
def byteCount (t : Text) : Nat := t.foldl (fun count c => count + c.utf8Size) 0

/-- The value that a list of pairs gives to a text. -/
def assoc? {α : Type} (table : List (Text × α)) (key : Text) : Option α :=
  (table.find? fun entry => entry.1 == key).map Prod.snd

end Text

end Bilisp

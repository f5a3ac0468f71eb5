import Bilisp.Symbol.Grammar

/-!
# Host names of symbols

The host writes names with letters, digits and underscores. A symbol becomes a host name by writing a hyphen
as an underscore and other marks as codes between underscores; an operator keeps its spelling, and so does an
`@` in front. A host name becomes a symbol by the reverse steps, unless the symbol would be read as something
else or would give another host name: then the host name stands for itself.
-/

namespace Bilisp

/-- The marks that host names cannot hold, with their codes. -/
def hostCodes : List (Char × Text) :=
  [('?', "_QMARK_"), ('!', "_BANG_"), ('*', "_STAR_"), ('+', "_PLUS_"), ('<', "_LT_"), ('>', "_GT_"),
   ('=', "_EQ_"), ('\'', "_PRIME_"), ('&', "_AMP_"), ('%', "_PCT_"), ('$', "_DOLLAR_"), ('#', "_HASH_"),
   ('|', "_BAR_"), ('^', "_CARET_"), ('~', "_TILDE_"), ('@', "_AT_")]

/-- A character of a symbol in a host name. -/
def hostChar (c : Char) : Text :=
  if c = '-' then ['_']
  else
    match hostCodes.find? fun entry => entry.1 == c with
    | some (_, code) => code
    | none => [c]

/-- Splits off an `@` in front of a name. -/
def takeAt : Text → Text × Text
  | '@' :: rest => (['@'], rest)
  | rest => ([], rest)

/-- The host name of a symbol. -/
def escapeSymbol (name : Text) : Text :=
  if isOperator name then name
  else
    let (lead, rest) := takeAt name
    lead ++ rest.flatMap hostChar

/-- What is behind `lead` in a text that begins with it. -/
def dropLead? : (lead text : Text) → Option Text
  | [], text => some text
  | _ :: _, [] => none
  | a :: lead, b :: text => if a = b then dropLead? lead text else none

/-- The mark whose code a text begins with, and what follows the code. -/
def takeCode? (t : Text) : Option (Char × Text) :=
  hostCodes.findSome? fun entry => (dropLead? entry.2 t).map fun rest => (entry.1, rest)

theorem length_of_dropLead? {lead t rest : Text} (h : dropLead? lead t = some rest) :
    rest.length + lead.length = t.length := by
  induction lead generalizing t with
  | nil => simp_all [dropLead?]
  | cons a lead ih =>
    cases t with
    | nil => simp [dropLead?] at h
    | cons b t =>
      simp only [dropLead?] at h
      split at h
      · simp only [List.length_cons, ← ih h]; omega
      · simp at h

theorem length_lt_of_takeCode? {t rest : Text} {c : Char} (h : takeCode? t = some (c, rest)) :
    rest.length < t.length := by
  obtain ⟨entry, hentry, hdrop⟩ := List.exists_of_findSome?_eq_some h
  obtain ⟨r, hr, heq⟩ := Option.map_eq_some_iff.1 hdrop
  obtain ⟨-, rfl⟩ := Prod.mk.inj heq
  have hlen := length_of_dropLead? hr
  have hcode : ∀ entry ∈ hostCodes, 0 < entry.2.length := by decide
  have := hcode entry hentry
  omega

/-- The symbol that the characters of a host name spell, an underscore without a code as a hyphen. -/
def decodeHost (t : Text) : Text :=
  match t with
  | [] => []
  | c :: rest =>
    if c = '_' then
      match h : takeCode? (c :: rest) with
      | some (mark, behind) =>
        have := length_lt_of_takeCode? h
        mark :: decodeHost behind
      | none => '-' :: decodeHost rest
    else c :: decodeHost rest
termination_by t.length
decreasing_by
  · exact this
  · exact Nat.lt_succ_self _
  · exact Nat.lt_succ_self _

/-- Whether a text begins with a sign and a decimal digit. -/
def startsSigned : Text → Bool
  | s :: d :: _ => (s = '+' || s = '-') && isDecimal d
  | _ => false

/-- Whether a text is read as one plain symbol of the given host name. -/
def spells (symbol host : Text) : Bool :=
  isSegment symbol && !startsSigned symbol && escapeSymbol symbol == host

/-- The symbol of a host name. -/
def unescapeSymbol (host : Text) : Text :=
  if isOperator host then host
  else
    let (lead, rest) := takeAt host
    let symbol := lead ++ decodeHost rest
    if spells symbol host then symbol else host

end Bilisp

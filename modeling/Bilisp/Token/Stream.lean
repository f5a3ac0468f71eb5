import Bilisp.Feed
import Bilisp.Token.Scan

/-!
# The tokens of a source

Between tokens a source may hold blanks, commas and comments, which run from a semicolon to the end of the
line. The tokens follow each other without overlap up to the end of the source or the first fault.
-/

namespace Bilisp

/-- The tokens of a text and the position of its end. -/
abbrev Tokens := Feed Token Position

/-- Splits off what may stand in front of a token, from inside or outside a comment. -/
def splitIgnored : (inComment : Bool) → Text → Text × Text
  | _, [] => ([], [])
  | true, c :: rest =>
    let (ignored, behind) := splitIgnored (c != '\n') rest
    (c :: ignored, behind)
  | false, c :: rest =>
    if isSeparator c then
      let (ignored, behind) := splitIgnored false rest
      (c :: ignored, behind)
    else if c = ';' then
      let (ignored, behind) := splitIgnored true rest
      (c :: ignored, behind)
    else ([], c :: rest)

theorem splitIgnored_append (inComment : Bool) (t : Text) :
    (splitIgnored inComment t).1 ++ (splitIgnored inComment t).2 = t := by
  fun_induction splitIgnored inComment t <;> simp_all

/-- The tokens of a text that begins at a position. -/
def tokensFrom (start : Position) (t : Text) : Tokens :=
  let begin := start.after (splitIgnored false t).1
  match h : (splitIgnored false t).2 with
  | [] => .done begin
  | c :: rest =>
    match hscan : scanToken c rest with
    | .token lexeme raw behind =>
      let span := begin.span raw
      have : behind.length < t.length := by
        have hsplit := congrArg List.length (splitIgnored_append false t)
        have htoken := congrArg List.length (scanToken_split hscan).1
        have hraw := (scanToken_split hscan).2
        simp only [h, List.length_append, List.length_cons] at hsplit htoken
        omega
      .next ⟨lexeme, raw, span⟩ (tokensFrom span.stop behind)
    | .rejected lead flagged cause => .failed (.located cause ((begin.after lead).span flagged))
    | .pastEnd => .failed .pastEnd
termination_by t.length

/-- The tokens of a source. -/
def tokens (source : Text) : Tokens := tokensFrom .origin source

end Bilisp

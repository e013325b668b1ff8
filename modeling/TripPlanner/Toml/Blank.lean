/-!
# Blanks of a TOML text

What stands between the words of a TOML text: spaces, comments and ends of lines. A comment with a
control character is none, and a carriage return ends a line only together with a line feed; both
are left standing, and nothing else begins like that.
-/

namespace TripPlanner

namespace Toml

/-- The text that is left to read. -/
abbrev Rest := List Char

/-- Whether a character separates words on a line. -/
def isSpace (c : Char) : Bool := c = ' ' || c = '\t'

/-- Whether a character may stand in comments and strings: all but the control characters. -/
def isPlain (c : Char) : Bool := c = '\t' || (' ' ≤ c && c.toNat != 0x7F)

/-- Passes over spaces. -/
def skipSpace (cs : Rest) : Rest := cs.dropWhile isSpace

/-- Passes over the rest of a line, if that is a comment. -/
def skipComment : Rest → Rest
  | '#' :: cs =>
    let body := cs.takeWhile fun c => c != '\n' && c != '\r'
    if body.all isPlain then cs.drop body.length else '#' :: cs
  | cs => cs

/-- Passes over the end of a line. -/
def skipNewline? : Rest → Option Rest
  | '\n' :: cs => some cs
  | '\r' :: '\n' :: cs => some cs
  | _ => none

/-- Passes over spaces and ends of lines. -/
def skipBreaks : Rest → Rest
  | [] => []
  | '\r' :: '\n' :: cs => skipBreaks cs
  | c :: cs => if isSpace c || c = '\n' then skipBreaks cs else c :: cs

/-- Passes over spaces, comments and ends of lines, as many lines as told. -/
def skipLinesUpTo : Nat → Rest → Rest
  | 0, cs => cs
  | lines + 1, cs =>
    let cs := skipComment (skipSpace cs)
    match skipNewline? cs with
    | none => cs
    | some cs => skipLinesUpTo lines cs

/-- Passes over spaces, comments and ends of lines. -/
def skipLines (cs : Rest) : Rest := skipLinesUpTo (cs.length + 1) cs

/-- Passes over spaces and a comment up to the end of the line or text. -/
def endLine? (cs : Rest) : Option Rest :=
  match skipComment (skipSpace cs) with
  | [] => some []
  | cs => skipNewline? cs

end Toml

end TripPlanner

import TripPlanner.Text.Digits
import TripPlanner.Toml.Blank

/-!
# Strings of a TOML text

Strings in double quotes, with escapes, and in single ones, without. Three quotes open a string of
several lines: a line end right behind them does not count, and up to two quotes right before the
three closing ones belong to the string.
-/

namespace TripPlanner

namespace Toml

/-- Takes a character by its code point in `width` hexadecimal digits. -/
def codePoint? (width : Nat) (cs : Rest) : Option (Char × Rest) := do
  let digits := cs.take width
  if digits.length < width then none
  else
    let n ← Text.ofHex? digits
    if n.isValidChar then some (Char.ofNat n, cs.drop width) else none

/-- The character that a backslash and a letter stand for. -/
def escapedLetter? : Char → Option Char
  | 'b' => some '\x08'
  | 't' => some '\t'
  | 'n' => some '\n'
  | 'f' => some '\x0c'
  | 'r' => some '\r'
  | 'e' => some '\x1b'
  | '"' => some '"'
  | '\\' => some '\\'
  | _ => none

/-- Takes a character that is written with a backslash, from behind that. -/
def escaped? : Rest → Option (Char × Rest)
  | [] => none
  | 'x' :: cs => codePoint? 2 cs
  | 'u' :: cs => codePoint? 4 cs
  | 'U' :: cs => codePoint? 8 cs
  | c :: cs => (escapedLetter? c).map (·, cs)

/-- Takes one character of a string in the given quotes. -/
def character? (quote : Char) : Rest → Option (Char × Rest)
  | [] => none
  | c :: cs =>
    if c = '\\' ∧ quote = '"' then escaped? cs
    else if isPlain c then some (c, cs)
    else none

/-- Takes a string on one line from behind its opening quote. -/
def line? (quote : Char) : Nat → Rest → Option (List Char × Rest)
  | 0, _ => none
  | fuel + 1, cs =>
    if cs.head? = some quote then some ([], cs.drop 1)
    else do
      let (c, cs) ← character? quote cs
      let (body, cs) ← line? quote fuel cs
      return (c :: body, cs)

/-- Passes over a backslash at the end of a line together with the blanks up to the next word. -/
def skipContinuation? : Rest → Option Rest
  | '\\' :: cs => (skipNewline? (skipSpace cs)).map skipBreaks
  | _ => none

/-- Takes a string of several lines from behind its opening quotes. -/
def lines? (quote : Char) : Nat → Rest → Option (List Char × Rest)
  | 0, _ => none
  | fuel + 1, cs =>
    if cs.take 3 = [quote, quote, quote] then
      let more := (cs.drop 3).takeWhile (· = quote)
      some (more.take 2, cs.drop (3 + min more.length 2))
    else
      match (if quote = '"' then skipContinuation? cs else none), cs with
      | some cs, _ => lines? quote fuel cs
      | none, '\n' :: cs => do
        let (body, cs) ← lines? quote fuel cs
        return ('\n' :: body, cs)
      | none, '\r' :: '\n' :: cs => do
        let (body, cs) ← lines? quote fuel cs
        return ('\r' :: '\n' :: body, cs)
      | none, cs => do
        let (c, cs) ← character? quote cs
        let (body, cs) ← lines? quote fuel cs
        return (c :: body, cs)

/-- Takes a string on one line. -/
def simpleString? : Rest → Option (String × Rest)
  | [] => none
  | quote :: cs =>
    if quote = '"' ∨ quote = '\'' then
      (line? quote (cs.length + 1) cs).map fun (body, cs) => (String.ofList body, cs)
    else none

/-- Takes a string. -/
def string? (cs : Rest) : Option (String × Rest) :=
  match cs with
  | a :: b :: c :: rest =>
    if a = b ∧ b = c ∧ (a = '"' ∨ a = '\'') then
      let rest := (skipNewline? rest).getD rest
      (lines? a (rest.length + 1) rest).map fun (body, cs) => (String.ofList body, cs)
    else simpleString? cs
  | cs => simpleString? cs

end Toml

end TripPlanner

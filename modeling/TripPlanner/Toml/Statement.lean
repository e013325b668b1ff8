import TripPlanner.Toml.Quoted
import TripPlanner.Toml.Scalar
import TripPlanner.Toml.Table

/-!
# Statements of a TOML text

A TOML text is a list of statements: table headers and assignments. Keys may be bare, quoted and
dotted. Arrays and inline tables may be spread over lines, with comments, and may have a comma
behind their last item. Keys are not longer and values not deeper than `maxDepth`.
-/

namespace TripPlanner

namespace Toml

/-- The most parts of a key, and the most arrays and inline tables inside each other. -/
def maxDepth : Nat := 80

/-- A line that says something. -/
inductive Statement where
  /-- The header of a table. -/
  | table (path : List String)
  /-- The header of one more element of an array of tables. -/
  | element (path : List String)
  /-- A value for a key of the current table. -/
  | assign (path : List String) (value : Value)

/-! ## Keys -/

/-- Whether a character may stand in a bare key. -/
def isBare (c : Char) : Bool := c.isAlphanum || c = '_' || c = '-'

/-- Takes one part of a key. -/
def simpleKey? (cs : Rest) : Option (String × Rest) :=
  let body := cs.takeWhile isBare
  if body.isEmpty then simpleString? cs else some (String.ofList body, cs.drop body.length)

/-- Takes a key with at most so many parts between dots, and the spaces around them. -/
def key? : Nat → Rest → Option (List String × Rest)
  | 0, _ => none
  | parts + 1, cs => do
    let (name, cs) ← simpleKey? (skipSpace cs)
    match skipSpace cs with
    | '.' :: cs =>
      let (names, cs) ← key? parts cs
      return (name :: names, cs)
    | cs => return ([name], cs)

/-! ## Values -/

mutual

/-- Takes a value with at most `depth` arrays and inline tables inside each other. -/
def value? (depth : Nat) : Nat → Rest → Option (Value × Rest)
  | 0, _ => none
  | fuel + 1, cs =>
    match cs, depth with
    | '[' :: cs, depth + 1 => (items? depth fuel cs).map fun (items, cs) => (.list items, cs)
    | '{' :: cs, depth + 1 => do
      let (assignments, cs) ← fields? depth fuel cs
      return (← record? assignments, cs)
    | cs, _ =>
      match string? cs with
      | some (s, cs) => some (.text s, cs)
      | none => scalar? cs

/-- Takes the items of an array up to its closing bracket. -/
def items? (depth : Nat) : Nat → Rest → Option (List Value × Rest)
  | 0, _ => none
  | fuel + 1, cs =>
    match skipLines cs with
    | ']' :: cs => some ([], cs)
    | cs => do
      let (item, cs) ← value? depth fuel cs
      match skipLines cs with
      | ',' :: cs =>
        let (items, cs) ← items? depth fuel cs
        return (item :: items, cs)
      | ']' :: cs => return ([item], cs)
      | _ => none

/-- Takes the assignments of an inline table up to its closing brace. -/
def fields? (depth : Nat) : Nat → Rest → Option (List (List String × Value) × Rest)
  | 0, _ => none
  | fuel + 1, cs =>
    match skipLines cs with
    | '}' :: cs => some ([], cs)
    | cs => do
      let (path, cs) ← key? maxDepth cs
      match skipLines cs with
      | '=' :: cs =>
        let (v, cs) ← value? depth fuel (skipLines cs)
        match skipLines cs with
        | ',' :: cs =>
          let (fields, cs) ← fields? depth fuel cs
          return ((path, v) :: fields, cs)
        | '}' :: cs => return ([(path, v)], cs)
        | _ => none
      | _ => none

end

/-! ## Lines -/

/-- Takes a header between brackets, the first bracket being read. -/
def header? (cs : Rest) : Option (Statement × Rest) :=
  match cs with
  | '[' :: cs => do
    let (path, cs) ← key? maxDepth cs
    match cs with
    | ']' :: ']' :: cs => return (.element path, cs)
    | _ => none
  | cs => do
    let (path, cs) ← key? maxDepth cs
    match cs with
    | ']' :: cs => return (.table path, cs)
    | _ => none

/-- Takes an assignment. -/
def assignment? (cs : Rest) : Option (Statement × Rest) := do
  let (path, cs) ← key? maxDepth cs
  match cs with
  | '=' :: cs =>
    let cs := skipSpace cs
    let (v, cs) ← value? maxDepth (2 * cs.length + 1) cs
    return (.assign path v, cs)
  | _ => none

/-- Takes all statements of a text. Every statement stands on a line of its own. -/
def statements? : Nat → Rest → Option (List Statement)
  | 0, _ => none
  | fuel + 1, cs =>
    match skipLines cs with
    | [] => some []
    | cs => do
      let (statement, cs) ← match cs with
        | '[' :: cs => header? cs
        | cs => assignment? cs
      let cs ← endLine? cs
      return statement :: (← statements? fuel cs)

end Toml

end TripPlanner

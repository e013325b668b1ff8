import TripPlanner.Toml.Statement

/-!
# TOML texts

The record that a TOML text stands for: its statements, carried out one after another.
-/

namespace TripPlanner

namespace Toml

/-- A document under construction. -/
structure Document where
  /-- What it says so far. -/
  entries : Entries
  /-- The path of the table that assignments speak of. -/
  current : List String

/-- Carries out a statement. -/
def Document.add (document : Document) : Statement → Option Document
  | .table path => (document.entries.openTable path).map (⟨·, path⟩)
  | .element path => (document.entries.addElement path).map (⟨·, path⟩)
  | .assign path v =>
    (document.entries.within false (fun _ inner => inner.assign path v) document.current
      .opened).map (⟨·, document.current⟩)

/-- The record that a text stands for. A byte order mark in front of it does not count. -/
def read? (text : String) : Option Value := do
  let cs := match text.toList with
    | '\uFEFF' :: cs => cs
    | cs => cs
  let document ← (← statements? (cs.length + 1) cs).foldlM Document.add ⟨[], []⟩
  return .record (Node.toFields document.entries)

end Toml

end TripPlanner

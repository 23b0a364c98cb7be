import ScoreRelay.Toml.Value

/-! TOML texts: headers and pairs of a key and a value, each on a line of its own. -/
namespace ScoreRelay.Toml

/-- A text being read: the whole table, and the path of the header in force. -/
structure Document where
  root : Toml
  header : List String

namespace Document

/-- Open the table or the row that a header names. `cs` begins after the first bracket. -/
def readHeader (d : Document) (cs : List Char) : Option (Document × List Char) :=
  match cs with
  | '[' :: cs => do
    let (path, key, rest) ← dottedKey (skipSpaces cs)
    let rest ← expect? ']' rest
    let rest ← expect? ']' rest
    let root ← openRow path key d.root
    return (⟨root, path ++ [key]⟩, rest)
  | cs => do
    let (path, key, rest) ← dottedKey (skipSpaces cs)
    let rest ← expect? ']' rest
    let root ← openTable path key d.root
    return (⟨root, path ++ [key]⟩, rest)

/-- Take in a key and its value. -/
def readPair (d : Document) (cs : List Char) : Option (Document × List Char) := do
  let (path, key, rest) ← dottedKey cs
  let rest ← expect? '=' rest
  let (v, rest) ← value maxLevels (skipSpaces rest)
  let root ← assignIn d.header path key v d.root
  return ({ d with root := root }, rest)

/-- Take in a line that is not empty. -/
def readLine (d : Document) (cs : List Char) : Option (Document × List Char) := do
  let (d, rest) ← match cs with
    | '[' :: cs => d.readHeader cs
    | cs => d.readPair cs
  return (d, ← endLine rest)

/-- Take in a text line by line. -/
def read (d : Document) (cs : List Char) : Option Document :=
  match _ : skipLines cs with
  | none => none
  | some [] => some d
  | some front => do
    let (d, rest) ← d.readLine front
    let ⟨rest, _⟩ ← after? front rest
    read d rest
termination_by cs.length
decreasing_by
  have := length_skipLines_le ‹skipLines cs = some front›
  omega

end Document

/-- The table of a text. A byte order mark in front is ignored. -/
def ofText? (s : String) : Option Toml :=
  let cs := match s.toList with
    | '\uFEFF' :: cs => cs
    | cs => cs
  ((⟨.table .header [], []⟩ : Document).read cs).map Document.root

end ScoreRelay.Toml

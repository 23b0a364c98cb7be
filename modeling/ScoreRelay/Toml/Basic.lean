/-! TOML values, and the rules by which tables may be extended. -/
namespace ScoreRelay

/-- How a table came to be, which decides what may still be added to it. -/
inductive Toml.Opening where
  /-- Written in braces: complete. -/
  | closed
  /-- Needed by the header of a table within it. -/
  | implied
  /-- Made by a dotted key. -/
  | dotted
  /-- Named by a header of its own. -/
  | header
  deriving DecidableEq, Repr

/-- A TOML value. Of floats only their being finite is kept, of dates and times nothing. -/
inductive Toml where
  | string (s : String)
  | integer (i : Int)
  /-- Written like an integer, but its digits make no number. It may stand wherever nobody looks at it. -/
  | garbled
  | float (finite : Bool)
  | boolean (b : Bool)
  | datetime
  | array (items : List Toml)
  /-- An array of tables, one per header in double brackets. -/
  | rows (tables : List Toml)
  | table (opening : Toml.Opening) (members : List (String × Toml))

namespace Toml

/-- Set the value of a key, in its old place if there is one. -/
def put (key : String) (v : Toml) : List (String × Toml) → List (String × Toml)
  | [] => [(key, v)]
  | (k, w) :: ms => if k = key then (k, v) :: ms else (k, w) :: put key v ms

/-- Change the table that a path leads to; `f` gets its opening and members. Missing tables on the
way are made with the opening given. A dotted path does not enter tables that have a header. -/
def modify (way : Opening) (f : Opening → List (String × Toml) → Option Toml) :
    List String → Toml → Option Toml
  | [], .table opening ms => f opening ms
  | [], _ => none
  | k :: ks, .table opening ms =>
    match ms.lookup k with
    | none => (modify way f ks (.table way [])).map fun t => .table opening (put k t ms)
    | some (.rows ts) =>
      match ts.getLast? with
      | some t =>
        (modify way f ks t).map fun t' => .table opening (put k (.rows (ts.dropLast ++ [t'])) ms)
      | none => none
    | some (.table inner ns) =>
      if inner = .closed ∨ (way = .dotted ∧ inner = .header) then none
      else (modify way f ks (.table inner ns)).map fun t => .table opening (put k t ms)
    | some _ => none
  | _ :: _, _ => none

/-- Give a value to a dotted key of a table. The key must be new, and tables on its way must be
made of dotted keys alone. -/
def assign (path : List String) (key : String) (v : Toml) : Toml → Option Toml :=
  modify .dotted (fun opening ms =>
    if (opening = .dotted) = path.isEmpty ∨ (ms.lookup key).isSome then none
    else some (.table opening (put key v ms))) path

/-- Open the table of a header: a new one, or one that headers within it have implied. -/
def openTable (path : List String) (key : String) : Toml → Option Toml :=
  modify .implied (fun opening ms =>
    match ms.lookup key with
    | none => some (.table opening (put key (.table .header []) ms))
    | some (.table .implied ns) => some (.table opening (put key (.table .header ns) ms))
    | some _ => none) path

/-- Add a table to the array of a header in double brackets. -/
def openRow (path : List String) (key : String) : Toml → Option Toml :=
  modify .implied (fun opening ms =>
    match ms.lookup key with
    | none => some (.table opening (put key (.rows [.table .header []]) ms))
    | some (.rows ts) => some (.table opening (put key (.rows (ts ++ [.table .header []])) ms))
    | some _ => none) path

/-- Give a value to a dotted key of the table that a header has opened. -/
def assignIn (header path : List String) (key : String) (v : Toml) : Toml → Option Toml :=
  modify .implied (fun opening ms => assign path key v (.table opening ms)) header

end Toml

end ScoreRelay

import BusMap.Toml.Value

/-!
# Building tables

Lines of a document name their table by a path, so a table is built up from several places. The
rules say which of them may add to it: a table may be opened by a header once, a table made by
dotted keys may be extended by dotted keys only, and a table that only lies on the way to another
may still get a header. A list of tables grows by one with each of its headers, and a path through
it goes to the latest. Keys stay in the order in which they were first written, save that a table
with a late header moves to the end.
-/

set_option autoImplicit false

namespace BusMap.Toml

/-- How a table has come about. -/
structure Origin where
  /-- It has no header of its own so far. -/
  implicit : Bool
  /-- It was made by a dotted key. -/
  dotted : Bool
deriving DecidableEq, Repr

/-- A table that has a header or braces. -/
def Origin.explicit : Origin := ⟨false, false⟩

/-- A document under construction. -/
inductive Node where
  | value (v : Value)
  | table (origin : Origin) (entries : List (String × Node))
  | tables (elements : List (List (String × Node)))

/-- Entries of a table under construction. -/
abbrev Nodes := List (String × Node)

mutual

/-- The value that a finished node denotes. -/
def Node.toValue : Node → Value
  | .value v => v
  | .table _ entries => .table (toEntries entries)
  | .tables elements => .array (toValues elements)

/-- The entries that finished nodes denote. -/
def toEntries : List (String × Node) → List (String × Value)
  | [] => []
  | (key, node) :: rest => (key, node.toValue) :: toEntries rest

/-- The tables of a finished list. -/
def toValues : List (List (String × Node)) → List Value
  | [] => []
  | entries :: rest => .table (toEntries entries) :: toValues rest

end

namespace Nodes

/-- The node of a key. -/
def find? (key : String) : Nodes → Option Node
  | [] => none
  | (k, node) :: rest => if k = key then some node else find? key rest

/-- Puts a node in the place of the one of the same key. -/
def replace (key : String) (node : Node) : Nodes → Nodes
  | [] => []
  | (k, old) :: rest => if k = key then (k, node) :: rest else (k, old) :: replace key node rest

/-- Takes the node of a key out. -/
def erase (key : String) (nodes : Nodes) : Nodes := nodes.filter fun entry => entry.1 ≠ key

/-- Changes the last table of a list. -/
def changeLast (change : Nodes → Option Nodes) : List Nodes → Option (List Nodes)
  | [] => none
  | [last] => (change last).map fun changed => [changed]
  | first :: rest => (changeLast change rest).map fun changed => first :: changed

/-- Changes the table at the end of a path. Tables on the way that are missing are made. With
`dotted`, the path is that of a dotted key, and must not enter a table that has a header. -/
def changeAt (dotted : Bool) (origin : Origin) (nodes : Nodes) :
    List String → (Origin → Nodes → Option Nodes) → Option Nodes
  | [], change => change origin nodes
  | key :: path, change =>
    match nodes.find? key with
    | none => do
      let made ← changeAt dotted ⟨true, dotted⟩ [] path change
      return nodes ++ [(key, .table ⟨true, dotted⟩ made)]
    | some (.value _) => none
    | some (.table inner entries) =>
      if dotted && !inner.implicit then none
      else do
        let changed ← changeAt dotted inner entries path change
        return nodes.replace key (.table inner changed)
    | some (.tables elements) => do
      let changed ← changeLast (fun last => changeAt dotted .explicit last path change) elements
      return nodes.replace key (.tables changed)

/-- Adds a value under a new key. -/
def insertNew (key : String) (v : Value) (nodes : Nodes) : Option Nodes :=
  match nodes.find? key with
  | none => some (nodes ++ [(key, .value v)])
  | some _ => none

/-- Adds a value under a key that may be dotted; `path` leads to the table of the key. -/
def assign (path : List String) (key : String) (v : Value) (nodes : Nodes) : Option Nodes :=
  changeAt true .explicit nodes path fun origin target =>
    if origin.dotted = path.isEmpty then none else target.insertNew key v

/-- Adds the pairs of a section in order. -/
def assignAll : List (List String × String × Value) → Nodes → Option Nodes
  | [], nodes => some nodes
  | (path, key, v) :: pairs, nodes => do
    let nodes ← assign path key v nodes
    assignAll pairs nodes

/-- Opens the table of a header and adds the pairs below it. -/
def openTable (path : List String) (key : String) (pairs : List (List String × String × Value))
    (root : Nodes) : Option Nodes :=
  changeAt false .explicit root path fun _ parent =>
    match parent.find? key with
    | none => do
      let entries ← assignAll pairs []
      return parent ++ [(key, .table .explicit entries)]
    | some (.table origin entries) =>
      if origin.implicit && !origin.dotted then do
        let entries ← assignAll pairs entries
        return parent.erase key ++ [(key, .table .explicit entries)]
      else none
    | some _ => none

/-- Adds a table to the list of a header, with the pairs below it. -/
def openElement (path : List String) (key : String) (pairs : List (List String × String × Value))
    (root : Nodes) : Option Nodes :=
  changeAt false .explicit root path fun _ parent =>
    match parent.find? key with
    | none => do
      let entries ← assignAll pairs []
      return parent ++ [(key, .tables [entries])]
    | some (.tables elements) => do
      let entries ← assignAll pairs []
      return parent.replace key (.tables (elements ++ [entries]))
    | some _ => none

end Nodes

end BusMap.Toml

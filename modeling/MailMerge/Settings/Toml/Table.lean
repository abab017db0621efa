import MailMerge.Json.Value
import MailMerge.Settings.Toml.Value

/-!
TOML tables while they are being read. Every table and every value is defined once: a table with a
header of its own is not extended by dotted keys, one made by dotted keys gets no header, and a
value is never turned into a table.
-/

set_option autoImplicit false

namespace MailMerge.Settings.Toml

/-- How a table came into being. -/
inductive Origin where
  /-- It has a header of its own, or a pair of braces. -/
  | written
  /-- A longer header names it. -/
  | implied
  /-- A dotted key names it. -/
  | dotted
  deriving Repr, DecidableEq

/-- What a key stands for. -/
inductive Node where
  | value (value : Value)
  | table (origin : Origin) (entries : List (Text × Node))
  /-- Tables with the same header in double brackets. -/
  | tables (items : List (List (Text × Node)))
  deriving Repr

abbrev Entries := List (Text × Node)

/-- The entries with another node for a key, which goes to the end if it is new. -/
def setNode (key : Text) (node : Node) : Entries → Entries
  | [] => [(key, node)]
  | (other, old) :: rest =>
    if other = key then (key, node) :: rest else (other, old) :: setNode key node rest

/-- Changes the table at the end of a path. Tables that are missing on the way are made with the
given origin; on the way along a dotted key there may be no table that has a header. -/
def changeAt (made : Origin) (change : Origin → Entries → Option Entries) :
    List Text → Origin → Entries → Option Entries
  | [], origin, entries => change origin entries
  | key :: path, _, entries =>
    match Json.member? key entries with
    | none =>
      (changeAt made change path made []).map fun inner => setNode key (.table made inner) entries
    | some (.value _) => none
    | some (.table origin inner) =>
      if made = .dotted ∧ origin = .written then none
      else
        (changeAt made change path origin inner).map fun inner =>
          setNode key (.table origin inner) entries
    | some (.tables items) =>
      match items.getLast? with
      | none => none
      | some last =>
        (changeAt made change path .written last).map fun last =>
          setNode key (.tables (items.dropLast ++ [last])) entries

/-- Adds a value under a dotted key, given by its path and its last name. A table takes such a value
only if it was made by dotted keys as well. -/
def addValue (path : List Text) (key : Text) (value : Value) (entries : Entries) :
    Option Entries :=
  let insert (origin : Origin) (entries : Entries) : Option Entries :=
    if path ≠ [] ∧ origin ≠ .dotted then none
    else match Json.member? key entries with
      | some _ => none
      | none => some (entries ++ [(key, .value value)])
  changeAt .dotted insert path .written entries

/-- Adds a table with a header at the end. It may exist already if only longer headers name it. -/
def addTable (path : List Text) (key : Text) (entries : Entries) : Option Entries :=
  let insert (_ : Origin) (entries : Entries) : Option Entries :=
    match Json.member? key entries with
    | none => some (entries ++ [(key, .table .written [])])
    | some (.table .implied inner) =>
      some (entries.filter (fun entry => entry.1 ≠ key) ++ [(key, .table .written inner)])
    | some _ => none
  changeAt .implied insert path .written entries

def addTables (path : List Text) (key : Text) (entries : Entries) : Option Entries :=
  let insert (_ : Origin) (entries : Entries) : Option Entries :=
    match Json.member? key entries with
    | none => some (entries ++ [(key, .tables [[]])])
    | some (.tables items) => some (setNode key (.tables (items ++ [[]])) entries)
    | some _ => none
  changeAt .implied insert path .written entries

/-- Adds a value under a dotted key in the table with a header. -/
def addValueUnder (header path : List Text) (key : Text) (value : Value) (entries : Entries) :
    Option Entries :=
  changeAt .implied (fun _ inner => addValue path key value inner) header .written entries

mutual

def Node.toValue : Node → Value
  | .value value => value
  | .table _ entries => .table (valuesOf entries)
  | .tables items => .list (tableValues items)

def valuesOf : List (Text × Node) → List (Text × Value)
  | [] => []
  | (key, node) :: rest => (key, node.toValue) :: valuesOf rest

def tableValues : List (List (Text × Node)) → List Value
  | [] => []
  | entries :: rest => .table (valuesOf entries) :: tableValues rest

end

end MailMerge.Settings.Toml

import TreeGen.Moment
import TreeGen.Table

/-!
# TOML documents

A document is a table whose values are texts, numbers, booleans, dates and times, arrays and
further tables.  Integers are kept as a radix and what is written in it, without underscores, and
floating-point numbers as they are written.

While a document is read its tables are open: a header or a dotted key may still add to them.  How
a table came about decides what may be added.  A table with a header of its own may not get a second
one and may not be extended by dotted keys from outside; a table that came about through dotted
keys may not get a header; arrays and tables that are written as values are closed from the start.
-/

namespace TreeGen

/-- A value of a document. -/
inductive Toml where
  | string (value : String)
  | integer (radix : Nat) (source : List Char)
  | float (source : String)
  | boolean (value : Bool)
  | moment (value : Moment)
  | array (items : List Toml)
  | table (entries : List (String × Toml))
deriving Repr

namespace Toml

/-- The key under which a date or a time stands in the table that takes its place. -/
def momentKey : String := "$__toml_private_datetime"

/-- The entries of a value that is a table or can stand for one: where a table is expected, a date
or a time is one with a single entry. -/
def entries? : Toml → Option (List (String × Toml))
  | .table entries => some entries
  | .moment value => some [(momentKey, .string value.text)]
  | _ => none

/-- How an open table came about. -/
inductive Origin where
  /-- As a step on the way to a table with a header. -/
  | implied
  | header
  /-- As a step of a dotted key. -/
  | dotted
deriving DecidableEq, Repr

/-- What a key of an open table stands for. -/
inductive Entry where
  | value (value : Toml)
  | table (origin : Origin) (entries : List (String × Entry))
  /-- An array of tables that headers add to; the last table is open. -/
  | tables (elements : List (List (String × Entry)))
deriving Repr

abbrev Open := List (String × Entry)

mutual

def Entry.close : Entry → Toml
  | .value value => value
  | .table _ entries => .table (closeAll entries)
  | .tables elements => .array (closeElements elements)

def closeAll : Open → List (String × Toml)
  | [] => []
  | (key, entry) :: rest => (key, entry.close) :: closeAll rest

def closeElements : List Open → List Toml
  | [] => []
  | entries :: rest => .table (closeAll entries) :: closeElements rest

end

/-- Put a value under a dotted key.  The key must be new, and the tables on the way must not have
headers of their own. -/
def insert? (value : Toml) : List String → Open → Option Open
  | [], _ => none
  | [key], entries =>
    match Entries.value? key entries with
    | none => some (Entries.put key (.value value) entries)
    | some _ => none
  | key :: path, entries =>
    match Entries.value? key entries with
    | none =>
      (insert? value path []).map fun inner => Entries.put key (.table .dotted inner) entries
    | some (.table .header _) => none
    | some (.table origin inner) =>
      (insert? value path inner).map fun inner => Entries.put key (.table origin inner) entries
    | some (.value _) => none
    | some (.tables _) => none

def insertAll? : List (List String × Toml) → Open → Option Open
  | [], entries => some entries
  | (path, value) :: rest, entries => (insert? value path entries).bind (insertAll? rest)

/-- Change the table that a header's path leads to, where `change` gets what the last key stands
for.  A step on the way that is not there yet is an implied table; the way leads through the last
table of an array of tables. -/
def descend? (change : Option Entry → Option Entry) : List String → Open → Option Open
  | [], _ => none
  | [key], entries =>
    (change (Entries.value? key entries)).map fun entry => Entries.put key entry entries
  | key :: path, entries =>
    match Entries.value? key entries with
    | none =>
      (descend? change path []).map fun inner => Entries.put key (.table .implied inner) entries
    | some (.table origin inner) =>
      (descend? change path inner).map fun inner => Entries.put key (.table origin inner) entries
    | some (.tables elements) =>
      match elements.getLast? with
      | none => none
      | some last =>
        (descend? change path last).map fun last =>
          Entries.put key (.tables (elements.dropLast ++ [last])) entries
    | some (.value _) => none

/-- Open a table by a header.  It must be new or so far only implied. -/
def openTable? (path : List String) (root : Open) : Option Open :=
  descend? (fun
    | none => some (.table .header [])
    | some (.table .implied entries) => some (.table .header entries)
    | some _ => none) path root

/-- Add a table to an array of tables, which must be new or made of headers so far. -/
def openElement? (path : List String) (root : Open) : Option Open :=
  descend? (fun
    | none => some (.tables [[]])
    | some (.tables elements) => some (.tables (elements ++ [[]]))
    | some _ => none) path root

def insertUnder? (header path : List String) (value : Toml) (root : Open) : Option Open :=
  match header with
  | [] => insert? value path root
  | _ :: _ =>
    descend? (fun
      | some (.table origin entries) => (insert? value path entries).map (.table origin)
      | some (.tables elements) =>
        match elements.getLast? with
        | none => none
        | some last =>
          (insert? value path last).map fun last => .tables (elements.dropLast ++ [last])
      | _ => none) header root

end Toml

end TreeGen

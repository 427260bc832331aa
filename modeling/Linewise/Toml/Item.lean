/-
# Linewise.Toml.Item -- the tables of a settings document

A document is a table of items. A table remembers how it came to be, because
that decides who may add to it:

* `header`: a line `[name]` opened it, once and for all;
* `implied`: it lies on the way to a header below it, and a header of its own
  may still open it;
* `dotted`: a dotted key made it, and only dotted keys extend it;
* `inline`: it was written as a value and is closed.

`editAt` walks a path of keys, makes the tables that are missing and changes the
table at its end. On its way an array of tables stands for its last table. The
three ways a document grows, `addPair`, `openTable` and `openElement`, are edits.
-/
import Linewise.Text.Basic

namespace Linewise.Toml

set_option autoImplicit false

inductive Scalar where
  | string (text : String)
  | integer (value : Int)
  | float
  | boolean (value : Bool)
  | dateTime (text : String)
  deriving Repr, DecidableEq

inductive Origin where
  | header
  | implied
  | dotted
  | inline
  deriving Repr, DecidableEq

/-- A value, a table, or an array of tables that headers open one by one. -/
inductive Item where
  | scalar (value : Scalar)
  | array (items : List Item)
  | table (origin : Origin) (entries : List (String × Item))
  | tables (elements : List Item)

abbrev Entries := List (String × Item)

/-- Replace the item of a key, or add the key at the end. -/
def put (key : String) (item : Item) : Entries → Entries
  | [] => [(key, item)]
  | (k, old) :: rest => if k = key then (key, item) :: rest else (k, old) :: put key item rest

/-- Change the table at the end of a path. With `byDots` the path is that of a
dotted key, which makes dotted tables and does not enter one that a header
opened. -/
def editAt (byDots : Bool) (edit : Origin → Entries → Option Item) :
    List String → Origin → Entries → Option Item
  | [], origin, entries => edit origin entries
  | key :: path, origin, entries => do
    let inner ← match entries.lookup key with
      | none => editAt byDots edit path (if byDots then .dotted else .implied) []
      | some (.table inner below) =>
        if inner = .inline || (byDots && inner = .header) then none
        else editAt byDots edit path inner below
      | some (.tables elements) =>
        match elements.getLast? with
        | some (.table inner below) =>
          (editAt byDots edit path inner below).map fun last =>
            .tables (elements.dropLast ++ [last])
        | _ => none
      | some _ => none
    return .table origin (put key inner entries)

/-- Add a pair below a dotted key. The table at the end of the dots is one that
dotted keys made, and the key is new. -/
def addPair (dots : List String) (key : String) (item : Item) :
    Origin → Entries → Option Item :=
  editAt true (fun origin entries =>
    if (origin = .dotted) = dots.isEmpty || (entries.lookup key).isSome then none
    else some (.table origin (put key item entries))) dots

/-- Open the table of a header. -/
def openTable (path : List String) (key : String) : Origin → Entries → Option Item :=
  editAt false (fun origin entries =>
    match entries.lookup key with
    | none => some (.table origin (put key (.table .header []) entries))
    | some (.table .implied below) =>
      some (.table origin (put key (.table .header below) entries))
    | some _ => none) path

/-- Open one more table of an array of tables. -/
def openElement (path : List String) (key : String) : Origin → Entries → Option Item :=
  editAt false (fun origin entries =>
    match entries.lookup key with
    | none => some (.table origin (put key (.tables [.table .header []]) entries))
    | some (.tables elements) =>
      some (.table origin (put key (.tables (elements ++ [.table .header []])) entries))
    | some _ => none) path

end Linewise.Toml

import Quizdown.Toml.Value

/-!
The tables of a document while it is read. Each table remembers how it came to be, because that
decides what may still be added to it: a header opens a table once, and a dotted key extends only
tables that no header has opened.
-/
set_option autoImplicit false

namespace Quizdown
namespace Toml

inductive Origin
  /-- Only as a part of the path in a header. -/
  | implied
  | header
  /-- As a part of a dotted key. -/
  | dotted
deriving DecidableEq, Repr

inductive Item
  | value (v : Value)
  | table (origin : Origin) (entries : List (Text × Item))
  | tables (before : List (List (Text × Item))) (latest : List (Text × Item))

abbrev Entries := List (Text × Item)

namespace Entries

def get? (es : Entries) (key : Text) : Option Item :=
  (es.find? fun e => e.1 = key).map Prod.snd

def put (es : Entries) (key : Text) (item : Item) : Entries :=
  if (es.get? key).isSome then es.map fun e => if e.1 = key then (key, item) else e
  else es ++ [(key, item)]

def assign (v : Value) : List Text → Entries → Option Entries
  | [], _ => none
  | [key], es => if (es.get? key).isSome then none else some (es.put key (.value v))
  | key :: path, es =>
    match es.get? key with
    | none => (assign v path []).map fun sub => es.put key (.table .dotted sub)
    | some (.table origin sub) =>
      if origin = .header then none
      else (assign v path sub).map fun sub => es.put key (.table origin sub)
    | some _ => none

/-- Changes the table at the end of a path of headers; tables on the way are made as needed, and
of several tables the latest is meant. -/
def within (f : Entries → Option Entries) : List Text → Entries → Option Entries
  | [], es => f es
  | key :: path, es =>
    match es.get? key with
    | none => (within f path []).map fun sub => es.put key (.table .implied sub)
    | some (.table origin sub) =>
      (within f path sub).map fun sub => es.put key (.table origin sub)
    | some (.tables before latest) =>
      (within f path latest).map fun latest => es.put key (.tables before latest)
    | some (.value _) => none

def openTable (key : Text) (es : Entries) : Option Entries :=
  match es.get? key with
  | none => some (es.put key (.table .header []))
  | some (.table .implied sub) => some (es.put key (.table .header sub))
  | some _ => none

def openNext (key : Text) (es : Entries) : Option Entries :=
  match es.get? key with
  | none => some (es.put key (.tables [] []))
  | some (.tables before latest) => some (es.put key (.tables (before ++ [latest]) []))
  | some _ => none

end Entries

mutual

def Item.toValue : Item → Value
  | .value v => v
  | .table _ entries => .table (Item.tableOf entries)
  | .tables before latest => .array (Item.tablesOf before ++ [.table (Item.tableOf latest)])

def Item.tableOf : List (Text × Item) → Table
  | [] => []
  | (key, item) :: rest => (key, item.toValue) :: Item.tableOf rest

def Item.tablesOf : List (List (Text × Item)) → List Value
  | [] => []
  | entries :: rest => .table (Item.tableOf entries) :: Item.tablesOf rest

end

end Toml
end Quizdown

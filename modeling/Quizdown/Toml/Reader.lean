import Quizdown.Toml.Quoted
import Quizdown.Toml.Scalar
import Quizdown.Toml.Tree

/-!
Documents in the TOML notation, in the edition that lets inline tables span lines. `read?` answers
the table of a whole document, or nothing if the text is not well formed.
-/
set_option autoImplicit false

namespace Quizdown
namespace Toml
namespace Reader

def dropSpaces (s : Text) : Text := s.dropWhile Quoted.isSpace

def lineEnd? (s : Text) : Option Text :=
  let rest :=
    match dropSpaces s with
    | '#' :: s => s.dropWhile Quoted.isPlain
    | s => s
  if rest.isEmpty then some [] else Quoted.lineBreak? rest

/-- Drops spaces, line breaks and comments. The number bounds the lines. -/
def dropGapsFrom : Nat → Text → Text
  | 0, s => s
  | fuel + 1, s =>
    match dropSpaces s with
    | [] => []
    | c :: s =>
      if c == '#' || c == '\n' || c == '\r' then
        match lineEnd? (c :: s) with
        | some rest => dropGapsFrom fuel rest
        | none => c :: s
      else c :: s

def dropGaps (s : Text) : Text := dropGapsFrom s.length s

def isBare (c : Char) : Bool := c.isAlphanum || c == '_' || c == '-'

def part? (s : Text) : Option (Text × Text) :=
  let bare := s.takeWhile isBare
  if bare.isEmpty then Quoted.line? s else some (bare, s.drop bare.length)

def pathFrom : Nat → Text → Option (List Text × Text)
  | 0, _ => none
  | fuel + 1, s => do
    let (key, rest) ← part? (dropSpaces s)
    match dropSpaces rest with
    | '.' :: rest =>
      let (path, rest) ← pathFrom fuel rest
      some (key :: path, rest)
    | rest => some ([key], rest)

def path? (s : Text) : Option (List Text × Text) := pathFrom (s.length + 1) s

def target? (s : Text) : Option (List Text × Text) :=
  match path? s with
  | some (path, '=' :: rest) => some (path, dropSpaces rest)
  | _ => none

mutual

/-- A value in front of the text. The number bounds the nesting and the parts. -/
def valueFrom : Nat → Text → Option (Value × Text)
  | 0, _ => none
  | fuel + 1, s =>
    match s with
    | '[' :: s => (itemsFrom fuel s).map fun (items, rest) => (.array items, rest)
    | '\x7b' :: s => (pairsFrom fuel [] s).map fun (es, rest) => (.table (Item.tableOf es), rest)
    | c :: s =>
      if c == '"' || c == '\'' then
        (Quoted.read? (c :: s)).map fun (content, rest) => (.string content, rest)
      else Scalar.read? (c :: s)
    | [] => none

def itemsFrom : Nat → Text → Option (List Value × Text)
  | 0, _ => none
  | fuel + 1, s =>
    match dropGaps s with
    | ']' :: rest => some ([], rest)
    | s => do
      let (v, rest) ← valueFrom fuel s
      match dropGaps rest with
      | ',' :: rest =>
        let (items, rest) ← itemsFrom fuel rest
        some (v :: items, rest)
      | ']' :: rest => some ([v], rest)
      | _ => none

def pairsFrom : Nat → Entries → Text → Option (Entries × Text)
  | 0, _, _ => none
  | fuel + 1, es, s =>
    match dropGaps s with
    | '\x7d' :: rest => some (es, rest)
    | s => do
      let (path, rest) ← target? s
      let (v, rest) ← valueFrom fuel rest
      let es ← es.assign v path
      match dropGaps rest with
      | ',' :: rest => pairsFrom fuel es rest
      | '\x7d' :: rest => some (es, rest)
      | _ => none

end

structure State where
  entries : Entries := []
  current : List Text := []

namespace State

def openAt (openLast : Text → Entries → Option Entries) (path : List Text) (st : State) :
    Option State :=
  match path.getLast? with
  | none => none
  | some key =>
    (Entries.within (openLast key) path.dropLast st.entries).map fun es => ⟨es, path⟩

def assign (path : List Text) (v : Value) (st : State) : Option State :=
  (Entries.within (Entries.assign v path) st.current st.entries).map fun es =>
    { st with entries := es }

end State

def statement? (s : Text) (st : State) : Option (State × Text) :=
  match s with
  | '[' :: '[' :: s =>
    match path? s with
    | some (path, ']' :: ']' :: rest) => (st.openAt Entries.openNext path).map fun st => (st, rest)
    | _ => none
  | '[' :: s =>
    match path? s with
    | some (path, ']' :: rest) => (st.openAt Entries.openTable path).map fun st => (st, rest)
    | _ => none
  | s => do
    let (path, rest) ← target? s
    let (v, rest) ← valueFrom (rest.length + 1) rest
    (st.assign path v).map fun st => (st, rest)

def linesFrom : Nat → State → Text → Option State
  | 0, _, _ => none
  | fuel + 1, st, s =>
    match lineEnd? s with
    | some [] => some st
    | some rest => linesFrom fuel st rest
    | none => do
      let (st, rest) ← statement? (dropSpaces s) st
      match ← lineEnd? rest with
      | [] => some st
      | rest => linesFrom fuel st rest

end Reader

def read? (s : Text) : Option Table :=
  let s := if s.head? = some '\uFEFF' then s.drop 1 else s
  (Reader.linesFrom (s.length + 1) {} s).map fun st => Item.tableOf st.entries

end Toml
end Quizdown

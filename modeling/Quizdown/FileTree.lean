import Quizdown.Path

/-!
A finite tree of directories and files, and the operations on it with their faults. A place is the
list of names from the root down; a written path is followed from the current directory, name by
name, and every name before the last must be a directory.
-/
set_option autoImplicit false

namespace Quizdown

abbrev Place := List Text

namespace Place

def text (p : Place) : Text := '/' :: Text.join ['/'] p

def prefixesOf : List Text → List Place
  | [] => [[]]
  | name :: above => (name :: above).reverse :: prefixesOf above

def ancestors (p : Place) : List Place := prefixesOf p.reverse

/-- The order in which a tree is walked: a place before those below it, places side by side in
the order of their names. -/
def le : Place → Place → Bool
  | [], _ => true
  | _ :: _, [] => false
  | a :: p, b :: q => if a = b then le p q else Text.le a b

end Place

inductive Entry
  | directory
  /-- A file with its text, or one whose bytes encode no text. -/
  | file (content : Option Text)
deriving DecidableEq, Repr

inductive FileError
  | notFound
  | alreadyExists
  | notDirectory
  | isDirectory
  | notText
deriving DecidableEq, Repr

def FileError.message : FileError → Text
  | notFound => "No such file or directory (os error 2)".toList
  | alreadyExists => "File exists (os error 17)".toList
  | notDirectory => "Not a directory (os error 20)".toList
  | isDirectory => "Is a directory (os error 21)".toList
  | notText => "stream did not contain valid UTF-8".toList

structure FileTree where
  entries : List (Place × Entry) := []
deriving DecidableEq, Repr

namespace FileTree

def get? (t : FileTree) (p : Place) : Option Entry :=
  if p = [] then some .directory else (t.entries.find? fun e => e.1 = p).map Prod.snd

def put (t : FileTree) (p : Place) (e : Entry) : FileTree :=
  if (t.get? p).isSome then ⟨t.entries.map fun old => if old.1 = p then (p, e) else old⟩
  else ⟨t.entries ++ [(p, e)]⟩

def isDirectory (t : FileTree) (p : Place) : Bool := t.get? p == some .directory

/-- Goes on from a place, name by name; the last name need not exist. -/
def walk (t : FileTree) : Place → Texts → Except FileError Place
  | p, [] => .ok p
  | p, name :: rest =>
    match t.get? p with
    | some .directory =>
      if name = ['.'] then t.walk p rest
      else if name = ['.', '.'] then t.walk p.dropLast rest
      else t.walk (p ++ [name]) rest
    | some (.file _) => .error .notDirectory
    | none => .error .notFound

def childNames (t : FileTree) (p : Place) : Texts :=
  let names := t.entries.filterMap fun e =>
    match e.1.reverse with
    | name :: above => if above.reverse = p then some name else none
    | [] => none
  names.mergeSort Text.le

/-- The names that lead from a directory to each entry below it; a directory comes before what is
in it, and entries side by side are in ascending order. -/
def below (t : FileTree) (p : Place) : List (List Text) :=
  let tails := t.entries.filterMap fun e =>
    if e.1.take p.length = p && p.length < e.1.length then some (e.1.drop p.length) else none
  tails.mergeSort Place.le

end FileTree

structure Workspace where
  tree : FileTree
  here : Place := []

namespace Workspace

def locate (w : Workspace) (path : Text) : Except FileError Place :=
  if path.isEmpty then .error .notFound
  else w.tree.walk (if Path.isAbsolute path then [] else w.here) (Path.names path)

def look (w : Workspace) (path : Text) : Except FileError (Place × Entry) :=
  match w.locate path with
  | .error e => .error e
  | .ok p =>
    match w.tree.get? p with
    | none => .error .notFound
    | some .directory => .ok (p, .directory)
    | some (.file content) =>
      if Path.wantsDirectory path then .error .notDirectory else .ok (p, .file content)

def pathExists (w : Workspace) (path : Text) : Bool :=
  match w.look path with
  | .ok _ => true
  | .error _ => false

def isDirectory (w : Workspace) (path : Text) : Bool :=
  match w.look path with
  | .ok (_, .directory) => true
  | _ => false

def isFile (w : Workspace) (path : Text) : Bool :=
  match w.look path with
  | .ok (_, .file _) => true
  | _ => false

def read (w : Workspace) (path : Text) : Except FileError Text :=
  match w.look path with
  | .error e => .error e
  | .ok (_, .directory) => .error .isDirectory
  | .ok (_, .file none) => .error .notText
  | .ok (_, .file (some content)) => .ok content

def write (w : Workspace) (path content : Text) : Except FileError Workspace :=
  match w.locate path with
  | .error e => .error e
  | .ok p =>
    if Path.wantsDirectory path || w.tree.isDirectory p then .error .isDirectory
    else .ok { w with tree := w.tree.put p (.file (some content)) }

def makeDirectory (w : Workspace) (path : Text) : Except FileError Workspace :=
  match w.locate path with
  | .error e => .error e
  | .ok p =>
    if (w.tree.get? p).isSome then .error .alreadyExists
    else .ok { w with tree := w.tree.put p .directory }

def ensureDirectory (w : Workspace) (path : Text) : Except FileError Workspace :=
  match w.makeDirectory path with
  | .ok w => .ok w
  | .error e => if w.isDirectory path then .ok w else .error e

def ensureDirectoriesFrom : Nat → Workspace → Text → Except FileError Workspace
  | 0, w, path => w.ensureDirectory path
  | fuel + 1, w, path =>
    if path.isEmpty then .ok w
    else
      match w.makeDirectory path, Path.parent? path with
      | .error .notFound, some above =>
        match ensureDirectoriesFrom fuel w above with
        | .ok w => w.ensureDirectory path
        | .error e => .error e
      | _, _ => w.ensureDirectory path

def ensureDirectories (w : Workspace) (path : Text) : Except FileError Workspace :=
  ensureDirectoriesFrom (path.length + 1) w path

end Workspace
end Quizdown

import Quizdown.FileTree
import Quizdown.Glob.Pattern

/-!
The paths in a workspace that match a pattern, in the order in which directories are searched:
names side by side in ascending order, a directory before what is in it.
-/
set_option autoImplicit false

namespace Quizdown
namespace Glob

def herePath : Text := ['.']

def isHere (path : Text) : Bool := Path.same path herePath

def childPath (directory name : Text) : Text :=
  if isHere directory then name else Path.join directory name

def childNames (w : Workspace) (directory : Text) : Texts :=
  match w.look directory with
  | .ok (p, .directory) => w.tree.childNames p
  | _ => []

def descendants (w : Workspace) (directory : Text) : List (Text × Text) :=
  match w.look directory with
  | .ok (p, .directory) =>
    (w.tree.below p).map fun names =>
      (childPath directory (Text.join ['/'] names), names.getLast?.getD [])
  | _ => []

/-- The names of the current and the upper directory that a pattern asks for: only one that begins
with a point can. -/
def specialNames (ts : List Token) : Texts :=
  if ts.head? = some (.char '.') then [['.', '.'], ['.']].filter (matchesName ts) else []

/-- The paths that components lead to from a directory. A double star at the end finds
directories; before another component it lets that one match the name of any entry below. -/
def search (w : Workspace) : List Component → Text → Texts
  | [], path => [path]
  | .literal name :: rest, directory =>
    let special := name = ['.'] || name = ['.', '.']
    let path := childPath directory name
    if (if special then w.isDirectory directory else w.pathExists path) then search w rest path
    else []
  | .wild ts :: rest, directory =>
    if w.isDirectory directory then
      (specialNames ts).flatMap (fun name => search w rest (Path.join directory name)) ++
        ((childNames w directory).filter (matchesName ts)).flatMap fun name =>
          search w rest (childPath directory name)
    else []
  | .directories :: .directories :: rest, directory => search w (.directories :: rest) directory
  | [.directories], directory => ((descendants w directory).map Prod.fst).filter w.isDirectory
  | .directories :: c :: rest, directory =>
    (descendants w directory).flatMap fun (path, name) =>
      if c.accepts name then search w rest path else []

def matching (w : Workspace) (p : Pattern) : Texts :=
  let found := search w p.components (if p.absolute then ['/'] else herePath)
  if p.directoriesOnly then found.filter w.isDirectory else found

inductive Found
  | path (path : Text)
  | unreadable (path reason : Text)
deriving DecidableEq, Repr

/-- In a workspace every directory can be searched. -/
def expand (w : Workspace) (pattern : Text) : Except PatternError (List Found) :=
  (Pattern.ofText pattern).map fun p => (matching w p).map .path

end Glob
end Quizdown

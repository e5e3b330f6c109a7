import Quizdown.Text.Basic

/-!
Paths as they are written: names with slashes between them. Nothing here looks at any file.
-/
set_option autoImplicit false

namespace Quizdown
namespace Path

def isAbsolute (path : Text) : Bool := path.head? == some '/'

def wantsDirectory (path : Text) : Bool := path.getLast? == some '/'

def names (path : Text) : Texts := (Text.splitBy (· == '/') path).filter fun name => !name.isEmpty

/-- What decides whether two paths are spelled alike: the names, without a point that stands
behind another name or the root. -/
structure Spelling where
  absolute : Bool
  names : Texts
deriving DecidableEq, Repr

def spelling (path : Text) : Spelling :=
  let isPoint (name : Text) : Bool := name == ['.']
  let clean :=
    match names path with
    | [] => []
    | first :: rest =>
      let rest := rest.filter fun name => !isPoint name
      if isAbsolute path && isPoint first then rest else first :: rest
  ⟨isAbsolute path, clean⟩

def same (a b : Text) : Bool := spelling a = spelling b

def join (directory name : Text) : Text :=
  if directory.isEmpty || wantsDirectory directory then directory ++ name
  else directory ++ '/' :: name

def parent? (path : Text) : Option Text :=
  let s := spelling path
  if s.names.isEmpty then none
  else
    let above := Text.join ['/'] s.names.dropLast
    some (if s.absolute then '/' :: above else above)

def fileName (path : Text) : Text := (path.reverse.takeWhile (· ≠ '/')).reverse

/-- A file name without its extension: what stands before its last point, unless the name only
begins with it. -/
def stem (name : Text) : Text :=
  let before := ((name.reverse.dropWhile (· ≠ '.')).drop 1).reverse
  if before.isEmpty then name else before

def withExtension (path extension : Text) : Text :=
  let name := fileName path
  path.take (path.length - name.length) ++ stem name ++ '.' :: extension

end Path
end Quizdown

import Quizdown.Glob.Expand
import Quizdown.Log.Record

/-!
The files that a command works on: those its patterns match, each once, and the patterns that
match no file.
-/
set_option autoImplicit false

namespace Quizdown

structure Inputs where
  files : Texts := []
  unmatched : Texts := []
deriving DecidableEq, Repr

namespace Inputs

def addNew (kept : Texts) : Texts → Texts
  | [] => kept
  | path :: rest => addNew (if kept.any (Path.same path) then kept else kept ++ [path]) rest

def add (inputs : Inputs) (pattern : Text) (files : Texts) : Inputs where
  files := addNew inputs.files files
  unmatched := if files.isEmpty then inputs.unmatched ++ [pattern] else inputs.unmatched

/-- Adds what patterns match, where `filesOf` tells the files of one; the first faulty pattern
decides otherwise. -/
def addAll (filesOf : Text → Except Glob.PatternError Texts) (inputs : Inputs) :
    Texts → Except Glob.PatternError Inputs
  | [] => .ok inputs
  | pattern :: rest =>
    match filesOf pattern with
    | .error e => .error e
    | .ok files => addAll filesOf (inputs.add pattern files) rest

def file? (isFile : Text → Bool) : Glob.Found → Option Text
  | .path path => if isFile path then some path else none
  | .unreadable _ _ => none

def selectBy (expand : Text → Except Glob.PatternError (List Glob.Found)) (isFile : Text → Bool) :
    Texts → Except Glob.PatternError Inputs :=
  addAll (fun pattern => (expand pattern).map (List.filterMap (file? isFile))) {}

def select (w : Workspace) (patterns : Texts) : Except Glob.PatternError Inputs :=
  selectBy (Glob.expand w) w.isFile patterns

def skipped : Glob.Found → List LogRecord
  | .path _ => []
  | .unreadable path reason =>
    [⟨.warn, "mdquiz::input".toList, "Skipping unreadable path".toList,
      [("path".toList, path), ("error".toList, reason)]⟩]

def logBy (expand : Text → Except Glob.PatternError (List Glob.Found)) : Texts → List LogRecord
  | [] => []
  | pattern :: rest =>
    match expand pattern with
    | .error _ => []
    | .ok found => found.flatMap skipped ++ logBy expand rest

def log (w : Workspace) (patterns : Texts) : List LogRecord := logBy (Glob.expand w) patterns

end Inputs
end Quizdown

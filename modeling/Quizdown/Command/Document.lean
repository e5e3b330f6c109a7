import Quizdown.Assembly.Log
import Quizdown.Converter
import Quizdown.FileTree

/-!
One document of a command: reading its file and its questions, and what is reported of that.
-/
set_option autoImplicit false

namespace Quizdown
namespace Command

inductive DocumentError
  | files (e : FileError)
  | refused (e : ConvertError)
deriving DecidableEq, Repr

def DocumentError.message : DocumentError → Text
  | files e => e.message
  | refused e => e.message

def failureLine (path : Text) (e : DocumentError) : Text := path ++ ": ".toList ++ e.message

def readQuestions (w : Workspace) (settings : Settings) (path : Text) :
    Except DocumentError (List Question) :=
  match w.read path with
  | .error e => .error (.files e)
  | .ok source =>
    match parseQuiz settings source with
    | .error e => .error (.refused e)
    | .ok questions => .ok questions

def readingLog (w : Workspace) (settings : Settings) (path : Text) : List LogRecord :=
  match w.read path with
  | .error _ => []
  | .ok source => assembleLog settings (Document.read source)

end Command
end Quizdown

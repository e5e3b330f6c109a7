import Quizdown.Command.Arguments
import Quizdown.Command.Convert
import Quizdown.Log.Filter

/-!
A whole run of the program, from the words of its command line to what it leaves behind.
-/
set_option autoImplicit false

namespace Quizdown
namespace Command

def Request.run (w : Workspace) (r : Request) : Outcome :=
  match r.action with
  | .check => check w r.inputs r.config
  | .convert overrides directory => convert id w r.inputs r.config overrides directory

def usageExitCode : Nat := 2

/-- The records that are shown, as lines; `configured` is what the environment asks for. -/
def shownLog (r : Request) (configured : Text) (o : Outcome) : Texts :=
  (o.log.filter (LogFilter.ofRequest r.verbose configured).shows).map LogRecord.line

end Command
end Quizdown

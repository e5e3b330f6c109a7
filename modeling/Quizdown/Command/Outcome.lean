import Quizdown.Command.Inputs
import Quizdown.Config.Load
import Quizdown.Log.Record

/-!
What a command leaves behind: messages, records of the log, the files, and whether it succeeded.
-/
set_option autoImplicit false

namespace Quizdown
namespace Command

inductive CommandError
  | config (e : Config.ConfigError)
  | files (e : FileError)
  | pattern (e : Glob.PatternError)
  | incomplete (failed total unmatched : Nat)
deriving DecidableEq, Repr

def CommandError.message : CommandError → Text
  | config e => e.message
  | files e => e.message
  | pattern e => "invalid input pattern: ".toList ++ e.message
  | incomplete failed total unmatched =>
    Text.ofNat failed ++ " of ".toList ++ Text.ofNat total ++ " documents failed, ".toList ++
      Text.ofNat unmatched ++ " patterns matched nothing".toList

structure Outcome where
  workspace : Workspace
  lines : Texts := []
  log : List LogRecord := []
  error : Option CommandError := none

namespace Outcome

def messages (o : Outcome) : Texts :=
  o.lines ++ (o.error.map fun e => "Error: ".toList ++ e.message).toList

def exitCode (o : Outcome) : Nat := if o.error.isSome then 1 else 0

end Outcome

def unmatchedLine (pattern : Text) : Text := "No files match ".toList ++ pattern

def incomplete? (inputs : Inputs) (failed : Nat) : Option CommandError :=
  if failed > 0 || !inputs.unmatched.isEmpty then
    some (.incomplete failed inputs.files.length inputs.unmatched.length)
  else none

end Command
end Quizdown

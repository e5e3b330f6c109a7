import Quizdown.Command.Document
import Quizdown.Command.Outcome

/-!
The command that reads documents and tells how many questions of each kind they hold. It changes
no file.
-/
set_option autoImplicit false

namespace Quizdown
namespace Command

def kindCount (questions : List Question) (kind : Kind) : Nat :=
  (questions.filter fun q => q.kind = kind).length

/-- The kinds with their numbers of questions, in the order of display, without those that do not
occur. -/
def kindCounts (questions : List Question) : List (Kind × Nat) :=
  (Kind.all.map fun kind => (kind, kindCount questions kind)).filter fun (_, n) => n > 0

def checkLines (path : Text) : Except DocumentError (List Question) → Texts
  | .error e => [failureLine path e]
  | .ok questions =>
    (path ++ ": ".toList ++ Text.ofNat questions.length ++ " questions".toList) ::
      (kindCounts questions).map fun (kind, n) =>
        "  ".toList ++ kind.name ++ ": ".toList ++ Text.ofNat n

def isFailure {ε α : Type} : Except ε α → Bool
  | .error _ => true
  | .ok _ => false

def check (w : Workspace) (patterns : Texts) (config : Option Text) : Outcome :=
  match Config.load w config {} with
  | .error e => { workspace := w, error := some (.config e) }
  | .ok loaded =>
    let log := Inputs.log w patterns
    match Inputs.select w patterns with
    | .error e => { workspace := w, log := log, error := some (.pattern e) }
    | .ok inputs =>
      let results := inputs.files.map fun path => (path, readQuestions w loaded.settings path)
      { workspace := w
        lines :=
          inputs.unmatched.map unmatchedLine ++
            results.flatMap fun (path, result) => checkLines path result
        log := log ++ inputs.files.flatMap (readingLog w loaded.settings)
        error := incomplete? inputs (results.filter fun r => isFailure r.2).length }

end Command
end Quizdown

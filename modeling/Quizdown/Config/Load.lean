import Quizdown.Config.Fields
import Quizdown.FileTree

/-!
The settings a command runs with: from the configuration file that is named, else from the nearest
one in the current directory and those above it, else the defaults; what the command line asks for
comes on top. Values of a file are checked before that.
-/
set_option autoImplicit false

namespace Quizdown
namespace Config

structure Overrides where
  tags : Texts := []
  shuffleAnswers : Option Bool := none
  numbering : Option Numbering := none
deriving DecidableEq, Repr

def Overrides.apply (o : Overrides) (s : Settings) : Settings :=
  { s with
    shuffleAnswers := o.shuffleAnswers.getD s.shuffleAnswers
    numbering := o.numbering.getD s.numbering
    tags := { s.tags with general := s.tags.general ++ o.tags } }

inductive SettingsFault
  | blankSeparator
  | badGrade
  | badPenalty
deriving DecidableEq, Repr

def SettingsFault.message : SettingsFault → Text
  | blankSeparator => "quiz.matching_separator cannot be empty".toList
  | badGrade => "quiz.default_grade must be a non-negative number".toList
  | badPenalty => "quiz.penalty must be between 0 and 1".toList

def fault? (s : Settings) : Option SettingsFault :=
  if Text.isAllBlank s.matchingSeparator then some .blankSeparator
  else if !s.defaultGrade.isFinite || s.defaultGrade < 0.0 then some .badGrade
  else if !(0.0 ≤ s.penalty && s.penalty ≤ 1.0) then some .badPenalty
  else none

inductive ConfigError
  | notFound (path : Text)
  | unreadable (fault : FileError)
  | malformed
  | invalid (fault : SettingsFault)
deriving DecidableEq, Repr

def ConfigError.message : ConfigError → Text
  | notFound path => "Configuration file not found: ".toList ++ path
  | unreadable fault => "I/O error: ".toList ++ fault.message
  | malformed => "TOML parse error".toList
  | invalid fault => "Configuration error: ".toList ++ fault.message

structure Loaded where
  settings : Settings := {}
  path : Option Text := none

def fileName : Text := "mdquiz.toml".toList

/-- Looks for a configuration file in a directory and, while there is none, in the directory above.
The names of the directory are given from the last to the first. -/
def discoverFrom (t : FileTree) (names : Texts) : Option Place :=
  let candidate := names.reverse ++ [fileName]
  if (t.get? candidate).isSome then some candidate
  else
    match names with
    | [] => none
    | _ :: above => discoverFrom t above

def discover? (t : FileTree) (start : Place) : Option Place := discoverFrom t start.reverse

def settingsOf (document : Text) : Except ConfigError Settings :=
  match readSettings? document with
  | none => .error .malformed
  | some s =>
    match fault? s with
    | some f => .error (.invalid f)
    | none => .ok s

def loadFile (w : Workspace) (path : Text) : Except ConfigError Loaded :=
  match w.read path with
  | .error e => .error (.unreadable e)
  | .ok document => (settingsOf document).map fun s => ⟨s, some path⟩

def loadFrom (w : Workspace) : Option Text → Except ConfigError Loaded
  | some path => if w.pathExists path then loadFile w path else .error (.notFound path)
  | none =>
    match discover? w.tree w.here with
    | some p => loadFile w p.text
    | none => .ok {}

def load (w : Workspace) (path : Option Text) (overrides : Overrides) : Except ConfigError Loaded :=
  (loadFrom w path).map fun l => { l with settings := overrides.apply l.settings }

end Config
end Quizdown

import Quizdown.Settings
import Quizdown.Toml.Reader

/-!
Settings from a configuration document. The table `quiz` holds the defaults of questions and the
table `tags` the lists of tags; each may also be an array that holds the same fields by position.
A field that is left out keeps its default, an unknown key is passed over, and a field of another
type refuses the document.
-/
set_option autoImplicit false

namespace Quizdown
namespace Config

open Toml (Value Table)

def fields? (keys : Texts) : Value → Option (List (Option Value))
  | .table t => some (keys.map (Table.get? t))
  | .array items => some (keys.mapIdx fun i _ => items[i]?)
  | _ => none

def field {α : Type} (read? : Value → Option α) (default : α) : Option Value → Option α
  | none => some default
  | some v => read? v

def boolean? : Value → Option Bool
  | .boolean b => some b
  | _ => none

def text? : Value → Option Text
  | .string s => some s
  | _ => none

def numbering? (v : Value) : Option Numbering := (text? v).bind Numbering.ofName?

def floatOfInt (n : Int) : Float :=
  let x := Binary64.nearest n.natAbs 1
  if n < 0 then -x else x

def number? : Value → Option Float
  | .float x => some x
  | .integer n => if Toml.Scalar.fits 64 n then some (floatOfInt n) else none
  | _ => none

def texts? : Value → Option Texts
  | .array items => items.mapM text?
  | _ => none

def quizKeys : Texts :=
  ["numbering".toList, "shuffle_answers".toList, "force_multi".toList,
    "matching_separator".toList, "default_grade".toList, "penalty".toList]

def tagKeys : Texts :=
  ["general".toList, "multichoice".toList, "matching".toList, "shortanswer".toList,
    "numerical".toList]

def readQuiz (settings : Settings) (v : Value) : Option Settings := do
  match ← fields? quizKeys v with
  | [numbering, shuffle, force, separator, grade, penalty] =>
    some
      { settings with
        numbering := ← field numbering? settings.numbering numbering
        shuffleAnswers := ← field boolean? settings.shuffleAnswers shuffle
        forceMulti := ← field boolean? settings.forceMulti force
        matchingSeparator := ← field text? settings.matchingSeparator separator
        defaultGrade := ← field number? settings.defaultGrade grade
        penalty := ← field number? settings.penalty penalty }
  | _ => none

def readTags (v : Value) : Option TagSettings := do
  match ← fields? tagKeys v with
  | [general, multichoice, matching, shortanswer, numerical] =>
    some
      { general := ← field texts? [] general
        multichoice := ← field texts? [] multichoice
        matching := ← field texts? [] matching
        shortanswer := ← field texts? [] shortanswer
        numerical := ← field texts? [] numerical }
  | _ => none

def readSettings? (document : Text) : Option Settings := do
  let table ← Toml.read? document
  let settings ← match Table.get? table "quiz".toList with
    | none => some {}
    | some v => readQuiz {} v
  match Table.get? table "tags".toList with
  | none => some settings
  | some v => (readTags v).map fun tags => { settings with tags := tags }

end Config
end Quizdown

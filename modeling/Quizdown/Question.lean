import Quizdown.Text.Basic

/-!
Questions, their six kinds, and the answers of each. A question carries its own settings
(`QuestionConfig`), resolved from the defaults and from its directives.
-/
set_option autoImplicit false

namespace Quizdown

inductive Kind
  | singleChoice
  /-- Check boxes, several of them checked, or one where that is asked for. -/
  | multipleChoice
  /-- A numbered list: the position of an item is its answer. -/
  | enumeratedMatching
  /-- Items of the form key, separator, value. -/
  | associativeMatching
  | shortAnswer
  | numerical
deriving DecidableEq, Repr

namespace Kind

def all : List Kind :=
  [singleChoice, multipleChoice, enumeratedMatching, associativeMatching, shortAnswer, numerical]

def name : Kind → Text
  | singleChoice => "single choice".toList
  | multipleChoice => "multiple choice".toList
  | enumeratedMatching => "enumerated matching".toList
  | associativeMatching => "associative matching".toList
  | shortAnswer => "short answer".toList
  | numerical => "numerical".toList

def moodleType : Kind → Text
  | singleChoice | multipleChoice => "multichoice".toList
  | enumeratedMatching | associativeMatching => "matching".toList
  | shortAnswer => "shortanswer".toList
  | numerical => "numerical".toList

def isChoice : Kind → Bool
  | singleChoice | multipleChoice => true
  | _ => false

def isMatching : Kind → Bool
  | enumeratedMatching | associativeMatching => true
  | _ => false

end Kind

inductive Numbering
  | lowerAlpha
  | upperAlpha
  | decimal
  | lowerRoman
  | upperRoman
deriving DecidableEq, Repr

namespace Numbering

def all : List Numbering := [lowerAlpha, upperAlpha, decimal, lowerRoman, upperRoman]

def name : Numbering → Text
  | lowerAlpha => "abc".toList
  | upperAlpha => "ABC".toList
  | decimal => "123".toList
  | lowerRoman => "iii".toList
  | upperRoman => "III".toList

def moodleToken : Numbering → Text
  | lowerAlpha => "abc".toList
  | upperAlpha => "ABCD".toList
  | decimal => "123".toList
  | lowerRoman => "iii".toList
  | upperRoman => "IIII".toList

/-- Reads a name or a Moodle token; letter case matters. -/
def ofName? (s : Text) : Option Numbering :=
  all.find? fun n => s = n.name || s = n.moodleToken

def unknownMessage (s : Text) : Text :=
  "unknown numbering scheme \"".toList ++ s ++
    "\", expected one of abc, ABC, 123, iii, III".toList

end Numbering

/-- The settings of one question, after defaults and directives are merged. -/
structure QuestionConfig where
  shuffle : Bool := true
  numbering : Numbering := .lowerAlpha
  forceMulti : Bool := false
deriving DecidableEq, Repr

/-- One answer. Which fields have a meaning depends on the kind of the question. -/
structure Answer where
  /-- HTML for choice and matching, plain text otherwise. -/
  text : Text
  checked : Bool := false
  fraction : Float := 0.0
  matchKey : Option Text := none
  matchValue : Option Text := none
  /-- Position of an enumerated item, counted from 1. -/
  orderIndex : Option Nat := none
  tolerance : Option Float := none

structure Question where
  name : Text
  tags : Texts
  description : Text
  kind : Kind
  answers : List Answer
  config : QuestionConfig
  line : Nat

end Quizdown

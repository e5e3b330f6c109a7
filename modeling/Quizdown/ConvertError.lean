import Quizdown.AnswerList
import Quizdown.Directive.Apply

/-!
Why a document yields no questions, and where. A document either yields all its questions or fails
as a whole.
-/
set_option autoImplicit false

namespace Quizdown

structure Location where
  line : Nat
  block : Nat
deriving DecidableEq, Repr

def Location.text (l : Location) : Text :=
  "line ".toList ++ Text.ofNat l.line ++ " (block ".toList ++ Text.ofNat l.block ++ [')']

/-- How a document departs from the form description, then list. A question is named by its
label. -/
inductive StructureFault
  | tagHeadingInside (label : Text)
  | nameHeadingInside (label : Text)
  | listAlone
  | secondList
  | noDescription (label : Text)
  | noName
  | noAnswers (label : Text)
deriving DecidableEq, Repr

def StructureFault.message : StructureFault → Text
  | tagHeadingInside label =>
    "tag heading found while ".toList ++ label ++ " has no answer list".toList
  | nameHeadingInside label =>
    "question heading found while ".toList ++ label ++ " has no answer list".toList
  | listAlone => "answer list without a preceding description".toList
  | secondList => "second answer list without a new description".toList
  | noDescription label => label ++ " has an answer list but no description".toList
  | noName => "cannot derive a question name from the description".toList
  | noAnswers label => label ++ " has no answer list".toList

inductive ConvertError
  | structural (location : Location) (fault : StructureFault)
  | classification (location : Location) (label : Text) (fault : ClassifyError)
  | directive (location : Location) (label : Text) (fault : DirectiveError)
deriving DecidableEq, Repr

namespace ConvertError

def location : ConvertError → Location
  | structural l _ => l
  | classification l _ _ => l
  | directive l _ _ => l

def message : ConvertError → Text
  | structural l fault => "structure error at ".toList ++ l.text ++ ": ".toList ++ fault.message
  | classification l label fault =>
    "classification error at ".toList ++ l.text ++ ": ".toList ++ label ++ ": ".toList ++
      fault.message
  | directive l label fault =>
    "directive error at ".toList ++ l.text ++ " in question \"".toList ++ label ++ "\": ".toList ++
      fault.message

end ConvertError
end Quizdown

import Quizdown.Question

/-!
The defaults a whole conversion runs with: numbering, shuffling, the separator of matching
pairs, grades, and the tags added to every question.
-/
set_option autoImplicit false

namespace Quizdown

structure TagSettings where
  general : Texts := []
  multichoice : Texts := []
  matching : Texts := []
  shortanswer : Texts := []
  numerical : Texts := []
deriving DecidableEq, Repr

def TagSettings.forKind (tags : TagSettings) : Kind → Texts
  | .singleChoice | .multipleChoice => tags.multichoice
  | .enumeratedMatching | .associativeMatching => tags.matching
  | .shortAnswer => tags.shortanswer
  | .numerical => tags.numerical

structure Settings where
  numbering : Numbering := .lowerAlpha
  shuffleAnswers : Bool := true
  forceMulti : Bool := false
  matchingSeparator : Text := [':']
  defaultGrade : Float := 1.0
  penalty : Float := 0.3333333
  tags : TagSettings := {}

def Settings.questionConfig (settings : Settings) : QuestionConfig where
  shuffle := settings.shuffleAnswers
  numbering := settings.numbering
  forceMulti := settings.forceMulti

end Quizdown

import Quizdown.Assembly
import Quizdown.Document.Reader
import Quizdown.Moodle

/-!
From the text of a document to its questions, and to the XML of a quiz.
-/
set_option autoImplicit false

namespace Quizdown

def parseQuiz (settings : Settings) (source : Text) : Except ConvertError (List Question) :=
  assemble settings (Document.read source)

def renderQuiz (settings : Settings) (questions : List Question) : Text :=
  (Moodle.quiz settings questions).document

def convertQuiz (settings : Settings) (source : Text) : Except ConvertError Text :=
  (parseQuiz settings source).map (renderQuiz settings)

end Quizdown

import Quizdown.Decimal.Fixed
import Quizdown.Settings
import Quizdown.Xml.Writer

/-!
A quiz as a tree of XML elements in the form Moodle imports.
-/
set_option autoImplicit false

namespace Quizdown

def Text.distinct : Texts → Texts
  | [] => []
  | s :: rest => s :: (Text.distinct rest).filter (· ≠ s)

namespace Moodle

def flag (b : Bool) : Text := if b then "true".toList else "false".toList

def emptyFeedback : Element :=
  (Element.node "feedback".toList [Element.leaf "text".toList []]).withAttribute
    "format".toList "html".toList

/-- The tags of a question: its own, the general ones, those of its kind; trimmed, without blank
ones, each once. -/
def tagsOf (settings : Settings) (q : Question) : Texts :=
  let all := q.tags ++ settings.tags.general ++ settings.tags.forKind q.kind
  Text.distinct ((all.map Text.trim).filter fun t => !t.isEmpty)

def choiceAnswer (a : Answer) : Element :=
  .mk "answer".toList
    [("fraction".toList, fractionText a.fraction), ("format".toList, "html".toList)] []
    [.leaf "text".toList a.text, emptyFeedback]

def shortAnswer (a : Answer) : Element :=
  .mk "answer".toList
    [("fraction".toList, fractionText a.fraction),
      ("format".toList, "moodle_auto_format".toList)] []
    [.leaf "text".toList a.text, emptyFeedback]

def numericalAnswer (a : Answer) : Element :=
  .mk "answer".toList [("fraction".toList, fractionText a.fraction)] []
    [.leaf "text".toList a.text,
     .leaf "tolerance".toList (fractionText (a.tolerance.getD 0.0)), emptyFeedback]

def subquestion (prompt answer : Text) : Element :=
  .mk "subquestion".toList [("format".toList, "html".toList)] []
    [.leaf "text".toList prompt, .wrapped "answer".toList answer]

/-- The pairs of an enumerated question: each position with the text that belongs there. An answer
without a recorded position has the one it stands at, `i` being the place before the first. -/
def enumeratedPairs (i : Nat) : List Answer → List Element
  | [] => []
  | a :: rest =>
    subquestion (Text.ofNat (a.orderIndex.getD (i + 1)) ++ ['.']) a.text ::
      enumeratedPairs (i + 1) rest

def associativePair (a : Answer) : Element :=
  subquestion (a.matchKey.getD []) (a.matchValue.getD a.text)

def kindElements (q : Question) : List Element :=
  match q.kind with
  | .singleChoice | .multipleChoice =>
    [.leaf "shuffleanswers".toList (flag q.config.shuffle),
     .leaf "single".toList (flag (q.kind = .singleChoice)),
     .leaf "answernumbering".toList q.config.numbering.moodleToken] ++
      q.answers.map choiceAnswer
  | .enumeratedMatching =>
    .leaf "shuffleanswers".toList (flag false) :: enumeratedPairs 0 q.answers
  | .associativeMatching =>
    .leaf "shuffleanswers".toList (flag q.config.shuffle) :: q.answers.map associativePair
  | .shortAnswer => .leaf "usecase".toList ['0'] :: q.answers.map shortAnswer
  | .numerical => q.answers.map numericalAnswer

def question (settings : Settings) (q : Question) : Element :=
  .mk "question".toList [("type".toList, q.kind.moodleType)] []
    ([.wrapped "name".toList q.name,
      (Element.wrapped "questiontext".toList q.description).withAttribute
        "format".toList "html".toList,
      .leaf "defaultgrade".toList (gradeText settings.defaultGrade),
      .leaf "penalty".toList (gradeText settings.penalty),
      .leaf "hidden".toList ['0'],
      .node "tags".toList ((tagsOf settings q).map (Element.wrapped "tag".toList))] ++
     kindElements q)

def quiz (settings : Settings) (questions : List Question) : Element :=
  .node "quiz".toList (questions.map (question settings))

end Moodle
end Quizdown

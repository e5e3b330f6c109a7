import Quizdown.ConvertError
import Quizdown.Directive.Extract
import Quizdown.Document.Basic
import Quizdown.Moodle
import Quizdown.Settings

/-!
Questions from the visible blocks of a document. Level-1 headings set the tags of the questions
that follow, deeper ones name the next question; description blocks open a question and a list
closes it. `step` takes one block, `assemble` all of them.
-/
set_option autoImplicit false

namespace Quizdown

structure Draft where
  name : Option Text
  tags : Texts
  description : Text := []
  plain : Text := []
  config : QuestionConfig
  directives : List Directive := []
  location : Location

namespace Draft

def label (d : Draft) : Text :=
  match d.name with
  | some name => name
  | none => "question at line ".toList ++ Text.ofNat d.location.line

def append (d : Draft) (html text : Text) : Draft :=
  { d with
    description := d.description ++ html
    plain :=
      if text.isEmpty then d.plain
      else if d.plain.isEmpty then text
      else d.plain ++ ' ' :: text }

end Draft

/-- The parts of a level-1 heading between commas: trimmed, without empty ones, each once. -/
def splitTags (heading : Text) : Texts :=
  Text.distinct (((Text.splitBy (· == ',') heading).map Text.trim).filter fun t => !t.isEmpty)

def nameLimit : Nat := 80

def ellipsis : Text := "...".toList

/-- A name from the text of a description: its words with single blanks, cut to the limit. -/
def deriveName? (text : Text) : Option Text :=
  let collapsed := Text.join [' '] (Text.words text)
  if collapsed.isEmpty then none
  else if collapsed.length ≤ nameLimit then some collapsed
  else some (Text.trimEnd (collapsed.take (nameLimit - ellipsis.length)) ++ ellipsis)

structure Assembly where
  tags : Texts := []
  draft : Option Draft := none
  questions : List Question := []
  /-- The block before, thematic breaks and comments apart, was a list. -/
  afterList : Bool := false

namespace Assembly

def placeOf (b : Block) : Location := ⟨b.line, b.index⟩

def newDraft (settings : Settings) (a : Assembly) (place : Location) (name : Option Text) :
    Draft where
  name := name
  tags := a.tags
  config := settings.questionConfig
  location := place

def openDraft (settings : Settings) (a : Assembly) (place : Location) : Draft :=
  a.draft.getD (a.newDraft settings place none)

def isEmptyParagraph (html : Text) : Bool := Text.trim html = "<p></p>".toList

def addParagraph (d : Draft) (html text : Text) : Except DirectiveError Draft :=
  let found := Directive.extract html
  match (Directive.update found.directives).run.run d.config with
  | (.error e, _) => .error e
  | (.ok (), config) =>
    let d := { d with config := config, directives := d.directives ++ found.directives }
    if isEmptyParagraph found.text then .ok d
    else .ok (d.append found.text (Text.trim (Directive.removeFrom found.directives text)))

theorem addParagraph_eq (d : Draft) (html text : Text) : addParagraph d html text =
    match Directive.applyAll (Directive.extract html).directives d.config with
    | .error e => .error e
    | .ok config =>
      let found := Directive.extract html
      let d := { d with config := config, directives := d.directives ++ found.directives }
      if isEmptyParagraph found.text then .ok d
      else .ok (d.append found.text (Text.trim (Directive.removeFrom found.directives text))) := by
  rw [addParagraph, Directive.update_eq]
  cases Directive.applyAll (Directive.extract html).directives d.config <;> rfl

def complete (settings : Settings) (d : Draft) (place : Location) (list : AnswerList) :
    Except ConvertError Question :=
  if Text.isAllBlank d.description then .error (.structural place (.noDescription d.label))
  else
    match list.classify d.config.forceMulti settings.matchingSeparator with
    | .error e => .error (.classification place d.label e)
    | .ok c =>
      match d.name.orElse fun _ => deriveName? d.plain with
      | none => .error (.structural d.location .noName)
      | some name =>
        .ok
          { name := name
            tags := d.tags
            description := d.description
            kind := c.kind
            answers := c.answers
            config := d.config
            line := d.location.line }

def step (settings : Settings) (a : Assembly) (b : Block) : Except ConvertError Assembly :=
  let place := placeOf b
  match b.kind with
  | .heading level text =>
    if level = 1 then
      match a.draft with
      | some d => .error (.structural place (.tagHeadingInside d.label))
      | none => .ok { a with tags := splitTags text, afterList := false }
    else
      match a.draft with
      | some d => .error (.structural place (.nameHeadingInside d.label))
      | none =>
        let name := Text.trim text
        let draft := a.newDraft settings place (if name.isEmpty then none else some name)
        .ok { a with draft := some draft, afterList := false }
  | .paragraph html text =>
    let d := a.openDraft settings place
    match addParagraph d html text with
    | .error e => .error (.directive place d.label e)
    | .ok d => .ok { a with draft := some d, afterList := false }
  | .code html text | .rich html text =>
    let d := a.openDraft settings place
    .ok { a with draft := some (d.append html (Text.trim text)), afterList := false }
  | .list list =>
    match a.draft with
    | none => .error (.structural place (if a.afterList then .secondList else .listAlone))
    | some d =>
      match complete settings d place list with
      | .error e => .error e
      | .ok q => .ok { a with draft := none, questions := a.questions ++ [q], afterList := true }
  | .rule | .comment => .ok a

def steps (settings : Settings) (a : Assembly) : List Block → Except ConvertError Assembly
  | [] => .ok a
  | b :: rest =>
    match a.step settings b with
    | .ok a => a.steps settings rest
    | .error e => .error e

def finish (a : Assembly) : Except ConvertError (List Question) :=
  match a.draft with
  | some d => .error (.structural d.location (.noAnswers d.label))
  | none => .ok a.questions

end Assembly

def assemble (settings : Settings) (d : Document) : Except ConvertError (List Question) :=
  match ({} : Assembly).steps settings d.visibleBlocks with
  | .ok a => a.finish
  | .error e => .error e

end Quizdown

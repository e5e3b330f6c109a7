import Quizdown.Assembly
import Quizdown.Log.Record
import Quizdown.Text.Shown

/-!
What is reported while questions are assembled: changed tags, thematic breaks that are passed over,
directives without an effect, and each complete question. A block is reported on up to the point
where it fails.
-/
set_option autoImplicit false

namespace Quizdown

/-- The keys that have no effect on questions of a kind. -/
def Kind.idleKeys : Kind → List DirectiveKey
  | .singleChoice | .multipleChoice => []
  | .associativeMatching => [.numbering, .forceMulti]
  | .enumeratedMatching | .shortAnswer | .numerical => [.shuffle, .numbering, .forceMulti]

def DirectiveKey.logName : DirectiveKey → Text
  | shuffle => "Shuffle".toList
  | numbering => "Numbering".toList
  | forceMulti => "ForceMulti".toList

namespace Assembly

def logTarget : Text := "mdquiz_core::parser".toList

def directiveLogTarget : Text := "mdquiz_core::directive".toList

def lineField (b : Block) : Text × Text := ("line".toList, Text.ofNat b.line)

def debugRecord (message : Text) (fields : List (Text × Text)) : LogRecord :=
  ⟨.debug, logTarget, message, fields⟩

def paragraphLog (d : Draft) (b : Block) (html : Text) : List LogRecord :=
  let found := Directive.extract html
  let unknown := (Directive.passedOver found.directives).map fun token =>
    ⟨.debug, directiveLogTarget, "Ignoring unknown directive".toList, [("token".toList, token)]⟩
  match Directive.applyAll found.directives d.config with
  | .ok _ =>
    if isEmptyParagraph found.text then
      unknown ++ [debugRecord "Paragraph holds directives only".toList [lineField b]]
    else unknown
  | .error _ => unknown

def listLog (settings : Settings) (d : Draft) (list : AnswerList) : List LogRecord :=
  if Text.isAllBlank d.description then []
  else
    match list.classify d.config.forceMulti settings.matchingSeparator with
    | .error _ => []
    | .ok c =>
      let kind := ("kind".toList, c.kind.name)
      let idle := (c.kind.idleKeys.filter (Directive.anyKnown d.directives)).map fun key =>
        debugRecord "Directive has no effect on this question kind".toList
          [("key".toList, key.logName), kind]
      match d.name.orElse fun _ => deriveName? d.plain with
      | none => idle
      | some name => idle ++ [debugRecord "Question parsed".toList [("name".toList, name), kind]]

def stepLog (settings : Settings) (a : Assembly) (b : Block) : List LogRecord :=
  match b.kind with
  | .heading level text =>
    if level = 1 ∧ a.draft.isNone then
      [debugRecord "Tags changed".toList
        [("tags".toList, Text.shownList (splitTags text)), lineField b]]
    else []
  | .paragraph html _ => paragraphLog (a.openDraft settings (placeOf b)) b html
  | .list list =>
    match a.draft with
    | some d => listLog settings d list
    | none => []
  | .rule => [⟨.warn, logTarget, "Ignoring thematic break".toList, [lineField b]⟩]
  | .code _ _ | .rich _ _ | .comment => []

def stepsLog (settings : Settings) (a : Assembly) : List Block → List LogRecord
  | [] => []
  | b :: rest =>
    a.stepLog settings b ++
      match a.step settings b with
      | .ok a => a.stepsLog settings rest
      | .error _ => []

end Assembly

def assembleLog (settings : Settings) (d : Document) : List LogRecord :=
  ({} : Assembly).stepsLog settings d.visibleBlocks

end Quizdown

import Quizdown.Directive.Token
import Quizdown.Question

/-!
What directives do: the keys that have an effect, the values they accept, and the settings of a
question after a list of directives.
-/
set_option autoImplicit false

namespace Quizdown

inductive DirectiveKey
  | shuffle
  | numbering
  | forceMulti
deriving DecidableEq, Repr

namespace DirectiveKey

def spellings : DirectiveKey → Texts
  | shuffle =>
    ["shuffle".toList, "shuffle_answers".toList, "shuffleanswers".toList, "suffleanswers".toList]
  | numbering => ["numbering".toList, "answernumbering".toList]
  | forceMulti => ["force_multi".toList, "force_multiple_choice".toList, "multi".toList]

def ofName? (s : Text) : Option DirectiveKey :=
  [shuffle, numbering, forceMulti].find? fun k => k.spellings.contains (Text.asciiLower s)

end DirectiveKey

inductive DirectiveFault
  | notBoolean
  | unknownNumbering (value : Text)
deriving DecidableEq, Repr

def DirectiveFault.message : DirectiveFault → Text
  | notBoolean => "invalid boolean value, expected true/false, yes/no or 1/0".toList
  | unknownNumbering value => Numbering.unknownMessage value

structure DirectiveError where
  token : Text
  fault : DirectiveFault
deriving DecidableEq, Repr

def DirectiveError.message (e : DirectiveError) : Text :=
  e.fault.message ++ " (`".toList ++ e.token ++ "`)".toList

namespace Directive

def known? (d : Directive) : Option DirectiveKey := DirectiveKey.ofName? d.key

def boolean? (value : Text) : Option Bool :=
  let v := Text.asciiLower value
  if ["true".toList, "yes".toList, ['1']].contains v then some true
  else if ["false".toList, "no".toList, ['0']].contains v then some false
  else none

def applyOne (config : QuestionConfig) (d : Directive) : Except DirectiveError QuestionConfig :=
  match d.known? with
  | none => .ok config
  | some .shuffle =>
    match boolean? d.value with
    | some b => .ok { config with shuffle := b }
    | none => .error ⟨d.token, .notBoolean⟩
  | some .forceMulti =>
    match boolean? d.value with
    | some b => .ok { config with forceMulti := b }
    | none => .error ⟨d.token, .notBoolean⟩
  | some .numbering =>
    match Numbering.ofName? d.value with
    | some n => .ok { config with numbering := n }
    | none => .error ⟨d.token, .unknownNumbering d.value⟩

/-- The settings after all directives, in order; the first refused one decides otherwise. -/
def applyAll : List Directive → QuestionConfig → Except DirectiveError QuestionConfig
  | [], config => .ok config
  | d :: rest, config =>
    match applyOne config d with
    | .ok config => applyAll rest config
    | .error e => .error e

/-- Applies directives to settings that are kept in one place. They are worked out on a copy, which
is put back at the end. -/
def update (ds : List Directive) : ExceptT DirectiveError (StateM QuestionConfig) Unit := do
  let copy ← get
  set (← liftM (applyAll ds copy))

/-- The settings are the new ones if every value is accepted, and otherwise those from before. -/
theorem update_eq (ds : List Directive) (config : QuestionConfig) :
    (update ds).run.run config =
      match applyAll ds config with
      | .ok result => (.ok (), result)
      | .error e => (.error e, config) := by
  change (do set (← liftM (applyAll ds config)) :
    ExceptT DirectiveError (StateM QuestionConfig) PUnit).run.run config = _
  cases applyAll ds config <;> rfl

def anyKnown (directives : List Directive) (key : DirectiveKey) : Bool :=
  directives.any fun d => d.known? == some key

def accepted (d : Directive) : Bool :=
  match d.known? with
  | none => true
  | some .numbering => (Numbering.ofName? d.value).isSome
  | some _ => (boolean? d.value).isSome

def passedOver (directives : List Directive) : Texts :=
  ((directives.takeWhile accepted).filter fun d => d.known?.isNone).map token

end Directive
end Quizdown

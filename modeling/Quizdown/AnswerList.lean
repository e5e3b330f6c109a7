import Quizdown.Numeric
import Quizdown.Question

/-!
Answer lists and the kind of question each stands for. The kind follows from the number of items,
the check boxes, the numbering of the list, and whether every item is a pair of key and value.
-/
set_option autoImplicit false

namespace Quizdown

structure Item where
  html : Text
  text : Text
  checked : Option Bool
deriving DecidableEq, Repr

structure AnswerList where
  ordered : Bool
  items : List Item
deriving DecidableEq, Repr

structure Classification where
  kind : Kind
  answers : List Answer

inductive ClassifyError
  | emptyList
  | emptyItem (position : Nat)
  | noCorrectAnswer
  | mixedCheckboxes
  | ambiguous (items : Nat)
deriving DecidableEq, Repr

def ClassifyError.message : ClassifyError → Text
  | emptyList => "answer list is empty".toList
  | emptyItem position => "answer list item ".toList ++ Text.ofNat position ++ " has no text".toList
  | noCorrectAnswer => "choice question needs at least one checked answer".toList
  | mixedCheckboxes => "answer list mixes checkbox and plain items".toList
  | ambiguous items =>
    "cannot classify unordered list of ".toList ++ Text.ofNat items ++
      " items without checkboxes or key/value separators".toList

structure Share where
  num : Int
  den : Nat
deriving DecidableEq, Repr

def Share.toFloat (s : Share) : Float := Float.ofInt s.num / Float.ofNat s.den

/-- The text before and after the first separator that starts outside tags. The flag says that the
text starts inside a tag. -/
def Text.splitOutsideTagsFrom (separator : Text) : Bool → Text → Option (Text × Text)
  | _, [] => none
  | inTag, c :: s =>
    if c = '<' then (splitOutsideTagsFrom separator true s).map fun (k, v) => (c :: k, v)
    else if inTag then
      (splitOutsideTagsFrom separator (c ≠ '>') s).map fun (k, v) => (c :: k, v)
    else
      match stripPrefix? separator (c :: s) with
      | some rest => some ([], rest)
      | none => (splitOutsideTagsFrom separator false s).map fun (k, v) => (c :: k, v)

def Text.splitOutsideTags (separator s : Text) : Option (Text × Text) :=
  if separator.isEmpty then none else splitOutsideTagsFrom separator false s

namespace Item

def pair? (separator : Text) (item : Item) : Option Answer :=
  match Text.splitOutsideTags separator item.html with
  | none => none
  | some (key, value) =>
    let key := Text.trim key
    let value := Text.trim value
    if key.isEmpty || value.isEmpty then none
    else some { text := value, matchKey := some key, matchValue := some value }

def single (item : Item) : Classification :=
  match NumericAnswer.ofText? item.text with
  | some n =>
    ⟨.numerical, [{ text := n.shownValue, fraction := 100.0, tolerance := some n.toleranceValue }]⟩
  | none => ⟨.shortAnswer, [{ text := Text.trim item.text, fraction := 100.0 }]⟩

def option (correct wrong : Share) (item : Item) : Answer :=
  let checked := item.checked == some true
  { text := item.html, checked, fraction := (if checked then correct else wrong).toFloat }

end Item

namespace AnswerList

def pairs? (separator : Text) : List Item → Option (List Answer)
  | [] => some []
  | item :: rest =>
    match item.pair? separator, pairs? separator rest with
    | some a, some answers => some (a :: answers)
    | _, _ => none

def enumerated (i : Nat) : List Item → List Answer
  | [] => []
  | item :: rest => { text := item.html, orderIndex := some (i + 1) } :: enumerated (i + 1) rest

def credits (kind : Kind) (correct wrong : Nat) : Share × Share :=
  if kind = .singleChoice then (⟨100, 1⟩, ⟨0, 1⟩)
  else (⟨100, correct⟩, if wrong = 0 then ⟨0, 1⟩ else ⟨-100, wrong⟩)

/-- Options with check boxes: single choice if exactly one is checked and that is not overruled. -/
def choice (items : List Item) (forceMulti : Bool) : Except ClassifyError Classification :=
  let correct := (items.filter fun item => item.checked == some true).length
  let wrong := items.length - correct
  if correct = 0 then .error .noCorrectAnswer
  else
    let kind : Kind := if correct = 1 && !forceMulti then .singleChoice else .multipleChoice
    let (right, other) := credits kind correct wrong
    .ok ⟨kind, items.map (Item.option right other)⟩

def firstBlank? (items : List Item) : Option Nat :=
  (items.findIdx? fun item => Text.isAllBlank item.text).map (· + 1)

def classify (list : AnswerList) (forceMulti : Bool) (separator : Text) :
    Except ClassifyError Classification :=
  let items := list.items
  if items.isEmpty then .error .emptyList
  else
    match firstBlank? items with
    | some position => .error (.emptyItem position)
    | none =>
      let boxes := (items.filter fun item => item.checked.isSome).length
      if boxes = 0 then
        match if 2 ≤ items.length then pairs? separator items else none with
        | some answers => .ok ⟨.associativeMatching, answers⟩
        | none =>
          if list.ordered then .ok ⟨.enumeratedMatching, enumerated 0 items⟩
          else
            match items with
            | [item] => .ok item.single
            | _ => .error (.ambiguous items.length)
      else if boxes = items.length then choice items forceMulti
      else .error .mixedCheckboxes

end AnswerList
end Quizdown

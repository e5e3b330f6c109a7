import Quizdown.Text.Basic

/-!
XML elements: a tag, attributes in order, one text in front of the children, and the children.
-/
set_option autoImplicit false

namespace Quizdown

inductive Element
  | mk (tag : Text) (attributes : List (Text × Text)) (text : Text) (children : List Element)
deriving Repr, Inhabited

namespace Element

def tag : Element → Text
  | mk tag _ _ _ => tag

def attributes : Element → List (Text × Text)
  | mk _ attributes _ _ => attributes

def text : Element → Text
  | mk _ _ text _ => text

def children : Element → List Element
  | mk _ _ _ children => children

def leaf (tag text : Text) : Element := mk tag [] text []

def node (tag : Text) (children : List Element) : Element := mk tag [] [] children

def withAttribute (name value : Text) : Element → Element
  | mk tag attributes text children => mk tag (attributes ++ [(name, value)]) text children

def append (more : List Element) : Element → Element
  | mk tag attributes text children => mk tag attributes text (children ++ more)

def wrapped (tag text : Text) : Element := node tag [leaf "text".toList text]

def attribute? (e : Element) (name : Text) : Option Text :=
  (e.attributes.find? fun a => a.1 = name).map Prod.snd

def child? (e : Element) (tag : Text) : Option Element :=
  e.children.find? fun c => c.tag = tag

def childrenTagged (e : Element) (tag : Text) : List Element :=
  e.children.filter fun c => c.tag = tag

def descend? (e : Element) : Texts → Option Element
  | [] => some e
  | tag :: path => (e.child? tag).bind fun c => c.descend? path

/-- The text at a path of tags separated by `/`. -/
def textAt? (e : Element) (path : Text) : Option Text :=
  (e.descend? (Text.splitBy (· == '/') path)).map Element.text

end Element
end Quizdown

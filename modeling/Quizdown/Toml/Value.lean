import Quizdown.Text.Basic

/-!
The values of a TOML document.
-/
set_option autoImplicit false

namespace Quizdown
namespace Toml

/-- A value. The keys of a table are distinct and stand in the order of the document. -/
inductive Value
  | string (content : Text)
  | integer (n : Int)
  | float (x : Float)
  | boolean (b : Bool)
  | dateTime (written : Text)
  | array (items : List Value)
  | table (entries : List (Text × Value))

abbrev Table := List (Text × Value)

def Table.get? (t : Table) (key : Text) : Option Value :=
  (t.find? fun e => e.1 = key).map Prod.snd

end Toml
end Quizdown

import Quizdown.Text.Radix
import Quizdown.Text.Ranges
import Quizdown.Xml.Element
import Mathlib.Data.List.TakeWhile

/-!
Reading XML text: a declaration and one element with attributes, text and elements inside. The text
is cut into tokens, and the tokens are put together along a stack of open elements. References to
characters and to the five predefined entities are decoded. The text of an element stands in front
of its first child; white space alone is dropped there, and nothing else may stand between children.
Comments, sections and instructions are refused.
-/
set_option autoImplicit false

namespace Quizdown
namespace Xml

def isSpace (c : Char) : Bool := c == ' ' || c == '\t' || c == '\n' || c == '\r'

def nameStartRanges : Array (Nat × Nat) :=
  #[
    (0x3A, 0x3A), (0x41, 0x5A), (0x5F, 0x5F), (0x61, 0x7A), (0xC0, 0xD6), (0xD8, 0xF6),
    (0xF8, 0x2FF), (0x370, 0x37D), (0x37F, 0x1FFF), (0x200C, 0x200D), (0x2070, 0x218F),
    (0x2C00, 0x2FEF), (0x3001, 0xD7FF), (0xF900, 0xFDCF), (0xFDF0, 0xFFFD), (0x10000, 0xEFFFF)]

def nameInnerRanges : Array (Nat × Nat) :=
  #[(0x2D, 0x2E), (0x30, 0x39), (0xB7, 0xB7), (0x300, 0x36F), (0x203F, 0x2040)]

def isNameStart (c : Char) : Bool := Text.inRanges nameStartRanges c.toNat

def isNameChar (c : Char) : Bool := isNameStart c || Text.inRanges nameInnerRanges c.toNat

def isName : Text → Bool
  | c :: s => isNameStart c && s.all isNameChar
  | [] => false

def readName? : Text → Option (Text × Text)
  | c :: s =>
    if isNameStart c then some (c :: s.takeWhile isNameChar, s.dropWhile isNameChar) else none
  | [] => none

def entities : List (Text × Char) :=
  [("lt".toList, '<'), ("gt".toList, '>'), ("amp".toList, '&'), ("apos".toList, '\''),
    ("quot".toList, '"')]

def character? (radix : Nat) (digits : Text) : Option Char :=
  if !digits.isEmpty && digits.all (Text.isDigit radix) &&
      (Text.numeral radix digits).isValidChar then
    some (Char.ofNat (Text.numeral radix digits))
  else none

def reference? : Text → Option Char
  | '#' :: 'x' :: digits => character? 16 digits
  | '#' :: digits => character? 10 digits
  | name => (entities.find? fun e => e.1 = name).map Prod.snd

/-- Decodes text without markup. The first argument is what has been read of an open reference,
latest first. -/
def decodeFrom : Option Text → Text → Option Text
  | none, [] => some []
  | some _, [] => none
  | none, c :: s =>
    if c = '&' then decodeFrom (some []) s
    else if c = '<' then none
    else (decodeFrom none s).map (c :: ·)
  | some name, c :: s =>
    if c = ';' then (reference? name.reverse).bind fun d => (decodeFrom none s).map (d :: ·)
    else decodeFrom (some (c :: name)) s

def decode? (s : Text) : Option Text := decodeFrom none s

def readValue? : Text → Option (Text × Text)
  | q :: s =>
    if q = '"' || q = '\'' then
      match s.dropWhile (· != q) with
      | _ :: rest => (decode? (s.takeWhile (· != q))).map fun value => (value, rest)
      | [] => none
    else none
  | [] => none

def readAttribute? (s : Text) : Option ((Text × Text) × Text) :=
  match readName? s with
  | none => none
  | some (name, rest) =>
    match rest.dropWhile isSpace with
    | '=' :: rest =>
      (readValue? (rest.dropWhile isSpace)).map fun (value, rest) => ((name, value), rest)
    | _ => none

theorem readName?_length {s name rest : Text} (h : readName? s = some (name, rest)) :
    rest.length < s.length := by
  cases s with
  | nil => cases h
  | cons c s =>
    rw [readName?] at h
    split at h
    · cases h
      have := List.length_dropWhile_le isNameChar s
      simp only [List.length_cons]
      omega
    · cases h

theorem readValue?_length {s value rest : Text} (h : readValue? s = some (value, rest)) :
    rest.length < s.length := by
  cases s with
  | nil => cases h
  | cons q s =>
    rw [readValue?] at h
    split at h
    · split at h
      · rename_i c tail hd
        have hl := List.length_dropWhile_le (· != q) s
        obtain ⟨v, -, hv⟩ := Option.map_eq_some_iff.mp h
        cases hv
        rw [hd] at hl
        simp only [List.length_cons] at *
        omega
      · cases h
    · cases h

theorem readAttribute?_length {s rest : Text} {a : Text × Text}
    (h : readAttribute? s = some (a, rest)) : rest.length < s.length := by
  unfold readAttribute? at h
  split at h
  · cases h
  · rename_i name afterName hname
    split at h
    · rename_i afterEqual hequal
      obtain ⟨⟨value, afterValue⟩, hvalue, hrest⟩ := Option.map_eq_some_iff.mp h
      cases hrest
      have h1 := readName?_length hname
      have h2 := List.length_dropWhile_le isSpace afterName
      have h3 := List.length_dropWhile_le isSpace afterEqual
      have h4 := readValue?_length hvalue
      rw [hequal, List.length_cons] at h2
      omega
    · cases h

def readAttributes? (s : Text) : Option (List (Text × Text) × Text) :=
  if s.head?.any isSpace && (s.dropWhile isSpace).head?.any isNameStart then
    match _h : readAttribute? (s.dropWhile isSpace) with
    | none => none
    | some (a, rest) => (readAttributes? rest).map fun (more, rest) => (a :: more, rest)
  else some ([], s.dropWhile isSpace)
termination_by s.length
decreasing_by
  have hread := readAttribute?_length _h
  have hdrop := List.length_dropWhile_le isSpace s
  omega

inductive Token
  | start (tag : Text) (attributes : List (Text × Text))
  | empty (tag : Text) (attributes : List (Text × Text))
  | stop (tag : Text)
  | text (s : Text)
deriving DecidableEq, Repr

def readStart? (s : Text) : Option (Token × Text) :=
  match readName? s with
  | none => none
  | some (tag, rest) =>
    match readAttributes? rest with
    | some (attributes, '>' :: rest) => some (.start tag attributes, rest)
    | some (attributes, '/' :: '>' :: rest) => some (.empty tag attributes, rest)
    | _ => none

def readStop? (s : Text) : Option (Token × Text) :=
  match readName? s with
  | none => none
  | some (tag, rest) =>
    match rest.dropWhile isSpace with
    | '>' :: rest => some (.stop tag, rest)
    | _ => none

def readToken? : Text → Option (Token × Text)
  | [] => none
  | '<' :: '/' :: s => readStop? s
  | '<' :: s => readStart? s
  | c :: s =>
    (decode? (c :: s.takeWhile (· != '<'))).map fun text => (.text text, s.dropWhile (· != '<'))

theorem readAttributes?_length {s rest : Text} {attributes : List (Text × Text)}
    (h : readAttributes? s = some (attributes, rest)) : rest.length ≤ s.length := by
  fun_induction readAttributes? s generalizing attributes rest with
  | case1 => cases h
  | case2 s _ a afterFirst hread ih =>
    obtain ⟨⟨more, afterMore⟩, hmore, hrest⟩ := Option.map_eq_some_iff.mp h
    cases hrest
    have h1 := List.length_dropWhile_le isSpace s
    have h2 := readAttribute?_length hread
    have h3 := ih hmore
    omega
  | case3 =>
    cases h
    exact List.length_dropWhile_le isSpace _

theorem readStart?_length {s rest : Text} {t : Token} (h : readStart? s = some (t, rest)) :
    rest.length < s.length := by
  unfold readStart? at h
  split at h
  · cases h
  · rename_i tag afterName hname
    have h1 := readName?_length hname
    split at h
    · rename_i hattributes
      have h2 := readAttributes?_length hattributes
      cases h
      simp only [List.length_cons] at h2
      omega
    · rename_i hattributes
      have h2 := readAttributes?_length hattributes
      cases h
      simp only [List.length_cons] at h2
      omega
    · cases h

theorem readStop?_length {s rest : Text} {t : Token} (h : readStop? s = some (t, rest)) :
    rest.length < s.length := by
  unfold readStop? at h
  split at h
  · cases h
  · rename_i tag afterName hname
    split at h
    · rename_i hclose
      cases h
      have h1 := readName?_length hname
      have h2 := List.length_dropWhile_le isSpace afterName
      rw [hclose, List.length_cons] at h2
      omega
    · cases h

theorem readToken?_length {s rest : Text} {t : Token} (h : readToken? s = some (t, rest)) :
    rest.length < s.length := by
  unfold readToken? at h
  split at h
  · cases h
  · have hstop := readStop?_length h
    simp only [List.length_cons]
    omega
  · have hstart := readStart?_length h
    simp only [List.length_cons]
    omega
  · rename_i c s _ _
    obtain ⟨text, -, htext⟩ := Option.map_eq_some_iff.mp h
    cases htext
    have hdrop := List.length_dropWhile_le (· != '<') s
    simp only [List.length_cons]
    omega

structure Frame where
  tag : Text
  attributes : List (Text × Text)
  text : Text
  children : List Element

namespace Frame

/-- Adds a child. White space alone in front of it is layout. -/
def add (f : Frame) (e : Element) : Frame where
  tag := f.tag
  attributes := f.attributes
  text := if f.text.all isSpace then [] else f.text
  children := e :: f.children

def element (f : Frame) : Element := .mk f.tag f.attributes f.text f.children.reverse

end Frame

/-- The open elements, the innermost one apart from those around it. -/
structure Stack where
  current : Frame
  outer : List Frame

namespace Stack

def bottom : Stack := ⟨⟨[], [], [], []⟩, []⟩

def add (k : Stack) (e : Element) : Stack := { k with current := k.current.add e }

def step (k : Stack) : Token → Option Stack
  | .start tag attributes => some ⟨⟨tag, attributes, [], []⟩, k.current :: k.outer⟩
  | .empty tag attributes => some (k.add (.mk tag attributes [] []))
  | .stop tag =>
    match k.outer with
    | f :: outer =>
      if k.current.tag = tag then some ⟨f.add k.current.element, outer⟩ else none
    | [] => none
  | .text s =>
    if k.current.children.isEmpty then
      some { k with current := { k.current with text := k.current.text ++ s } }
    else if s.all isSpace then some k
    else none

def run (k : Stack) (s : Text) : Option Stack :=
  if s.isEmpty then some k
  else
    match _h : readToken? s with
    | none => none
    | some (t, rest) =>
      match k.step t with
      | none => none
      | some next => next.run rest
termination_by s.length
decreasing_by exact readToken?_length _h

end Stack

def dropDeclaration (s : Text) : Text :=
  match Text.stripPrefix? "<?xml".toList s with
  | none => s
  | some rest =>
    match Text.splitFirst? "?>".toList rest with
    | none => s
    | some (_, rest) => rest

def read? (s : Text) : Option Element :=
  match Stack.bottom.run (dropDeclaration s) with
  | some ⟨⟨_, _, [], [root]⟩, []⟩ => some root
  | _ => none

-- Quotes, references and blanks that the writer does not make are read as well.
example : (read? "<a x = '&#x41;&quot;'>\n <b/></a >".toList).map Element.attributes =
    some [("x".toList, "A\"".toList)] := by decide +kernel

end Xml
end Quizdown

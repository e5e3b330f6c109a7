import Quizdown.Xml.Element

/-!
XML text of an element. Every tag starts a line of its own, two blanks deeper for each level,
unless it follows a text directly: so a text is never changed by the layout.
-/
set_option autoImplicit false

namespace Quizdown

def escapeText (s : Text) : Text :=
  s.flatMap fun c =>
    if c = '<' then "&lt;".toList
    else if c = '>' then "&gt;".toList
    else if c = '&' then "&amp;".toList
    else [c]

def escapeValue (s : Text) : Text :=
  s.flatMap fun c =>
    if c = '<' then "&lt;".toList
    else if c = '>' then "&gt;".toList
    else if c = '&' then "&amp;".toList
    else if c = '\'' then "&apos;".toList
    else if c = '"' then "&quot;".toList
    else [c]

namespace Element

def newLine (depth : Nat) : Text := '\n' :: List.replicate (2 * depth) ' '

def attributeText (a : Text × Text) : Text :=
  ' ' :: a.1 ++ '=' :: '"' :: escapeValue a.2 ++ ['"']

mutual

def body (depth : Nat) : Element → Text
  | mk tag attributes text children =>
    let opening := '<' :: tag ++ attributes.flatMap attributeText
    if text.isEmpty && children.isEmpty then opening ++ "/>".toList
    else
      opening ++ '>' :: escapeText text ++ bodies (depth + 1) (!text.isEmpty) children ++
        (if children.isEmpty then [] else newLine depth) ++ "</".toList ++ tag ++ ['>']

/-- Elements one after the other; the first starts no new line if it follows a text. -/
def bodies (depth : Nat) (afterText : Bool) : List Element → Text
  | [] => []
  | e :: rest =>
    (if afterText then [] else newLine depth) ++ body depth e ++ bodies depth false rest

end

def declaration : Text := "<?xml version=\"1.0\" encoding=\"UTF-8\"?>".toList

def document (root : Element) : Text := declaration ++ newLine 0 ++ root.body 0 ++ ['\n']

end Element
end Quizdown

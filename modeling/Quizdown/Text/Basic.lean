/-!
Text as a list of characters, with the operations the quiz reader is built from.
Blank characters are those of the Unicode property White_Space; every trimming and splitting
function of the library uses that class unless it says otherwise.
-/
set_option autoImplicit false

namespace Quizdown

/-- Text is the list of its Unicode scalar values. -/
abbrev Text := List Char

abbrev Texts := List Text

namespace Text

/-- The Unicode property White_Space. -/
def isBlank (c : Char) : Bool :=
  let n := c.toNat
  (9 ≤ n && n ≤ 13) || n == 0x20 || n == 0x85 || n == 0xA0 || n == 0x1680 ||
    (0x2000 ≤ n && n ≤ 0x200A) || n == 0x2028 || n == 0x2029 || n == 0x202F || n == 0x205F ||
    n == 0x3000

def trimStart (s : Text) : Text := s.dropWhile isBlank

def trimEnd (s : Text) : Text := (s.reverse.dropWhile isBlank).reverse

def trim (s : Text) : Text := trimEnd (trimStart s)

def isAllBlank (s : Text) : Bool := s.all isBlank

def endsBlank (s : Text) : Bool := s.getLast?.any isBlank

def trimEndOf (c : Char) (s : Text) : Text := (s.reverse.dropWhile (· == c)).reverse

def stripPrefix? (pre s : Text) : Option Text := pre.isPrefixOf? s

def startsWith (s pre : Text) : Bool := pre.isPrefixOf s

def contains (needle : Text) : Text → Bool
  | [] => needle.isEmpty
  | c :: s => startsWith (c :: s) needle || contains needle s

/-- The text before and after the first occurrence of `needle`. -/
def splitFirst? (needle : Text) : Text → Option (Text × Text)
  | [] => if needle.isEmpty then some ([], []) else none
  | c :: s =>
    match stripPrefix? needle (c :: s) with
    | some rest => some ([], rest)
    | none => (splitFirst? needle s).map fun (before, rest) => (c :: before, rest)

/-- The pieces between the characters for which `p` holds; there is always at least one. -/
def splitBy (p : Char → Bool) : Text → Texts
  | [] => [[]]
  | c :: s =>
    if p c then [] :: splitBy p s
    else
      match splitBy p s with
      | piece :: pieces => (c :: piece) :: pieces
      | [] => [[c]]

def words (s : Text) : Texts := (splitBy isBlank s).filter fun w => !w.isEmpty

def join (sep : Text) : Texts → Text
  | [] => []
  | [s] => s
  | s :: t :: rest => s ++ sep ++ join sep (t :: rest)

def le : Text → Text → Bool
  | [], _ => true
  | _ :: _, [] => false
  | a :: s, b :: t => if a = b then le s t else a.toNat < b.toNat

/-- Lower case for the letters A to Z; every other character stays. -/
def asciiLower (s : Text) : Text := s.map Char.toLower

def byteSize (s : Text) : Nat := s.foldl (fun n c => n + c.utf8Size) 0

def ofNat (n : Nat) : Text := Nat.toDigits 10 n

end Text
end Quizdown

import Quizdown.Text.Radix

/-!
Dates and times: `1979-05-27`, `07:32:00.5`, both joined by `T` or a space, and then perhaps the
distance to universal time. Seconds may be left out.
-/
set_option autoImplicit false

namespace Quizdown
namespace Toml
namespace DateTime

def digits? (count : Nat) (s : Text) : Option (Nat × Text) :=
  let number := s.take count
  if number.length = count ∧ number.all Char.isDigit then
    some (Text.numeral 10 number, s.drop count)
  else none

def daysIn (year month : Nat) : Nat :=
  if month = 2 then
    if year % 4 = 0 ∧ (year % 100 ≠ 0 ∨ year % 400 = 0) then 29 else 28
  else if [4, 6, 9, 11].contains month then 30
  else 31

def date? (s : Text) : Option Text := do
  let (year, s) ← digits? 4 s
  let (month, s) ← digits? 2 (← Text.stripPrefix? ['-'] s)
  let (day, s) ← digits? 2 (← Text.stripPrefix? ['-'] s)
  if 1 ≤ month ∧ month ≤ 12 ∧ 1 ≤ day ∧ day ≤ daysIn year month then some s else none

def hourMinute? (s : Text) : Option Text := do
  let (hour, s) ← digits? 2 s
  let (minute, s) ← digits? 2 (← Text.stripPrefix? [':'] s)
  if hour ≤ 23 ∧ minute ≤ 59 then some s else none

def time? (s : Text) : Option Text := do
  match ← hourMinute? s with
  | ':' :: s =>
    let (second, s) ← digits? 2 s
    if second > 60 then none
    else
      match s with
      | '.' :: s => if s.head?.any Char.isDigit then some (s.dropWhile Char.isDigit) else none
      | s => some s
  | s => some s

def offset? : Text → Option Text
  | 'Z' :: s | 'z' :: s => some s
  | '+' :: s | '-' :: s => hourMinute? s
  | _ => none

def accepts (s : Text) : Bool :=
  match date? s with
  | some [] => true
  | some (c :: s) =>
    [' ', 'T', 't'].contains c && match time? s with
      | some [] => true
      | some rest => offset? rest == some []
      | none => false
  | none => time? s == some []

end DateTime
end Toml
end Quizdown

import Quizdown.Log.Record
import Quizdown.Text.Radix
import Quizdown.Text.WordChar

/-!
Which records are shown. A filter is a list of rules; each sets the least urgent level that is
shown for the targets that begin with some text. Of the rules for a target the one with the
longest text decides, and a target without a rule shows nothing.
-/
set_option autoImplicit false

namespace Quizdown

structure LogRule where
  target : Text := []
  levels : Nat
deriving DecidableEq, Repr

/-- The rules of a filter; of two for the same targets the later one counts. -/
structure LogFilter where
  rules : List LogRule
deriving DecidableEq, Repr

namespace LogFilter

def upTo (l : LogLevel) : LogFilter := ⟨[⟨[], l.rank⟩]⟩

def stronger (a b : LogRule) : LogRule :=
  if a.target.length ≤ b.target.length then b else a

def ruleFor (f : LogFilter) (target : Text) : Option LogRule :=
  (f.rules.filter fun r => Text.startsWith target r.target).foldl
    (fun best r => some (match best with
      | some b => stronger b r
      | none => r)) none

def shows (f : LogFilter) (r : LogRecord) : Bool :=
  (f.ruleFor r.target).any fun rule => r.level.rank ≤ rule.levels

def levels? (s : Text) : Option Nat :=
  let lower := Text.asciiLower s
  match LogLevel.all.find? fun l => Text.asciiLower l.name = lower with
  | some l => some l.rank
  | none =>
    let digits := if s.head? = some '+' then s.drop 1 else s
    if lower = "off".toList then some 0
    else if digits.isEmpty || !digits.all Char.isDigit then none
    else some (Text.numeral 10 digits) |>.filter (· ≤ LogLevel.all.length)

inductive Clause
  | rule (r : LogRule)
  /-- Holds inside spans only, and this program opens none. -/
  | spans
deriving DecidableEq, Repr

def isStart (c : Char) : Bool := Text.isWordChar c || c == '-' || c == ':'

def behindSpan? (s : Text) : Option Text :=
  match s.dropWhile fun c => c ≠ ']' ∧ c ≠ '\x7b' with
  | ']' :: rest => some rest
  | _ :: field =>
    match field.span (· ≠ '\x7d') with
    | (_ :: _, '\x7d' :: ']' :: rest) => some rest
    | _ => none
  | [] => none

def levelOrAll? (s : Text) : Option Nat :=
  if s.isEmpty then some LogLevel.trace.rank else levels? s

/-- Reads a clause: a level, a target, or a target with a level. A target may have a span
behind it. Blanks belong to what they stand in, and none may lead a target with a level. -/
def clause? (s : Text) : Option Clause :=
  let isPart (c : Char) : Bool := c ≠ '=' && c ≠ '['
  let target := s.takeWhile isPart
  match (Text.trimStart s).head? with
  | none => none
  | some first =>
    if first ≠ '[' && !isStart first then none
    else
      match s.dropWhile isPart with
      | '=' :: level =>
        if target.head?.any isStart then
          (levelOrAll? level).map fun n => .rule ⟨target, n⟩
        else none
      | '[' :: span =>
        match behindSpan? span with
        | some [] => some .spans
        | some ('=' :: level) => (levelOrAll? level).map fun _ => .spans
        | _ => none
      | _ =>
        match levels? s with
        | some n => some (.rule ⟨[], n⟩)
        | none => some (.rule ⟨s, LogLevel.trace.rank⟩)

def ofText? (s : Text) : Option LogFilter :=
  let parts := (Text.splitBy (· == ',') s).filter fun part => !part.isEmpty
  if parts.isEmpty then some (upTo .error)
  else
    (parts.mapM clause?).map fun ds =>
      ⟨ds.filterMap fun d => match d with
        | .rule r => some r
        | .spans => none⟩

/-- The filter of a run: more details where they are asked for, else what is configured, else
warnings. -/
def ofRequest (verbose : Bool) (configured : Text) : LogFilter :=
  if verbose then upTo .info
  else if Text.isAllBlank configured then upTo .warn
  else (ofText? configured).getD (upTo .warn)

end LogFilter
end Quizdown

import Quizdown.Text.Basic

/-!
What the program reports about its work: records with a level, a target that says which part of
the program speaks, a message, and fields.
-/
set_option autoImplicit false

namespace Quizdown

inductive LogLevel
  | error
  | warn
  | info
  | debug
  | trace
deriving DecidableEq, Repr

namespace LogLevel

def all : List LogLevel := [error, warn, info, debug, trace]

def name : LogLevel → Text
  | error => "ERROR".toList
  | warn => "WARN".toList
  | info => "INFO".toList
  | debug => "DEBUG".toList
  | trace => "TRACE".toList

def rank : LogLevel → Nat
  | error => 1
  | warn => 2
  | info => 3
  | debug => 4
  | trace => 5

end LogLevel

structure LogRecord where
  level : LogLevel
  target : Text
  message : Text
  fields : List (Text × Text) := []
deriving DecidableEq, Repr

def LogRecord.line (r : LogRecord) : Text :=
  r.level.name ++ ' ' :: r.target ++ ": ".toList ++ r.message ++
    r.fields.flatMap fun (name, value) => ' ' :: name ++ '=' :: value

end Quizdown

import Quizdown.Config.Load

/-!
The words of a command line: a command, options with their values, and inputs. An option is
written with its long name or its letter, its value in the same word or the next one; letters
without a value may share a word. Everything behind a lone double hyphen is an input.
-/
set_option autoImplicit false

namespace Quizdown
namespace Command

inductive Flag
  | config
  | tags
  | shuffle
  | numbering
  | outputDirectory
  | verbose
deriving DecidableEq, Repr

namespace Flag

def longName : Flag → Text
  | config => "config".toList
  | tags => "tags".toList
  | shuffle => "shuffle".toList
  | numbering => "numbering".toList
  | outputDirectory => "output-dir".toList
  | verbose => "verbose".toList

def letter : Flag → Char
  | config => 'c'
  | tags => 't'
  | shuffle => 's'
  | numbering => 'n'
  | outputDirectory => 'o'
  | verbose => 'v'

def takesValue : Flag → Bool
  | verbose => false
  | _ => true

end Flag

structure Words where
  options : List (Flag × Text) := []
  inputs : Texts := []
deriving DecidableEq, Repr

namespace Words

def withOption (flag : Flag) (value : Text) (ws : Words) : Words :=
  { ws with options := (flag, value) :: ws.options }

def withInput (input : Text) (ws : Words) : Words := { ws with inputs := input :: ws.inputs }

def valuesOf (ws : Words) (flag : Flag) : Texts :=
  (ws.options.filter fun o => o.1 = flag).map Prod.snd

end Words

def looksLikeOption : Text → Bool
  | '-' :: _ :: _ => true
  | _ => false

def longOption? (flags : List Flag) (word : Text) : Option (Flag × Option Text) :=
  let name := word.takeWhile (· ≠ '=')
  match flags.find? fun f => f.longName = name with
  | none => none
  | some f =>
    match word.dropWhile (· ≠ '=') with
    | [] => some (f, none)
    | _ :: value => if f.takesValue then some (f, some value) else none

/-- Letters in one word: the options among them, and the last one if its value is still missing.
What follows an option that takes a value is that value. -/
def letters? (flags : List Flag) : Text → Option (List (Flag × Text) × Option Flag)
  | [] => some ([], none)
  | c :: rest =>
    match flags.find? fun f => f.letter = c with
    | none => none
    | some f =>
      if !f.takesValue then (letters? flags rest).map fun (os, open?) => ((f, []) :: os, open?)
      else
        match rest with
        | [] => some ([], some f)
        | '=' :: value => some ([(f, value)], none)
        | value => some ([(f, value)], none)

def words? (flags : List Flag) : Texts → Option Words
  | [] => some {}
  | ['-', '-'] :: rest => some ⟨[], rest⟩
  | ('-' :: '-' :: word) :: rest =>
    match longOption? flags word with
    | none => none
    | some (f, some value) => (words? flags rest).map (Words.withOption f value)
    | some (f, none) =>
      if f.takesValue then
        match rest with
        | value :: rest =>
          if looksLikeOption value then none
          else (words? flags rest).map (Words.withOption f value)
        | [] => none
      else (words? flags rest).map (Words.withOption f [])
  | word :: rest =>
    if looksLikeOption word then
      match letters? flags (word.drop 1) with
      | none => none
      | some (os, none) =>
        (words? flags rest).map fun ws => { ws with options := os ++ ws.options }
      | some (os, some f) =>
        match rest with
        | value :: rest =>
          if looksLikeOption value then none
          else
            (words? flags rest).map fun ws => { ws with options := os ++ (f, value) :: ws.options }
        | [] => none
    else (words? flags rest).map (Words.withInput word)

inductive Action
  | check
  | convert (overrides : Config.Overrides) (outputDirectory : Option Text)
deriving DecidableEq, Repr

structure Request where
  action : Action
  inputs : Texts
  config : Option Text := none
  verbose : Bool := false
deriving DecidableEq, Repr

def once? {α : Type} (ws : Words) (flag : Flag) (read? : Text → Option α) : Option (Option α) :=
  match ws.valuesOf flag with
  | [] => some none
  | [value] => (read? value).map some
  | _ => none

def path? (s : Text) : Option Text := if s.isEmpty then none else some s

def boolean? (s : Text) : Option Bool :=
  if s = "true".toList then some true else if s = "false".toList then some false else none

def request? (ws : Words) (action : Action) : Option Request := do
  let config ← once? ws .config path?
  let verbose ← once? ws .verbose some
  if ws.inputs.isEmpty then none
  else some { action := action, inputs := ws.inputs, config := config, verbose := verbose.isSome }

def Request.ofWords? : Texts → Option Request
  | [] => none
  | command :: rest =>
    if command = "check".toList then do
      request? (← words? [.config, .verbose] rest) .check
    else if command = "convert".toList then do
      let ws ← words? [.config, .tags, .shuffle, .numbering, .outputDirectory, .verbose] rest
      let overrides : Config.Overrides :=
        { tags := (ws.valuesOf .tags).flatMap (Text.splitBy (· == ','))
          shuffleAnswers := ← once? ws .shuffle boolean?
          numbering := ← once? ws .numbering Numbering.ofName? }
      request? ws (.convert overrides (← once? ws .outputDirectory path?))
    else none

end Command
end Quizdown

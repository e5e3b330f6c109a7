import Quizdown.Command.Check

/-!
The command that writes a Moodle quiz for each document. The documents may be converted in any
order, which is a parameter here; what is told about them is in the order of the inputs.
-/
set_option autoImplicit false

namespace Quizdown
namespace Command

def quizExtension : Text := "xml".toList

def outputPath (directory : Option Text) (path : Text) : Text :=
  let quiz := Path.withExtension path quizExtension
  match directory with
  | some directory => Path.join directory (Path.fileName quiz)
  | none => quiz

structure Converted where
  output : Text
  count : Nat
deriving DecidableEq, Repr

abbrev Conversion := Except DocumentError Converted

def convertDocument (settings : Settings) (directory : Option Text) (w : Workspace)
    (path : Text) : Conversion × Workspace :=
  match readQuestions w settings path with
  | .error e => (.error e, w)
  | .ok questions =>
    let output := outputPath directory path
    match w.write output (renderQuiz settings questions) with
    | .error e => (.error (.files e), w)
    | .ok after => (.ok ⟨output, questions.length⟩, after)

def convertTarget : Text := "mdquiz::commands::convert".toList

def conversionLog (path : Text) : Conversion → List LogRecord
  | .error _ => []
  | .ok c =>
    [⟨.info, convertTarget, "Converted document".toList,
      [("input".toList, path), ("output".toList, c.output),
        ("questions".toList, Text.ofNat c.count)]⟩]

def settingsLog (loaded : Config.Loaded) : List LogRecord :=
  loaded.path.toList.map fun path =>
    ⟨.info, convertTarget, "Loaded configuration".toList, [("path".toList, path)]⟩

structure Batch where
  workspace : Workspace
  results : List (Text × Conversion) := []
  log : List LogRecord := []

namespace Batch

def convertNext (settings : Settings) (directory : Option Text) (b : Batch) (path : Text) :
    Batch :=
  let (result, after) := convertDocument settings directory b.workspace path
  { workspace := after
    results := b.results ++ [(path, result)]
    log := b.log ++ readingLog b.workspace settings path ++ conversionLog path result }

def convertAll (settings : Settings) (directory : Option Text) (w : Workspace) (order : Texts) :
    Batch :=
  order.foldl (convertNext settings directory) { workspace := w }

def resultsFor (b : Batch) (paths : Texts) : List (Text × Conversion) :=
  paths.filterMap fun path => b.results.find? fun r => r.1 = path

end Batch

def conversionLine (path : Text) : Conversion → Text
  | .error e => failureLine path e
  | .ok c =>
    path ++ " -> ".toList ++ c.output ++ " (".toList ++ Text.ofNat c.count ++ " questions)".toList

def successLine (inputs : Inputs) : Text :=
  "Converted ".toList ++ Text.ofNat inputs.files.length ++ " documents".toList

def prepare (w : Workspace) : Option Text → Except FileError Workspace
  | some directory => w.ensureDirectories directory
  | none => .ok w

/-- Converts the documents that patterns select, in the order that `schedule` makes of them. -/
def convert (schedule : Texts → Texts) (w : Workspace) (patterns : Texts) (config : Option Text)
    (overrides : Config.Overrides) (directory : Option Text) : Outcome :=
  match Config.load w config overrides with
  | .error e => { workspace := w, error := some (.config e) }
  | .ok loaded =>
    let log := settingsLog loaded ++ Inputs.log w patterns
    match Inputs.select w patterns with
    | .error e => { workspace := w, log := log, error := some (.pattern e) }
    | .ok inputs =>
      let warnings := inputs.unmatched.map unmatchedLine
      match prepare w directory with
      | .error e => { workspace := w, lines := warnings, log := log, error := some (.files e) }
      | .ok prepared =>
        let batch := Batch.convertAll loaded.settings directory prepared (schedule inputs.files)
        let results := batch.resultsFor inputs.files
        let error := incomplete? inputs (results.filter fun r => isFailure r.2).length
        { workspace := batch.workspace
          lines :=
            warnings ++ (results.map fun (path, result) => conversionLine path result) ++
              if error.isSome then [] else [successLine inputs]
          log := log ++ batch.log
          error := error }

end Command
end Quizdown

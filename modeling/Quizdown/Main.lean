import Quizdown.Command.Run

/-!
The program. It reads into a workspace what a request may touch, lets the request run there, and
writes back the files that changed. Whatever is decided is decided by the request.
-/
set_option autoImplicit false

namespace Quizdown
namespace Program

def entryAt (p : Place) : IO (Option Entry) := do
  let path := (← IO.currentDir) / String.ofList p.text
  if ← path.isDir then return some .directory
  if ← path.pathExists then
    let bytes ← IO.FS.readBinFile path
    return some (.file ((String.fromUTF8? bytes).map String.toList))
  return none

def namesIn (p : Place) : IO Texts := do
  let path := (← IO.currentDir) / String.ofList p.text
  return (← path.readDir).toList.map fun entry => entry.fileName.toList

def addPlace (t : FileTree) (p : Place) : IO FileTree :=
  p.ancestors.reverse.foldlM (fun t q => do
    if q = [] || (t.get? q).isSome then return t
    match ← entryAt q with
    | some e => return t.put q e
    | none => return t) t

partial def addAll (t : FileTree) (p : Place) : IO FileTree := do
  let t ← addPlace t p
  if t.isDirectory p then
    (← namesIn p).foldlM (fun t name => addAll t (p ++ [name])) t
  else return t

def placeOf (here : Place) (path : Text) : Place :=
  (Path.names path).foldl
    (fun p name =>
      if name = ['.'] then p else if name = ['.', '.'] then p.dropLast else p ++ [name])
    (if Path.isAbsolute path then [] else here)

def isWild (name : Text) : Bool := name.any fun c => c == '*' || c == '?' || c == '['

/-- Adds what a pattern may match: the path it begins with, and everything below that if a
wildcard follows. -/
def addPattern (here : Place) (t : FileTree) (pattern : Text) : IO FileTree :=
  let names := Path.names pattern
  let fixed := Text.join ['/'] (names.takeWhile fun name => !isWild name)
  let place := placeOf here (if Path.isAbsolute pattern then '/' :: fixed else fixed)
  if names.any isWild then addAll t place else addPlace t place

def directoryOf (r : Command.Request) : Option Text :=
  match r.action with
  | .check => none
  | .convert _ directory => directory

def workspaceFor (here : Place) (r : Command.Request) : IO Workspace := do
  let found := here.ancestors.map fun directory => directory ++ [Config.fileName]
  let named := (r.config.toList ++ (directoryOf r).toList).map (placeOf here)
  let t ← (here :: found ++ named).foldlM addPlace {}
  let t ← r.inputs.foldlM (addPattern here) t
  match Inputs.select ⟨t, here⟩ r.inputs with
  | .error _ => return ⟨t, here⟩
  | .ok inputs =>
    let outputs := inputs.files.map (Command.outputPath (directoryOf r))
    return ⟨← (outputs.map (placeOf here)).foldlM addPlace t, here⟩

def store (before after : FileTree) : IO Unit :=
  after.entries.forM fun (p, e) => do
    if before.get? p = some e then return
    let path := String.ofList p.text
    match e with
    | .directory => IO.FS.createDirAll path
    | .file (some content) => IO.FS.writeFile path (String.ofList content)
    | .file none => return

def perform (r : Command.Request) : IO UInt32 := do
  let here := Path.names (← IO.currentDir).toString.toList
  let configured := (← IO.getEnv "RUST_LOG").getD ""
  let w ← workspaceFor here r
  let outcome := r.run w
  store w.tree outcome.workspace.tree
  (Command.shownLog r configured.toList outcome ++ outcome.messages).forM fun line =>
    IO.eprintln (String.ofList line)
  return outcome.exitCode.toUInt32

def usage : String :=
  "usage: mdquiz check [-c FILE] [-v] INPUT...\n" ++
    "usage: mdquiz convert [-c FILE] [-t TAGS] [-s BOOL] [-n NUMBERING] [-o DIRECTORY] [-v] " ++
    "INPUT..."

end Program
end Quizdown

def main (args : List String) : IO UInt32 := do
  match Quizdown.Command.Request.ofWords? (args.map String.toList) with
  | some request => Quizdown.Program.perform request
  | none =>
    IO.eprintln Quizdown.Program.usage
    return Quizdown.Command.usageExitCode.toUInt32

import Std.Time.Format
import Std.Time.Zoned
import Toolwright.CommandLine

/-!
# The program

Runs the command line of a tool of the catalog on the files, the environment and the time of the
machine. The first argument names the tool.
-/

namespace Toolwright.Program

set_option autoImplicit false

def stored? (path : String) : IO (Option Entry) := do
  try
    let bytes ← IO.FS.readBinFile path
    match String.fromUTF8? bytes with
    | some text => return some (.file (.text text))
    | none => return some (.file (.raw bytes))
  catch e =>
    match e with
    | .inappropriateType .. => return some .directory
    | _ => return none

/-- The paths that a path leads through, and the path itself. -/
def leads (path : String) : List String :=
  let names := path.splitOn "/"
  ((List.range names.length).map fun n => "/".intercalate (names.take (n + 1))).filter (· != "")

def load (files : FileTree) (path : String) : IO FileTree :=
  (leads path).foldlM (fun t p => do
    match ← stored? p with
    | some e => return t.plant p e
    | none => return t) files

/-- The words of a file that can be names of variables. -/
def mentioned (file : String) : List String :=
  (Text.runs (fun c => !(c.isAlphanum || c == '_')) file.toList).map String.ofList

def environment (files : FileTree) : IO Settings.Environment := do
  let words := match files.content? [".env"] with
    | some (.text file) => mentioned file
    | _ => []
  let names := [Config.indentVariable, Config.debugVariable, Config.logFileVariable] ++ words
  names.eraseDups.filterMapM fun name => do return (← IO.getEnv name).map fun v => (name, v)

def create (path : String) : Entry → IO Unit
  | .directory => IO.FS.createDirAll path
  | .file _ => IO.FS.withFile path .append fun _ => return

def clock : IO String := do
  return (← Std.Time.PlainDateTime.now).format "uuuu-MM-dd'T'HH:mm:ss.SSSSSS"

def run (command : String → Settings.Environment → List String → CommandLine.Command Unit)
    (args : List String) : IO UInt32 := do
  let files ← (".env" :: args).foldlM load []
  let env ← environment files
  let (outcome, state) := CommandLine.run (command (← clock) env args) files
  for row in state.files do
    if (files.at? row.1).isNone then create row.1.text row.2
  IO.print state.output
  match outcome with
  | .ok _ => return 0
  | .error fault =>
    IO.eprintln fault.message
    return 1

end Toolwright.Program

def main (args : List String) : IO UInt32 := do
  match args with
  | "file_processor" :: args => Toolwright.Program.run Toolwright.CommandLine.fileProcessor args
  | "docker_copy" :: args => Toolwright.Program.run Toolwright.CommandLine.dockerCopy args
  | _ =>
    IO.eprintln "usage: toolwright (file_processor | docker_copy) [argument ...]"
    return 2

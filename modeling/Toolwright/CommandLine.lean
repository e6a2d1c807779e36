import Toolwright.Catalog.DockerCopy
import Toolwright.Catalog.FileProcessor
import Toolwright.Journal.Basic

/-!
# Command lines

Each tool of the catalog has a command line. It reads the configuration, sets up the journal, tells
about the tool and runs it if there are enough arguments.
-/

namespace Toolwright.CommandLine

set_option autoImplicit false

/-- The files and the output so far. -/
structure State where
  files : FileTree
  output : String := ""

abbrev Command := ExceptT Fault (StateM State)

def lift {α : Type} (r : Except Fault α) : Command α := liftM r

def print (line : String) : Command Unit :=
  modify fun s => { s with output := s.output ++ line ++ "\n" }

def begin (env : Settings.Environment) : Command Config := do
  let files := (← get).files
  let (config, _) ← lift (Config.loadFrom files env ".env")
  let (outcome, journal) := Journal.setUp { files } { config := some config }
  modify fun s => { s with files := journal.files }
  lift outcome
  return config

def surroundings (time : String) : Command Surroundings := do return ⟨(← get).files, time⟩

def list (vs : List Value) : Except Fault String := do
  return ", ".intercalate (← vs.mapM Value.text)

def typedName (p : ParamSpec) : Except Fault Value := do
  return .str ((← p.name.text) ++ " (" ++ (← p.type.text) ++ ")")

def answerText : Value → Except Fault String
  | .record (.response ..) (.list (.dict rows :: _) :: _) =>
    match rows.find? fun row => Value.same row.1 (.str "text") with
    | some row => row.2.text
    | none => .error (.noKey "text")
  | _ => .error .mismatch

/-- Processes the file named by the first argument; the others are the operations. -/
def fileProcessor (time : String) (env : Settings.Environment) (args : List String) :
    Command Unit := do
  let config ← begin env
  let tool := Catalog.FileProcessor.definition
  print ("Description: " ++ (← lift tool.description.text))
  print ("Parameters: " ++ (← lift (do list (← tool.params.mapM typedName))))
  match args with
  | [] => return
  | path :: operations =>
    let operations := if operations.isEmpty then ["analyze"] else operations
    let answer ← lift (tool.serve (← surroundings time) config.jsonIndent
      [("file_path", .str path), ("operations", .list (operations.map .str))])
    print (← lift (answerText answer))

/-- Copies a file into a container, given the container, the file and its place. -/
def dockerCopy (time : String) (env : Settings.Environment) (args : List String) :
    Command Unit := do
  let _ ← begin env
  let tool := Catalog.DockerCopy.definition
  print "Docker Copy Tool Definition Created"
  print ("Description: " ++ (← lift tool.description.text))
  print ("Parameters: " ++ (← lift (list (tool.params.map (·.name)))))
  let instanceNames ← lift (Value.list (Definition.helperNames tool.instanceHelpers)).text
  let classNames ← lift (Value.list (Definition.helperNames tool.classHelpers)).text
  print ("Helper methods: instance: " ++ instanceNames ++ ", class: " ++ classNames)
  match args with
  | container :: source :: target :: _ =>
    let answer ← lift (tool.callFunction (← surroundings time) [("container_id", .str container),
      ("source_path", .str source), ("dest_path", .str target)])
    print (← lift answer.text)
  | _ => return

def run (command : Command Unit) (files : FileTree) : Except Fault Unit × State :=
  command.run { files }

end Toolwright.CommandLine

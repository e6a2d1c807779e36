import Toolwright.Tool.Routine

/-!
# The container copier

A tool that copies a file into a container, by way of an archive or directly. A container is named
by 12 to 64 hexadecimal digits in lower case.
-/

namespace Toolwright.Catalog.DockerCopy

set_option autoImplicit false

def isIdDigit (c : Char) : Bool := ('a' ≤ c && c ≤ 'f') || ('0' ≤ c && c ≤ '9')

def isContainerId (cs : List Char) : Bool :=
  12 ≤ cs.length && cs.length ≤ 64 && cs.all isIdDigit

def validateContainerId (id : Value) : Except Fault Bool :=
  match id with
  | .str s => .ok (isContainerId s.toList)
  | _ => .error .mismatch

/-- What is told of a file that was added to an archive. -/
def addToTar (time : String) (source target : Value) : Value :=
  .ofRows [("operation", .str "tar_add"), ("source", source), ("target", target),
    ("timestamp", .str time), ("success", .bool true)]

def valueUnder? (rows : List (Value × Value)) (key : String) : Option Value :=
  (rows.find? fun row => Value.same row.1 (.str key)).map (·.2)

/-- The outcome of an archive operation in words. -/
def formatResult (outcome containerId target : Value) : Except Fault Value := do
  match outcome.rows? with
  | none => throw (outcome.noAttribute "get")
  | some rows =>
    if ((valueUnder? rows "success").getD .null).truthy then
      let place := (← containerId.text) ++ ":" ++ (← target.text)
      match valueUnder? rows "timestamp" with
      | some time => return .str ("Successfully copied to " ++ place ++ " at " ++ (← time.text))
      | none => throw (.noKey "timestamp")
    else
      return .str ("Failed to copy: " ++ (← ((valueUnder? rows "error").getD .null).text))

def failure (text : String) : Value := .ofRows [("error", .str text)]

def run (s : Surroundings) (arg : String → Value) : Except Fault Value := do
  let id := arg "container_id"
  let source := arg "source_path"
  let target := arg "dest_path"
  if !(← validateContainerId id) then
    return failure ("Invalid container ID format: " ++ (← id.text))
  if !(← s.pathExists source) then
    return failure ("Source file not found: " ++ (← source.text))
  if (arg "create_archive").truthy then
    formatResult (addToTar s.time source target) id target
  else
    let place := (← id.text) ++ ":" ++ (← target.text)
    return .ofRows [("message", .str ("Direct copy to " ++ place)), ("source", source),
      ("destination", target), ("method", .str "direct_copy"), ("timestamp", .str s.time)]

def definition : Definition Routine :=
  let start : Definition Routine := { name := .str "docker_copy" }
  start
    |>.describe (.str "Copies files to Docker containers with tar archive support")
    |>.declare { name := .str "container_id", description := .str "Docker container ID" }
    |>.declare { name := .str "source_path", description := .str "Local file path to copy" }
    |>.declare { name := .str "dest_path", description := .str "Destination path in container" }
    |>.declare { name := .str "create_archive", type := .str "boolean", required := .bool false
                 default := .bool true }
    |>.help .ofClass "add_to_tar"
      ⟨[("file_path", none), ("tar_path", none)],
        fun s arg => .ok (addToTar s.time (arg "file_path") (arg "tar_path"))⟩
    |>.help .ofClass "validate_container_id"
      ⟨[("container_id", none)], fun _ arg => .bool <$> validateContainerId (arg "container_id")⟩
    |>.help .ofInstance "format_result"
      ⟨[("operation_result", none), ("container_id", none), ("dest_path", none)],
        fun _ arg => formatResult (arg "operation_result") (arg "container_id") (arg "dest_path")⟩
    |>.store ⟨[("container_id", none), ("source_path", none), ("dest_path", none),
        ("create_archive", some (.bool true))], run⟩

end Toolwright.Catalog.DockerCopy

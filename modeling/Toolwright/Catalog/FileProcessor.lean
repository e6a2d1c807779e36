import Toolwright.Text.Bytes
import Toolwright.Text.Transform
import Toolwright.Tool.Routine
import Toolwright.Value.Conversion

/-!
# The file processor

A tool that reads a text file, performs operations on the text one after another and reports each of
them. An operation is the analysis of the text so far or a transform of it; an operation of no known
name leaves the text as it is.
-/

namespace Toolwright.Catalog.FileProcessor

set_option autoImplicit false

open Text

/-- What an operation does. -/
inductive Action where
  | analyze
  | change (t : Option Transform)

def Action.ofName (name : String) : Action :=
  if name == "analyze" then .analyze else .change (Transform.ofName? name)

/-- A name in lower case; bytes are no name. -/
def lowerName? (v : Value) : Except Fault (Option String) :=
  match v with
  | .str s => .ok (some (String.ofList (lower s.toList)))
  | .bytes _ => .ok none
  | v => .error (v.noAttribute "lower")

def readAction (operation : Value) : Except Fault Action := do
  match ← lowerName? operation with
  | some name => return .ofName name
  | none => return .change none

def transformed (t : Option Transform) (cs : List Char) : List Char :=
  match t with
  | some t => t.apply cs
  | none => cs

def preview (cs : List Char) : List Char :=
  cs.take 100 ++ if cs.length > 100 then ['.', '.', '.'] else []

inductive Note where
  | analysis (a : Analysis)
  | change (applied : Bool) (preview : List Char)

structure Entry where
  operation : Value
  note : Note

structure Progress where
  content : List Char
  entries : List Entry

def Progress.advance (p : Progress) (operation : Value × Action) : Progress :=
  match operation.2 with
  | .analyze =>
    { p with entries := p.entries ++ [⟨operation.1, .analysis (analyze p.content)⟩] }
  | .change t =>
    let after := transformed t p.content
    ⟨after, p.entries ++ [⟨operation.1, .change (p.content != after) (preview after)⟩]⟩

def process (content : List Char) (operations : List (Value × Action)) : Progress :=
  operations.foldl Progress.advance ⟨content, []⟩

def charsValue (cs : List Char) : Value := .str (String.ofList cs)

def natValue (n : Nat) : Value := .int n

def analysisValue (a : Analysis) : Value :=
  .ofRows [("character_count", natValue a.characters), ("word_count", natValue a.words),
    ("line_count", natValue a.lines),
    ("average_line_length", (a.averageLine.map .float).getD (.int 0)),
    ("longest_word", charsValue a.longestWord), ("unique_words", natValue a.uniqueWords)]

def Entry.toValue (e : Entry) : Value :=
  .ofRows (("operation", e.operation) :: match e.note with
    | .analysis a => [("result", analysisValue a)]
    | .change applied preview =>
      [("applied", .bool applied), ("preview", charsValue preview)])

/-- A text file that was read, with the size that it has as a file. -/
structure TextFile where
  content : List Char
  size : Nat

def TextFile.info (f : TextFile) : List (String × Value) :=
  [("size", natValue f.size), ("lines", natValue (lines f.content).length),
    ("encoding", .str "utf-8")]

/-- The file at a path; there may be nothing there. -/
def readFile (s : Surroundings) (path : Value) : Except Fault (Option TextFile) := do
  if !(← s.pathExists path) then return none
  match (Surroundings.path? path).bind s.files.lookup? with
  | some (.file (.text text)) => return some ⟨unifyNewlines text.toList, text.utf8ByteSize⟩
  | some (.file (.raw _)) => throw .undecodable
  | some .directory => throw (.file .isDirectory)
  | none => throw (.file .denied)

def notFound (path : Value) : Except Fault Value := do
  return .ofRows [("error", .str ("File not found: " ++ (← path.text)))]

/-- The report on a file whose operations were performed; the text before them is part of it if it
is to be preserved. -/
def report (f : TextFile) (p : Progress) (preserve : Bool) : Value :=
  .ofRows ([("file_info", .ofRows f.info),
    ("operations_applied", .list (p.entries.map Entry.toValue)),
    ("final_content", charsValue p.content),
    ("processing_summary", .ofRows [("operations_count", natValue p.entries.length),
      ("content_changed", if preserve then .bool (f.content != p.content) else .null),
      ("final_size", natValue p.content.length)])] ++
    if preserve then [("original_content", charsValue f.content)] else [])

/-- A line for each row of a dictionary. -/
def rowLines (rows : List (Value × Value)) : Except Fault String := do
  let lines ← rows.mapM fun row => do return (← row.1.text) ++ ": " ++ (← row.2.text)
  return "\n".intercalate lines

/-- A report as a document, as lines of text, or printed. -/
def formatOutput (data format : Value) : Except Fault Value := do
  match ← lowerName? format with
  | some "json" =>
    let d ← Document.ofValue (fun _ => .error .mismatch) data
    return .str (d.text (.indented [' ', ' ']))
  | some "text" =>
    match data with
    | .dict rows => return .str (← rowLines rows)
    | data => return .str (← data.text)
  | _ => return .str (← data.printed)

def lacking : Transform → String
  | .uppercase => "upper"
  | .lowercase => "lower"
  | .titleCase | .reverseWords => "split"
  | .reverseLines | .removeBlankLines | .numberLines => "splitlines"

def transformBytes (t : Transform) (bs : List UInt8) : Except Fault Value :=
  let none? (parts : List (List UInt8)) : Except Fault Value :=
    if parts.isEmpty then .ok (.str "") else .error .mismatch
  match t with
  | .uppercase => .ok (.bytes (Bytes.upper bs))
  | .lowercase => .ok (.bytes (Bytes.lower bs))
  | .titleCase | .reverseWords | .removeBlankLines => none? (Bytes.words bs)
  | .reverseLines => none? (Bytes.pieces bs)
  | .numberLines =>
    let lines := (Bytes.pieces bs).map fun line => (quotedBytes line).toList
    .ok (charsValue (numberFrom 1 lines))

def analyzeBytes (bs : List UInt8) : Value :=
  let words := Bytes.words bs
  let lines := (Bytes.pieces bs).length
  .ofRows [("character_count", natValue bs.length), ("word_count", natValue words.length),
    ("line_count", natValue lines),
    ("average_line_length", ((averageLine bs.length lines).map .float).getD (.int 0)),
    ("longest_word", if words.isEmpty then .str "" else .bytes (longest words)),
    ("unique_words", natValue (words.map Bytes.lower).eraseDups.length)]

def transformText (content operation : Value) : Except Fault Value := do
  match (← lowerName? operation).bind Transform.ofName?, content with
  | none, content => return content
  | some t, .str s => return charsValue (t.apply s.toList)
  | some t, .bytes bs => transformBytes t bs
  | some t, content => throw (content.noAttribute (lacking t))

def analyzeText (content : Value) : Except Fault Value :=
  match content with
  | .str s => .ok (analysisValue (analyze s.toList))
  | .bytes bs => .ok (analyzeBytes bs)
  | content => .error (content.noAttribute "splitlines")

def readFileContent (s : Surroundings) (path : Value) : Except Fault Value := do
  match ← readFile s path with
  | some f => return .ofRows (("content", charsValue f.content) :: f.info)
  | none => notFound path

def run (s : Surroundings) (arg : String → Value) : Except Fault Value := do
  match ← readFile s (arg "file_path") with
  | none => notFound (arg "file_path")
  | some f =>
    let operations ← (arg "operations").items
    let actions ← operations.mapM fun operation => do return (operation, ← readAction operation)
    formatOutput (report f (process f.content actions) (arg "preserve_original").truthy)
      (arg "output_format")

def definition : Definition Routine :=
  let start : Definition Routine := { name := .str "file_processor" }
  start
    |>.describe (.str "Processes text files with various transformations and analysis")
    |>.declare { name := .str "file_path", description := .str "Path to the file to process" }
    |>.declare { name := .str "operations", type := .str "array"
                 description := .str "List of operations to perform" }
    |>.declare { name := .str "output_format", required := .bool false, default := .str "json" }
    |>.declare { name := .str "preserve_original", type := .str "boolean", required := .bool false
                 default := .bool true }
    |>.help .ofInstance "read_file_content"
      ⟨[("path", none)], fun s arg => readFileContent s (arg "path")⟩
    |>.help .ofInstance "analyze_text"
      ⟨[("content", none)], fun _ arg => analyzeText (arg "content")⟩
    |>.help .ofInstance "transform_text"
      ⟨[("content", none), ("operation", none)],
        fun _ arg => transformText (arg "content") (arg "operation")⟩
    |>.help .ofInstance "format_output"
      ⟨[("data", none), ("fmt", none)], fun _ arg => formatOutput (arg "data") (arg "fmt")⟩
    |>.store ⟨[("file_path", none), ("operations", none), ("output_format", some (.str "json")),
        ("preserve_original", some (.bool true))], run⟩

end Toolwright.Catalog.FileProcessor

import Toolwright.Fault
import Toolwright.Table
import Toolwright.Text.Runs

/-!
# File trees

Files and directories as they are seen from a working directory. A path is looked up component by
component, each component but the last naming a directory. Of what lies above the working directory
nothing is known but that it is a directory.
-/

/-!
## Paths

A path as it is written is a text with slashes. It is a list of components once it is taken apart;
the components are followed one by one where files are looked up, or reduced without a look at the
files.
-/

namespace Toolwright

set_option autoImplicit false

/-- The components of a path from the working directory, or from the root if the first is a slash.
-/
abbrev Path := List String

namespace Path

def nameLimit : Nat := 255

def writtenLimit : Nat := 4096

/-- The components of a path as it is written. A slash at its end asks for a directory and counts
as the component `.`. -/
def parts (path : String) : Path :=
  let names := (Text.runs (· == '/') path.toList).map String.ofList
  let names := if path.startsWith "/" then "/" :: names else names
  if path.endsWith "/" then names ++ ["."] else names

def up (p : Path) : Path :=
  match p.getLast? with
  | none | some ".." => p ++ [".."]
  | some "/" => p
  | some _ => p.dropLast

/-- The path without `.`, and with each `..` taken off together with the component in front of it.
-/
def normalize (path : String) : Path :=
  (parts path).foldl
    (fun p name => if name == "." then p else if name == ".." then p.up else p ++ [name]) []

/-- The root, the working directory and what is above it. -/
def isAbove (p : Path) : Bool := p == ["/"] || p.all (· == "..")

def text (p : Path) : String := "/".intercalate p

/-- What stands behind the last slash, and what stands in front of it; there, slashes at the end
are left out unless there is nothing else. -/
def split (path : String) : String × String :=
  let backwards := path.toList.reverse
  let name := backwards.takeWhile (· != '/')
  let front := backwards.dropWhile (· != '/')
  let directory := front.dropWhile (· == '/')
  (String.ofList (if directory.isEmpty then front else directory).reverse,
    String.ofList name.reverse)

def parentText (path : String) : String := (split path).1

end Path

/-! ## Trees -/

/-- A file holds text, or bytes that are no text. -/
inductive Content where
  | text (s : String)
  | raw (bytes : ByteArray)

def Content.size : Content → Nat
  | .text s => s.utf8ByteSize
  | .raw bytes => bytes.size

def Content.append (c : Content) (s : String) : Content :=
  match c with
  | .text t => .text (t ++ s)
  | .raw bytes => .raw (bytes ++ s.toUTF8)

inductive Entry where
  | file (content : Content)
  | directory

abbrev FileTree := List (Path × Entry)

namespace FileTree

def at? (t : FileTree) (p : Path) : Option Entry :=
  if p.isAbove then some .directory else Table.find? t p

def content? (t : FileTree) (p : Path) : Option Content :=
  match t.at? p with
  | some (.file c) => some c
  | _ => none

def walk (t : FileTree) (here : Path) : Path → Except FileFault Path
  | [] => .ok here
  | name :: rest =>
    if name == "." then walk t here rest
    else if name == ".." then walk t here.up rest
    else if Path.nameLimit < name.utf8ByteSize then .error .nameTooLong
    else
      let next := here ++ [name]
      if rest.isEmpty then .ok next
      else
        match t.at? next with
        | some .directory => walk t next rest
        | some (.file _) => .error .notDirectory
        | none => .error .missing

def place (t : FileTree) (path : String) : Except FileFault Path :=
  if Path.writtenLimit ≤ path.utf8ByteSize then .error .nameTooLong
  else if path.isEmpty then .error .missing
  else t.walk [] (Path.parts path)

def lookup? (t : FileTree) (path : String) : Option Entry :=
  if path.contains '\x00' then none else (t.place path).toOption.bind t.at?

def exists? (t : FileTree) (path : String) : Bool := (t.lookup? path).isSome

def isDirectory (t : FileTree) (path : String) : Bool :=
  match t.lookup? path with
  | some .directory => true
  | _ => false

def readText? (t : FileTree) (path : String) : Option (Except Fault String) :=
  match t.lookup? path with
  | some (.file (.text s)) => some (.ok s)
  | some (.file (.raw _)) => some (.error .undecodable)
  | _ => none

def put (t : FileTree) (p : Path) (e : Entry) : FileTree := Table.insert p e t

def contents (t : FileTree) : List (Path × Content) :=
  t.filterMap fun row =>
    match row.2 with
    | .file c => if row.1.head?.any (fun name => name == "/" || name == "..") then none
      else some (row.1, c)
    | .directory => none

end FileTree

end Toolwright

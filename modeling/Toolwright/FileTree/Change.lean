import Toolwright.FileTree.Basic

/-!
# Changes to a file tree

A change may fail half way; what it did up to there stays done.
-/

namespace Toolwright.FileTree

set_option autoImplicit false

abbrev Change := ExceptT Fault (StateM FileTree)

namespace Change

def run {α : Type} (c : Change α) (t : FileTree) : Except Fault α × FileTree := StateT.run c t

def apply {α : Type} (c : Change α) (t : FileTree) : FileTree := (c.run t).2

end Change

def makeDirectory (path : String) : Change Unit := do
  if path.contains '\x00' then throw (.nulInPath "mkdir: embedded null character in path")
  let t ← get
  match t.place path with
  | .error fault => throw (.file fault)
  | .ok p => if (t.at? p).isSome then throw (.file .alreadyThere) else set (t.put p .directory)

def ensureDirectory (path : String) : Change Unit := do
  try makeDirectory path catch
    | .file fault => if !(← get).isDirectory path then throw (.file fault)
    | fault => throw fault

/-- Makes a directory after the missing ones on the way to it, of which there are at most `n`. What
is passed through on the way has to be there even where the path goes up again. -/
def makeDirectoriesWithin : Nat → String → Change Unit
  | 0, path => ensureDirectory path
  | n + 1, path => do
    let (front, name) := Path.split path
    if front.isEmpty || name.isEmpty || (← get).exists? front then ensureDirectory path
    else
      try makeDirectoriesWithin n front catch
        | .file .alreadyThere => pure ()
        | fault => throw fault
      if name != "." then ensureDirectory path

def makeDirectories (path : String) : Change Unit := makeDirectoriesWithin path.length path

def openAppend (p : Path) : Change Unit := do
  let t ← get
  match t.walk [] p with
  | .error fault => throw (.file fault)
  | .ok p =>
    match t.at? p with
    | some .directory => throw (.file .isDirectory)
    | some (.file _) => pure ()
    | none => set (t.put p (.file (.text "")))

def append (p : Path) (s : String) : Change Unit := do
  let t ← get
  match t.content? p with
  | some c => set (t.put p (.file (c.append s)))
  | none => set (t.put p (.file (.text s)))

/-- The tree with all that stands at or below a path at another path. -/
def rename (t : FileTree) (source target : Path) : FileTree :=
  t.map fun row =>
    if source.isPrefixOf row.1 then (target ++ row.1.drop source.length, row.2) else row

/-- Moves what stands at a path, if anything does. A file at its new place is replaced. -/
def move (source target : Path) : Change Unit := do
  let t ← get
  if (t.at? source).isNone then return
  if let some .directory := t.at? target then throw (.file .isDirectory)
  if Path.nameLimit < (target.getLastD "").utf8ByteSize then throw (.file .nameTooLong)
  set (rename (Table.erase target t) source target)

def plant (t : FileTree) (path : String) (e : Entry) : FileTree :=
  let parent := Path.parentText path
  (if parent.isEmpty then t else (makeDirectories parent).apply t).put (Path.normalize path) e

end Toolwright.FileTree

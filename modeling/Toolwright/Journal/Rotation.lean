import Toolwright.FileTree.Change

/-!
# Rotating files

Before a line would bring a file to its limit, the file becomes the first of three backups, each
backup the next one and the last one is dropped, and the line starts a new file. The limit counts
the bytes of the file and the characters of the line.
-/

namespace Toolwright.Journal

set_option autoImplicit false

def byteLimit : Nat := 5 * 1024 * 1024

def backupCount : Nat := 3

/-- The path of a backup. -/
def backup (p : Path) (n : Nat) : Path :=
  p.dropLast ++ [p.getLastD "" ++ "." ++ toString n]

def shiftBackups (p : Path) : Nat → FileTree.Change Unit
  | 0 => pure ()
  | n + 1 => do
    FileTree.move (backup p (n + 1)) (backup p (n + 2))
    shiftBackups p n

def rotate (p : Path) : FileTree.Change Unit := do
  shiftBackups p (backupCount - 1)
  FileTree.move p (backup p 1)
  FileTree.openAppend p

def isFull (t : FileTree) (p : Path) (line : String) : Bool :=
  match t.content? p with
  | some c => byteLimit ≤ c.size + line.length
  | none => false

/-- Writes a line to a file, rotating it first if the line would fill it. A line for which there is
no room is lost. -/
def writeLine (p : Path) (line : String) : FileTree.Change Unit := do
  if isFull (← get) p line then rotate p
  FileTree.append p line

end Toolwright.Journal

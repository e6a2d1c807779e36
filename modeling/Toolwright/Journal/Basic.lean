import Toolwright.Journal.Rotation
import Toolwright.Settings.Config
import Toolwright.Value.Sum

/-!
# Journals

A journal writes records to the standard error stream and, when a log file is set up, the records
from level 20 on to that file. A record below the level of the journal is written nowhere. Setting
up again replaces all that was set up before.
-/

namespace Toolwright

set_option autoImplicit false

structure Record where
  logger : String
  level : Int
  message : String

structure Notice where
  logger : String
  level : Int
  message : Except Fault String

/-- The places that records are written to. -/
structure Handlers where
  file : Option Path

structure Journal where
  level : Value := .int 30
  /-- Nothing was set up yet where there are no handlers. -/
  handlers : Option Handlers := none
  stream : String := ""
  files : FileTree := []

namespace Journal

def fileLevel : Int := 20

def levelNames : List (String × Int) := [
  ("CRITICAL", 50), ("ERROR", 40), ("WARNING", 30), ("INFO", 20), ("DEBUG", 10), ("NOTSET", 0),
  ("FATAL", 50), ("WARN", 30)]

def levelName (level : Int) : String :=
  match levelNames.find? fun row => decide (row.2 = level) with
  | some row => row.1
  | none => "Level " ++ toString level

def readLevel (level : Value) : Except Fault Value :=
  match level with
  | .int n => .ok (.int n)
  | .bool b => .ok (.bool b)
  | .str name =>
    match Table.find? levelNames name with
    | some n => .ok (.int n)
    | none => .error (.unknownLevel (Text.quoted name))
  | level => do
    let _ ← level.text
    throw .mismatch

def threshold (j : Journal) : Int := (j.level.asInt?).getD 0

def loggerName (r : Record) : String := if r.logger.isEmpty then "root" else r.logger

/-- The line of a record, under the time that the clock shows. -/
def line (time : String) (r : Record) : String :=
  time ++ " | " ++ loggerName r ++ " | " ++ levelName r.level ++ " | " ++ r.message ++ "\n"

/-- Writes a record to the places in force. Before anything is set up, warnings go to the stream
without a heading. A file that cannot be rotated is not reported: the stream has the records alone. -/
def emit (time : String) (j : Journal) (r : Record) : Journal :=
  if r.level ≤ 0 || r.level < j.threshold then j
  else
    match j.handlers with
    | none => if r.level < 30 then j else { j with stream := j.stream ++ (r.message ++ "\n") }
    | some handlers =>
      let text := line time r
      { j with
        stream := j.stream ++ text
        files :=
          match handlers.file with
          | some p => if r.level < fileLevel then j.files else (writeLine p text).apply j.files
          | none => j.files }

def emitTimes (time : String) (r : Record) : Nat → Journal → Journal
  | 0, j => j
  | n + 1, j => emitTimes time r n (emit time j r)

def mainLogger : String := "tool_forge"

structure Setup where
  level : Value := .int 20
  logFile : Value := .str ""
  debug : Value := .bool false
  config : Option Config := none

/-- The first of two values that counts as true, or else the second. -/
def either (a b : Value) : Value := if a.truthy then a else b

def Setup.debugInForce (s : Setup) : Value :=
  match s.config with
  | some c => either s.debug c.debug
  | none => s.debug

def Setup.logFileInForce (s : Setup) : Value :=
  match s.config with
  | some c => either s.logFile c.logFile
  | none => s.logFile

def Setup.levelInForce (s : Setup) : Value := if s.debugInForce.truthy then .int 10 else s.level

def pathText (v : Value) : Except Fault String :=
  match v with
  | .str s => .ok s
  | .bytes bs =>
    match String.fromUTF8? ⟨bs.toArray⟩ with
    | some s => .ok s
    | none => .error .mismatch
  | _ => .error .mismatch

def openLog (logFile : Value) : FileTree.Change Path := do
  let path ← ExceptT.mk (pure (pathText logFile))
  let parent := Path.parentText path
  if !parent.isEmpty then FileTree.makeDirectories parent
  if path.contains '\x00' then throw (.nulInPath "embedded null byte")
  let p := Path.normalize path
  FileTree.openAppend p
  return p

/-- Replaces what was set up before. The stream is in force even when the rest fails, and the level
even when the log file does. -/
def setUp (j : Journal) (s : Setup) : Except Fault Unit × Journal :=
  let streaming := { j with handlers := some ⟨none⟩ }
  let leveled : Except Fault Journal :=
    match s.levelInForce with
    | .null => .ok streaming
    | level => (readLevel level).map fun l => { streaming with level := l }
  match leveled with
  | .error f => (.error f, streaming)
  | .ok leveled =>
    if s.logFileInForce.truthy then
      match (openLog s.logFileInForce).run leveled.files with
      | (.error f, files) => (.error f, { leveled with files })
      | (.ok p, files) => (.ok (), { leveled with handlers := some ⟨some p⟩, files })
    else (.ok (), leveled)

end Journal

end Toolwright

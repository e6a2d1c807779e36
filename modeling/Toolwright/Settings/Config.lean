import Toolwright.FileTree.Basic
import Toolwright.Settings.Environment
import Toolwright.Text.Case
import Toolwright.Text.Numeral
import Toolwright.Value.Printed

/-!
# Configuration

The indent of result documents, whether debugging is on, and the log file. A configuration is given
in code or read from an environment into which a loader put what a file binds.
-/

/-!
## Reading settings

A setting is a text or absent. A switch is on for a few words in any letter case; an integer setting
is a numeral of at most 4300 digits. What cannot be read gives the default.
-/

namespace Toolwright.Settings

set_option autoImplicit false

open Text

def switchWords : List String := ["1", "true", "yes", "on"]

/-- A text that is given is on or off, whatever the default. -/
def readSwitch (setting : Option String) (default : Bool) : Bool :=
  match setting with
  | none => default
  | some s => switchWords.contains (String.ofList (lower (trim s.toList)))

/-- The integer that a numeral writes. -/
def readNumeral? (cs : List Char) : Option Int :=
  match readNumeral 10 cs with
  | .number n => some n
  | _ => none

def readInteger (setting : Option String) (default : Int) : Int :=
  match setting with
  | none => default
  | some s => (readNumeral? s.toList).getD default

end Toolwright.Settings

/-! ## Configurations -/

namespace Toolwright

set_option autoImplicit false

structure Config where
  jsonIndent : Value := .int 2
  debug : Value := .bool false
  logFile : Value := .str ""

namespace Config

open Settings

def indentVariable : String := "TOOL_FORGE_JSON_INDENT"
def debugVariable : String := "TOOL_FORGE_DEBUG"
def logFileVariable : String := "TOOL_FORGE_LOG_FILE"

def ofEnvironment (env : Environment) : Config :=
  { jsonIndent := .int (readInteger (Table.find? env indentVariable) 2)
    debug := .bool (readSwitch (Table.find? env debugVariable) false)
    logFile := .str (String.ofList
      (Text.trim ((Table.find? env logFileVariable).getD "").toList)) }

/-- Loads a file, if there is one, and reads the configuration. -/
def load (loader : Loader) (env : Environment) (file : Option String) :
    Except Fault (Config × Environment) := do
  let env ← loader.load env file
  return (ofEnvironment env, env)

def loadFrom (files : FileTree) (env : Environment) (path : String) :
    Except Fault (Config × Environment) := do
  load EnvFile.loader env (← (files.readText? path).mapM id)

def summary (c : Config) : Except Fault String := do
  let indent ← c.jsonIndent.text
  let logFile ← if c.logFile.truthy then c.logFile.text else pure "stderr only"
  return "JSON indent: " ++ indent ++ " | Debug: " ++ (if c.debug.truthy then "on" else "off") ++
    " | Log file: " ++ logFile

end Config

end Toolwright

import Toolwright.Fault
import Toolwright.Table
import Toolwright.Text.Blank

/-!
# Environments

An environment gives values to names. A loader of files adds the names that the environment lacks.
How files bind names is up to the loader; one for files of lines stands at the end.
-/

/-! ## Loaders -/

namespace Toolwright.Settings

set_option autoImplicit false

abbrev Environment := List (String × String)

/-- A name, and the value where there is one. -/
abbrev Binding := String × Option String

def checkVariable (name value : String) : Except Fault Unit :=
  if name.contains '\x00' || value.contains '\x00' then .error (.nulInPath "embedded null byte")
  else if name.contains '=' then .error .badVariableName
  else .ok ()

def addMissing (env : Environment) (b : Binding) : Except Fault Environment :=
  match b.2 with
  | none => .ok env
  | some value =>
    if (Table.find? env b.1).isSome then .ok env
    else do
      checkVariable b.1 value
      return env ++ [(b.1, value)]

/-- What loads files into environments. There may be no file. -/
structure Loader where
  bindings : Environment → Option String → List Binding
  load : Environment → Option String → Except Fault Environment

/-- A loader that does not override: it sets each variable that a file binds, unless it is set. Values
may refer to variables; names do not. -/
structure Loader.Lawful (loader : Loader) : Prop where
  nodup_keys : ∀ env file, (Table.keys (loader.bindings env file)).Nodup
  binds_alike : ∀ env env' file, (loader.bindings env file).map (fun b => (b.1, b.2.isSome)) =
    (loader.bindings env' file).map fun b => (b.1, b.2.isSome)
  load_eq : ∀ env file, loader.load env file = (loader.bindings env file).foldlM addMissing env

end Toolwright.Settings

/-!
## Files of lines

One binding to a line: an optional `export`, a name, and after an equals sign a value that stands bare
or between quotes. A quoted value may run over several lines. A line that cannot be read is passed
over. Inside a value, a reference in braces stands for the value of a name, which the environment
gives first and the file second.
-/

namespace Toolwright.Settings.EnvFile

set_option autoImplicit false

open Text

def isSpace (c : Char) : Bool := isBlank c && c != '\n' && c != '\r'

def skipSpaces (cs : List Char) : List Char := cs.dropWhile isSpace

def notNewline (c : Char) : Bool := c != '\n' && c != '\r'

def dropExport (cs : List Char) : List Char :=
  if "export".toList.isPrefixOf cs then
    match cs.drop 6 with
    | c :: rest => if isSpace c then skipSpaces rest else cs
    | [] => cs
  else cs

def readName? (cs : List Char) : Option (Option String × List Char) :=
  match cs with
  | '#' :: _ => some (none, cs)
  | '\'' :: cs =>
    match cs.dropWhile (· != '\'') with
    | _ :: rest =>
      let name := cs.takeWhile (· != '\'')
      if name.isEmpty then none else some (some (String.ofList name), rest)
    | [] => none
  | cs =>
    let belongs (c : Char) : Bool := c != '=' && c != '#' && !isBlank c
    let name := cs.takeWhile belongs
    if name.isEmpty then none else some (some (String.ofList name), cs.dropWhile belongs)

/-- What stands before the closing quote and what follows it. A quote after a backslash does not
close, unless no other one does. -/
def closeQuote? (quote : Char) : List Char → Option (List Char × List Char)
  | [] => none
  | [c] => if c == quote then some ([], []) else none
  | c :: d :: cs =>
    if c == quote then some ([], d :: cs)
    else if c == '\\' && d == quote then
      match closeQuote? quote cs with
      | some (inside, rest) => some (c :: d :: inside, rest)
      | none => some ([c], cs)
    else (closeQuote? quote (d :: cs)).map fun p => (c :: p.1, p.2)

def escaped? (quote c : Char) : Option Char :=
  if c == '\\' || c == '\'' then some c
  else if quote == '\'' then none
  else
    match c with
    | '"' => some '"'
    | 'a' => some (Char.ofNat 7)
    | 'b' => some (Char.ofNat 8)
    | 'f' => some (Char.ofNat 12)
    | 'n' => some '\n'
    | 'r' => some '\r'
    | 't' => some '\t'
    | 'v' => some (Char.ofNat 11)
    | _ => none

def unescape (quote : Char) : List Char → List Char
  | [] => []
  | [c] => [c]
  | c :: d :: cs =>
    if c == '\\' then
      match escaped? quote d with
      | some e => e :: unescape quote cs
      | none => c :: unescape quote (d :: cs)
    else c :: unescape quote (d :: cs)

def cutComment : List Char → List Char
  | [] => []
  | c :: cs =>
    if isBlank c && (cs.dropWhile isBlank).head? == some '#' then [] else c :: cutComment cs

def readValue? (cs : List Char) : Option (String × List Char) :=
  let quoted (quote : Char) (cs : List Char) : Option (String × List Char) :=
    (closeQuote? quote cs).map fun p => (String.ofList (unescape quote p.1), p.2)
  match cs with
  | '\'' :: cs => quoted '\'' cs
  | '"' :: cs => quoted '"' cs
  | cs =>
    some (String.ofList (trimRight (cutComment (cs.takeWhile notNewline))), cs.dropWhile notNewline)

def dropComment (cs : List Char) : List Char :=
  match skipSpaces cs with
  | '#' :: rest => rest.dropWhile notNewline
  | _ => cs

def endLine? (cs : List Char) : Option (List Char) :=
  match skipSpaces cs with
  | [] => some []
  | '\r' :: '\n' :: rest => some rest
  | c :: rest => if notNewline c then none else some rest

def dropLine (cs : List Char) : List Char := (cs.dropWhile notNewline).drop 1

def readLine (cs : List Char) : Option Binding × List Char :=
  let cs := dropExport (trimLeft cs)
  match readName? cs with
  | none => (none, dropLine cs)
  | some (name, rest) =>
    let finish (value : Option String) (rest : List Char) : Option Binding × List Char :=
      let rest := dropComment rest
      match endLine? rest with
      | none => (none, dropLine rest)
      | some rest => (name.map fun n => (n, value), rest)
    match skipSpaces rest with
    | '=' :: rest =>
      let rest := skipSpaces rest
      match readValue? rest with
      | none => (none, dropLine rest)
      | some (value, rest) => finish (some value) rest
    | rest => finish none rest

def bindingsFrom : Nat → List Char → List Binding
  | 0, _ => []
  | fuel + 1, cs =>
    if (trimLeft cs).isEmpty then []
    else
      let (binding?, rest) := readLine cs
      binding?.toList ++ bindingsFrom fuel rest

def bindings (file : String) : List Binding :=
  let cs := unifyNewlines file.toList
  bindingsFrom cs.length cs

/-- The name and the default of a reference whose opening brace has been read, and the rest. -/
def readReference? (cs : List Char) : Option (String × String × List Char) :=
  let inName (c : Char) : Bool := c != '\x7d' && c != ':'
  let name := String.ofList (cs.takeWhile inName)
  match cs.dropWhile inName with
  | '\x7d' :: rest => some (name, "", rest)
  | ':' :: '-' :: cs =>
    match cs.dropWhile (· != '\x7d') with
    | _ :: rest => some (name, String.ofList (cs.takeWhile (· != '\x7d')), rest)
    | [] => none
  | _ => none

def expandFrom (lookup : String → Option (Option String)) : Nat → List Char → List Char
  | 0, _ => []
  | _ + 1, [] => []
  | fuel + 1, c :: cs =>
    match c, cs with
    | '$', '\x7b' :: rest =>
      match readReference? rest with
      | some (name, default, rest) =>
        (((lookup name).getD (some default)).getD "").toList ++ expandFrom lookup fuel rest
      | none => c :: expandFrom lookup fuel cs
    | _, _ => c :: expandFrom lookup fuel cs

def expand (lookup : String → Option (Option String)) (value : String) : String :=
  String.ofList (expandFrom lookup value.length value.toList)

def lookupIn (env : Environment) (read : List Binding) (name : String) : Option (Option String) :=
  match Table.find? env name with
  | some value => some (some value)
  | none => Table.find? read name

def resolve (env : Environment) (bindings : List Binding) : List Binding :=
  bindings.foldl
    (fun read b => Table.insert b.1 (b.2.map (expand (lookupIn env read))) read) []

/-- What a file binds, if there is one. -/
def resolved (env : Environment) (file : Option String) : List Binding :=
  resolve env ((file.map bindings).getD [])

def loader : Loader where
  bindings := resolved
  load env file := (resolved env file).foldlM addMissing env

end Toolwright.Settings.EnvFile

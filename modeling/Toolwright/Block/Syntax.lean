import Toolwright.Arguments
import Toolwright.Journal.Basic
import Toolwright.Literal
import Toolwright.Tool.Definition

/-!
# Blocks

The language of the blocks that tools execute and of the session steps that blocks may perform. A
block has parameters, some with defaults, a name for the arguments that are left over, and a body.
Values are written as literals and built where they are used.
-/

namespace Toolwright

set_option autoImplicit false

structure ParamDraft where
  name : Literal
  type : Literal := .str "string"
  description : Literal := .null
  required : Literal := .bool true
  default : Literal := .null

def ParamDraft.build (p : ParamDraft) : Build ParamSpec := do
  let name ← p.name.build
  let type ← p.type.build
  let description ← p.description.build
  let required ← p.required.build
  return ⟨name, type, description, required, ← p.default.build⟩

/-- A configuration as it is written. -/
structure ConfigDraft where
  jsonIndent : Option Literal := none
  debug : Option Literal := none
  logFile : Option Literal := none

def ConfigDraft.build (c : ConfigDraft) : Build Config := do
  let standard : Config := {}
  let jsonIndent ← c.jsonIndent.mapM (·.build)
  let debug ← c.debug.mapM (·.build)
  let logFile ← c.logFile.mapM (·.build)
  return ⟨jsonIndent.getD standard.jsonIndent, debug.getD standard.debug,
    logFile.getD standard.logFile⟩

mutual

inductive Node where
  | lit (v : Literal)
  | var (name : String)
  | list (items : List Node)
  | tuple (items : List Node)
  | dict (rows : List (Node × Node))
  /-- The texts of the items, joined. -/
  | cat (items : List Node)
  | add (left right : Node)
  | cond (test whenTrue whenFalse : Node)
  | seq (items : List Node)
  /-- Calls an attribute of the context. -/
  | helper (name : String) (args : List Node) (named : List (String × Node))
  /-- Calls an attribute of the class of the context. -/
  | classHelper (name : String) (args : List Node) (named : List (String × Node))
  | raise (kind text : String)
  | setAttr (name : String) (value : Node)
  | getAttr (name : String) (default : Literal)
  | hasAttr (name : String)
  | className
  | perform (step : Step)

inductive Block where
  | mk (params : List (String × Option Literal)) (rest : Option String) (body : Node)

/-- A step of a session. A step on a definition names it, or works on the one being configured. -/
inductive Step where
  | define (id : String) (name : Literal) (configure : Option (List Step))
  | describe (definition : Option String) (text : Literal)
  | param (definition : Option String) (draft : ParamDraft)
  | execute (definition : Option String) (block : Block)
  | help (definition : Option String) (scope : Scope) (name : String) (block : Block)
  | inspect (definition : Option String)
  | printed (definition : Option String)
  | inputSchema (definition : Option String)
  | helperTable (definition : Option String) (reserved : List String)
  | runBlock (definition : Option String) (named : Literal.Rows)
  | newParameter (draft : ParamDraft)
  | newParamSpec (draft : ParamDraft)
  | register (kind : String) (cls : Option String)
  | unregister (kind : String)
  | resolve (kind : String)
  | requireHost (kind : String) (base : Option String) (label module : String)
  | subclass (id : String) (base : Option String) (name : String) (attributes : Literal.Rows)
      (response : Option String) (execute : Option Block)
  | toLlm (definition : Option String) (id : String) (base : Option String)
  | toMcp (definition : Option String) (id : String) (base : Option String)
      (config : Option ConfigDraft)
  | sameClass (a b : String)
  | isSubclass (a b : String)
  /-- Calls an attribute of a class. -/
  | callClass (cls name : String) (args : List Literal) (named : Literal.Rows)
  /-- Calls an attribute of the class of the helper objects of a tool class. -/
  | callHelperClass (cls name : String) (args : List Literal) (named : Literal.Rows)
  | new (id cls : String)
  | callObject (object name : String) (args : List Literal) (named : Literal.Rows)
  | hasAttrs (object : String) (names : List String)
  | newResponse (content isError : Option Literal)
  | dropParam (definition : Option String)
  /-- Changes a collection that a class handed out: clears the parameters. -/
  | clearParameters (cls : String)
  /-- Adds a required name to the schema that a class handed out. -/
  | growSchema (cls : String)
  /-- Clears the properties of the listing that a class handed out. -/
  | clearListing (cls : String)
  | raise (kind text : String)

end

instance : Inhabited Node := ⟨.lit .null⟩

namespace Block

def params : Block → List (String × Option Literal)
  | .mk params _ _ => params

def rest : Block → Option String
  | .mk _ rest _ => rest

def body : Block → Node
  | .mk _ _ body => body

end Block

structure Binding where
  vars : Named := []
  left : Named

namespace Binding

def give (b : Binding) (name : String) (v : Value) : Binding :=
  { b with vars := Table.insert name v b.vars }

def take (b : Binding) (param : String × Option Literal) : Build Binding := do
  match Table.find? b.left param.1, param.2 with
  | some v, _ => return { b.give param.1 v with left := Table.erase param.1 b.left }
  | none, some default => return b.give param.1 (← default.build)
  | none, none => throw .mismatch

end Binding

namespace Block

/-- The variables of a call. Parameters take arguments by position first; a named argument of a
parameter that has one already is left over. Arguments that do not fit are a mismatch. -/
def bind (b : Block) (args : List Value) (named : Named) : Build Named := do
  if b.params.length < args.length then throw .mismatch
  let placed := (b.params.zip args).foldl (fun s row => s.give row.1.1 row.2) ⟨[], named⟩
  let full ← (b.params.drop args.length).foldlM Binding.take placed
  match b.rest with
  | some rest => return Table.insert rest (.ofRows full.left) full.vars
  | none => if full.left.isEmpty then return full.vars else throw .mismatch

end Block

end Toolwright

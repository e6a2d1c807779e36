import Toolwright.Host.World

/-!
# Signatures

What the functions of the bundled classes take and give, with their defaults, the types that they
are annotated with and their descriptions.
-/

namespace Toolwright

set_option autoImplicit false

/-- A parameter of a function: its name, its type if it has one, and its default if it has one. -/
structure Formal where
  name : String
  type : String := ""
  default : Option Value := none

structure Signature where
  params : List Formal := []
  /-- What takes the named arguments that no parameter takes. -/
  rest : Option Formal := none
  result : Option Value := none
  description : Value := .null

namespace Signature

/-- The parameters as arguments are bound to them. -/
def takes (s : Signature) : List (String × Option Value) :=
  s.params.map fun p => (p.name, p.default)

/-- The types by the names of what they are of; those of all results are under one name. -/
def annotations (s : Signature) : Value :=
  let typed := (s.params ++ s.rest.toList).filter fun p => p.type != ""
  .ofRows (typed.map (fun p => (p.name, .str p.type)) ++
    s.result.toList.map fun type => ("return", type))

def defaults (s : Signature) : Value :=
  match s.params.filterMap (·.default) with
  | [] => .null
  | vs => .tuple vs

end Signature

def Formal.self : Formal := ⟨"self", "", none⟩

def Formal.optional (name type : String) : Formal := ⟨name, "Optional[" ++ type ++ "]", some .null⟩

def Formal.anything (name : String) : Formal := ⟨name, "Any", none⟩

/-- The lines of a description below the first one, set in as they are written. -/
def describedIn (lines : List String) : Value := .str ("\n".intercalate lines)

namespace HostMethod

def accessor (name noun : String) : String :=
  "Return the " ++ noun ++ ", or set it when *" ++ name ++ "* is given."

def signature : HostMethod → Signature
  | .functionName => ⟨[.optional "name" "str"], none, some (.str "Optional[str]"),
      describedIn [accessor "name" "tool name", "",
        "        Defaults to the snake_cased class name.", "        "]⟩
  | .servedName => ⟨[.optional "name" "str"], none, some (.str "Optional[str]"),
      .str (accessor "name" "tool name")⟩
  | .description => ⟨[.optional "text" "str"], none, some (.str "Optional[str]"),
      .str (accessor "text" "description")⟩
  | .param => ⟨[⟨"name", "str", none⟩, ⟨"type", "str", some (.str "string")⟩,
        .optional "desc" "str", ⟨"required", "bool", some (.bool true)⟩],
      none, some (.str "None"), .str "Declare a parameter."⟩
  | .parameters => ⟨[], none, some (.str "Dict[str, ToolParameter]"),
      .str "Return the declared parameters in declaration order."⟩
  | .execute => ⟨[.self], some (.anything "kwargs"), some (.str "Any"), .null⟩
  | .callFunction => ⟨[.self, .optional "args" "Mapping[str, Any]"], none, some (.str "Any"),
      .str "Dispatch a mapping of arguments (e.g. from a tool call) to ``execute``."⟩
  | .functionSchema => ⟨[], none, some (.str "Dict[str, Any]"),
      .str "Export this tool as a JSON Schema object."⟩
  | .functionEntry => ⟨[], none, some (.str "Dict[str, Any]"),
      describedIn ["Export in OpenAI function calling format.", "", "        Returns::", "",
        "            \x7b", "                \"type\": \"function\",",
        "                \"function\": \x7b \"name\": ..., \"description\": ..., " ++
          "\"parameters\": ... \x7d", "            \x7d", "        "]⟩
  | .inputSchema => ⟨[.optional "properties" "Dict[str, Dict[str, Any]]",
        .optional "required" "List[str]"], none, some (.str "Optional[InputSchema]"),
      .str "Return the input schema, or declare it when arguments are given."⟩
  | .serve => ⟨[⟨"server_context", "Any", some .null⟩], some (.anything "kwargs"),
      some (.str "Response"), .null⟩
  | .listing => ⟨[], none, some (.str "Dict[str, Any]"),
      .str "Render the ``tools/list`` entry for this tool."⟩
  | .copyParameters => ⟨[], some (.anything "kwargs"), some (.str "None"), .null⟩

end HostMethod

namespace DefinitionMethod

def signature : DefinitionMethod → Signature
  | .configure => ⟨[.self, ⟨"name", "str", none⟩,
        .optional "configure" "Callable[['ToolDefinition'], Any]"],
      none, some (.str "None"), .null⟩
  | .describe => ⟨[.self, .optional "text" "str"], none, some (.str "Optional[str]"),
      .str (HostMethod.accessor "text" "description")⟩
  | .declare => ⟨[.self, ⟨"name", "str", none⟩, ⟨"type", "str", some (.str "string")⟩,
        .optional "description" "str", ⟨"required", "bool", some (.bool true)⟩,
        ⟨"default", "Any", some .null⟩],
      none, some (.str "ParamSpec"),
      .str "Declare a parameter. Declaration order is preserved."⟩
  | .store => ⟨[.self, ⟨"block", "Callable", none⟩], none, some (.str "Callable"),
      describedIn ["Store the execution block. The last declaration wins.", "",
        "        The block is called as ``block(ctx, **args)`` where ``ctx`` exposes",
        "        the instance helpers. Returns *block* so this works as a decorator.",
        "        "]⟩
  | .help scope => ⟨[.self, ⟨"method_name", "str", none⟩, .optional "block" "Callable"], none,
      some (.str "Any"), describedIn [
        match scope with
        | .ofInstance => "Register an instance helper ``block(ctx, *args, **kwargs)``."
        | .ofClass => "Register a class-scope helper ``block(*args, **kwargs)``.",
        "", "        Without *block*, returns a decorator.", "        "]⟩
  | .toFunctionTool => ⟨[.self, .optional "base" "type"], none, some (.str "type"),
      .str ("Materialize as an LLM host tool class. " ++
        "See :func:`tool_forge.adapters.llm.to_llm_tool`.")⟩
  | .toServedTool => ⟨[.self, .optional "base" "type", .optional "config" "'ForgeConfig'"],
      none, some (.str "type"),
      .str ("Materialize as an MCP host tool class. " ++
        "See :func:`tool_forge.adapters.mcp.to_mcp_tool`.")⟩
  | .text => ⟨[.self], none, some (.str "str"), .null⟩

end DefinitionMethod

namespace Shape

def types : Shape → List String
  | .paramSpec => ["str", "str", "Optional[str]", "bool", "Any"]
  | .toolParameter => ["str", "str", "Optional[str]", "bool"]
  | .inputSchema => ["Dict[str, Dict[str, Any]]", "List[str]"]
  | .helperTable => ["Dict[str, Callable]", "Dict[str, Callable]"]
  | .response .. => ["List[Dict[str, Any]]", "bool"]

def fresh : Shape → List (String × Value)
  | .inputSchema => [("properties", .dict []), ("required", .list [])]
  | .helperTable => [("instance", .dict []), ("class_scope", .dict [])]
  | .response .. => [("content", .list [])]
  | _ => []

/-- The defaults of fields, which the class of the records holds too. -/
def defaults : Shape → List (String × Value)
  | .toolParameter => [("type", .str "string"), ("description", .null), ("required", .bool true)]
  | .paramSpec => [("type", .str "string"), ("description", .null), ("required", .bool true),
      ("default", .null)]
  | .response .. => [("is_error", .bool false)]
  | _ => []

def params (s : Shape) : List Formal :=
  .self :: List.zipWith (fun name type =>
    ⟨name, type, Table.find? (s.defaults ++ s.fresh) name⟩) s.fields s.types

end Shape

def RecordMethod.signature (s : Shape) : RecordMethod → Signature
  | .fill => ⟨s.params, none, some .null, .null⟩
  | .text => ⟨[.self], none, none, .null⟩
  | .equals => ⟨[.self, ⟨"other", "", none⟩], none, none, .null⟩
  | .document => ⟨[.self], none, some (.str "Dict[str, Any]"), .null⟩

def BundledMethod.signature : BundledMethod → Signature
  | .host m => m.signature
  | .record shape m => m.signature shape
  | .definition m => m.signature

namespace Function

def signature? : Function → Option Signature
  | .bundled m => some m.signature
  | .runs _ => some ⟨[.anything "self"], some (.anything "kwargs"), some (.str "Any"), .null⟩
  | .serves .. => some ⟨[⟨"cls", "type", none⟩, ⟨"server_context", "Any", some .null⟩],
      some (.anything "kwargs"), some (.str "Any"), .null⟩
  | .registers .. => some ⟨[⟨"fn", "Callable", none⟩], none, some (.str "Callable"), .null⟩
  | _ => none

def takes (f : Function) : List (String × Option Value) :=
  (f.signature?.map Signature.takes).getD []

def captured : Function → Nat
  | .runs _ | .forwards _ | .bundled (.host .copyParameters) => 1
  | .registers .. => 2
  | .serves .. => 4
  | _ => 0

end Function

end Toolwright

import Toolwright.Host.Adaptation

/-!
# The start of a session

The bundled classes: those of both hosts, each host being present, and those of definitions, answers
and other records.
-/

namespace Toolwright.Session

set_option autoImplicit false

def ofClass (methods : List (String × HostMethod)) : List (String × Attribute) :=
  methods.map fun row => (row.1, .ofClass (.bundled (.host row.2)))

def ofObject (methods : List (String × BundledMethod)) : List (String × Attribute) :=
  methods.map fun row => (row.1, .ofObject (.bundled row.2))

/-- The room that the objects of a class have for attributes. -/
def rooms : List (String × Attribute) :=
  [("__dict__", .field .object "__dict__"), ("__weakref__", .field .object "__weakref__")]

def bundled (name : String) (attributes : List (String × Attribute)) : HostClass where
  name := name
  qualifiedName := name
  base := .builtIn .object
  lineage := [.builtIn .object]
  attributes := attributes

def text (name s : String) : String × Attribute := (name, .value (.str s))

def annotations (rows : List (String × String)) : String × Attribute :=
  ("__annotations__", .value (.ofRows (rows.map fun row => (row.1, .str row.2))))

/-- The class of a function-calling host. Its parameters are in the first cell. -/
def functionClass : HostClass :=
  bundled "LLMTool" <|
    [text "__module__" "tool_forge.hosts.llm",
      annotations [("_name", "Optional[str]"), ("_description", "Optional[str]"),
        ("_parameters", "Dict[str, ToolParameter]")],
      text "__doc__" "Base class for tools exposed to an LLM.", ("_name", .value .null),
      ("_description", .value .null), ("_parameters", .value (World.placeValue (.cell 0)))] ++
    ofClass [("__init_subclass__", .copyParameters), ("tool_name", .functionName),
      ("description", .description), ("param", .param), ("parameters", .parameters)] ++
    ofObject [("execute", .host .execute), ("call", .host .callFunction)] ++
    ofClass [("to_json_schema", .functionSchema), ("to_openai_schema", .functionEntry)] ++ rooms

def servingClass : HostClass :=
  bundled "MCPTool" <|
    [text "__module__" "tool_forge.hosts.mcp",
      annotations [("_name", "Optional[str]"), ("_description", "Optional[str]"),
        ("_input_schema", "Optional[InputSchema]")],
      text "__doc__" "Base class for tools served over MCP.",
      ("Response", .value (World.classValue (.made answerClass))), ("_name", .value .null),
      ("_description", .value .null), ("_input_schema", .value .null)] ++
    ofClass [("tool_name", .servedName), ("description", .description),
      ("input_schema", .inputSchema), ("call", .serve), ("to_dict", .listing)] ++ rooms

def recordClass (s : Shape) (module doc : String) (methods : List (String × RecordMethod)) :
    HostClass :=
  let plain (kind : String) : Value := .opaqueRef (.plain kind (kind ++ "(...)"))
  let ofRecord (methods : List (String × RecordMethod)) : List (String × Attribute) :=
    ofObject (methods.map fun row => (row.1, .record s row.2))
  bundled s.name <|
    [text "__module__" module, annotations (s.fields.zip s.types), text "__doc__" doc] ++
    (s.defaults.map fun row => (row.1, .value row.2)) ++ ofRecord methods ++ rooms ++
    [("__dataclass_params__", .value (plain "_DataclassParams")),
      ("__dataclass_fields__", .value (.ofRows (s.fields.map (·, plain "Field"))))] ++
    ofRecord [("__init__", .fill), ("__repr__", .text), ("__eq__", .equals)] ++
    [("__hash__", .value .null), ("__match_args__", .value (.tuple (s.fields.map .str)))]

def answers : HostClass :=
  recordClass (.response answerClass answerClassName) "tool_forge.hosts.mcp"
    ("Result of MCP ``tools/call``.\n\n    Attributes:\n        content: Content blocks, e.g. " ++
      "``[\x7b\"type\": \"text\", \"text\": \"...\"\x7d]``.\n" ++
      "        is_error: Whether the tool reported an error.\n    ")
    [("to_dict", .document)]

def definitions : HostClass :=
  bundled "ToolDefinition" <|
    [text "__module__" World.definitionModule,
      text "__doc__" ("Declarative description of a tool.\n\n    Usage::\n\n" ++
        "        def configure(t):\n" ++
        "            t.description(\"Greets a user\")\n" ++
        "            t.param(\"name\", type=\"string\", description=\"User name\")\n\n" ++
        "            @t.execute\n            def run(ctx, name):\n" ++
        "                return f\"Hello, \x7bname\x7d!\"\n\n" ++
        "        greeting = ToolDefinition(\"greeting_tool\", configure)\n    ")] ++
    ofObject [("__init__", .definition .configure)] ++
    (["name", "params", "execute_block", "helper_methods"].map fun name =>
      (name, .view ("_" ++ name))) ++
    ofObject [("description", .definition .describe), ("param", .definition .declare),
      ("execute", .definition .store), ("helper", .definition (.help .ofInstance)),
      ("class_helper", .definition (.help .ofClass)),
      ("to_llm_tool", .definition .toFunctionTool), ("to_mcp_tool", .definition .toServedTool),
      ("__repr__", .definition .text)] ++ rooms

def helperTables : HostClass :=
  recordClass .helperTable World.definitionModule
    ("Named helper callables available to the execute block.\n\n    Attributes:\n" ++
      "        instance: Helpers bound to the execution context. Each receives\n" ++
      "            the context as its first argument.\n" ++
      "        class_scope: Helpers without instance context, reached through\n" ++
      "            ``type(ctx)`` inside the execute block.\n    ") []

def declaredParams : HostClass :=
  recordClass .paramSpec World.definitionModule
    ("Description of a single tool parameter.\n\n" ++
      "    ``type`` is stored verbatim (``\"string\"``, ``\"integer\"``, ``\"boolean\"``,\n" ++
      "    ``\"number\"``, ``\"array\"``, ``\"object\"`` or anything else the caller\n" ++
      "    passes). ``default`` is informational only; no adapter substitutes it.\n    ") []

/-- The class of the parameters of function-calling tools. -/
def toolParameters : HostClass :=
  recordClass .toolParameter "tool_forge.hosts.llm"
    "A parameter declared on an :class:`LLMTool` subclass." []

def inputSchemas : HostClass :=
  recordClass .inputSchema "tool_forge.hosts.mcp"
    "JSON Schema describing a tool's arguments." [("to_dict", .document)]

def functionClassRef : ClassRef := .made 0
def servingClassRef : ClassRef := .made 1

/-- A world in which nothing was done yet. -/
def start : World where
  classes := [functionClass, servingClass, answers, definitions, helperTables, declaredParams,
    toolParameters, inputSchemas, bundled "ForgeConfig" rooms]
  cells := [.dict []]
  hosts := [(llmHost, some functionClassRef), (mcpHost, some servingClassRef)]
  classIds := [("LLMTool", functionClassRef), ("MCPTool", servingClassRef)]

end Toolwright.Session

import Toolwright.Host.Adaptation

/-!
# Package

The version and the names that are made public.
-/

namespace Toolwright.Package

set_option autoImplicit false

def version : String := "0.1.0"

/-- The public names, in order. -/
def exports : List String := [
  "ForgeConfig", "HelperMethods", "LLM_HOST", "LoadConfigurationError", "MCP_HOST", "ParamSpec",
  "ToolDefinition", "ToolForgeError", "__version__", "define", "register_host", "resolve_host",
  "unregister_host"]

def hosts : List String := [llmHost, mcpHost]

end Toolwright.Package

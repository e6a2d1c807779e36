import Toolwright.Text.Case
import Toolwright.Text.Runs

/-!
# Names of tools and classes

A tool name has words between dashes and underscores; the class name joins them with capitals. A
class name gives back a tool name by an underscore before each capital.
-/

namespace Toolwright.Naming

set_option autoImplicit false

def nameWords (cs : List Char) : List (List Char) :=
  Text.runs (fun c => c == '-' || c == '_') cs

def headUpper : List Char → List Char
  | [] => []
  | c :: cs => Text.upperOne c ++ cs

def classChars (name affix : List Char) : List Char :=
  match (nameWords name).flatMap headUpper ++ affix with
  | [] => "Tool".toList
  | cs => cs

/-- The class name of a tool, with what is put after it. -/
def className (name : String) (affix : String) : String :=
  String.ofList (classChars name.toList affix.toList)

def isCapital (c : Char) : Bool := 'A' ≤ c && c ≤ 'Z'

/-- An underscore before each capital but the first character. -/
def separateCapitals : List Char → List Char
  | [] => []
  | c :: cs => c :: cs.flatMap fun c => if isCapital c then ['_', c] else [c]

def toolName (className : String) : String :=
  String.ofList (Text.lower (separateCapitals className.toList))

end Toolwright.Naming

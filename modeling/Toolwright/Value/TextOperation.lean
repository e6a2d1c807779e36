import Toolwright.Format.Field
import Toolwright.Text.Blank
import Toolwright.Text.Case
import Toolwright.Text.Letter
import Toolwright.Text.Printable
import Toolwright.Value.Alphabet
import Toolwright.Value.Coding

/-!
# Operations on texts

What the named operations of texts give.
-/

namespace Toolwright.Value

set_option autoImplicit false

def ofChars (cs : List Char) : Value := .str (String.ofList cs)

def chars? : Value → Option (List Char)
  | .str s => some s.toList
  | _ => none

def textAlphabet : Alphabet Char where
  wrap := ofChars
  unwrap? := chars?
  sought? v := v.chars?.map .ok
  isBlank := Text.isBlank
  lines keep cs := if keep then Text.pieces cs else Text.lines cs
  ofAscii c := c
  absent := "substring not found"
  noun := "string is"

/-- Whether all characters of a text that is not empty pass a test. -/
def allPass (test : Char → Bool) (cs : List Char) : Value := .bool (!cs.isEmpty && cs.all test)

/-- What a text is asked for that is answered by yes or no. -/
def textTest? (name : String) (cs : List Char) : Option Value :=
  match name with
  | "isspace" => some (allPass Text.isBlank cs)
  | "isalpha" => some (allPass Text.isLetter cs)
  | "isalnum" => some (allPass (fun c => Text.isLetter c || Text.isNumberSign c) cs)
  | "isdecimal" => some (allPass Text.isDecimal cs)
  | "isdigit" => some (allPass Text.isDigitSign cs)
  | "isnumeric" => some (allPass Text.isNumberSign cs)
  | "isidentifier" => some (.bool (Text.isName cs))
  | "isprintable" => some (.bool (cs.all Text.isPrintable))
  | "isupper" => some (.bool (Text.isAllUpper cs))
  | "islower" => some (.bool (Text.isAllLower cs))
  | "istitle" => some (.bool (Text.isTitled cs))
  | "isascii" => some (.bool (cs.all fun c => c.toNat < 128))
  | _ => none

def textForm? (name : String) (cs : List Char) : Option (List Char) :=
  match name with
  | "upper" => some (Text.upper cs)
  | "lower" => some (Text.lower cs)
  | "capitalize" => some (Text.capitalize cs)
  | "title" => some (Text.title cs)
  | "swapcase" => some (Text.swapCase cs)
  | "casefold" => some (Text.fold cs)
  | _ => none

def textOperation (name : String) (cs : List Char) (args : List Value) : Option Outcome :=
  match name, args with
  | "encode", [.str encoding, .str policy] =>
    some (do gives (.bytes (← encoded encoding policy cs)))
  | "__getitem__", [v] =>
    v.asInt?.map fun i => do
      match (position? cs.length (← Word.place i)).bind (cs[·]?) with
      | some c => gives (ofChars [c])
      | none => .error (.outOfRange "string index out of range")
  | "__format__", [.str ""] => some (gives (ofChars cs))
  | "__format__", [.str spec] => some (do gives (ofChars (← Format.formattedText spec cs)))
  | name, [] =>
    match textTest? name cs, textForm? name cs with
    | some v, _ => some (gives v)
    | none, some form => some (gives (ofChars form))
    | none, none => textAlphabet.operation name cs []
  | name, args => textAlphabet.operation name cs args

end Toolwright.Value

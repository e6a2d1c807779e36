import Toolwright.Value.Printed
import Toolwright.Word

/-!
# Layout of documents

A document is written on one line, or with each item and member on a line of its own, indented once
per level. The layout decides the white space outside the texts and nothing else.
-/

/-!
## Documents

A document is the tree that is written as JSON text: the members of an object keep their order and
may repeat a name. `Document.ofValue` says which values have a document; what is no number, text or
container becomes a leaf as its caller decides.
-/

namespace Toolwright

set_option autoImplicit false

inductive Document where
  | null
  | bool (b : Bool)
  | int (n : Int)
  | float (x : Binary64)
  | str (s : String)
  | array (items : List Document)
  | object (members : List (String × Document))

namespace Document

def floatText : Binary64 → String
  | .nan _ => "NaN"
  | .infinity negative => if negative then "-Infinity" else "Infinity"
  | x => x.text

def memberName : Value → Except Fault String
  | .str s => .ok s
  | .null => .ok "null"
  | .bool b => .ok (if b then "true" else "false")
  | .int n => intText n
  | .float x => .ok (floatText x)
  | _ => .error .mismatch

mutual

def ofValue (leaf : Value → Except Fault Document) : Value → Except Fault Document
  | .null => .ok .null
  | .bool b => .ok (.bool b)
  | .int n => do
    let _ ← intText n
    return .int n
  | .float x => .ok (.float x)
  | .str s => .ok (.str s)
  | .list xs => do return .array (← ofItems leaf xs)
  | .tuple xs => do return .array (← ofItems leaf xs)
  | .dict rows => do return .object (← ofRows leaf rows)
  | v => leaf v

def ofItems (leaf : Value → Except Fault Document) : List Value → Except Fault (List Document)
  | [] => .ok []
  | x :: xs => do return (← ofValue leaf x) :: (← ofItems leaf xs)

def ofRows (leaf : Value → Except Fault Document) :
    List (Value × Value) → Except Fault (List (String × Document))
  | [] => .ok []
  | (k, v) :: rows => do
    let name ← memberName k
    return (name, ← ofValue leaf v) :: (← ofRows leaf rows)

end

end Document

/-! ## Layouts -/

inductive Layout where
  | compact
  | indented (unit : List Char)

namespace Layout

/-- The line break in front of an item at a level. -/
def lineBreak : Layout → Nat → List Char
  | .compact, _ => []
  | .indented unit, depth => '\n' :: (List.replicate depth unit).flatten

def separator : Layout → Nat → List Char
  | .compact, _ => [',', ' ']
  | layout, depth => ',' :: layout.lineBreak depth

/-- A layout is given by nothing, by a number of spaces or by the unit itself. -/
def ofIndent (indent : Value) : Except Fault Layout :=
  match indent with
  | .null => .ok .compact
  | .str s => .ok (.indented s.toList)
  | .bool b => .ok (.indented (if b then [' '] else []))
  | .int n => do return .indented (← Word.repeated none [' '] n)
  | _ => .error .mismatch

end Layout

namespace Document

/-- A character inside a text: quotes, backslashes and control characters are escaped. -/
def escapeChar (c : Char) : List Char :=
  if c == '"' || c == '\\' then ['\\', c]
  else if c == '\n' then ['\\', 'n']
  else if c == '\r' then ['\\', 'r']
  else if c == '\t' then ['\\', 't']
  else if c.toNat == 0xC then ['\\', 'f']
  else if c.toNat == 0x8 then ['\\', 'b']
  else if c.toNat < 0x20 then '\\' :: 'u' :: Text.hexDigits 4 c.toNat
  else [c]

def textChars (s : String) : List Char := '"' :: s.toList.flatMap escapeChar ++ ['"']

mutual

/-- The text of a document at a level. -/
def chars (layout : Layout) (depth : Nat) : Document → List Char
  | .null => "null".toList
  | .bool b => (if b then "true" else "false").toList
  | .int n => (toString n).toList
  | .float x => (floatText x).toList
  | .str s => textChars s
  | .array items =>
    if items.isEmpty then ['[', ']']
    else '[' :: layout.lineBreak (depth + 1) ++ itemChars layout (depth + 1) items ++
      layout.lineBreak depth ++ [']']
  | .object members =>
    if members.isEmpty then ['\x7b', '\x7d']
    else '\x7b' :: layout.lineBreak (depth + 1) ++ memberChars layout (depth + 1) members ++
      layout.lineBreak depth ++ ['\x7d']

def itemChars (layout : Layout) (depth : Nat) : List Document → List Char
  | [] => []
  | item :: items =>
    chars layout depth item ++
      (if items.isEmpty then [] else layout.separator depth ++ itemChars layout depth items)

def memberChars (layout : Layout) (depth : Nat) : List (String × Document) → List Char
  | [] => []
  | (name, d) :: members =>
    textChars name ++ ':' :: ' ' :: chars layout depth d ++
      (if members.isEmpty then [] else layout.separator depth ++ memberChars layout depth members)

end

def text (layout : Layout) (d : Document) : String := String.ofList (d.chars layout 0)

end Document

end Toolwright

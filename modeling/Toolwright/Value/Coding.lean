import Toolwright.Fault
import Toolwright.Text.Encoding

/-!
# Texts as bytes

A text in an encoding by name. A policy by name says what stands for a character that the encoding
does not have, and for bytes that are no character.
-/

namespace Toolwright.Value

set_option autoImplicit false

open Text (Encoding Reading)

def checkName (name : String) : Except Fault Unit :=
  if name.contains '\x00' then .error (.unreadable "embedded null character") else .ok ()

/-- The encoding of a name; `function` is the one that serves other codes. -/
def encodingOf (function name : String) : Except Fault Encoding :=
  match Encoding.ofName? name with
  | some e => .ok e
  | none =>
    if Encoding.otherCodes.contains (Encoding.plainName name) then
      .error (.unknownName ("'" ++ name ++ "' is not a text encoding; use codecs." ++ function ++
        "() to handle arbitrary codecs"))
    else .error (.unknownName ("unknown encoding: " ++ name))

/-- What went wrong in an encoding that is served apart tells its name. -/
def told {α : Type} (work name : String) (result : Except Fault α) : Except Fault α :=
  match result with
  | .error (.unknownName reason) =>
    if Encoding.directNames.contains (Encoding.plainName name) then .error (.unknownName reason)
    else .error (.unknownName (work ++ " with '" ++ name ++ "' codec failed (LookupError: " ++
      reason ++ ")"))
  | result => result

def unknownPolicy (name : String) : Fault :=
  .unknownName ("unknown error handler name '" ++ name ++ "'")

def substitute (policy : String) (c : Char) : Except Fault (List Char) :=
  match policy with
  | "strict" | "surrogateescape" | "surrogatepass" => .error .unencodable
  | "ignore" => .ok []
  | "replace" => .ok ['?']
  | "backslashreplace" => .ok (Text.escapeOf c)
  | "xmlcharrefreplace" => .ok ('&' :: '#' :: (Nat.toDigits 10 c.toNat ++ [';']))
  | "namereplace" => .error .mismatch
  | name => .error (unknownPolicy name)

def encoded (encoding policy : String) (cs : List Char) : Except Fault (List UInt8) := do
  checkName encoding
  checkName policy
  let e ← encodingOf "encode" encoding
  let parts ← told "encoding" encoding (cs.mapM fun c =>
    match e.bytesOf? c with
    | some bs => .ok bs
    | none => do return (← substitute policy c).flatMap fun c => (e.bytesOf? c).getD [])
  return e.mark ++ parts.flatten

def mend (policy : String) (bs : List UInt8) : Except Fault (List Char) :=
  match policy with
  | "strict" | "surrogateescape" | "surrogatepass" => .error .undecodable
  | "ignore" => .ok []
  | "replace" => .ok [Text.replacement]
  | "backslashreplace" => .ok (bs.flatMap fun b => '\\' :: 'x' :: Text.hexDigits 2 b.toNat)
  | "xmlcharrefreplace" | "namereplace" => .error .mismatch
  | name => .error (unknownPolicy name)

def decoded (encoding policy : String) (bs : List UInt8) : Except Fault (List Char) := do
  checkName encoding
  checkName policy
  if bs.isEmpty then return []
  let e ← encodingOf "decode" encoding
  let parts ← told "decoding" encoding ((e.read bs).mapM fun
    | .char c => .ok [c]
    | .broken bs => mend policy bs)
  return parts.flatten

end Toolwright.Value

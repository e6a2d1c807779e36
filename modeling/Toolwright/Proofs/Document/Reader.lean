import Toolwright.Binary64.Reader
import Toolwright.Document.Layout
import Toolwright.Text.Digit

/-!
# Reading documents

A strict reader of JSON text, against which what is written is checked. It takes what RFC 8259 takes
and nothing more: no comma behind the last item, no zero in front of a number, no control character
inside a text, no name for a number that is not finite.
-/

namespace Toolwright.Document

set_option autoImplicit false

/-- The white space that may stand around the parts of a document. -/
def isSpace (c : Char) : Bool := c == ' ' || c == '\n' || c == '\r' || c == '\t'

def skipSpace (cs : List Char) : List Char := cs.dropWhile isSpace

/-! ## Texts -/

def readUnit? : List Char → Option (Nat × List Char)
  | a :: b :: c :: d :: cs => do
    let a ← Text.hexValue? a
    let b ← Text.hexValue? b
    let c ← Text.hexValue? c
    let d ← Text.hexValue? d
    return (((a * 16 + b) * 16 + c) * 16 + d, cs)
  | _ => none

def readCode? (cs : List Char) : Option (Char × List Char) := do
  let (high, cs) ← readUnit? cs
  if high < 0xD800 || 0xE000 ≤ high then return (Char.ofNat high, cs)
  else
    match cs with
    | '\\' :: 'u' :: cs =>
      let (low, cs) ← readUnit? cs
      if high < 0xDC00 && 0xDC00 ≤ low && low < 0xE000 then
        return (Char.ofNat (0x10000 + (high - 0xD800) * 0x400 + (low - 0xDC00)), cs)
      else none
    | _ => none

def readEscape? : List Char → Option (Char × List Char)
  | 'u' :: cs => readCode? cs
  | 'b' :: cs => some (Char.ofNat 0x8, cs)
  | 'f' :: cs => some (Char.ofNat 0xC, cs)
  | 'n' :: cs => some ('\n', cs)
  | 'r' :: cs => some ('\r', cs)
  | 't' :: cs => some ('\t', cs)
  | c :: cs => if c == '"' || c == '\\' || c == '/' then some (c, cs) else none
  | [] => none

/-- The characters of a text up to its closing quote, of which there are at most `fuel`. -/
def readText? : Nat → List Char → Option (List Char × List Char)
  | 0, _ => none
  | _, [] => none
  | fuel + 1, c :: cs =>
    if c == '"' then some ([], cs)
    else if c == '\\' then do
      let (c, cs) ← readEscape? cs
      let (text, cs) ← readText? fuel cs
      return (c :: text, cs)
    else if c.toNat < 0x20 then none
    else do
      let (text, cs) ← readText? fuel cs
      return (c :: text, cs)

/-! ## Numbers -/

def takeDigits (cs : List Char) : List Char × List Char := cs.span Char.isDigit

def readWhole? (cs : List Char) : Option (List Char × List Char) :=
  match takeDigits cs with
  | ([], _) => none
  | ('0' :: _ :: _, _) => none
  | (ds, cs) => some (ds, cs)

def readFraction? : List Char → Option (Option (List Char) × List Char)
  | '.' :: cs =>
    match takeDigits cs with
    | ([], _) => none
    | (ds, cs) => some (some ds, cs)
  | cs => some (none, cs)

def readPower? : List Char → Option (Option Int × List Char)
  | [] => some (none, [])
  | c :: cs =>
    if c == 'e' || c == 'E' then
      let (negative, cs) := Text.takeSign cs
      match takeDigits cs with
      | ([], _) => none
      | (ds, cs) => some (some (Text.signed negative (Nat.ofDigitChars 10 ds 0)), cs)
    else some (none, c :: cs)

def readWritten? (cs : List Char) : Option (Binary64.Written × List Char) := do
  let (whole, cs) ← readWhole? cs
  let (fraction, cs) ← readFraction? cs
  let (power, cs) ← readPower? cs
  return (⟨whole, fraction, power⟩, cs)

def ofWritten (negative : Bool) (w : Binary64.Written) : Document :=
  if w.fraction.isNone && w.exponent.isNone then
    .int (Text.signed negative (Nat.ofDigitChars 10 w.whole 0))
  else
    let behind := w.fraction.getD []
    .float (Binary64.ofDecimal negative (Nat.ofDigitChars 10 (w.whole ++ behind) 0)
      (w.exponent.getD 0 - behind.length))

def readNumber? : List Char → Option (Document × List Char)
  | '-' :: cs => (readWritten? cs).map fun (w, cs) => (ofWritten true w, cs)
  | cs => (readWritten? cs).map fun (w, cs) => (ofWritten false w, cs)

/-! ## Documents -/

mutual

/-- A document behind white space; `fuel` bounds its characters. -/
def readValue? : Nat → List Char → Option (Document × List Char)
  | 0, _ => none
  | fuel + 1, cs =>
    match skipSpace cs with
    | 'n' :: 'u' :: 'l' :: 'l' :: cs => some (.null, cs)
    | 't' :: 'r' :: 'u' :: 'e' :: cs => some (.bool true, cs)
    | 'f' :: 'a' :: 'l' :: 's' :: 'e' :: cs => some (.bool false, cs)
    | '"' :: cs => (readText? fuel cs).map fun (text, cs) => (.str (String.ofList text), cs)
    | '[' :: cs =>
      match skipSpace cs with
      | ']' :: cs => some (.array [], cs)
      | cs => (readItems? fuel cs).map fun (items, cs) => (.array items, cs)
    | '\x7b' :: cs =>
      match skipSpace cs with
      | '\x7d' :: cs => some (.object [], cs)
      | cs => (readMembers? fuel cs).map fun (members, cs) => (.object members, cs)
    | cs => readNumber? cs

def readItems? : Nat → List Char → Option (List Document × List Char)
  | 0, _ => none
  | fuel + 1, cs => do
    let (item, cs) ← readValue? fuel cs
    match skipSpace cs with
    | ',' :: cs =>
      let (items, cs) ← readItems? fuel cs
      return (item :: items, cs)
    | ']' :: cs => return ([item], cs)
    | _ => none

def readMembers? : Nat → List Char → Option (List (String × Document) × List Char)
  | 0, _ => none
  | fuel + 1, cs => do
    let (name, cs) ← match skipSpace cs with
      | '"' :: cs => readText? fuel cs
      | _ => none
    let (d, cs) ← match skipSpace cs with
      | ':' :: cs => readValue? fuel cs
      | _ => none
    match skipSpace cs with
    | ',' :: cs =>
      let (members, cs) ← readMembers? fuel cs
      return ((String.ofList name, d) :: members, cs)
    | '\x7d' :: cs => return ([(String.ofList name, d)], cs)
    | _ => none

end

/-- The document that a text writes, if it is valid and nothing but white space stands around it. -/
def read? (s : String) : Option Document :=
  match readValue? (s.length + 1) s.toList with
  | some (d, rest) => if (skipSpace rest).isEmpty then some d else none
  | none => none

end Toolwright.Document

import Toolwright.Format.Directive
import Toolwright.Format.Template
import Toolwright.Host.Number
import Toolwright.Value.TextOperation

/-!
# Formatting

Templates and directives filled with the values of a session. How a value is laid out is asked of
its class, and so are the attributes and items that a field leads on to.
-/

namespace Toolwright

set_option autoImplicit false

open Format (Box Directive Markup Measure)
open Format.Template (Numbering)

namespace World

def typeMethod? (w : World) (v : Value) (name : String) : Option Access :=
  let c := w.classOf v
  (w.find? c name).map fun row => w.reached row.1 c (some v) row.2

def isKeyed (w : World) (v : Value) : Bool :=
  match v with
  | .str _ | .tuple _ => false
  | v => (w.typeMethod? v "__getitem__").isSome

end World

namespace Machine

def itemOf (m : Machine) (v key : Value) : Run Value := do
  let w ← Run.world
  match w.typeMethod? v "__getitem__", v with
  | some a, _ => m.use a [key] []
  | none, .opaqueRef (.cls c) =>
    match c, w.find? c "__class_getitem__" with
    | .builtIn .type, _ => m.formOf c key
    | _, some (holder, a) => m.use (w.reached holder c none a) [key] []
    | _, none => throw .mismatch
  | none, _ => throw .mismatch

def formatted (m : Machine) (v : Value) (spec : String) : Run String := do
  match (← Run.world).typeMethod? v "__format__" with
  | some a =>
    match ← m.use a [.str spec] [] with
    | .str s => return s
    | _ => throw .mismatch
  | none => throw .mismatch

def printedAscii (m : Machine) (v : Value) : Run (List Char) := do
  return (← m.printed v).toList.flatMap fun c => if c.toNat < 128 then [c] else Text.escapeOf c

/-! ## Templates -/

structure Fillings where
  /-- The values by position, if there can be any. -/
  places : Option (List Value)
  named : String → Run Value

def startOf (f : Fillings) (name : List Char) (place : Option Nat) : Run Value :=
  match place, f.places with
  | none, _ => f.named (String.ofList name)
  | some _, none => throw (.unreadable "Format string contains positional fields")
  | some i, some vs =>
    match vs[i]? with
    | some v => return v
    | none => throw (.outOfRange ("Replacement index " ++ toString i ++
        " out of range for positional args tuple"))

def follow (m : Machine) (v : Value) (step : Except Fault Format.Step) : Run Value := do
  match ← Run.lift step with
  | .attribute name => m.ask v (String.ofList name)
  | .item key =>
    match ← Run.lift (Format.Template.position? key) with
    | some i => m.itemOf v (.int i)
    | none => m.itemOf v (Value.ofChars key)

def fieldValue (m : Machine) (f : Fillings) (n : Numbering) (name : List Char) :
    Run (Value × Numbering) := do
  let start := name.takeWhile Format.Template.isPlain
  let (place, n) ← Run.lift (n.place start)
  let v ← (Format.Template.steps (name.drop start.length)).foldlM m.follow
    (← startOf f start place)
  return (v, n)

def convertField (m : Machine) (conversion : Option Char) (v : Value) : Run Value := do
  match conversion with
  | none => return v
  | some 's' => return .str (← m.text v)
  | some 'r' => return .str (← m.printed v)
  | some 'a' => return Value.ofChars (← m.printedAscii v)
  | some c =>
    let shown := if 32 < c.toNat && c.toNat < 127 then String.singleton c
      else "\\x" ++ String.ofList (Nat.toDigits 16 c.toNat)
    throw (.unreadable ("Unknown conversion specifier " ++ shown))

/-- A template with its fields filled; specifications may be templates themselves, `depth` of them
inside one another. -/
def fill (m : Machine) (f : Fillings) (depth : Nat) (template : List Char) (n : Numbering) :
    Run (List Char × Numbering) := do
  match depth with
  | 0 => throw (.unreadable "Max string recursion exceeded")
  | depth + 1 =>
    (Format.Template.pieces template).foldlM (fun (done, n) piece => do
      match ← Run.lift piece with
      | .char c => return (done ++ [c], n)
      | .field field =>
        let (v, n) ← m.fieldValue f n field.name
        let v ← m.convertField field.conversion v
        let (spec, n) ← if field.isNested then m.fill f depth field.spec n else pure (field.spec, n)
        return (done ++ (← m.formatted v (String.ofList spec)).toList, n)) ([], n)

def fillTemplate (m : Machine) (f : Fillings) (template : List Char) : Run Value := do
  return Value.ofChars (← m.fill f 2 template .fresh).1

def fillings (args : List Value) (named : Named) : Fillings where
  places := some args
  named name :=
    match Table.find? named name with
    | some v => return v
    | none => throw (.noKey name)

def fillingsOf (m : Machine) (v : Value) : Fillings where
  places := none
  named name := m.itemOf v (.str name)

/-! ## Directives -/

/-- The values that directives have still to take. -/
structure Supply where
  rest : List Value
  /-- What the values are named in, if they can be. -/
  keyed : Option Value

/-- What differs between the directives of texts and those of bytes. -/
structure Dialect where
  ofKey : List Char → Value
  /-- How a value is converted by a character, if it is one for values of any kind. -/
  convert? : Machine → Char → Option (Value → Run (List Char))
  code : Machine → Value → Run (List Char)
  /-- What a character is refused with that converts nothing, at a place; digits may be in front. -/
  unknown : Bool → Char → Nat → Fault

def Supply.next (s : Supply) : Run (Value × Supply) :=
  match s.rest with
  | v :: rest => return (v, { s with rest })
  | [] => throw .mismatch

def Supply.named (m : Machine) (d : Dialect) (s : Supply) (key : Option (List Char)) :
    Run Supply := do
  match s.keyed, key with
  | none, _ => throw .mismatch
  | some _, none => throw (.unreadable "incomplete format key")
  | some v, some key => return { s with rest := [← m.itemOf v (d.ofKey key)] }

def measured (noun : String) (word : Word) (measure : Option Measure) (s : Supply) :
    Run (Option Int × Supply) := do
  match measure with
  | none => return (none, s)
  | some (.given n) => return (some n, s)
  | some .tooBig => throw (.unreadable (noun ++ " too big"))
  | some .taken =>
    let (v, s) ← s.next
    match v.asInt? with
    | some n => return (some (← Run.lift (word.fit n)), s)
    | none => throw .mismatch

def convertNumber (m : Machine) (box : Box) (type : Char) (v : Value) :
    Run (List Char) := do
  if "diu".toList.contains type then Run.lift (box.integer type (← m.integerOf v))
  else if "oxX".toList.contains type then Run.lift (box.integer type (← m.indexOf v))
  else return box.float type (← m.floatOf v)

/-- The text of a directive behind a percent sign, and the supply afterwards. `index` is the place
behind it. -/
def runDirective (m : Machine) (d : Dialect) (directive : Directive) (index : Nat) (s : Supply) :
    Run (List Char × Supply) := do
  let s ← match directive.key with
    | some key => s.named m d key
    | none => pure s
  let (width, s) ← measured "width" .size directive.width s
  let (precision, s) ← measured "precision" .short directive.precision s
  let box := Box.ofFlags directive.flags (width.getD 0) (precision.map Int.toNat)
  match directive.conversion with
  | none => throw (.unreadable "incomplete format")
  | some type =>
    let (v, s) ← s.next
    let tight := if box.width ≤ Word.room then box else { box with width := 0 }
    let shown ←
      if "diuoxXeEfFgG".toList.contains type then m.convertNumber tight type v
      else if type == 'c' then do pure (tight.fit [] (← d.code m v) false)
      else
        match d.convert? m type with
        | some convert => do pure (tight.text (← convert v))
        | none => throw (d.unknown directive.isBehindDigits type (index - 1))
    let _ ← Run.lift (Word.fitRoom box.width)
    return (shown, s)

/-- A text with its directives carried out, of which a second percent sign stands for one; `fuel`
bounds their number, and `length` is that of the whole text. -/
def runDirectives (m : Machine) (d : Dialect) (length : Nat) :
    Nat → List Char → Supply → Run (List Char × Supply)
  | 0, _, s => return ([], s)
  | fuel + 1, cs, s => do
    let front := cs.takeWhile (· != '%')
    match cs.drop front.length with
    | [] => return (front, s)
    | _ :: '%' :: rest =>
      let (more, s) ← m.runDirectives d length fuel rest s
      return (front ++ '%' :: more, s)
    | _ :: rest =>
      let (directive, rest) := Directive.read rest
      let (shown, s) ← m.runDirective d directive (length - rest.length) s
      let (more, s) ← m.runDirectives d length fuel rest s
      return (front ++ shown ++ more, s)

/-- A text with its directives carried out on a value, or on the items of a tuple, all of which must
be taken unless they are named. -/
def carryOut (m : Machine) (d : Dialect) (cs : List Char) (v : Value) (keyed : Option Value) :
    Run (List Char) := do
  let given := match v with
    | .tuple vs => vs
    | v => [v]
  let (shown, s) ← m.runDirectives d cs.length (cs.length + 1) cs ⟨given, keyed⟩
  if !s.rest.isEmpty && keyed.isNone then throw .mismatch
  return shown

def textDialect : Dialect where
  unknown _ := Format.unknownInText
  ofKey := Value.ofChars
  convert? m c :=
    match c with
    | 's' => some fun v => do return (← m.text v).toList
    | 'r' => some fun v => do return (← m.printed v).toList
    | 'a' => some m.printedAscii
    | _ => none
  code m v := do
    match v with
    | .str s => if s.length == 1 then return s.toList else throw .mismatch
    | v => return [← Run.lift (Format.character 0x110000 "0x110000" (← m.indexOf v))]

def charsOfBytes (bs : List UInt8) : List Char := bs.map fun b => Char.ofNat b.toNat

def bytesOfChars (cs : List Char) : List UInt8 := cs.map fun c => c.toNat.toUInt8

def bytesDialect : Dialect where
  unknown := Format.unknownInBytes
  ofKey cs := .bytes (bytesOfChars cs)
  convert? m c :=
    match c with
    | 's' | 'b' => some fun v => do
      match v, (← Run.world).special? v "__bytes__" with
      | .bytes bs, _ => return charsOfBytes bs
      | _, some a =>
        match ← m.use a [] [] with
        | .bytes bs => return charsOfBytes bs
        | _ => throw .mismatch
      | _, none => throw .mismatch
    | 'r' | 'a' => some m.printedAscii
    | _ => none
  code m v := do
    match v with
    | .bytes bs => if bs.length == 1 then return charsOfBytes bs else throw .mismatch
    | v => return [← Run.lift (Format.character 256 "256" (← m.indexOf v))]

def carryOutText (m : Machine) (s : String) (v : Value) : Run Value := do
  let keyed := if (← Run.world).isKeyed v then some v else none
  return Value.ofChars (← m.carryOut textDialect s.toList v keyed)

def carryOutBytes (m : Machine) (bs : List UInt8) (v : Value) : Run Value := do
  let isKeyed := (← Run.world).isKeyed v && v.kind != .bytes
  let shown ← m.carryOut bytesDialect (charsOfBytes bs) v (if isKeyed then some v else none)
  return .bytes (bytesOfChars shown)

end Machine

end Toolwright

import Toolwright.Text.Digit
import Toolwright.Word

/-!
# Format specifications

How a value is laid out: its fill and alignment, the sign of a number, the width, the marks between
groups of digits, the precision and the type of presentation, each of which may be left out.
-/

namespace Toolwright.Format

set_option autoImplicit false

inductive Alignment where
  | left
  | right
  | center
  /-- The fill goes between the sign and the digits. -/
  | afterSign
  deriving DecidableEq

def Alignment.ofChar? : Char → Option Alignment
  | '<' => some .left
  | '>' => some .right
  | '^' => some .center
  | '=' => some .afterSign
  | _ => none

structure Spec where
  fill : Char := ' '
  alignment : Alignment
  sign : Option Char := none
  /-- A zero has no minus. -/
  plainZero : Bool := false
  alternate : Bool := false
  width : Nat := 0
  /-- The mark between groups of digits. -/
  separator : Option Char := none
  precision : Option Nat := none
  type : Option Char := none

namespace Spec

def refused (reason : String) : Fault := .unreadable reason

def greatest : Nat := 2 ^ 63 - 1

def takeNumber (cs : List Char) : Except Fault (Option Nat × List Char) :=
  let ds := cs.takeWhile fun c => (Text.digitValue? c).isSome
  let n := (ds.filterMap Text.digitValue?).foldl (fun n d => 10 * n + d) 0
  if n > greatest then .error (refused "Too many decimal digits in format string")
  else .ok (if ds.isEmpty then none else some n, cs.drop ds.length)

def takeOne (test : Char → Bool) : List Char → Option Char × List Char
  | c :: cs => if test c then (some c, cs) else (none, c :: cs)
  | [] => (none, [])

def takeAlignment (cs : List Char) : Option Char × Option Alignment × List Char :=
  match cs with
  | fill :: c :: rest =>
    match Alignment.ofChar? c, Alignment.ofChar? fill with
    | some a, _ => (some fill, some a, rest)
    | none, some a => (none, some a, c :: rest)
    | none, none => (none, none, cs)
  | [c] =>
    match Alignment.ofChar? c with
    | some a => (none, some a, [])
    | none => (none, none, cs)
  | [] => (none, none, [])

/-- A character between quotes, or its number where it has no visible form in ASCII. -/
def shownCode (c : Char) : String :=
  if 32 < c.toNat && c.toNat < 128 then "'" ++ String.singleton c ++ "'"
  else "'\\x" ++ String.ofList (Nat.toDigits 16 c.toNat) ++ "'"

def takeSeparator (cs : List Char) : Except Fault (Option Char × List Char) :=
  match cs with
  | ',' :: '_' :: _ | '_' :: ',' :: _ => .error (refused "Cannot specify both ',' and '_'.")
  | ',' :: cs => .ok (some ',', cs)
  | '_' :: cs => .ok (some '_', cs)
  | cs => .ok (none, cs)

def takePrecision (cs : List Char) : Except Fault (Option Nat × List Char) :=
  match cs with
  | '.' :: cs => do
    match ← takeNumber cs with
    | (none, _) => throw (refused "Format specifier missing precision")
    | found => return found
  | cs => .ok (none, cs)

/-- Groups of digits are marked in decimal numbers; low lines stand in the other ones as well. -/
def checkSeparator (separator : Option Char) (type : Char) : Except Fault Unit :=
  match separator with
  | none => .ok ()
  | some mark =>
    if "defgEG%F\x00".toList.contains type then .ok ()
    else if mark == '_' && "boxX".toList.contains type then .ok ()
    else .error (refused ("Cannot specify '" ++ String.singleton mark ++ "' with " ++
      shownCode type ++ "."))

/-- Reads a specification for a value of a kind; `default` is the type that stands for none. -/
def read (kind : String) (alignment : Alignment) (default : Char) (spec : String) :
    Except Fault Spec := do
  let (fill, aligned, cs) := takeAlignment spec.toList
  let (sign, cs) := takeOne (fun c => c == '+' || c == '-' || c == ' ') cs
  let (plain, cs) := takeOne (· == 'z') cs
  let (alternate, cs) := takeOne (· == '#') cs
  let (zero, cs) := if fill.isNone then takeOne (· == '0') cs else (none, cs)
  let (width, cs) ← takeNumber cs
  let (separator, cs) ← takeSeparator cs
  let (precision, cs) ← takePrecision cs
  if cs.length > 1 then
    throw (refused ("Invalid format specifier '" ++ spec ++ "' for object of type '" ++ kind ++
      "'"))
  let type := cs.head?
  checkSeparator separator (type.getD default)
  let usual := if zero.isSome && alignment == .right then .afterSign else alignment
  return {
    fill := fill.getD (if zero.isSome then '0' else ' ')
    alignment := aligned.getD usual
    sign
    plainZero := plain.isSome
    alternate := alternate.isSome
    width := width.getD 0
    separator
    precision
    type }

end Spec

def unknownType (kind : String) (type : Char) : Fault :=
  Spec.refused ("Unknown format code " ++ Spec.shownCode type ++ " for object of type '" ++ kind ++
    "'")

end Toolwright.Format

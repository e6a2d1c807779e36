import Toolwright.Text.Cutting
import Toolwright.Value.Conversion
import Toolwright.Value.Effect
import Toolwright.Value.Sum

/-!
# Operations of texts and bytes

What texts and bytes have in common: they are cut, searched, filled up and put together in the same
ways. An `Alphabet` holds what the two differ in.
-/

namespace Toolwright.Value

set_option autoImplicit false

/-- The elements that texts or bytes are made of. -/
structure Alphabet (α : Type) where
  /-- The value of a list of elements. -/
  wrap : List α → Value
  unwrap? : Value → Option (List α)
  /-- What can be looked for: a list of elements, or what stands for one of them. -/
  sought? : Value → Option (Except Fault (List α))
  isBlank : α → Bool
  /-- The lines with their boundaries, and without. -/
  lines : Bool → List α → List (List α)
  ofAscii : Char → α
  /-- What is told where nothing was found. -/
  absent : String
  /-- What a repetition is called, with its verb. -/
  noun : String

/-- The bounds that arguments give, of which there are at most two. -/
def bounds? (args : List Value) : Option (Option Int × Option Int) :=
  let bound (v : Value) : Option (Option Int) :=
    match v with
    | .null => some none
    | v => v.asInt?.map some
  match args with
  | [] => some (none, none)
  | [a] => (bound a).map (·, none)
  | [a, b] => (bound a).bind fun a => (bound b).map (a, ·)
  | _ => none

def limit? (length : Nat) (v : Value) : Option (Except Fault Nat) :=
  v.asInt?.map fun n => do
    let n ← Word.size.fit n
    return if n < 0 then length + 1 else min n.toNat (length + 1)

namespace Alphabet

variable {α : Type} [BEq α]

def wrapAll (k : Alphabet α) (parts : List (List α)) : Value := .list (parts.map k.wrap)

def padded (k : Alphabet α) (fill : α) (left right : Nat) (xs : List α) : Outcome := do
  let _ ← Word.fitRoom (left + right)
  gives (k.wrap (List.replicate left fill ++ xs ++ List.replicate right fill))

/-- How a list is filled up to a width; where the rest is odd, the middle leans to the left unless
the width is odd. -/
def fillUp (k : Alphabet α) (name : String) (xs : List α) (width : Int) (fill : α) :
    Option Outcome :=
  let rest := (width - xs.length).toNat
  match name with
  | "ljust" => some (k.padded fill 0 rest xs)
  | "rjust" => some (k.padded fill rest 0 xs)
  | "center" =>
    let left := rest / 2 + (if rest % 2 == 1 && width % 2 == 1 then 1 else 0)
    some (k.padded fill left (rest - left) xs)
  | _ => none

def zeroFilled (k : Alphabet α) (xs : List α) (width : Int) : Outcome := do
  let zeros := List.replicate (← Word.fitRoom (width - xs.length).toNat) (k.ofAscii '0')
  match xs with
  | x :: rest =>
    if x == k.ofAscii '+' || x == k.ofAscii '-' then gives (k.wrap (x :: zeros ++ rest))
    else gives (k.wrap (zeros ++ xs))
  | [] => gives (k.wrap zeros)

def layoutOperation (k : Alphabet α) (name : String) (xs : List α) (args : List Value) :
    Option Outcome :=
  match name, args with
  | "zfill", [v] => v.asInt?.map fun width => do k.zeroFilled xs (← Word.size.fit width)
  | "expandtabs", [] => some (gives (expanded 8))
  | "expandtabs", [v] => v.asInt?.map fun size => do
    gives (expanded (← Word.short.fit size).toNat)
  | name, [v] => v.asInt?.bind (filled name · (k.ofAscii ' '))
  | name, [v, fill] =>
    match k.unwrap? fill with
    | some [x] => v.asInt?.bind (filled name · x)
    | _ => none
  | _, _ => none
where
  filled (name : String) (width : Int) (fill : α) : Option Outcome :=
    match Word.size.fit width with
    | .ok width => k.fillUp name xs width fill
    | .error f => (k.fillUp name xs 0 fill).map fun _ => .error f
  expanded (size : Nat) : Value :=
    let isEnd (x : α) : Bool := x == k.ofAscii '\n' || x == k.ofAscii '\r'
    k.wrap (Text.expandTabs (· == k.ofAscii '\t') isEnd (k.ofAscii ' ') size 0 xs)

def anyPart (k : Alphabet α) (test : List α → Bool) (v : Value) : Except Fault Bool :=
  match k.unwrap? v, v with
  | some part, _ => .ok (test part)
  | none, .tuple vs => vs.anyM fun v =>
    match k.unwrap? v with
    | some part => .ok (test part)
    | none => .error .mismatch
  | none, _ => .error .mismatch

/-- An operation that looks for a list in the part of another one between two bounds. -/
def searchOperation (k : Alphabet α) (name : String) (xs : List α) (args : List Value) :
    Option Outcome :=
  match name, args with
  | "startswith", part :: args => edge part args List.isPrefixOf
  | "endswith", part :: args => edge part args List.isSuffixOf
  | name, v :: args => do
    let part ← k.sought? v
    let (start, stop) ← bounds? args
    let found := Text.between? xs start stop
    let place (cut : List α → List α → Option (List α × List α)) (part : List α) : Option Int := do
      let (front, xs) ← found
      return front + (← cut part xs).1.length
    match name with
    | "find" => return do gives (.int ((place Text.cut? (← part)).getD (-1)))
    | "rfind" => return do gives (.int ((place Text.cutLast? (← part)).getD (-1)))
    | "index" => return do whereFound (place Text.cut? (← part))
    | "rindex" => return do whereFound (place Text.cutLast? (← part))
    | "count" => return do
      let part ← part
      gives (.int ((found.map fun row => countOf part row.2).getD 0 : Nat))
    | _ => none
  | _, [] => none
where
  whereFound : Option Int → Outcome
    | some i => gives (.int i)
    | none => .error (.unreadable k.absent)
  countOf (part xs : List α) : Nat :=
    if part.isEmpty then xs.length + 1 else (Text.cutAll part xs.length xs).length - 1
  edge (part : Value) (args : List Value) (test : List α → List α → Bool) : Option Outcome :=
    (bounds? args).map fun (start, stop) => do
      let holds (part : List α) : Bool :=
        ((Text.between? xs start stop).map fun row => test part row.2).getD false
      gives (.bool (← k.anyPart holds part))

def split (k : Alphabet α) (xs : List α) (args : List Value) : Option Outcome :=
  match args with
  | [] | [.null] => some (gives (words xs.length))
  | [.null, v] => (limit? xs.length v).map fun n => do gives (words (← n))
  | [v] => (k.unwrap? v).map (atPart · xs.length)
  | [v, n] => (k.unwrap? v).bind fun part => (limit? xs.length n).map fun n => do
    atPart part (← n)
  | _ => none
where
  words (limit : Nat) : Value := k.wrapAll (Text.runsUpTo k.isBlank limit xs)
  atPart (part : List α) (limit : Nat) : Outcome :=
    if part.isEmpty then .error (.unreadable "empty separator")
    else gives (k.wrapAll (Text.cutAll part limit xs))

def reversed (k : Alphabet α) (v : Value) : Value :=
  ((k.unwrap? v).map fun xs => k.wrap xs.reverse).getD v

def splitFromEnd (k : Alphabet α) (xs : List α) (args : List Value) : Option Outcome :=
  (k.split xs.reverse ((args.take 1).map k.reversed ++ args.drop 1)).map fun outcome => do
    match (← outcome).result with
    | .list parts => gives (.list (parts.reverse.map k.reversed))
    | v => gives v

def partition (k : Alphabet α) (fromEnd : Bool) (xs : List α) (v : Value) : Option Outcome :=
  (k.unwrap? v).map fun part =>
    if part.isEmpty then .error (.unreadable "empty separator")
    else
      let found := if fromEnd then Text.cutLast? part xs else Text.cut? part xs
      let parts := match found, fromEnd with
        | some (front, back), _ => [front, part, back]
        | none, false => [xs, [], []]
        | none, true => [[], [], xs]
      gives (.tuple (parts.map k.wrap))

def strip (k : Alphabet α) (name : String) (test : α → Bool) (xs : List α) : Option Outcome :=
  let left (xs : List α) : List α := xs.dropWhile test
  let right (xs : List α) : List α := (xs.reverse.dropWhile test).reverse
  match name with
  | "strip" => some (gives (k.wrap (right (left xs))))
  | "lstrip" => some (gives (k.wrap (left xs)))
  | "rstrip" => some (gives (k.wrap (right xs)))
  | _ => none

def join (k : Alphabet α) (separator : List α) (v : Value) : Outcome := do
  let parts ← (← v.items).mapM fun v =>
    match k.unwrap? v with
    | some part => .ok part
    | none => .error .mismatch
  gives (k.wrap (separator.intercalate parts))

def operation (k : Alphabet α) (name : String) (xs : List α) (args : List Value) :
    Option Outcome :=
  match name, args with
  | "strip", [] | "lstrip", [] | "rstrip", []
  | "strip", [.null] | "lstrip", [.null] | "rstrip", [.null] => k.strip name k.isBlank xs
  | "strip", [v] | "lstrip", [v] | "rstrip", [v] =>
    (k.unwrap? v).bind fun edge => k.strip name edge.contains xs
  | "split", args => k.split xs args
  | "rsplit", args => k.splitFromEnd xs args
  | "partition", [v] => k.partition false xs v
  | "rpartition", [v] => k.partition true xs v
  | "splitlines", [] => some (gives (k.wrapAll (k.lines false xs)))
  | "splitlines", [v] => v.asInt?.map fun keep => do
    gives (k.wrapAll (k.lines ((← Word.short.fit keep) != 0) xs))
  | "replace", old :: new :: count => do
    let old ← k.unwrap? old
    let new ← k.unwrap? new
    let limit ← match count with
      | [] => some (.ok (xs.length + 1))
      | [n] => limit? xs.length n
      | _ => none
    return do gives (k.wrap (Text.exchange old new (← limit) xs))
  | "removeprefix", [v] => (k.unwrap? v).map fun part =>
    gives (k.wrap (if part.isPrefixOf xs then xs.drop part.length else xs))
  | "removesuffix", [v] => (k.unwrap? v).map fun part =>
    gives (k.wrap (if part.isSuffixOf xs then xs.take (xs.length - part.length) else xs))
  | "join", [v] => some (k.join xs v)
  | "__contains__", [v] => (k.sought? v).map fun part => do
    gives (.bool (Text.cut? (← part) xs).isSome)
  | "__mul__", [v] | "__rmul__", [v] => v.asInt?.map fun n => do
    gives (k.wrap (← Word.repeated (some ("repeated " ++ k.noun ++ " too long")) xs n))
  | "__getnewargs__", [] => some (gives (.tuple [k.wrap xs]))
  | name, args =>
    match k.searchOperation name xs args with
    | some outcome => some outcome
    | none => k.layoutOperation name xs args

end Alphabet

end Toolwright.Value

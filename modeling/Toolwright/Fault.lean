import Toolwright.Text.Quoted

/-!
# Faults

Everything that can go wrong, as causes. A cause keeps what its message needs and `Fault.message`
words it.
-/

namespace Toolwright

set_option autoImplicit false

/-- Where an attribute was looked for. -/
inductive Holder where
  | object (className : String)
  | cls (name : String)
  deriving DecidableEq

/-- What a file operation ran into. -/
inductive FileFault where
  | missing
  | isDirectory
  | notDirectory
  | alreadyThere
  | denied
  | nameTooLong
  deriving DecidableEq

def FileFault.message : FileFault → String
  | .missing => "no such file or directory"
  | .isDirectory => "is a directory"
  | .notDirectory => "not a directory"
  | .alreadyThere => "file exists"
  | .denied => "permission denied"
  | .nameTooLong => "file name too long"

inductive Fault where
  /-- A value of the wrong kind, or arguments that do not fit. -/
  | mismatch
  /-- An object without a text form. -/
  | unprintable (reason : String)
  /-- An integer with too many digits to write out. -/
  | tooManyDigits
  | numeralTooLong (digits : Nat)
  | integerTooLarge (limit : String)
  /-- A text that writes no number, or something else that cannot be taken as it is. -/
  | unreadable (reason : String)
  | noAttribute (holder : Holder) (name : String)
  /-- There is no room for an attribute, or nothing to take away. -/
  | noRoom (className name : String)
  /-- An attribute of a class that its objects cannot replace. -/
  | readOnly (className name : String)
  | notWritable (reason : String)
  | noKey (key : String)
  /-- A key that is not there, as it is printed. -/
  | noEntry (key : String)
  | outOfRange (reason : String)
  | emptyList
  | divisionByZero (reason : String)
  /-- A container whose number of items changed while they were given one after another. -/
  | sizeChanged (container : String)
  /-- There is no next item. -/
  | exhausted
  /-- An element that should have been a pair. -/
  | notPair (index length : Nat)
  /-- The quoted name of a tool that nothing was stored to execute. -/
  | noBlock (tool : String)
  | notImplemented (className method : String)
  | hostMissing (kind label module : String)
  | nulInClassName
  | nulInPath (reason : String)
  | badVariableName
  | unknownLevel (quotedName : String)
  | file (fault : FileFault)
  /-- Bytes that are no text in their encoding. -/
  | undecodable
  /-- A text with a character that an encoding does not have. -/
  | unencodable
  /-- A name under which nothing is known. -/
  | unknownName (reason : String)
  | tooDeep
  /-- There is no room for a result. -/
  | noMemory
  /-- Raised by a block, with a kind of its own choice. -/
  | raised (kind text : String)
  | unknownId (id : String)
  deriving DecidableEq

def clip (bytes : Nat) : List Char → List Char
  | [] => []
  | c :: cs =>
    if c.utf8Size ≤ bytes then c :: clip (bytes - c.utf8Size) cs
    else if bytes == 0 then [] else [Char.ofNat 0xFFFD]

def clipped (bytes : Nat) (name : String) : String :=
  "'" ++ String.ofList (clip bytes name.toList) ++ "'"

def Holder.describe : Holder → String
  | .object name => clipped 50 name ++ " object"
  | .cls name => "type object " ++ clipped 50 name

def Fault.message : Fault → String
  | .mismatch => "values or arguments that do not fit"
  | .unprintable reason => reason
  | .tooManyDigits =>
    "Exceeds the limit (4300 digits) for integer string conversion; " ++
      "use sys.set_int_max_str_digits() to increase the limit"
  | .numeralTooLong digits =>
    "Exceeds the limit (4300 digits) for integer string conversion: value has " ++
      toString digits ++ " digits; use sys.set_int_max_str_digits() to increase the limit"
  | .integerTooLarge limit => limit
  | .unreadable reason => reason
  | .noAttribute holder name => holder.describe ++ " has no attribute '" ++ name ++ "'"
  | .noRoom className name => clipped 100 className ++ " object has no attribute '" ++ name ++ "'"
  | .readOnly className name =>
    clipped 50 className ++ " object attribute '" ++ name ++ "' is read-only"
  | .notWritable reason => reason
  | .noKey key => Text.quoted key
  | .noEntry key => key
  | .outOfRange reason => reason
  | .emptyList => "pop from empty list"
  | .divisionByZero reason => reason
  | .sizeChanged container => container ++ " changed size during iteration"
  | .exhausted => ""
  | .notPair index length =>
    "dictionary update sequence element #" ++ toString index ++ " has length " ++ toString length ++
      "; 2 is required"
  | .noBlock tool => "Tool " ++ tool ++ " has no execute block"
  | .notImplemented className method => className ++ " must implement " ++ method ++ "()"
  | .hostMissing kind label module =>
    label ++ " is not loaded. Please import " ++ Text.quoted module ++
      " or register a base class with register_host(" ++ Text.quoted kind ++ ", ...) first."
  | .nulInClassName => "type name must not contain null characters"
  | .nulInPath reason => reason
  | .badVariableName => "illegal environment variable name"
  | .unknownLevel name => "Unknown level: " ++ name
  | .file fault => fault.message
  | .undecodable => "bytes that are no text"
  | .unencodable => "a character without bytes"
  | .unknownName reason => reason
  | .tooDeep => "nested too deep"
  | .noMemory => ""
  | .raised kind text => if kind == "KeyError" then Text.quoted text else text
  | .unknownId id => id

/-! ## Steps one after another -/

theorem of_bind_ok {α β : Type} {x : Except Fault α} {f : α → Except Fault β} {b : β}
    (h : x >>= f = .ok b) : ∃ a, x = .ok a ∧ f a = .ok b := by
  cases x with
  | error => cases h
  | ok a => exact ⟨a, rfl, h⟩

theorem of_bind_error {α β : Type} {x : Except Fault α} {f : α → Except Fault β} {e : Fault}
    (h : x >>= f = .error e) : x = .error e ∨ ∃ a, x = .ok a ∧ f a = .error e := by
  cases x with
  | error e' =>
    cases h
    exact .inl rfl
  | ok a => exact .inr ⟨a, rfl, h⟩

end Toolwright

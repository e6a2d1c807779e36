import Toolwright.Format.Spec

/-!
# Templates

A template is text with fields between braces; a doubled brace stands for itself. A field names what
is put in its place: a position or a name, and the attributes and items that lead on from there. How
it is converted stands behind an exclamation mark, and how it is laid out behind a colon. What is in
front of a mistake is taken before the mistake is found.
-/

namespace Toolwright.Format

set_option autoImplicit false

open Spec (refused)

structure Markup where
  name : List Char
  conversion : Option Char := none
  spec : List Char := []

def Markup.isNested (m : Markup) : Bool := m.spec.contains '\x7b'

inductive Piece where
  | char (c : Char)
  | field (m : Markup)

inductive Step where
  | attribute (name : List Char)
  | item (key : List Char)

namespace Template

/-- The specification up to the brace that closes its field, and what is behind that; `depth` braces
are open in it. -/
def takeSpec (depth : Nat) : List Char → Option (List Char × List Char)
  | [] => none
  | c :: cs =>
    if c == '\x7d' && depth == 0 then some ([], cs)
    else
      let depth := if c == '\x7b' then depth + 1 else if c == '\x7d' then depth - 1 else depth
      (takeSpec depth cs).map fun found => (c :: found.1, found.2)

theorem length_takeSpec {depth : Nat} {cs spec rest : List Char}
    (h : takeSpec depth cs = some (spec, rest)) : rest.length ≤ cs.length := by
  induction cs generalizing depth spec with
  | nil => simp [takeSpec] at h
  | cons c cs ih =>
    simp only [takeSpec] at h
    split at h
    · cases h; simp
    · obtain ⟨found, hf, he⟩ := Option.map_eq_some_iff.1 h
      cases he
      exact Nat.le_succ_of_le (ih hf)

/-- The name of a field, what ends it, and what is behind that. What stands between square brackets
ends no name. -/
def takeName (inBrackets : Bool) : List Char → Except Fault (List Char × Option Char × List Char)
  | [] => .ok ([], none, [])
  | c :: cs =>
    if !inBrackets && c == '\x7b' then .error (refused "unexpected '\x7b' in field name")
    else if !inBrackets && (c == '\x7d' || c == ':' || c == '!') then .ok ([], some c, cs)
    else
      match takeName (if inBrackets then c != ']' else c == '[') cs with
      | .ok (name, stop, rest) => .ok (c :: name, stop, rest)
      | .error f => .error f

theorem length_takeName {inBrackets : Bool} {cs name rest : List Char} {stop : Option Char}
    (h : takeName inBrackets cs = .ok (name, stop, rest)) : rest.length ≤ cs.length := by
  induction cs generalizing inBrackets name with
  | nil => simp [takeName] at h; simp [h]
  | cons c cs ih =>
    simp only [takeName] at h
    split at h
    · cases h
    · split at h
      · cases h; simp
      · split at h
        · rename_i hn
          cases h
          exact Nat.le_succ_of_le (ih hn)
        · cases h

def takeLayout (m : Markup) (cs : List Char) : Except Fault (Markup × List Char) :=
  match takeSpec 0 cs with
  | some (spec, rest) => .ok ({ m with spec }, rest)
  | none => .error (refused "unmatched '\x7b' in format spec")

def takeConverted (m : Markup) : List Char → Except Fault (Markup × List Char)
  | [] => .error (refused "unmatched '\x7b' in format spec")
  | c :: cs =>
    if c == '\x7d' then .ok (m, cs)
    else if c == ':' then takeLayout m cs
    else .error (refused "expected ':' after conversion specifier")

def takeMarkup (cs : List Char) : Except Fault (Markup × List Char) :=
  match takeName false cs with
  | .error f => .error f
  | .ok (_, none, _) => .error (refused "expected '\x7d' before end of string")
  | .ok (name, some stop, rest) =>
    if stop == '\x7d' then .ok ({ name }, rest)
    else if stop == ':' then takeLayout { name } rest
    else
      match rest with
      | [] => .error (refused "end of string while looking for conversion specifier")
      | c :: rest => takeConverted { name, conversion := some c } rest

theorem length_takeLayout {m field : Markup} {cs rest : List Char}
    (h : takeLayout m cs = .ok (field, rest)) : rest.length ≤ cs.length := by
  simp only [takeLayout] at h
  split at h
  · rename_i hs
    cases h
    exact length_takeSpec hs
  · cases h

theorem length_takeConverted {m field : Markup} {cs rest : List Char}
    (h : takeConverted m cs = .ok (field, rest)) : rest.length ≤ cs.length := by
  cases cs with
  | nil => cases h
  | cons c cs =>
    simp only [takeConverted] at h
    split at h
    · cases h; simp
    · split at h
      · exact Nat.le_succ_of_le (length_takeLayout h)
      · cases h

theorem length_takeMarkup {m : Markup} {cs rest : List Char}
    (h : takeMarkup cs = .ok (m, rest)) : rest.length ≤ cs.length := by
  simp only [takeMarkup] at h
  split at h
  · cases h
  · cases h
  · rename_i hn
    have hl := length_takeName hn
    split at h
    · cases h; exact hl
    · split at h
      · exact Nat.le_trans (length_takeLayout h) hl
      · split at h
        · cases h
        · have := length_takeConverted h
          simp at hl; omega

def pieces : List Char → List (Except Fault Piece)
  | [] => []
  | c :: cs =>
    if c == '\x7b' then
      match cs with
      | [] => [.error (refused "Single '\x7b' encountered in format string")]
      | '\x7b' :: cs => .ok (.char c) :: pieces cs
      | d :: cs =>
        match _h : takeMarkup (d :: cs) with
        | .ok (m, rest) => .ok (.field m) :: pieces rest
        | .error f => [.error f]
    else if c == '\x7d' then
      match cs with
      | '\x7d' :: cs => .ok (.char c) :: pieces cs
      | _ => [.error (refused "Single '\x7d' encountered in format string")]
    else .ok (.char c) :: pieces cs
termination_by cs => cs.length
decreasing_by
  all_goals
    try have shorter := length_takeMarkup _h
    simp only [List.length_cons] at *
    omega

def isPlain (c : Char) : Bool := c != '.' && c != '['

def steps : List Char → List (Except Fault Step)
  | [] => []
  | c :: cs =>
    if c == '.' then
      let name := cs.takeWhile isPlain
      if name.isEmpty then [.error emptyName]
      else .ok (.attribute name) :: steps (cs.dropWhile isPlain)
    else if c == '[' then
      let key := cs.takeWhile (· != ']')
      match _h : cs.dropWhile (· != ']') with
      | [] => [.error (refused "Missing ']' in format string")]
      | _ :: rest => if key.isEmpty then [.error emptyName] else .ok (.item key) :: steps rest
    else [.error (refused "Only '.' or '[' may follow ']' in format field specifier")]
termination_by cs => cs.length
decreasing_by
  · have := (List.dropWhile_suffix (l := cs) isPlain).length_le
    simp; omega
  · have := (List.dropWhile_suffix (l := cs) (· != ']')).length_le
    rw [_h] at this
    simp at this ⊢; omega
where
  emptyName : Fault := refused "Empty attribute in format string"

def position? (name : List Char) : Except Fault (Option Nat) := do
  match ← Spec.takeNumber name with
  | (some n, []) => return some n
  | _ => return none

/-- How the fields without a name are numbered: not yet, one after another, or by hand. -/
inductive Numbering where
  | fresh
  | counted (next : Nat)
  | byHand

/-- The position that a field stands for, if it is one, and how the next ones are numbered. -/
def Numbering.place (n : Numbering) (name : List Char) : Except Fault (Option Nat × Numbering) := do
  match name.isEmpty, ← position? name, n with
  | true, _, .byHand => throw (refused ("cannot switch from manual field specification to " ++
      "automatic field numbering"))
  | true, _, .fresh => return (some 0, .counted 1)
  | true, _, .counted next => return (some next, .counted (next + 1))
  | false, none, n => return (none, n)
  | false, some _, .counted _ =>
    throw (refused "cannot switch from automatic field numbering to manual field specification")
  | false, some i, _ => return (some i, .byHand)

end Template

end Toolwright.Format

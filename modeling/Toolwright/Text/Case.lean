import Toolwright.Text.CaseTable

/-!
# Letter case

Case is mapped character by character, where the upper form of a character may be several
characters. The lower form of the capital sigma depends on its neighbours: it is the final one after
a letter with case and not before one, characters such as marks and apostrophes being passed over.
-/

namespace Toolwright.Text

set_option autoImplicit false

def isCased (c : Char) : Bool := inRanges casedRanges c

def isCaseIgnorable (c : Char) : Bool := inRanges caseIgnorableRanges c

def meetsCased (cs : List Char) : Bool :=
  ((cs.dropWhile isCaseIgnorable).head?.map isCased).getD false

def lowerOne (c : Char) : List Char :=
  if c.toNat < 0x80 then [if 'A' ≤ c && c ≤ 'Z' then Char.ofNat (c.toNat + 32) else c]
  else if c.toNat == 0x130 then ['i', Char.ofNat 0x307]
  else [shifted lowerRanges c]

def upperOne (c : Char) : List Char :=
  if c.toNat < 0x80 then [if 'a' ≤ c && c ≤ 'z' then Char.ofNat (c.toNat - 32) else c]
  else
    match upperExpansions.find? (·.1 == c.toNat) with
    | some e => e.2.toList
    | none => [shifted upperRanges c]

def titleOne (c : Char) : List Char :=
  match titleForms.find? (·.1 == c.toNat) with
  | some e => e.2.toList
  | none => if inRanges titleFixed c then [c] else upperOne c

/-- The lower form of a character between `before`, which stands reversed, and `after`. -/
def lowerAt (before : List Char) (c : Char) (after : List Char) : List Char :=
  if c.toNat == 0x3A3 then
    [Char.ofNat (if meetsCased before && !meetsCased after then 0x3C2 else 0x3C3)]
  else lowerOne c

def lowerFrom (before : List Char) : List Char → List Char
  | [] => []
  | c :: cs => lowerAt before c cs ++ lowerFrom (c :: before) cs

def lower (cs : List Char) : List Char := lowerFrom [] cs

def upper (cs : List Char) : List Char := cs.flatMap upperOne

/-- Each letter that follows one with case in its lower form, the others in their title form. -/
def titleFrom (before : List Char) : List Char → List Char
  | [] => []
  | c :: cs =>
    (if (before.head?.map isCased).getD false then lowerAt before c cs else titleOne c) ++
      titleFrom (c :: before) cs

def title (cs : List Char) : List Char := titleFrom [] cs

def isTitle (c : Char) : Bool := inRanges titleRanges c

def isUpper (c : Char) : Bool := (lowerOne c != [c] && !isTitle c) || inRanges loneCapitals c

def isLower (c : Char) : Bool := isCased c && !isTitle c && !isUpper c

/-- Whether exactly the letters that follow one with case are small ones. -/
def titledFrom (follows : Bool) : List Char → Bool
  | [] => true
  | c :: cs => (!isCased c || isLower c == follows) && titledFrom (isCased c) cs

def isTitled (cs : List Char) : Bool := cs.any isCased && titledFrom false cs

/-- Whether a text has capital letters alone among those with case. -/
def isAllUpper (cs : List Char) : Bool := cs.any isUpper && cs.all fun c => isUpper c || !isCased c

def isAllLower (cs : List Char) : Bool := cs.any isLower && cs.all fun c => isLower c || !isCased c

/-- Capital letters in the lower form and small ones in the upper form. -/
def swapFrom (before : List Char) : List Char → List Char
  | [] => []
  | c :: cs =>
    (if isUpper c then lowerAt before c cs else if isLower c then upperOne c else [c]) ++
      swapFrom (c :: before) cs

def swapCase (cs : List Char) : List Char := swapFrom [] cs

/-- The first character in its title form and the rest in the lower form. -/
def capitalize : List Char → List Char
  | [] => []
  | c :: cs => titleOne c ++ lowerFrom [c] cs

/-!
## Folded text

Two texts that differ in case alone fold to the same text. A character folds to the lower form of
its upper form, which tells apart neither the two small sigmas nor a ligature from its letters. The
Cherokee letters fold to their capitals, and the dotless i, which has the capital of another letter,
stays as it is.
-/

def isCherokee (c : Char) : Bool :=
  inRanges [(0x13A0, 0x13F5), (0x13F8, 0x13FD), (0xAB70, 0xABBF)] c

def foldOne (c : Char) : List Char :=
  if isCherokee c then upperOne c
  else if c.toNat == 0x131 then [c]
  else if c.toNat == 0x1E9E then ['s', 's']
  else (upperOne c).flatMap lowerOne

def fold (cs : List Char) : List Char := cs.flatMap foldOne

end Toolwright.Text

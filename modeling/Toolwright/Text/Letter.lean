import Toolwright.Text.Digit
import Toolwright.Text.LetterTable

/-!
# Letters and names

Which characters are letters, digits and numbers, and which texts are names. A name starts with a
letter or a low line and goes on with letters, decimal digits, marks and the like.
-/

namespace Toolwright.Text

set_option autoImplicit false

def isLetter (c : Char) : Bool := inRanges letterRanges c

def isDecimal (c : Char) : Bool := (digitValue? c).isSome

/-- Whether a character stands for a digit, as a decimal digit or in some other form. -/
def isDigitSign (c : Char) : Bool := isDecimal c || inRanges digitSignRanges c

/-- Whether a character stands for a number. -/
def isNumberSign (c : Char) : Bool := isDigitSign c || inRanges numberSignRanges c

def isNameStart (c : Char) : Bool :=
  (isLetter c && !inRanges nameStartExceptions c) || inRanges nameStartRanges c

def isNameRest (c : Char) : Bool := isNameStart c || isDecimal c || inRanges nameRestRanges c

def isName : List Char → Bool
  | [] => false
  | c :: cs => isNameStart c && cs.all isNameRest

end Toolwright.Text

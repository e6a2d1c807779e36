import Toolwright.Binary64.Decimal
import Toolwright.Table
import Toolwright.Text.Blank
import Toolwright.Text.Case

/-!
# Transforms

The named changes of a text. Those on lines keep each line together with its boundary; those on
words give the words with single spaces between them.
-/

/-!
## Analysis of text

The counts that describe a text.
-/

namespace Toolwright.Text

set_option autoImplicit false

structure Analysis where
  characters : Nat
  words : Nat
  lines : Nat
  /-- Characters per line, rounded to two places; a text without lines has none. -/
  averageLine : Option Binary64
  longestWord : List Char
  /-- The number of words that differ in more than letter case. -/
  uniqueWords : Nat

def longest {α : Type} (ws : List (List α)) : List α :=
  ws.foldl (fun best w => if best.length < w.length then w else best) []

def averageLine (characters lines : Nat) : Option Binary64 :=
  if lines == 0 then none else some ((Binary64.ofRatio false characters lines).roundTo 2)

def analyze (cs : List Char) : Analysis where
  characters := cs.length
  words := (words cs).length
  lines := (lines cs).length
  averageLine := averageLine cs.length (lines cs).length
  longestWord := longest (words cs)
  uniqueWords := ((words cs).map lower).eraseDups.length

/-! ## Transforms of text -/

inductive Transform where
  | uppercase
  | lowercase
  | titleCase
  | reverseLines
  | reverseWords
  | removeBlankLines
  | numberLines
  deriving DecidableEq

def joinWords (ws : List (List Char)) : List Char := [' '].intercalate ws

/-- Whether a line holds nothing but white space. -/
def isBlankLine (line : List Char) : Bool := line.all isBlank

/-- The lines joined, each behind its number. -/
def numberFrom (n : Nat) : List (List Char) → List Char
  | [] => []
  | line :: lines => (toString n).toList ++ '.' :: ' ' :: line ++ numberFrom (n + 1) lines

namespace Transform

def names : List (String × Transform) := [
  ("uppercase", .uppercase), ("lowercase", .lowercase), ("title_case", .titleCase),
  ("reverse_lines", .reverseLines), ("reverse_words", .reverseWords),
  ("remove_blank_lines", .removeBlankLines), ("number_lines", .numberLines)]

def ofName? (name : String) : Option Transform := Table.find? names name

def apply : Transform → List Char → List Char
  | .uppercase, cs => upper cs
  | .lowercase, cs => lower cs
  | .titleCase, cs => joinWords ((words cs).map capitalize)
  | .reverseLines, cs => (pieces cs).reverse.flatten
  | .reverseWords, cs => joinWords (words cs).reverse
  | .removeBlankLines, cs => ((pieces cs).filter fun line => !isBlankLine line).flatten
  | .numberLines, cs => numberFrom 1 (pieces cs)

end Transform

end Toolwright.Text

import Toolwright.Text.Ranges
import Toolwright.Text.Runs

/-!
# White space, words and lines

A text is cut into words at white space and into lines at line boundaries. A carriage return
followed by a line feed is one boundary. A line keeps its boundary in `pieces` and loses it in
`lines`.
-/

namespace Toolwright.Text

set_option autoImplicit false

def blankRanges : List (Nat × Nat) := [
  (0x9, 0xD), (0x1C, 0x20), (0x85, 0x85), (0xA0, 0xA0), (0x1680, 0x1680), (0x2000, 0x200A),
  (0x2028, 0x2029), (0x202F, 0x202F), (0x205F, 0x205F), (0x3000, 0x3000)]

def isBlank (c : Char) : Bool := inRanges blankRanges c

def isBoundary (c : Char) : Bool :=
  inRanges [(0xA, 0xD), (0x1C, 0x1E), (0x85, 0x85), (0x2028, 0x2029)] c

theorem isBlank_of_isBoundary {c : Char} (h : isBoundary c = true) : isBlank c = true := by
  simp only [isBoundary, isBlank, blankRanges, inRanges_iff, List.mem_cons, List.not_mem_nil] at *
  obtain ⟨r, hr, h1, h2⟩ := h
  rcases hr with rfl | rfl | rfl | rfl | hr
  · exact ⟨(0x9, 0xD), by simp, by simp at h1 ⊢; omega, h2⟩
  · exact ⟨(0x1C, 0x20), by simp, h1, by simp at h2 ⊢; omega⟩
  · exact ⟨(0x85, 0x85), by simp, h1, h2⟩
  · exact ⟨(0x2028, 0x2029), by simp, h1, h2⟩
  · exact hr.elim

def trimLeft (cs : List Char) : List Char := cs.dropWhile isBlank

def trimRight : List Char → List Char
  | [] => []
  | c :: cs =>
    match trimRight cs with
    | [] => if isBlank c then [] else [c]
    | kept => c :: kept

def trim (cs : List Char) : List Char := trimRight (trimLeft cs)

def words (cs : List Char) : List (List Char) := runs isBlank cs

def consLine {α : Type} (c : α) : List (List α) → List (List α)
  | [] => [[c]]
  | line :: rest => (c :: line) :: rest

/-- The lines of a text with their boundaries, so that they join to the text. -/
def pieces : List Char → List (List Char)
  | [] => []
  | '\r' :: '\n' :: cs => ['\r', '\n'] :: pieces cs
  | c :: cs => if isBoundary c then [c] :: pieces cs else consLine c (pieces cs)

/-- The lines of a text without their boundaries. -/
def lines : List Char → List (List Char)
  | [] => []
  | '\r' :: '\n' :: cs => [] :: lines cs
  | c :: cs => if isBoundary c then [] :: lines cs else consLine c (lines cs)

theorem flatten_consLine (c : Char) (ls : List (List Char)) :
    (consLine c ls).flatten = c :: ls.flatten := by
  cases ls <;> simp [consLine]

theorem flatten_pieces (cs : List Char) : (pieces cs).flatten = cs := by
  fun_induction pieces cs with
  | case1 => rfl
  | case2 cs ih => simp [ih]
  | case3 c cs _ h ih => simp [ih]
  | case4 c cs _ h ih => simp [flatten_consLine, ih]

/-- Each line feed, lone or after a carriage return, and each lone carriage return becomes one line
feed. -/
def unifyNewlines : List Char → List Char
  | [] => []
  | '\r' :: '\n' :: cs => '\n' :: unifyNewlines cs
  | c :: cs => (if c == '\r' then '\n' else c) :: unifyNewlines cs

end Toolwright.Text

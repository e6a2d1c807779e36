import Toolwright.Proofs.Text.Lines
import Toolwright.Text.Transform

/-!
# What transforms keep

The transforms that leave out or number lines keep every line with what ends it. Their outcome is cut
where the text was cut: a line that is kept or numbered starts with a character that ends no line, so
that no carriage return comes to stand in front of a line feed. Reversed words are told apart again by
the single spaces between them.
-/

namespace Toolwright.Text

set_option autoImplicit false

/-! ## Rows with texts -/

/-- Rows of which every line has a text; all but the last one have an end. -/
inductive Filled : List (List Char × List Char) → Prop
  | nil : Filled []
  | last {line : List Char} (hne : line ≠ []) (hline : Unbroken line) : Filled [(line, [])]
  | next {line ending : List Char} {rows : List (List Char × List Char)} (hne : line ≠ [])
    (hline : Unbroken line) (hending : IsLineEnd ending) (h : Filled rows) :
    Filled ((line, ending) :: rows)

theorem Unbroken.head {line cs : List Char} (hne : line ≠ []) (hline : Unbroken line) :
    (line ++ cs).head? ≠ some '\n' := by
  obtain ⟨c, line, rfl⟩ := List.exists_cons_of_ne_nil hne
  intro h
  obtain rfl : c = '\n' := Option.some.inj h
  exact absurd (hline '\n' List.mem_cons_self) (by decide)

theorem Filled.head {rows : List (List Char × List Char)} (h : Filled rows) :
    (rows.map whole).flatten.head? ≠ some '\n' := by
  cases h with
  | nil => exact Option.some_ne_none _ |>.symm
  | last hne hline =>
    rw [List.map_singleton, List.flatten_singleton]
    exact hline.head hne
  | next hne hline =>
    rw [List.map_cons, List.flatten_cons, whole, List.append_assoc]
    exact hline.head hne

/-- Rows with texts come back when they are joined. -/
theorem Filled.cut {rows : List (List Char × List Char)} (h : Filled rows) :
    Cut (rows.map whole).flatten rows := by
  induction h with
  | nil => exact .nil
  | @last line hne hline =>
    rw [List.map_singleton, List.flatten_singleton, whole, List.append_nil]
    exact .last hne hline
  | next hne hline hending h ih =>
    rw [List.map_cons, List.flatten_cons, whole, List.append_assoc]
    exact .next hline hending (fun _ => h.head) ih

/-! ## Lines that are not blank -/

theorem IsLineEnd.blank {ending : List Char} (h : IsLineEnd ending) : ∀ c ∈ ending, isBlank c := by
  cases h with
  | single hc =>
    intro d hd
    rw [List.mem_singleton.mp hd]
    exact isBlank_of_isBoundary hc
  | pair =>
    intro c hc
    simp only [List.mem_cons, List.not_mem_nil, or_false] at hc
    rcases hc with rfl | rfl <;> decide

/-- Whether a row has a line that is not all white space. -/
def isKept (row : List Char × List Char) : Bool := !isBlankLine row.1

theorem isKept_ne_nil {row : List Char × List Char} (h : isKept row = true) : row.1 ≠ [] := by
  intro hnil
  rw [isKept, hnil] at h
  cases h

theorem isBlankLine_whole {line ending : List Char} (h : ∀ c ∈ ending, isBlank c) :
    isBlankLine (whole (line, ending)) = isBlankLine line := by
  rw [isBlankLine, isBlankLine, whole, List.all_append, List.all_eq_true.mpr h, Bool.and_true]

theorem Cut.isKept_whole {cs : List Char} {rows : List (List Char × List Char)} (h : Cut cs rows) :
    ∀ row ∈ rows, (!isBlankLine (whole row)) = isKept row := by
  induction h with
  | nil => exact fun _ h => absurd h List.not_mem_nil
  | last =>
    intro row hrow
    rw [List.mem_singleton.mp hrow, isKept, isBlankLine_whole fun _ h => absurd h List.not_mem_nil]
  | next _ hending _ _ ih =>
    intro row hrow
    rcases List.mem_cons.mp hrow with rfl | hrow
    · rw [isKept, isBlankLine_whole hending.blank]
    · exact ih row hrow

theorem Cut.filled_kept {cs : List Char} {rows : List (List Char × List Char)} (h : Cut cs rows) :
    Filled (rows.filter isKept) := by
  induction h with
  | nil => exact .nil
  | @last line hne hline =>
    rw [List.filter_singleton]
    cases isKept (line, []) with
    | true => exact .last hne hline
    | false => exact .nil
  | @next line ending cs rows hline hending _ _ ih =>
    cases hkept : isKept (line, ending) with
    | true =>
      rw [List.filter_cons_of_pos hkept]
      exact .next (isKept_ne_nil hkept) hline hending ih
    | false =>
      rw [List.filter_cons_of_neg (Bool.eq_false_iff.mp hkept)]
      exact ih

theorem removeBlankLines_eq {cs : List Char} {rows : List (List Char × List Char)} (h : Cut cs rows) :
    Transform.removeBlankLines.apply cs = ((rows.filter isKept).map whole).flatten := by
  rw [Transform.apply, h.pieces, List.filter_map]
  exact congrArg (fun rows => (rows.map whole).flatten) (List.filter_congr h.isKept_whole)

theorem lines_removeBlankLines (cs : List Char) :
    lines (Transform.removeBlankLines.apply cs) = (lines cs).filter fun line => !isBlankLine line := by
  obtain ⟨rows, h⟩ := exists_cut cs
  rw [removeBlankLines_eq h, h.filled_kept.cut.lines, h.lines, List.filter_map]
  rfl

theorem removeBlankLines_idem (cs : List Char) :
    Transform.removeBlankLines.apply (Transform.removeBlankLines.apply cs) =
      Transform.removeBlankLines.apply cs := by
  obtain ⟨rows, h⟩ := exists_cut cs
  rw [removeBlankLines_eq h, removeBlankLines_eq h.filled_kept.cut, List.filter_filter]
  simp only [Bool.and_self]

/-! ## Numbered lines -/

/-- What stands in front of a line with a number. -/
def numbering (n : Nat) : List Char := (toString n).toList ++ ['.', ' ']

theorem digit_unbroken {c : Char} (h : c.isDigit = true) : isBoundary c = false := by
  simp only [Char.isDigit, Bool.and_eq_true, decide_eq_true_eq] at h
  have hlow : 48 ≤ c.toNat := h.1
  have hhigh : c.toNat ≤ 57 := h.2
  rw [← Bool.not_eq_true, isBoundary, inRanges_iff]
  rintro ⟨r, hr, hrange⟩
  simp only [List.mem_cons, List.not_mem_nil, or_false] at hr
  rcases hr with rfl | rfl | rfl | rfl <;> simp only at hrange <;> omega

theorem numbering_unbroken (n : Nat) {line : List Char} (h : Unbroken line) :
    Unbroken (numbering n ++ line) := by
  intro c hc
  rw [numbering, List.append_assoc, List.mem_append, List.mem_append] at hc
  rcases hc with hc | hc | hc
  · rw [Nat.toString_eq_repr, Nat.toList_repr] at hc
    exact digit_unbroken (Nat.isDigit_of_mem_toDigits (by decide) (by decide) hc)
  · simp only [List.mem_cons, List.not_mem_nil, or_false] at hc
    rcases hc with rfl | rfl <;> decide
  · exact h c hc

/-- The rows of a text with numbers from the first one on. -/
def numbered (n : Nat) (rows : List (List Char × List Char)) : List (List Char × List Char) :=
  rows.mapIdx fun i row => (numbering (n + i) ++ row.1, row.2)

theorem numbered_cons (n : Nat) (row : List Char × List Char)
    (rows : List (List Char × List Char)) :
    numbered n (row :: rows) = (numbering n ++ row.1, row.2) :: numbered (n + 1) rows := by
  rw [numbered, numbered, List.mapIdx_cons]
  simp only [Nat.add_zero, Nat.add_assoc, Nat.add_comm 1]

theorem numberFrom_eq (n : Nat) (rows : List (List Char × List Char)) :
    numberFrom n (rows.map whole) = ((numbered n rows).map whole).flatten := by
  induction rows generalizing n with
  | nil => rfl
  | cons row rows ih =>
    rw [List.map_cons, numberFrom, ih, numbered_cons, List.map_cons, List.flatten_cons]
    simp [whole, numbering]

theorem map_numbered (n : Nat) (rows : List (List Char × List Char)) :
    (numbered n rows).map Prod.fst =
      (rows.map Prod.fst).mapIdx fun i line => numbering (n + i) ++ line := by
  induction rows generalizing n with
  | nil => rfl
  | cons row rows ih =>
    rw [numbered_cons, List.map_cons, List.map_cons, ih, List.mapIdx_cons]
    simp only [Nat.add_zero, Nat.add_assoc, Nat.add_comm 1]

theorem Cut.filled_numbered {cs : List Char} {rows : List (List Char × List Char)} (h : Cut cs rows)
    (n : Nat) : Filled (numbered n rows) := by
  have some (n : Nat) (line : List Char) : numbering n ++ line ≠ [] := by simp [numbering]
  induction h generalizing n with
  | nil => exact .nil
  | last _ hline =>
    rw [numbered_cons]
    exact .last (some n _) (numbering_unbroken n hline)
  | next hline hending _ _ ih =>
    rw [numbered_cons]
    exact .next (some n _) (numbering_unbroken n hline) hending (ih (n + 1))

theorem lines_numberLines (cs : List Char) :
    lines (Transform.numberLines.apply cs) =
      (lines cs).mapIdx fun i line => numbering (1 + i) ++ line := by
  obtain ⟨rows, h⟩ := exists_cut cs
  rw [Transform.apply, h.pieces, numberFrom_eq, (h.filled_numbered 1).cut.lines, map_numbered,
    h.lines]

/-! ## Reversed words -/

theorem words_joinWords {ws : List (List Char)} (h : ∀ word ∈ ws, word ≠ [] ∧ ∀ c ∈ word,
    isBlank c = false) : words (joinWords ws) = ws :=
  runs_intercalate (by decide) h

theorem words_reverseWords (cs : List Char) :
    words (Transform.reverseWords.apply cs) = (words cs).reverse := by
  apply words_joinWords
  intro word hword
  have hword := List.mem_reverse.mp hword
  exact ⟨ne_nil_of_mem_runs hword, fun _ => not_separator_of_mem_runs hword⟩

/-! ## All of them -/

/-- Without blank lines a text has its other lines, and has no blank lines to leave out any more;
numbered lines are the lines with their numbers in front of them; reversed words are the words in
reverse order, and reversed twice they are the words with single spaces between them. -/
theorem transforms_keep (cs : List Char) :
    (lines (Transform.removeBlankLines.apply cs) = (lines cs).filter (fun line => !isBlankLine line) ∧
      Transform.removeBlankLines.apply (Transform.removeBlankLines.apply cs) =
        Transform.removeBlankLines.apply cs) ∧
    lines (Transform.numberLines.apply cs) =
      (lines cs).mapIdx (fun i line => numbering (1 + i) ++ line) ∧
    words (Transform.reverseWords.apply cs) = (words cs).reverse ∧
    Transform.reverseWords.apply (Transform.reverseWords.apply cs) = joinWords (words cs) := by
  refine ⟨⟨lines_removeBlankLines cs, removeBlankLines_idem cs⟩, lines_numberLines cs,
    words_reverseWords cs, ?_⟩
  rw [Transform.apply, words_reverseWords, List.reverse_reverse]

end Toolwright.Text

import Mathlib
import Toolwright.Text.Blank
import Toolwright.Text.Transform

/-!
# Cutting a text into lines

A text is a row of lines, each with the boundary behind it; only the last line may have none. The
rows of a text are what `pieces` and `lines` find, and rows that are joined come back when the text is
cut again, as long as no carriage return is put in front of a line feed.

Lines are reversed together with their boundaries. Where no carriage returns are among them, the lines
of the outcome are the lines in reverse order if the text ends in a boundary or has one line at most;
else the last line, which has no boundary, runs into the one that now stands behind it.
-/

namespace Toolwright.Text

set_option autoImplicit false

/-! ## Cutting a text into lines -/

def Unbroken (cs : List Char) : Prop := ∀ c ∈ cs, isBoundary c = false

/-- The texts that end a line. -/
inductive IsLineEnd : List Char → Prop
  | single {c : Char} (hc : isBoundary c = true) : IsLineEnd [c]
  | pair : IsLineEnd ['\r', '\n']

/-- A text and its lines, each with what ends it. -/
inductive Cut : List Char → List (List Char × List Char) → Prop
  | nil : Cut [] []
  | last {line : List Char} (hne : line ≠ []) (hline : Unbroken line) : Cut line [(line, [])]
  | next {line ending cs : List Char} {rows : List (List Char × List Char)} (hline : Unbroken line)
    (hending : IsLineEnd ending) (hfeed : ending = ['\r'] → cs.head? ≠ some '\n')
    (h : Cut cs rows) : Cut (line ++ (ending ++ cs)) ((line, ending) :: rows)

def whole (row : List Char × List Char) : List Char := row.1 ++ row.2

/-! ## One line -/

theorem not_boundary_ne {c : Char} (h : isBoundary c = false) : c ≠ '\r' := by
  rintro rfl
  exact absurd h (by decide)

section

variable {c : Char} {cs : List Char}

theorem pieces_inside (hc : isBoundary c = false) : pieces (c :: cs) = consLine c (pieces cs) := by
  rw [pieces.eq_3 c cs fun _ h => absurd h (not_boundary_ne hc), hc, if_neg Bool.false_ne_true]

theorem lines_inside (hc : isBoundary c = false) : lines (c :: cs) = consLine c (lines cs) := by
  rw [lines.eq_3 c cs fun _ h => absurd h (not_boundary_ne hc), hc, if_neg Bool.false_ne_true]

theorem pieces_boundary (hc : isBoundary c = true) (hfeed : c = '\r' → cs.head? ≠ some '\n') :
    pieces (c :: cs) = [c] :: pieces cs := by
  rw [pieces.eq_3 c cs, if_pos hc]
  rintro cs' rfl rfl
  exact hfeed rfl rfl

theorem lines_boundary (hc : isBoundary c = true) (hfeed : c = '\r' → cs.head? ≠ some '\n') :
    lines (c :: cs) = [] :: lines cs := by
  rw [lines.eq_3 c cs, if_pos hc]
  rintro cs' rfl rfl
  exact hfeed rfl rfl

end

theorem IsLineEnd.pieces {ending : List Char} (h : IsLineEnd ending) {cs : List Char}
    (hfeed : ending = ['\r'] → cs.head? ≠ some '\n') :
    pieces (ending ++ cs) = ending :: Text.pieces cs := by
  cases h with
  | single hc =>
    apply pieces_boundary hc
    rintro rfl
    exact hfeed rfl
  | pair => rfl

theorem IsLineEnd.lines {ending : List Char} (h : IsLineEnd ending) {cs : List Char}
    (hfeed : ending = ['\r'] → cs.head? ≠ some '\n') :
    lines (ending ++ cs) = [] :: Text.lines cs := by
  cases h with
  | single hc =>
    apply lines_boundary hc
    rintro rfl
    exact hfeed rfl
  | pair => rfl

theorem Unbroken.tail {c : Char} {cs : List Char} (h : Unbroken (c :: cs)) : Unbroken cs :=
  fun d hd => h d (List.mem_cons_of_mem c hd)

theorem Unbroken.pieces_append {line : List Char} (h : Unbroken line) {cs first : List Char}
    {rest : List (List Char)} (hcs : pieces cs = first :: rest) :
    pieces (line ++ cs) = (line ++ first) :: rest := by
  induction line with
  | nil => exact hcs
  | cons c line ih =>
    rw [List.cons_append, pieces_inside (h c List.mem_cons_self), ih h.tail]
    rfl

theorem Unbroken.lines_append {line : List Char} (h : Unbroken line) {cs first : List Char}
    {rest : List (List Char)} (hcs : lines cs = first :: rest) :
    lines (line ++ cs) = (line ++ first) :: rest := by
  induction line with
  | nil => exact hcs
  | cons c line ih =>
    rw [List.cons_append, lines_inside (h c List.mem_cons_self), ih h.tail]
    rfl

theorem Unbroken.single {line : List Char} (h : Unbroken line) (hne : line ≠ []) :
    pieces line = [line] ∧ lines line = [line] := by
  cases line using List.reverseRecOn with
  | nil => exact absurd rfl hne
  | append_singleton line c =>
    have hc : isBoundary c = false := h c (List.mem_append_right line (List.mem_singleton_self c))
    have hline : Unbroken line := fun d hd => h d (List.mem_append_left [c] hd)
    exact ⟨hline.pieces_append (pieces_inside hc), hline.lines_append (lines_inside hc)⟩

/-! ## All lines -/

theorem Cut.pieces {cs : List Char} {rows : List (List Char × List Char)} (h : Cut cs rows) :
    Text.pieces cs = rows.map whole := by
  induction h with
  | nil => rfl
  | last hne hline =>
    rw [(hline.single hne).1, List.map_singleton, whole, List.append_nil]
  | next hline hending hfeed _ ih =>
    rw [hline.pieces_append (hending.pieces hfeed), ih]
    rfl

theorem Cut.lines {cs : List Char} {rows : List (List Char × List Char)} (h : Cut cs rows) :
    Text.lines cs = rows.map Prod.fst := by
  induction h with
  | nil => rfl
  | last hne hline => exact (hline.single hne).2
  | next hline hending hfeed _ ih =>
    rw [hline.lines_append (hending.lines hfeed), ih, List.append_nil]
    rfl

theorem Cut.flatten {cs : List Char} {rows : List (List Char × List Char)} (h : Cut cs rows) :
    (rows.map whole).flatten = cs := by
  rw [← h.pieces, flatten_pieces]

theorem Cut.inside {c : Char} (hc : isBoundary c = false) {cs : List Char}
    {rows : List (List Char × List Char)} (h : Cut cs rows) : ∃ rows, Cut (c :: cs) rows := by
  have broken : ∀ {line}, Unbroken line → Unbroken (c :: line) := fun hline d hd =>
    (List.mem_cons.mp hd).elim (fun e => e ▸ hc) (hline d)
  cases h with
  | nil => exact ⟨_, .last (List.cons_ne_nil c []) (broken fun _ hd => absurd hd List.not_mem_nil)⟩
  | last hne hline => exact ⟨_, .last (List.cons_ne_nil c cs) (broken hline)⟩
  | next hline hending hfeed h => exact ⟨_, .next (broken hline) hending hfeed h⟩

theorem exists_cut (cs : List Char) : ∃ rows, Cut cs rows := by
  have nothing : Unbroken [] := fun _ hd => absurd hd List.not_mem_nil
  fun_induction Text.pieces cs with
  | case1 => exact ⟨[], .nil⟩
  | case2 cs ih =>
    obtain ⟨rows, h⟩ := ih
    exact ⟨_, .next nothing .pair (fun e => by cases e) h⟩
  | case3 c cs hpair hc ih =>
    obtain ⟨rows, h⟩ := ih
    refine ⟨_, .next nothing (.single hc) ?_ h⟩
    intro hr hhead
    obtain ⟨cs', rfl⟩ := List.head?_eq_some_iff.mp hhead
    obtain rfl : c = '\r' := (List.cons.inj hr).1
    exact hpair cs' rfl rfl
  | case4 c cs hpair hc ih =>
    obtain ⟨rows, h⟩ := ih
    exact h.inside (Bool.eq_false_iff.mpr hc)

/-- A row of which the line has an end. -/
structure Closed (row : List Char × List Char) : Prop where
  line : Unbroken row.1
  ending : IsLineEnd row.2

theorem Cut.rows {cs : List Char} {rows : List (List Char × List Char)} (h : Cut cs rows) :
    (∀ row ∈ rows, Closed row) ∨ ∃ front last, rows = front ++ [(last, [])] ∧ last ≠ [] ∧
      Unbroken last ∧ ∀ row ∈ front, Closed row := by
  induction h with
  | nil => exact .inl fun _ h => absurd h List.not_mem_nil
  | @last line hne hline =>
    exact .inr ⟨[], line, rfl, hne, hline, fun _ h => absurd h List.not_mem_nil⟩
  | @next line ending cs rows hline hending hfeed _ ih =>
    have closed : ∀ {rows : List (List Char × List Char)}, (∀ row ∈ rows, Closed row) →
        ∀ row ∈ (line, ending) :: rows, Closed row := fun h row hrow =>
      (List.mem_cons.mp hrow).elim (fun e => e ▸ ⟨hline, hending⟩) (h row)
    rcases ih with ih | ⟨front, last, rfl, hne, hlast, ih⟩
    · exact .inl (closed ih)
    · exact .inr ⟨(line, ending) :: front, last, rfl, hne, hlast, closed ih⟩

/-- Closed rows come back behind one another, and in front of any text, unless there are carriage
returns among the ends. -/
theorem Cut.join {rows rest : List (List Char × List Char)} {cs : List Char}
    (hrows : ∀ row ∈ rows, Closed row ∧ row.2 ≠ ['\r']) (h : Cut cs rest) :
    Cut ((rows.map whole).flatten ++ cs) (rows ++ rest) := by
  induction rows with
  | nil => exact h
  | cons row rows ih =>
    obtain ⟨⟨hline, hending⟩, hreturn⟩ := hrows row List.mem_cons_self
    have := ih fun row hrow => hrows row (List.mem_cons_of_mem _ hrow)
    rw [List.map_cons, List.flatten_cons, List.append_assoc, whole, List.append_assoc]
    exact .next hline hending (fun e => absurd e hreturn) this

/-! ## Reversing lines -/

/-- A text that is empty or ends in a boundary. -/
def Ended (cs : List Char) : Prop := ∀ c ∈ cs.getLast?, isBoundary c = true

/-- The first two lines run into one. -/
def joinFirst : List (List Char) → List (List Char)
  | first :: second :: rest => (first ++ second) :: rest
  | ls => ls

theorem length_joinFirst {ls : List (List Char)} (h : 1 < ls.length) :
    (joinFirst ls).length + 1 = ls.length := by
  match ls with
  | _ :: _ :: _ => rfl

theorem IsLineEnd.getLast? {ending : List Char} (h : IsLineEnd ending) :
    ∃ c, ending.getLast? = some c ∧ isBoundary c = true := by
  cases h with
  | single hc => exact ⟨_, rfl, hc⟩
  | pair => exact ⟨'\n', rfl, by decide⟩

theorem IsLineEnd.ne_nil {ending : List Char} (h : IsLineEnd ending) : ending ≠ [] := by
  cases h <;> exact List.cons_ne_nil _ _

theorem Cut.ended {cs : List Char} {rows : List (List Char × List Char)} (h : Cut cs rows)
    (hrows : ∀ row ∈ rows, Closed row) : Ended cs := by
  intro c hc
  cases rows using List.reverseRecOn with
  | nil =>
    rw [← h.flatten] at hc
    cases hc
  | append_singleton rows row =>
    have hrow := hrows row (List.mem_append_right rows (List.mem_singleton_self row))
    obtain ⟨d, hd, hboundary⟩ := hrow.ending.getLast?
    have hlast : cs.getLast? = some d := by
      rw [← h.flatten, List.map_append, List.flatten_append, List.map_singleton,
        List.flatten_singleton, whole, ← List.append_assoc,
        List.getLast?_append_of_ne_nil _ hrow.ending.ne_nil, hd]
    rw [hlast] at hc
    exact Option.some.inj hc ▸ hboundary

theorem Cut.not_ended {cs last : List Char} {front : List (List Char × List Char)}
    (h : Cut cs (front ++ [(last, [])])) (hne : last ≠ []) (hlast : Unbroken last) : ¬ Ended cs := by
  intro hended
  have hcs : cs.getLast? = last.getLast? := by
    rw [← h.flatten, List.map_append, List.flatten_append, List.map_singleton,
      List.flatten_singleton, whole, List.append_nil, List.getLast?_append_of_ne_nil _ hne]
  have hmem := List.getLast_mem hne
  rw [Ended, hcs, List.getLast?_eq_getLast_of_ne_nil hne] at hended
  exact absurd (hended _ rfl) (Bool.eq_false_iff.mp (hlast _ hmem))

theorem Cut.reverse {rows rest : List (List Char × List Char)} {cs : List Char}
    (hrows : ∀ row ∈ rows, Closed row ∧ row.2 ≠ ['\r']) (h : Cut cs rest) :
    Cut ((rows.reverse.map whole).flatten ++ cs) (rows.reverse ++ rest) :=
  h.join fun row hrow => hrows row (List.mem_reverse.mp hrow)

theorem Cut.no_return {cs : List Char} {rows : List (List Char × List Char)} (h : Cut cs rows)
    (hcs : '\r' ∉ cs) {row : List Char × List Char} (hrow : row ∈ rows) : row.2 ≠ ['\r'] := by
  intro hreturn
  apply hcs
  rw [← h.flatten]
  refine List.mem_flatten_of_mem (List.mem_map_of_mem hrow) ?_
  rw [whole, hreturn]
  exact List.mem_append_right _ (List.mem_singleton_self _)

theorem reverseLines_eq {cs : List Char} {rows : List (List Char × List Char)} (h : Cut cs rows) :
    Transform.reverseLines.apply cs = (rows.reverse.map whole).flatten := by
  rw [Transform.apply, h.pieces, List.map_reverse]

theorem lines_reverse_ended {cs : List Char} (hcs : '\r' ∉ cs) (hended : Ended cs) :
    lines (Transform.reverseLines.apply cs) = (lines cs).reverse := by
  obtain ⟨rows, h⟩ := exists_cut cs
  rcases h.rows with hclosed | ⟨front, last, rfl, hne, hlast, -⟩
  · have reversed := Cut.nil.reverse fun row hrow => ⟨hclosed row hrow, h.no_return hcs hrow⟩
    rw [List.append_nil, List.append_nil] at reversed
    rw [reverseLines_eq h, reversed.lines, h.lines, List.map_reverse]
  · exact absurd hended (h.not_ended hne hlast)

theorem lines_reverse_unended {cs : List Char} (hcs : '\r' ∉ cs) (hended : ¬ Ended cs) :
    lines (Transform.reverseLines.apply cs) = joinFirst (lines cs).reverse := by
  obtain ⟨rows, h⟩ := exists_cut cs
  rcases h.rows with hclosed | ⟨front, last, rfl, hne, hlast, hclosed⟩
  · exact absurd (h.ended hclosed) hended
  have good : ∀ row ∈ front, Closed row ∧ row.2 ≠ ['\r'] := fun row hrow =>
    ⟨hclosed row hrow, h.no_return hcs (List.mem_append_left _ hrow)⟩
  rw [reverseLines_eq h, h.lines, List.reverse_append, List.map_append, List.flatten_append,
    List.map_append, List.reverse_append]
  show lines (last ++ [] ++ [] ++ (front.reverse.map whole).flatten) = _
  rw [List.append_nil, List.append_nil]
  cases front using List.reverseRecOn with
  | nil =>
    rw [List.reverse_nil, List.map_nil, List.flatten_nil, List.append_nil, (hlast.single hne).2]
    rfl
  | append_singleton front row =>
    have reversed := Cut.nil.reverse good
    rw [List.append_nil, List.append_nil] at reversed
    rw [List.reverse_append] at reversed ⊢
    rw [hlast.lines_append reversed.lines, List.map_append, List.reverse_append]
    show (last ++ row.1) :: front.reverse.map Prod.fst =
      (last ++ row.1) :: (front.map Prod.fst).reverse
    rw [List.map_reverse]

/-- The lines of a text with reversed lines are its lines in reverse order just if the text ends in a
boundary or has one line at most. Else the last line and the one before it become one. -/
theorem lines_reverseLines (cs : List Char) (hcs : '\r' ∉ cs) :
    (lines (Transform.reverseLines.apply cs) = (lines cs).reverse ↔
      Ended cs ∨ (lines cs).length ≤ 1) ∧
    (¬ Ended cs → lines (Transform.reverseLines.apply cs) = joinFirst (lines cs).reverse) := by
  refine ⟨⟨?_, ?_⟩, lines_reverse_unended hcs⟩
  · intro heq
    by_contra hnot
    obtain ⟨hended, hmany⟩ := not_or.mp hnot
    have hlength : 1 < (lines cs).reverse.length := by
      rw [List.length_reverse]
      omega
    have shorter := length_joinFirst hlength
    rw [← lines_reverse_unended hcs hended, heq] at shorter
    omega
  · rintro (hended | hfew)
    · exact lines_reverse_ended hcs hended
    · by_cases hended : Ended cs
      · exact lines_reverse_ended hcs hended
      · rw [lines_reverse_unended hcs hended]
        match hlines : lines cs with
        | [] => rfl
        | [line] => rfl
        | _ :: _ :: _ =>
          rw [hlines] at hfew
          exact absurd hfew (by simp)

theorem lines_reverseLines_feed :
    '\r' ∉ ['a', '\n', '\x0c', 'b', '\n'] ∧ Ended ['a', '\n', '\x0c', 'b', '\n'] ∧
      lines (Transform.reverseLines.apply ['a', '\n', '\x0c', 'b', '\n']) =
        [['b'], [], ['a']] := by
  have hcs : '\r' ∉ ['a', '\n', '\x0c', 'b', '\n'] := by decide
  have hended : Ended ['a', '\n', '\x0c', 'b', '\n'] := by
    intro c hc
    obtain rfl : '\n' = c := Option.some.inj hc
    decide
  exact ⟨hcs, hended, (lines_reverseLines _ hcs).1.mpr (.inl hended)⟩

/-- Two lines become one where the second one has no boundary. -/
theorem unended_merges : ¬ ∀ cs : List Char, '\r' ∉ cs →
    lines (Transform.reverseLines.apply cs) = (lines cs).reverse := by
  intro h
  have merged := h ['a', '\n', 'b'] (by decide)
  rw [show lines (Transform.reverseLines.apply ['a', '\n', 'b']) = [['b', 'a']] from by decide,
    show (lines ['a', '\n', 'b']).reverse = [['b'], ['a']] from by decide] at merged
  cases merged

end Toolwright.Text

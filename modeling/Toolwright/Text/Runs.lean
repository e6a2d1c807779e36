/-!
# Runs between separators

The longest stretches of a list without a separator, in order. They are never empty.
-/

namespace Toolwright.Text

set_option autoImplicit false

variable {α : Type}

/-- The runs of a list; the run being read stands reversed in `opened`. -/
def runsFrom (isSeparator : α → Bool) (opened : List α) : List α → List (List α)
  | [] => if opened.isEmpty then [] else [opened.reverse]
  | c :: cs =>
    if isSeparator c then
      if opened.isEmpty then runsFrom isSeparator [] cs
      else opened.reverse :: runsFrom isSeparator [] cs
    else runsFrom isSeparator (c :: opened) cs

def runs (isSeparator : α → Bool) (cs : List α) : List (List α) :=
  runsFrom isSeparator [] cs

theorem ne_nil_of_mem_runsFrom {p : α → Bool} {opened cs run : List α}
    (h : run ∈ runsFrom p opened cs) : run ≠ [] := by
  fun_induction runsFrom p opened cs with
  | case1 => simp at h
  | case2 opened ho => simp_all
  | case3 _ _ _ _ _ ih => exact ih h
  | case4 opened c cs hc ho ih =>
    rcases List.mem_cons.1 h with rfl | h
    · simpa using ho
    · exact ih h
  | case5 _ _ _ _ ih => exact ih h

theorem ne_nil_of_mem_runs {p : α → Bool} {cs run : List α} (h : run ∈ runs p cs) :
    run ≠ [] := ne_nil_of_mem_runsFrom h

theorem flatten_runsFrom (p : α → Bool) (opened cs : List α) :
    (runsFrom p opened cs).flatten = opened.reverse ++ cs.filter (fun c => !p c) := by
  fun_induction runsFrom p opened cs with
  | case1 opened ho => simp_all
  | case2 opened ho => simp
  | case3 opened c cs hc ho ih => simp_all
  | case4 opened c cs hc ho ih => simp_all
  | case5 opened c cs hc ih => simp_all

theorem flatten_runs (p : α → Bool) (cs : List α) :
    (runs p cs).flatten = cs.filter fun c => !p c := by
  simp [runs, flatten_runsFrom]

theorem not_separator_of_mem_runs {p : α → Bool} {cs run : List α} (h : run ∈ runs p cs)
    {c : α} (hc : c ∈ run) : p c = false := by
  have hm : c ∈ (runs p cs).flatten := List.mem_flatten.2 ⟨run, h, hc⟩
  have hn := (List.mem_filter.1 (flatten_runs p cs ▸ hm)).2
  cases hp : p c with
  | false => rfl
  | true => simp [hp] at hn

theorem runsFrom_append {p : α → Bool} {run : List α} (h : ∀ c ∈ run, p c = false)
    (opened cs : List α) : runsFrom p opened (run ++ cs) = runsFrom p (run.reverse ++ opened) cs := by
  induction run generalizing opened with
  | nil => rfl
  | cons c run ih =>
    rw [List.cons_append, runsFrom, h c List.mem_cons_self]
    rw [if_neg Bool.false_ne_true, ih fun d hd => h d (List.mem_cons_of_mem c hd)]
    rw [List.reverse_cons, List.append_assoc]
    rfl

theorem runsFrom_behind {p : α → Bool} {c : α} (hc : p c = true) (opened cs : List α) :
    runsFrom p opened (cs ++ [c]) = runsFrom p opened cs := by
  induction cs generalizing opened with
  | nil =>
    rw [List.nil_append, runsFrom.eq_2, if_pos hc]
    rfl
  | cons d cs ih =>
    rw [List.cons_append, runsFrom, runsFrom, ih, ih]

/-- A list without separators is one run, which ends where a separator stands. -/
theorem runsFrom_run {p : α → Bool} {run : List α} (hne : run ≠ []) (h : ∀ c ∈ run, p c = false)
    {s : α} (hs : p s = true) (cs : List α) :
    runsFrom p [] run = [run] ∧ runsFrom p [] (run ++ s :: cs) = run :: runsFrom p [] cs := by
  have opened : run.reverse.isEmpty = false := by
    rw [List.isEmpty_reverse, List.isEmpty_eq_false_iff]
    exact hne
  have last := runsFrom_append h [] []
  have next := runsFrom_append h [] (s :: cs)
  rw [List.append_nil, List.append_nil, runsFrom, opened, if_neg Bool.false_ne_true,
    List.reverse_reverse] at last
  rw [List.append_nil, runsFrom, if_pos hs, opened, if_neg Bool.false_ne_true,
    List.reverse_reverse] at next
  exact ⟨last, next⟩

theorem runs_intercalate {p : α → Bool} {s : α} (hs : p s = true) {parts : List (List α)}
    (h : ∀ run ∈ parts, run ≠ [] ∧ ∀ c ∈ run, p c = false) :
    runs p ([s].intercalate parts) = parts := by
  match parts with
  | [] => rfl
  | [run] =>
    obtain ⟨hne, hrun⟩ := h run List.mem_cons_self
    rw [List.intercalate_singleton]
    exact (runsFrom_run hne hrun hs []).1
  | run :: next :: rest =>
    obtain ⟨hne, hrun⟩ := h run List.mem_cons_self
    have ih := runs_intercalate hs fun run hr => h run (List.mem_cons_of_mem _ hr)
    rw [List.intercalate_cons_cons, List.append_assoc]
    exact (runsFrom_run hne hrun hs _).2.trans (congrArg (run :: ·) ih)

end Toolwright.Text

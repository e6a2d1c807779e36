import Toolwright.Proofs.Publication.Kept
/-!
# What a step leaves as it was
A step of a session adds things, changes some cells, and declares things on some classes. Whatever
stands in other cells and on other classes stands there afterwards.
-/

namespace Toolwright

set_option autoImplicit false

namespace World

variable {w v u : World} {n : Nat} {c : ClassRef} {name : String} {own own' A A' C : Nat → Prop}

/-- A world to which a session came that changed at most the cells of `own`, and declared names on at
most the classes of `A`. -/
structure Moves (w v : World) (own A : Nat → Prop) : Prop where
  leads : w.LeadsTo v
  bundled : w.Bundled → v.Bundled
  objects : w.objects <+: v.objects
  handles : w.handles <+: v.handles
  cells : ∀ k x, ¬ own k → w.cells[k]? = some x → v.cells[k]? = some x
  cells_le : w.cells.length ≤ v.cells.length
  marks_le : w.marks ≤ v.marks
  logFrom : v.logFrom = w.logFrom
  extras : v.extras = w.extras
  declared : ∀ n, w.Rooted (.made n) → ¬ A n → ∀ key, v.own? (.made n) key = w.own? (.made n) key

namespace Moves

theorem trans (h : w.Moves v own A) (h' : v.Moves u own A) : w.Moves u own A where
  leads := h.leads.trans h'.leads
  bundled hb := h'.bundled (h.bundled hb)
  objects := h.objects.trans h'.objects
  handles := h.handles.trans h'.handles
  cells k x hk hx := h'.cells k x hk (h.cells k x hk hx)
  cells_le := Nat.le_trans h.cells_le h'.cells_le
  marks_le := Nat.le_trans h.marks_le h'.marks_le
  logFrom := h'.logFrom.trans h.logFrom
  extras := h'.extras.trans h.extras
  declared n hn ha key :=
    (h'.declared n (h.leads.rooted hn) ha key).trans (h.declared n hn ha key)

end Moves

theorem Later.moves (h : w.Later v own) (A : Nat → Prop) : w.Moves v own A where
  leads := LeadsTo.refl.later h
  bundled hb := h.bundled hb
  objects := h.objects
  handles := h.handles
  cells k x hk hx := h.cells k x hk hx
  cells_le := h.cells_le
  marks_le := h.marks_le
  logFrom := h.logFrom
  extras := h.extras
  declared n hn _ key := by
    refine h.own? ?_ key
    rintro _ ⟨⟩
    exact hn n List.mem_cons_self

theorem moves_named (w : World) (names : Names) (own A : Nat → Prop) :
    w.Moves (w.named names) own A where
  leads := LeadsTo.refl.named names
  bundled hb := hb.named names
  objects := List.prefix_rfl
  handles := List.prefix_rfl
  cells _ _ _ hx := hx
  cells_le := Nat.le_refl _
  marks_le := Nat.le_refl _
  logFrom := rfl
  extras := rfl
  declared _ _ _ _ := rfl

theorem moves_registered (w : World) (hosts : List (String × Option ClassRef)) (own A : Nat → Prop) :
    w.Moves { w with hosts } own A where
  leads := LeadsTo.refl.registered hosts
  bundled hb := ⟨hb.classes, hb.places⟩
  objects := List.prefix_rfl
  handles := List.prefix_rfl
  cells _ _ _ hx := hx
  cells_le := Nat.le_refl _
  marks_le := Nat.le_refl _
  logFrom := rfl
  extras := rfl
  declared _ _ _ _ := rfl

/-- A class on which names can be declared is none of the classes of records. -/
theorem IsHost.outside (h : w.IsHost n) (hb : w.Bundled) : ¬ (2 ≤ n ∧ n < 9) := by
  rintro ⟨hn, hn'⟩
  obtain ⟨k, f, hf⟩ := h
  rw [hb.find? hn hn'] at hf
  have hnone : ∀ m < 9, 2 ≤ m → (Session.start.find? (.made m) "tool_name").isNone = true := by
    decide
  have := hnone n hn' hn
  rw [hf] at this
  cases this

theorem moves_setAttribute (hh : w.IsHost n) (hm : name ∈ declaredNames) (x : Value)
    (own : Nat → Prop) : w.Moves (w.setAttribute n name (.value x)) own (· = n) where
  leads := LeadsTo.refl.declared x hh hm
  bundled hb := {
    classes := by
      intro k hk hk'
      have hne : n ≠ k := by
        rintro rfl
        exact hh.outside hb ⟨hk, hk'⟩
      simp only [setAttribute, modifyClass, List.getElem?_modify, if_neg hne]
      rw [hb.classes k hk hk']
      exact Option.map_id'
    places := hb.places }
  objects := List.prefix_rfl
  handles := List.prefix_rfl
  cells _ _ _ hx := hx
  cells_le := Nat.le_refl _
  marks_le := Nat.le_refl _
  logFrom := rfl
  extras := rfl
  declared k _ hk key := by
    rcases own?_setAttribute w n name (.value x) (.made k) key with he | ⟨he, -, -⟩
    · exact he
    · cases he
      exact absurd rfl hk

namespace Moves

theorem mono (h : w.Moves v own A) (ho : ∀ k, own k → own' k) (hA : ∀ n, A n → A' n) :
    w.Moves v own' A' where
  leads := h.leads
  bundled := h.bundled
  objects := h.objects
  handles := h.handles
  cells k x hk hx := h.cells k x (fun hc => hk (ho k hc)) hx
  cells_le := h.cells_le
  marks_le := h.marks_le
  logFrom := h.logFrom
  extras := h.extras
  declared n hn ha key := h.declared n hn (fun hc => ha (hA n hc)) key

theorem retains (h : w.Moves v own A) (hd : w.HoldsData C) (ho : ∀ k, C k → ¬ own k) :
    w.Retains v C where
  cells k hk := by
    obtain ⟨x, hx, -⟩ := hd k hk
    rw [hx, h.cells k x (ho k hk) hx]
  cells_le := h.cells_le
  handles_le := h.handles.length_le
  marks_le := h.marks_le
  logFrom := h.logFrom

theorem keepsClass (h : w.Moves v own A) (hn : w.Rooted (.made n)) (hA : ¬ A n) :
    w.KeepsClass v n :=
  h.leads.keepsClass hn fun key _ => h.declared n hn hA key

end Moves

end World

end Toolwright

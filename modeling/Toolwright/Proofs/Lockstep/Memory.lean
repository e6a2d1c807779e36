import Toolwright.Proofs.Lockstep.Link

/-!
# Memory in linked worlds

Cells, functions and marks are given out side by side, and what is written to a cell of one world is
written, renamed, to its cell in the other one. So literals and shared containers are alike.
-/

namespace Toolwright

set_option autoImplicit false

/-! ## What is preserved -/

namespace Preserved

variable {owned : Nat → Prop} {settable : Prop} {b w : World}

theorem refl (owned : Nat → Prop) (settable : Prop) (w : World) : Preserved owned settable w w where
  rest := rfl
  cells _ _ _ := rfl
  cells_le := Nat.le_refl _
  handles _ _ := rfl
  handles_le := Nat.le_refl _
  marks_le := Nat.le_refl _
  extras := .inr rfl

theorem newCell (h : Preserved owned settable b w) (x : Value) :
    Preserved owned settable b { w with cells := w.cells ++ [x] } :=
  { h with
    rest := h.rest
    cells := by
      intro n hn ho
      rw [← h.cells n hn ho]
      exact List.getElem?_append_left (Nat.lt_of_lt_of_le hn h.cells_le)
    cells_le := by
      have := h.cells_le
      simp only [List.length_append, List.length_singleton]
      omega }

theorem store (h : Preserved owned settable b w) (n : Nat) (x : Value)
    (hn : owned n ∨ b.cells.length ≤ n) : Preserved owned settable b (w.store (.cell n) x) :=
  { h with
    rest := h.rest
    cells := by
      intro k hk ho
      rw [← h.cells k hk ho]
      apply List.getElem?_set_ne
      rintro rfl
      rcases hn with hn | hn
      · exact ho hn
      · omega
    cells_le := by
      have := h.cells_le
      simp only [World.store, List.length_set]
      omega }

theorem newHandle (h : Preserved owned settable b w) (handle : Handle) :
    Preserved owned settable b { w with handles := w.handles ++ [handle] } :=
  { h with
    rest := h.rest
    handles := by
      intro r hr
      rw [← h.handles r hr]
      exact List.getElem?_append_left (Nat.lt_of_lt_of_le hr h.handles_le)
    handles_le := by
      have := h.handles_le
      simp only [List.length_append, List.length_singleton]
      omega }

theorem marks (h : Preserved owned settable b w) {marks : Nat} (hm : w.marks ≤ marks) :
    Preserved owned settable b { w with marks } :=
  { h with
    rest := h.rest
    marks_le := Nat.le_trans h.marks_le hm }

theorem log (h : Preserved owned settable b w) (log : List Record) :
    Preserved owned settable b { w with log } :=
  { h with rest := h.rest }

theorem setExtras (h : Preserved owned settable b w) (hs : settable)
    (extras : List (Opaque × Nat)) : Preserved owned settable b { w with extras } :=
  { h with
    rest := h.rest
    extras := .inl hs }

theorem classes (h : Preserved owned settable b w) : w.classes = b.classes := by
  have := congrArg World.classes h.rest
  exact this

theorem objects (h : Preserved owned settable b w) : w.objects = b.objects := by
  have := congrArg World.objects h.rest
  exact this

theorem logFrom (h : Preserved owned settable b w) : w.logFrom = b.logFrom := by
  have := congrArg World.logFrom h.rest
  exact this

end Preserved

namespace Link

variable {L : Link} {w v : World} {e : Extent}

theorem extent_below {w w' : World} (hc : w.cells.length ≤ w'.cells.length)
    (hh : w.handles.length ≤ w'.handles.length) (hm : w.marks ≤ w'.marks) :
    (L.extent w).Below (L.extent w') where
  cell _ h := ⟨h.1, Nat.lt_of_lt_of_le h.2 hc⟩
  routine _ h := ⟨h.1, Nat.lt_of_lt_of_le h.2 hh⟩
  marks := hm

/-! ## Linked worlds stay linked -/

namespace Linked

/-- A cell of the left world stands for one of the right world that is there if the left one is. -/
theorem cell_lt (h : L.Linked w v) {n : Nat} (hn : L.cell n) :
    L.ρ.cell n < v.cells.length ↔ n < w.cells.length := by
  have := h.cells n hn
  constructor
  · intro hlt
    rw [List.getElem?_eq_getElem hlt] at this
    cases hw : w.cells[n]? with
    | none => rw [hw] at this; cases this
    | some x => exact (List.getElem?_eq_some_iff.mp hw).1
  · intro hlt
    rw [List.getElem?_eq_getElem hlt] at this
    exact (List.getElem?_eq_some_iff.mp this).1

theorem newCell (h : L.Linked w v) {x : Value} (hx : x.Within (L.extent w)) :
    L.Linked { w with cells := w.cells ++ [x] }
      { v with cells := v.cells ++ [x.rename L.ρ] } := by
  have below : (L.extent w).Below (L.extent { w with cells := w.cells ++ [x] }) :=
    extent_below (by simp) (Nat.le_refl _) (Nat.le_refl _)
  refine { h with
    left := h.left.newCell x
    right := h.right.newCell _
    cells := ?_
    within := ?_
    cell_shift := ?_ }
  · intro n hn
    have hlt := h.cell_lt hn
    rcases Nat.lt_trichotomy n w.cells.length with hw | hw | hw
    · rw [List.getElem?_append_left (hlt.mpr hw), List.getElem?_append_left hw]
      exact h.cells n hn
    · have h0 := h.cell_shift 0
      subst hw
      rw [Nat.add_zero, Nat.add_zero] at h0
      rw [h0]
      simp
    · have hv : v.cells.length < L.ρ.cell n := by
        have hs := h.cell_shift (n - w.cells.length)
        rw [Nat.add_sub_of_le (Nat.le_of_lt hw)] at hs
        omega
      rw [List.getElem?_eq_none_iff.mpr, List.getElem?_eq_none_iff.mpr]
      · rfl
      · simp only [List.length_append, List.length_singleton]
        omega
      · simp only [List.length_append, List.length_singleton]
        omega
  · intro n y hn hy
    by_cases hw : n < w.cells.length
    · rw [List.getElem?_append_left hw] at hy
      exact (h.within n y hn hy).mono below
    · have hlen := (List.getElem?_eq_some_iff.mp hy).1
      simp only [List.length_append, List.length_singleton] at hlen
      have : n = w.cells.length := by omega
      subst this
      simp only [List.getElem?_append_right (Nat.le_refl _), Nat.sub_self,
        List.getElem?_cons_zero, Option.some.injEq] at hy
      exact hy ▸ hx.mono below
  · intro j
    have := h.cell_shift (1 + j)
    simp only [List.length_append, List.length_singleton]
    rw [Nat.add_assoc, this, Nat.add_assoc]

/-- A write to a cell that is the context's own or was made by the runs. -/
theorem store (h : L.Linked w v) {n : Nat} (hn : n = L.store ∨ L.left.world.cells.length ≤ n)
    {x : Value} (hx : x.Within (L.extent w)) :
    L.Linked (w.store (.cell n) x) (v.store (.cell (L.ρ.cell n)) (x.rename L.ρ)) := by
  have hcell : L.cell n := by
    rcases hn with rfl | hn
    · exact h.sound.cell_store
    · exact h.sound.cell_new n hn
  have below : (L.extent w).Below (L.extent (w.store (.cell n) x)) :=
    extent_below (by simp [World.store]) (Nat.le_refl _) (Nat.le_refl _)
  refine { h with
    left := h.left.store n x hn
    right := h.right.store _ _ ?_
    cells := ?_
    within := ?_
    cell_shift := ?_ }
  · rcases hn with rfl | hn
    · exact .inl rfl
    · right
      have := h.sound.cell_shift (n - L.left.world.cells.length)
      rw [Nat.add_sub_of_le hn] at this
      omega
  · intro k hk
    simp only [World.store]
    by_cases hkn : k = n
    · subst hkn
      rw [List.getElem?_set_self', List.getElem?_set_self', h.cells k hk]
      cases w.cells[k]? <;> rfl
    · rw [List.getElem?_set_ne fun e => hkn (L.ρ.cell_injective e).symm,
        List.getElem?_set_ne fun e => hkn e.symm]
      exact h.cells k hk
  · intro k y hk hy
    simp only [World.store] at hy
    by_cases hkn : k = n
    · subst hkn
      have hlen := (List.getElem?_eq_some_iff.mp hy).1
      rw [List.length_set] at hlen
      rw [List.getElem?_set_self hlen] at hy
      cases hy
      exact hx.mono below
    · rw [List.getElem?_set_ne fun e => hkn e.symm] at hy
      exact (h.within k y hk hy).mono below
  · intro j
    simp only [World.store, List.length_set]
    exact h.cell_shift j

/-- A helper bound to the context becomes a value. -/
theorem newHandle (h : L.Linked w v) {r : Nat} (hr : L.helper r) :
    L.Linked
      { w with handles := w.handles ++ [⟨.forwards (routineValue r), some L.left.context⟩] }
      { v with handles := v.handles ++
        [⟨.forwards (routineValue (L.ρ.routine r)), some L.right.context⟩] } := by
  have below : (L.extent w).Below (L.extent { w with
      handles := w.handles ++ [⟨.forwards (routineValue r), some L.left.context⟩] }) :=
    extent_below (Nat.le_refl _) (by simp) (Nat.le_refl _)
  refine { h with
    left := h.left.newHandle _
    right := h.right.newHandle _
    within := fun n x hn hx => (h.within n x hn hx).mono below
    handles := ?_
    routine_shift := ?_ }
  · intro k hk hlt
    by_cases hw : k < w.handles.length
    · obtain ⟨r', hr', hl, hv⟩ := h.handles k hk hw
      refine ⟨r', hr', ?_, ?_⟩
      · rw [List.getElem?_append_left hw]
        exact hl
      · rw [List.getElem?_append_left (List.getElem?_eq_some_iff.mp hv).1]
        exact hv
    · simp only [List.length_append, List.length_singleton] at hlt
      have : k = w.handles.length := by omega
      subst this
      have h0 := h.routine_shift 0
      rw [Nat.add_zero, Nat.add_zero] at h0
      exact ⟨r, hr, by simp, by rw [h0]; simp⟩
  · intro j
    have := h.routine_shift (1 + j)
    simp only [List.length_append, List.length_singleton]
    rw [Nat.add_assoc, this, Nat.add_assoc]

theorem marks (h : L.Linked w v) {k k' : Nat} (hk : w.marks ≤ k) (hk' : v.marks ≤ k')
    (hs : L.ρ.Shifts k k') : L.Linked { w with marks := k } { v with marks := k' } :=
  have below : (L.extent w).Below (L.extent { w with marks := k }) :=
    extent_below (Nat.le_refl _) (Nat.le_refl _) hk
  { h with
    left := h.left.marks hk
    right := h.right.marks hk'
    within := fun n x hn hx => (h.within n x hn hx).mono below
    mark_shift := hs }

theorem log (h : L.Linked w v) (log log' : List Record) :
    L.Linked { w with log } { v with log := log' } :=
  { h with
    left := h.left.log log
    right := h.right.log log'
    within := h.within }

/-- Something other than the context gets a new cell for its attributes. -/
theorem setExtras (h : L.Linked w v) (hs : L.settable) {o : Opaque} {n : Nat}
    (hn : L.left.world.cells.length ≤ n) :
    L.Linked { w with extras := w.extras ++ [(o, n)] }
      { v with extras := v.extras ++ [(o.rename L.ρ, L.ρ.cell n)] } :=
  { h with
    left := h.left.setExtras hs _
    right := h.right.setExtras hs _
    within := h.within
    extras := by
      intro hr
      obtain ⟨he, hall⟩ := h.extras hr
      constructor
      · rw [he, List.map_append]
        rfl
      · intro row hrow
        rcases List.mem_append.mp hrow with hrow | hrow
        · exact hall row hrow
        · rw [List.mem_singleton.mp hrow]
          exact hn }

end Linked

/-! ## Computations -/

theorem newCell_agree {x : Value} (hx : x.Within e) :
    L.Agree e (fun e n n' => e.cell n ∧ n' = L.ρ.cell n) (Run.newCell x)
      (Run.newCell (x.rename L.ρ)) := by
  intro w v hl he
  have h0 := hl.cell_shift 0
  rw [Nat.add_zero, Nat.add_zero] at h0
  refine .ok (hl.newCell (hx.mono he))
    (extent_below (by simp) (Nat.le_refl _) (Nat.le_refl _)) ⟨⟨?_, ?_⟩, h0.symm⟩
  · exact hl.sound.cell_new _ hl.left.cells_le
  · simp

theorem kept_agree {x : Value} (hx : x.Within e) :
    L.Agree e L.Renamed (Run.kept x) (Run.kept (x.rename L.ρ)) := by
  unfold Run.kept
  apply Agree.bind (newCell_agree hx)
  rintro e₁ n _ _ ⟨hn, rfl⟩
  exact Agree.pure fun e₂ he => ⟨he.cell n hn, rfl⟩

theorem newHandle_agree {r : Nat} (hr : L.helper r) :
    L.Agree e L.Renamed (Run.newHandle (.forwards (routineValue r)) (some L.left.context))
      (Run.newHandle (.forwards (routineValue (L.ρ.routine r))) (some L.right.context)) := by
  intro w v hl he
  have h0 := hl.routine_shift 0
  rw [Nat.add_zero, Nat.add_zero] at h0
  refine .ok (hl.newHandle hr) (extent_below (Nat.le_refl _) (by simp) (Nat.le_refl _))
    ⟨⟨.inr ?_, ?_⟩, ?_⟩
  · exact hl.sound.bound_new _ hl.left.handles_le
  · simp
  · show Value.opaqueRef (.routine v.handles.length) = _
    rw [← h0]
    rfl

/-- What builds alike from any counts of marks runs alike. -/
theorem build_agree {α β : Type} {Q : Extent → α → β → Prop} {R : Nat → α → β → Prop}
    {b : Build α} {b' : Build β} (hb : Build.Agree L.ρ e.marks R b b')
    (hq : ∀ e' a a', e.Below e' → R e'.marks a a' → Q e' a a') :
    L.Agree e Q (Run.build b) (Run.build b') := by
  intro w v hl he
  have h := hb w.marks v.marks he.marks hl.mark_shift
  unfold Alike Run.build
  rw [Run.exec_bind, Run.exec_bind, Run.exec_world, Run.exec_world]
  dsimp only
  rw [Run.exec_bind, Run.exec_bind, Run.exec_lift, Run.exec_lift]
  cases hr : b.run w.marks with
  | error f =>
    cases hr' : b'.run v.marks with
    | error g =>
      simp only [hr, hr'] at h
      exact .error hl (Extent.Below.refl _) (h ▸ .same f)
    | ok a' => simp [hr, hr'] at h
  | ok a =>
    cases hr' : b'.run v.marks with
    | error g => simp [hr, hr'] at h
    | ok a' =>
      obtain ⟨a, k⟩ := a
      obtain ⟨a', k'⟩ := a'
      simp only [hr, hr'] at h
      obtain ⟨hk, hs, hr⟩ := h
      have hk' : v.marks ≤ k' := by
        have h1 := hl.mark_shift (k - w.marks)
        have h2 := hs 0
        rw [Nat.add_sub_of_le hk] at h1
        rw [Nat.add_zero, Nat.add_zero] at h2
        omega
      have below : (L.extent w).Below (L.extent { w with marks := k }) :=
        extent_below (Nat.le_refl _) (Nat.le_refl _) hk
      exact .ok (hl.marks hk hk' hs) below (hq _ a a' (he.trans below) hr)

/-! ## Sharing -/

/-- Rows of the right run are those of the left one, renamed. -/
def RenamedRows (L : Link) (e : Extent) (rows others : List (Value × Value)) : Prop :=
  Value.RowsWithin e rows ∧ others = rows.map (Value.renameRow L.ρ)

theorem kept_items_agree {make : List Value → Value} {xs : List Value}
    (hw : ∀ x ∈ xs, x.Within e)
    (hmake : (make xs).Within e ↔ Value.WithinItems e xs)
    (hr : (make xs).rename L.ρ = make (xs.map (Value.rename L.ρ))) :
    L.Agree e L.Renamed (Run.kept (make xs)) (Run.kept (make (xs.map (Value.rename L.ρ)))) := by
  rw [← hr]
  exact kept_agree (hmake.mpr (Value.withinItems_iff.mpr hw))

mutual

theorem share_agree {e : Extent} (x : Value) (hx : x.Within e) :
    L.Agree e L.Renamed (Run.share x) (Run.share (x.rename L.ρ)) := by
  cases x with
  | list xs | set xs =>
    simp only [Value.rename, Run.share]
    apply Agree.bind (shareItems_agree xs hx)
    rintro e₁ ys _ _ ⟨hys, rfl⟩
    exact kept_items_agree hys Iff.rfl (by rw [Value.rename, Value.renameItems_eq])
  | dict rows =>
    simp only [Value.rename, Run.share]
    apply Agree.bind (shareRows_agree rows hx)
    rintro e₁ ys _ _ ⟨hys, rfl⟩
    have hr : Value.dict (ys.map (Value.renameRow L.ρ)) = (Value.dict ys).rename L.ρ := by
      rw [Value.rename, Value.renameRows_eq]
    rw [hr]
    exact kept_agree (Value.withinRows_iff.mpr hys)
  | tuple xs =>
    simp only [Value.rename, Run.share]
    apply Agree.bind (shareItems_agree xs hx)
    rintro e₁ ys _ _ ⟨hys, rfl⟩
    apply Agree.pure
    intro e₂ he
    refine ⟨Value.withinItems_iff.mpr fun y hy => (hys y hy).mono he, ?_⟩
    rw [Value.rename, Value.renameItems_eq]
  | mapping rows =>
    simp only [Value.rename, Run.share]
    apply Agree.bind (shareRows_agree rows hx)
    rintro e₁ ys _ _ ⟨hys, rfl⟩
    apply Agree.pure
    intro e₂ he
    refine ⟨Value.withinRows_iff.mpr fun y hy => ⟨(hys y hy).1.mono he, (hys y hy).2.mono he⟩, ?_⟩
    rw [Value.rename, Value.renameRows_eq]
  | record => exact hx.elim
  | _ => exact Agree.pure fun _ he => ⟨Value.Within.mono he hx, rfl⟩

theorem shareItems_agree {e : Extent} (xs : List Value) (hx : Value.WithinItems e xs) :
    L.Agree e L.RenamedItems (Run.shareItems xs) (Run.shareItems (Value.renameItems L.ρ xs)) := by
  cases xs with
  | nil => exact Agree.pure fun _ _ => ⟨by simp, rfl⟩
  | cons x xs =>
    simp only [Value.renameItems, Run.shareItems]
    apply Agree.bind (share_agree x hx.1)
    rintro e₁ y _ h₁ ⟨hy, rfl⟩
    apply Agree.bind (shareItems_agree xs (hx.2.mono h₁))
    rintro e₂ ys _ h₂ ⟨hys, rfl⟩
    apply Agree.pure
    intro e₃ h₃
    refine ⟨?_, rfl⟩
    intro z hz
    rcases List.mem_cons.mp hz with rfl | hz
    · exact hy.mono (h₂.trans h₃)
    · exact (hys z hz).mono h₃

theorem shareRows_agree {e : Extent} (rows : List (Value × Value))
    (hx : Value.WithinRows e rows) :
    L.Agree e L.RenamedRows (Run.shareRows rows) (Run.shareRows (Value.renameRows L.ρ rows)) := by
  cases rows with
  | nil => exact Agree.pure fun _ _ => ⟨by simp [Value.RowsWithin], rfl⟩
  | cons row rows =>
    obtain ⟨k, x⟩ := row
    simp only [Value.renameRows, Run.shareRows]
    apply Agree.bind (share_agree x hx.1.2)
    rintro e₁ y _ h₁ ⟨hy, rfl⟩
    apply Agree.bind (shareRows_agree rows (hx.2.mono h₁))
    rintro e₂ ys _ h₂ ⟨hys, rfl⟩
    apply Agree.pure
    intro e₃ h₃
    refine ⟨?_, rfl⟩
    intro z hz
    rcases List.mem_cons.mp hz with rfl | hz
    · exact ⟨hx.1.1.mono (h₁.trans (h₂.trans h₃)), hy.mono (h₂.trans h₃)⟩
    · exact ⟨(hys z hz).1.mono h₃, (hys z hz).2.mono h₃⟩

end

theorem literal_agree (l : Literal) :
    L.Agree e L.Renamed (Run.literal l) (Run.literal l) := by
  unfold Run.literal
  apply Agree.bind (build_agree (Q := L.Renamed) (Literal.build_agree (e := e) l e.marks) ?_)
  · rintro e₁ x _ _ ⟨hx, rfl⟩
    exact share_agree x hx
  · rintro e₁ x _ he ⟨hx, rfl⟩
    exact ⟨hx.mono (Extent.upTo_below he), rfl⟩

end Link

end Toolwright

import Toolwright.Proofs.Declaration.Cells
import Toolwright.Proofs.Declaration.Data

/-!
# Later worlds

A world is later than another one if things were added to it and some cells were changed. What the
earlier world says of its classes, of its objects and of its other cells still holds.
-/

namespace Toolwright

set_option autoImplicit false

/-- A world to which things were added, and in which at most the cells of `own` have changed. -/
structure World.Later (w v : World) (own : Nat → Prop) : Prop where
  rest : { v with
    classes := w.classes, objects := w.objects, cells := w.cells, handles := w.handles,
    marks := w.marks, log := w.log } = w
  classes : w.classes <+: v.classes
  objects : w.objects <+: v.objects
  handles : w.handles <+: v.handles
  cells : ∀ n x, ¬ own n → w.cells[n]? = some x → v.cells[n]? = some x
  cells_le : w.cells.length ≤ v.cells.length
  marks_le : w.marks ≤ v.marks

theorem getElem?_of_extended {α : Type} {xs ys : List α} (h : xs <+: ys) {n : Nat} {x : α}
    (hx : xs[n]? = some x) : ys[n]? = some x := by
  obtain ⟨more, rfl⟩ := h
  rw [List.getElem?_append_left (List.getElem?_eq_some_iff.mp hx).1, hx]

namespace World

variable {w v u : World} {own : Nat → Prop}

namespace Later

theorem refl (w : World) (own : Nat → Prop) : w.Later w own :=
  ⟨rfl, List.prefix_rfl, List.prefix_rfl, List.prefix_rfl, fun _ _ _ h => h, Nat.le_refl _,
    Nat.le_refl _⟩

theorem mono {own' : Nat → Prop} (h : w.Later v own) (hs : ∀ n, own n → own' n) : w.Later v own' :=
  { h with cells := fun n x hn hx => h.cells n x (fun ho => hn (hs n ho)) hx }

/-- What is changed later on was new, or may be changed. -/
theorem trans {own' : Nat → Prop} (h : w.Later v own) (h' : v.Later u own')
    (hs : ∀ n, own' n → n < w.cells.length → own n) : w.Later u own where
  rest := by
    have hr := h.rest
    rw [← h'.rest] at hr
    exact hr
  classes := h.classes.trans h'.classes
  objects := h.objects.trans h'.objects
  handles := h.handles.trans h'.handles
  cells n x hn hx :=
    h'.cells n x (fun ho => hn (hs n ho (List.getElem?_eq_some_iff.mp hx).1)) (h.cells n x hn hx)
  cells_le := Nat.le_trans h.cells_le h'.cells_le
  marks_le := Nat.le_trans h.marks_le h'.marks_le

/-! ## What is added and changed -/

theorem newCell (h : w.Later v own) (x : Value) : w.Later (v.withCell x) own :=
  h.trans { rest := rfl
            classes := List.prefix_rfl
            objects := List.prefix_rfl
            handles := List.prefix_rfl
            cells := fun _ _ _ hx => getElem?_of_extended (List.prefix_append _ _) hx
            cells_le := by simp [withCell]
            marks_le := Nat.le_refl _ } fun _ ho _ => ho

theorem put (h : w.Later v own) {n : Nat} (hn : own n ∨ w.cells.length ≤ n) (x : Value) :
    w.Later (v.put n x) own where
  rest := h.rest
  classes := h.classes
  objects := h.objects
  handles := h.handles
  cells k y hk hy := by
    have hne : n ≠ k := by
      rintro rfl
      exact hn.elim hk (Nat.not_le_of_lt (List.getElem?_eq_some_iff.mp hy).1)
    show (v.cells.set n x)[k]? = some y
    rw [List.getElem?_set_ne hne]
    exact h.cells k y hk hy
  cells_le := by
    show _ ≤ (v.cells.set n x).length
    rw [List.length_set]
    exact h.cells_le
  marks_le := h.marks_le

theorem newObject (h : w.Later v own) (obj : HostObject) :
    w.Later { v with objects := v.objects ++ [obj] } own :=
  { h with objects := h.objects.trans (List.prefix_append _ _) }

theorem newHandle (h : w.Later v own) (handle : Handle) :
    w.Later { v with handles := v.handles ++ [handle] } own :=
  { h with handles := h.handles.trans (List.prefix_append _ _) }

theorem newClass (h : w.Later v own) (cls : HostClass) :
    w.Later { v with classes := v.classes ++ [cls] } own :=
  { h with classes := h.classes.trans (List.prefix_append _ _) }

theorem log (h : w.Later v own) (log : List Record) : w.Later { v with log } own := { h with }

/-- A class that is new gets an attribute. -/
theorem setAttribute (h : w.Later v own) {n : Nat} (hn : w.classes.length ≤ n) (name : String)
    (a : Attribute) : w.Later (v.setAttribute n name a) own :=
  { h with
    classes := by
      rw [List.prefix_iff_getElem?]
      intro k hk
      show (v.classes.modify n _)[k]? = _
      rw [List.getElem?_modify_ne _ _ (by omega)]
      exact getElem?_of_extended h.classes (List.getElem?_eq_getElem hk) }

/-! ## What still holds -/

theorem hostClass (h : w.Later v own) {n : Nat} {cls : HostClass} (hc : w.classes[n]? = some cls) :
    v.classes[n]? = some cls := getElem?_of_extended h.classes hc

theorem object (h : w.Later v own) {o : Nat} {obj : HostObject} (ho : w.objects[o]? = some obj) :
    v.objects[o]? = some obj := getElem?_of_extended h.objects ho

theorem handle (h : w.Later v own) {r : Nat} {handle : Handle}
    (hr : w.handles[r]? = some handle) : v.handles[r]? = some handle :=
  getElem?_of_extended h.handles hr

theorem extras (h : w.Later v own) : v.extras = w.extras := by
  have := congrArg World.extras h.rest
  exact this

theorem hosts (h : w.Later v own) : v.hosts = w.hosts := by
  have := congrArg World.hosts h.rest
  exact this

theorem resolveHost (h : w.Later v own) (kind : String) :
    v.resolveHost kind = w.resolveHost kind := by
  unfold World.resolveHost
  rw [h.hosts]

theorem logFrom (h : w.Later v own) : v.logFrom = w.logFrom := by
  have := congrArg World.logFrom h.rest
  exact this

theorem retains (h : w.Later v own) {C : Nat → Prop} (hd : w.HoldsData C)
    (hC : ∀ n, C n → ¬ own n) : w.Retains v C where
  cells n hn := by
    obtain ⟨x, hx, _⟩ := hd n hn
    rw [hx]
    exact h.cells n x (hC n hn) hx
  cells_le := h.cells_le
  handles_le := h.handles.length_le
  marks_le := h.marks_le
  logFrom := h.logFrom

end Later

/-- A class of which the classes above are there. -/
def Rooted (w : World) (c : ClassRef) : Prop :=
  ∀ n, .made n ∈ w.lineage c → ∃ cls, w.classes[n]? = some cls

theorem Later.own? (h : w.Later v own) {c : ClassRef}
    (hc : ∀ n, c = .made n → ∃ cls, w.classes[n]? = some cls) (name : String) :
    v.own? c name = w.own? c name := by
  cases c with
  | builtIn k => rfl
  | made n =>
    obtain ⟨cls, hcls⟩ := hc n rfl
    simp only [World.own?, hcls, h.hostClass hcls]

theorem Later.lineage (h : w.Later v own) {c : ClassRef} (hc : w.Rooted c) :
    v.lineage c = w.lineage c := by
  cases c with
  | builtIn k => rfl
  | made n =>
    obtain ⟨cls, hcls⟩ := hc n List.mem_cons_self
    simp only [World.lineage, above, hcls, h.hostClass hcls]

theorem Later.rooted (h : w.Later v own) {c : ClassRef} (hc : w.Rooted c) : v.Rooted c := by
  intro n hn
  rw [h.lineage hc] at hn
  obtain ⟨cls, hcls⟩ := hc n hn
  exact ⟨cls, h.hostClass hcls⟩

/-- A class finds what it found. -/
theorem Later.find? (h : w.Later v own) {c : ClassRef} (hc : w.Rooted c) (name : String) :
    v.find? c name = w.find? c name := by
  unfold World.find?
  rw [h.lineage hc, ← List.head?_filterMap, ← List.head?_filterMap]
  refine congrArg List.head? (List.filterMap_congr fun holder hholder => ?_)
  rw [h.own? fun n hn => hc n (hn ▸ hholder)]

/-- What is asked of each class of a lineage is answered as it was. -/
theorem Later.map_lineage (h : w.Later v own) {c : ClassRef} (hc : w.Rooted c) {α : Type}
    (f : Option HostClass → α) (g : Kind → α) :
    (v.lineage c).map (fun | .made n => f v.classes[n]? | .builtIn k => g k) =
      (w.lineage c).map fun | .made n => f w.classes[n]? | .builtIn k => g k := by
  rw [h.lineage hc]
  refine List.map_congr_left fun holder hholder => ?_
  cases holder with
  | builtIn k => rfl
  | made n =>
    obtain ⟨cls, hcls⟩ := hc n hholder
    simp only [hcls, h.hostClass hcls]

theorem Later.isOpen (h : w.Later v own) {c : ClassRef} (hc : w.Rooted c) :
    v.isOpen c = w.isOpen c := by
  have := congrArg (List.any · id) (h.map_lineage hc
    (fun cls => (cls.map (·.isOpen)).getD false) fun _ => false)
  simp only [List.any_map] at this
  exact this

theorem Later.className (h : w.Later v own) {c : ClassRef} (hc : w.Rooted c) :
    v.className c = w.className c := by
  cases c with
  | builtIn k => rfl
  | made n =>
    obtain ⟨cls, hcls⟩ := hc n List.mem_cons_self
    simp only [World.className, hcls, h.hostClass hcls]

end World

end Toolwright
